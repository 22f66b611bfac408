import RankOne.Value

/-! A worksheet is a list of formulas, worked out from the top. A cell with a fault reads as an
absent value, so later formulas go on. -/
namespace RankOne.Worksheet

inductive Source
  | cell (n : Nat)
  | literal (v : Value)
  deriving DecidableEq, Repr

inductive Formula
  | literal (v : Value)
  | cell (n : Nat)
  | combine (s : Sign) (left right : Source)
  | same (m n : Nat)
  | countDistinct (cells : List Nat)
  /-- An assignment to a field of a value. Values never change, so it always fails. -/
  | assign (n : Nat) (field : String)
  deriving DecidableEq, Repr

abbrev Cell := Except Fault Value

def read (cells : List Cell) (n : Nat) : Value :=
  match cells[n]? with
  | some (.ok v) => v
  | _ => .absent

def Source.read (cells : List Cell) : Source → Value
  | .cell n => Worksheet.read cells n
  | .literal v => v

/-- Variables and combinations guard their fields; any other value has none to assign. -/
def assignFault (field : String) : Value → Fault
  | .variable _ | .combination _ => .frozen field
  | v => .noMember v.shape.name field

def Formula.eval (cells : List Cell) : Formula → Cell
  | .literal v => .ok v
  | .cell n => .ok (read cells n)
  | .combine s left right => Value.combine s (left.read cells) (right.read cells)
  | .same m n => .ok (.truth (Value.same (read cells m) (read cells n)))
  | .countDistinct ns => .ok (.number (Value.distinct (ns.map (read cells))).length)
  | .assign n field => .error (assignFault field (read cells n))

def eval (formulas : List Formula) : List Cell :=
  formulas.foldl (fun cells f => cells ++ [f.eval cells]) []

end RankOne.Worksheet
