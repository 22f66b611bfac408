import RankOne.Fault
import RankOne.LinearCombination

/-! Circuits are written without declared types, so anything can turn up beside a plus or a minus
sign. Only a combination has sums of its own, and only a variable, a term or another combination
can be added to it. -/
namespace RankOne

inductive Sign
  | plus
  | minus
  deriving DecidableEq, Repr

namespace Sign

def factor : Sign → Int
  | .plus => 1
  | .minus => -1

def operator : Sign → Operator
  | .plus => .plus
  | .minus => .minus

end Sign

/-- What has no product with a number. -/
inductive Unscalable
  | variable
  | combination
  | mapping
  | absent
  deriving DecidableEq, Repr

def Unscalable.shape : Unscalable → Shape
  | .variable => .variable
  | .combination => .combination
  | .mapping => .mapping
  | .absent => .absent

inductive Value
  | variable (v : Variable)
  | term (t : Term)
  | combination (l : LinearCombination)
  | number (n : Int)
  | truth (b : Bool)
  | absent
  /-- A pair of a variable and, where the coefficient belongs, something without products. -/
  | unscalable (factor : Unscalable)
  /-- A value of which only the shape matters. -/
  | other (shape : Shape)
  deriving DecidableEq, Repr

namespace Value

def shape : Value → Shape
  | .variable _ => .variable
  | .term _ | .unscalable _ => .tuple
  | .combination _ => .combination
  | .number _ => .number
  | .truth _ => .truth
  | .absent => .absent
  | .other shape => shape

def addend? : Value → Option Addend
  | .variable v => some (.variable v)
  | .term t => some (.term t)
  | .combination l => some (.combination l)
  | _ => none

/-- A truth value counts as one or zero. -/
def number? : Value → Option Int
  | .number n => some n
  | .truth b => some (if b then 1 else 0)
  | _ => none

end Value

namespace LinearCombination

def signed (s : Sign) (l : LinearCombination) (o : Addend) : LinearCombination :=
  match s with
  | .plus => l.plus o
  | .minus => l.minus o

/-- A signed sum with a value of any shape. -/
def combine (s : Sign) (l : LinearCombination) (o : Value) : Except Fault LinearCombination :=
  match o.addend?, o with
  | some a, _ => .ok (l.signed s a)
  | none, .unscalable factor => .error (.unsupported .times .number factor.shape)
  | none, o => .error (.unsupported s.operator .combination o.shape)

theorem combine_of_addend {o : Value} {a : Addend} (h : o.addend? = some a) (s : Sign)
    (l : LinearCombination) : l.combine s o = .ok (l.signed s a) := by
  simp [combine, h]

end LinearCombination

namespace Value

/-- What a sign makes of the values on its two sides. A combination on the left extends itself,
two numbers are added, and nothing else has a sum. -/
def combine (s : Sign) (left right : Value) : Except Fault Value :=
  match left with
  | .combination l => .combination <$> l.combine s right
  | _ =>
    match left.number?, right.number? with
    | some m, some n => .ok (.number (m + s.factor * n))
    | _, _ =>
      if s = .plus ∧ left.shape.isSequence then .error (.unjoinable left.shape right.shape)
      else .error (.unsupported s.operator left.shape right.shape)

/-- Numbers and truth values are the same when they count the same; all else when it is equal. -/
def same (left right : Value) : Bool :=
  match left.number?, right.number? with
  | some m, some n => m == n
  | _, _ => left == right

/-- One value of every group of same values, in the order of first appearance. -/
def distinct (values : List Value) : List Value :=
  values.foldl (fun seen v => if seen.any (same v) then seen else seen ++ [v]) []

end Value

end RankOne
