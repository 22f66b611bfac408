/-! Kinds are an open set of labels; exactly one of them, `input`, names the public inputs, and a
variable of any other kind is an auxiliary wire. Variables of different kinds differ, also when
their wires do not. -/
namespace RankOne

inductive Side
  | input
  | aux
  deriving DecidableEq, Repr

/-- The label that a variable was created with. -/
structure Kind where
  label : String
  deriving DecidableEq, Repr

namespace Kind

def input : Kind := ⟨"input"⟩

def aux : Kind := ⟨"aux"⟩

/-- Every label but that of the inputs stands for an auxiliary wire. -/
def side (k : Kind) : Side :=
  if k = input then .input else .aux

@[simp] theorem side_input : input.side = .input := by simp [side]

@[simp] theorem side_aux : aux.side = .aux := by simp [side, input, aux]

end Kind

/-- The kind that an allocated variable of a side gets. -/
def Side.kind : Side → Kind
  | .input => .input
  | .aux => .aux

@[simp] theorem Side.side_kind (s : Side) : s.kind.side = s := by
  cases s <;> simp [Side.kind]

structure Variable where
  kind : Kind
  index : Int
  deriving DecidableEq, Repr

namespace Variable

/-- The constant wire. -/
def one : Variable := ⟨.input, 0⟩

def side (v : Variable) : Side := v.kind.side

/-- The short form shows the side and the index, not the label. -/
def text (v : Variable) : String :=
  (match v.side with
    | .input => "Input("
    | .aux => "Aux(") ++ toString v.index ++ ")"

end Variable

end RankOne
