import RankOne.ConstraintSystem
import RankOne.TextQuoted

/-! Five circuits, written against any constraint system. The witness of a variable is deferred;
without an assignment it is unknown, or cannot be worked out at all. -/
namespace RankOne

inductive Circuit
  | empty
  | multiply (x y : Option Int)
  | cubic (x : Option Int)
  /-- A width below zero counts as zero. -/
  | bits (width : Int) (value : Option Int)
  | failing (message : String)
  deriving DecidableEq, Repr

/-- Fixed text, worked out on demand. -/
def note (text : String) : Option (Deferred String) := some fun _ => .ok text

namespace Circuit

def needed : Option Int → Except Fault Int
  | some v => .ok v
  | none => .error (.synthesis "assignment missing")

def productOf (x y : Option Int) : Except Fault Int := do
  let x ← needed x
  let y ← needed y
  return x * y

def squareOf : Option Int → Except Fault Int
  | some x => .ok (x * x)
  | none => .error (.unsupported .times .absent .absent)

def cubeOf : Option Int → Except Fault Int
  | some x => .ok (x * x * x)
  | none => .error (.unsupported .power .absent .number)

def cubicOf (x : Option Int) : Except Fault Int := do
  let cube ← cubeOf x
  return cube + x.getD 0 + 5

/-- The bit of a number in two's complement without bound. -/
def bitOf (i : Nat) : Option Int → Except Fault Int
  | some v => .ok ((v >>> i) % 2)
  | none => .error (.unsupported .shiftRight .absent .number)

/-- A witness that is known once it is worked out. -/
def witness (value : Except Fault Int) : Option (Deferred (Option Int)) :=
  some fun _ => some <$> value

/-- A witness that is taken from the assignment as it is. -/
def assigned (value : Option Int) : Option (Deferred (Option Int)) := some fun _ => .ok value

section
variable {m : Type → Type} [Monad m] [MonadExceptOf Fault m]

/-- A builder that needs no effect. -/
def building (f : LinearCombination → LinearCombination) : Builder m := fun l => pure (f l)

def synthesizeMultiply (cs : ConstraintSystem m) (x y : Option Int) : m Unit := do
  let left ← cs.allocate .aux (note "x") (witness (needed x))
  let right ← cs.allocate .aux (note "y") (witness (needed y))
  let product ← cs.allocate .input (note "pub") (witness (productOf x y))
  cs.enforce (note "x * y = pub") (building (·.plus left)) (building (·.plus right))
    (building (·.plus product))

def synthesizeCubic (cs : ConstraintSystem m) (value : Option Int) : m Unit := do
  let one := Variable.one
  let x ← cs.allocate .aux (note "x") (assigned value)
  let square ← cs.allocate .aux (note "sq") (witness (squareOf value))
  let cube ← cs.allocate .aux (note "cube") (witness (cubeOf value))
  let out ← cs.allocate .input (note "out") (witness (cubicOf value))
  cs.enforce (note "square") (building (·.plus x)) (building (·.plus x))
    (building (·.plus square))
  cs.enforce (note "cube") (building (·.plus square)) (building (·.plus x))
    (building (·.plus cube))
  cs.enforce (note "sum") (building fun l => ((l.plus cube).plus x).plus (Term.mk 5 one))
    (building (·.plus one)) (building (·.plus out))

/-- One bit: a variable whose product with one less itself is zero. -/
def bit (cs : ConstraintSystem m) (value : Option Int) (i : Nat) : m Variable := do
  let b ← cs.allocate .aux (note "b") (witness (bitOf i value))
  cs.enforce (note "boolean") (building (·.plus b))
    (building fun l => (l.plus Variable.one).minus b) (building id)
  return b

/-- So many bits from a position on, each in a namespace of its own. -/
def bitsFrom (cs : ConstraintSystem m) (value : Option Int) : Nat → Nat → m (List Variable)
  | _, 0 => return []
  | i, n + 1 => do
    let b ← cs.inside (note ("bit " ++ toString i)) fun ns => bit ns value i
    let bs ← bitsFrom cs value (i + 1) n
    return b :: bs

/-- Adds bits with the powers of two from a position on. -/
def weighted : Nat → List Variable → LinearCombination → LinearCombination
  | _, [], l => l
  | i, b :: bs, l => weighted (i + 1) bs (l.plus (Term.mk (1 <<< i : Nat) b))

def synthesizeBits (cs : ConstraintSystem m) (width : Int) (value : Option Int) : m Unit := do
  let packed ← cs.allocate .input (note "packed") (assigned value)
  let bits ← bitsFrom cs value 0 width.toNat
  cs.enforce (note "pack") (building (weighted 0 bits)) (building (·.plus Variable.one))
    (building (·.plus packed))

def synthesizeFailing (cs : ConstraintSystem m) (message : String) : m Unit := do
  let _ ← cs.allocate .aux (note "dangling") none
  throwThe Fault (.synthesis message)

def synthesize (cs : ConstraintSystem m) : Circuit → m Unit
  | .empty => return ()
  | .multiply x y => synthesizeMultiply cs x y
  | .cubic x => synthesizeCubic cs x
  | .bits width value => synthesizeBits cs width value
  | .failing message => synthesizeFailing cs message

end

def className : Circuit → String
  | .empty => "EmptyCircuit"
  | .multiply .. => "MultiplyCircuit"
  | .cubic _ => "CubicCircuit"
  | .bits .. => "BitsCircuit"
  | .failing _ => "FailingCircuit"

def optionText : Option Int → String
  | some v => toString v
  | none => "None"

def parameters : Circuit → List (String × String)
  | .empty => []
  | .multiply x y => [("x", optionText x), ("y", optionText y)]
  | .cubic x => [("x", optionText x)]
  | .bits width value => [("n_bits", toString width), ("value", optionText value)]
  | .failing message => [("message", TextQuoted.quoted message)]

def text (c : Circuit) : String :=
  c.className ++ "(" ++
    String.intercalate ", " (c.parameters.map fun (name, value) => name ++ "=" ++ value) ++ ")"

end Circuit

end RankOne
