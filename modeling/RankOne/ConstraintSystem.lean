import RankOne.Fault
import RankOne.LinearCombination

/-! The operations that a circuit is written against, in any monad that can stop with a fault.
Names, remarks and values are deferred. Namespaces are kept by the root of a system, which may
be another system. -/
namespace RankOne

/-- Something worked out on demand; working it out can fail. -/
abbrev Deferred (α : Type) := Unit → Except Fault α

/-- Builds a combination from the one it is given. -/
abbrev Builder (m : Type → Type) := LinearCombination → m LinearCombination

structure Scopes (m : Type → Type) where
  push : Option (Deferred String) → m Unit
  pop : m Unit

structure ConstraintSystem (m : Type → Type) extends Scopes m where
  /-- A new variable, with a remark and a value that may itself be unknown. -/
  allocate : Side → Option (Deferred String) → Option (Deferred (Option Int)) → m Variable
  /-- Demands that the product of the first two combinations is the third. -/
  enforce : Option (Deferred String) → Builder m → Builder m → Builder m → m Unit
  root : m (Scopes m)

section
variable {m : Type → Type} [Monad m] [MonadExceptOf Fault m] {α : Type}

/-- Runs a body and hands on its fault as a value. -/
def observe (body : m α) : m (Except Fault α) :=
  tryCatchThe Fault (Except.ok <$> body) fun fault => pure (.error fault)

/-- Ends as an observed body ended. -/
def resume : Except Fault α → m α
  | .ok a => pure a
  | .error fault => throwThe Fault fault

namespace ConstraintSystem

/-- Runs a body on the system inside a namespace of the root. The namespace is closed also when
the body fails, and never when it could not be opened. -/
def inside (cs : ConstraintSystem m) (name : Option (Deferred String))
    (body : ConstraintSystem m → m α) : m α := do
  let root ← cs.root
  root.push name
  let ended ← observe (body cs)
  root.pop
  resume ended

end ConstraintSystem

end

end RankOne
