import RankOne.Circuit
import RankOne.Matrix

/-! A probe is a constraint system that writes down every call it receives, works out the deferred
parts that it was asked to, and can be told to stop at a call. A child has its namespaces kept
by another probe. -/
namespace RankOne.Probe

/-- Which deferred parts are worked out, and the number of the call that fails. -/
structure Options where
  remarks : Bool
  values : Bool
  names : Bool
  stopAt : Option Int
  deriving DecidableEq, Repr

inductive Receiver
  | root
  | child
  deriving DecidableEq, Repr

def Receiver.name : Receiver → String
  | .root => "root"
  | .child => "child"

inductive Event
  | allocated (receiver : Receiver) (side : Side) (v : Variable) (remark : Option String)
    (value : Option Int)
  | enforced (receiver : Receiver) (remark : Option String) (row : Triple LinearCombination)
  | pushed (receiver : Receiver) (name : Option String)
  | popped (receiver : Receiver)
  deriving DecidableEq, Repr

/-- Calls are numbered from zero over all probes, and so are the auxiliary variables; inputs are
numbered from one, behind the constant wire. -/
structure State where
  calls : Nat
  nextInput : Nat
  nextAux : Nat
  events : List Event
  deriving DecidableEq, Repr

def State.initial : State := ⟨0, 1, 0, []⟩

abbrev Probing := EStateM Fault State

/-- Takes the next number, and fails if it is the one to stop at. -/
def tick (o : Options) : Probing Unit := do
  let number := (← get).calls
  modify fun s => { s with calls := s.calls + 1 }
  if o.stopAt = some (number : Int) then
    throw (.synthesis ("stopped at call " ++ toString number))

/-- Works out a deferred part that is wanted and given. -/
def ask {α : Type} (wanted : Bool) : Option (Deferred α) → Probing (Option α)
  | some deferred => if wanted then some <$> MonadExcept.ofExcept (deferred ()) else return none
  | none => return none

def write (event : Event) : Probing Unit :=
  modify fun s => { s with events := s.events ++ [event] }

def fresh (side : Side) : Probing Variable := do
  let s ← get
  match side with
  | .input =>
    set { s with nextInput := s.nextInput + 1 }
    return ⟨.input, s.nextInput⟩
  | .aux =>
    set { s with nextAux := s.nextAux + 1 }
    return ⟨.aux, s.nextAux⟩

def scopes (o : Options) (receiver : Receiver) : Scopes Probing where
  push name := do
    tick o
    let name ← ask o.names name
    write (.pushed receiver name)
  pop := write (.popped receiver)

def system (o : Options) (receiver : Receiver) : ConstraintSystem Probing where
  toScopes := scopes o receiver
  allocate side remark value := do
    tick o
    let remark ← ask o.remarks remark
    let value ← ask o.values value
    let v ← fresh side
    write (.allocated receiver side v remark value.join)
    return v
  enforce remark a b c := do
    tick o
    let remark ← ask o.remarks remark
    let a ← a .zero
    let b ← b .zero
    let c ← c .zero
    write (.enforced receiver remark ⟨a, b, c⟩)
  root := return scopes o .root

def watch (o : Options) (receiver : Receiver) (c : Circuit) : List Event × Option Fault :=
  match (c.synthesize (system o receiver)).run State.initial with
  | .ok _ s => (s.events, none)
  | .error fault s => (s.events, some fault)

end RankOne.Probe
