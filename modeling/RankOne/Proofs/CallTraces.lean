import RankOne.Circuit
import RankOne.Matrix

/-! A machine is any implementation of constraint systems by objects that share a state; nothing is
assumed of what its operations do. The system of an object writes down the calls it receives,
and since these are no part of the state, no operation can forge them. -/
namespace RankOne

/-- A call that an object received, and what became of it where that matters for namespaces. -/
inductive Call (ω : Type)
  /-- The object was asked for its root; it named none if it failed. -/
  | rooted (o : ω) (root : Option ω)
  | pushed (o : ω) (returned : Bool)
  | popped (o : ω) (returned : Bool)
  | allocated (o : ω)
  /-- The calls of the builders follow. -/
  | enforced (o : ω)
  deriving DecidableEq, Repr

/-- The end of a computation, with the calls that it made. -/
structure Traced (ω σ α : Type) where
  state : σ
  calls : List (Call ω)
  result : Except Fault α

structure Tracing (ω σ α : Type) where
  run : σ → Traced ω σ α

namespace Tracing
variable {ω σ α β : Type}

def pure (a : α) : Tracing ω σ α := ⟨fun s => ⟨s, [], .ok a⟩⟩

def bind (x : Tracing ω σ α) (f : α → Tracing ω σ β) : Tracing ω σ β where
  run s :=
    let first := x.run s
    match first.result with
    | .ok a =>
      let second := (f a).run first.state
      ⟨second.state, first.calls ++ second.calls, second.result⟩
    | .error fault => ⟨first.state, first.calls, .error fault⟩

def throw (fault : Fault) : Tracing ω σ α := ⟨fun s => ⟨s, [], .error fault⟩⟩

def tryCatch (x : Tracing ω σ α) (handler : Fault → Tracing ω σ α) : Tracing ω σ α where
  run s :=
    let first := x.run s
    match first.result with
    | .ok a => ⟨first.state, first.calls, .ok a⟩
    | .error fault =>
      let second := (handler fault).run first.state
      ⟨second.state, first.calls ++ second.calls, second.result⟩

instance : Monad (Tracing ω σ) where
  pure := Tracing.pure
  bind := Tracing.bind

instance : MonadExceptOf Fault (Tracing ω σ) where
  throw := Tracing.throw
  tryCatch := Tracing.tryCatch

/-- Acts on the state, and writes down the calls that this amounts to. -/
def acted (calls : Except Fault α → List (Call ω)) (x : EStateM Fault σ α) : Tracing ω σ α where
  run s :=
    match x.run s with
    | .ok a s => ⟨s, calls (.ok a), .ok a⟩
    | .error fault s => ⟨s, calls (.error fault), .error fault⟩

/-- Acts on the state without calling anyone. -/
def own (x : EStateM Fault σ α) : Tracing ω σ α := acted (fun _ => []) x

theorem run_acted_of_ok {x : EStateM Fault σ α} {s s' : σ} {a : α} (h : x.run s = .ok a s')
    (calls : Except Fault α → List (Call ω)) :
    (acted calls x).run s = ⟨s', calls (.ok a), .ok a⟩ := by
  simp only [acted, h]

theorem run_acted_of_error {x : EStateM Fault σ α} {s s' : σ} {fault : Fault}
    (h : x.run s = .error fault s') (calls : Except Fault α → List (Call ω)) :
    (acted calls x).run s = ⟨s', calls (.error fault), .error fault⟩ := by
  simp only [acted, h]

theorem calls_acted (calls : Except Fault α → List (Call ω)) (x : EStateM Fault σ α) (s : σ) :
    ((acted calls x).run s).calls = calls ((acted calls x).run s).result := by
  cases h : x.run s with
  | ok a s' => rw [run_acted_of_ok h]
  | error fault s' => rw [run_acted_of_error h]

theorem run_bind_of_ok {x : Tracing ω σ α} {s : σ} {a : α} (h : (x.run s).result = .ok a)
    (f : α → Tracing ω σ β) :
    (x >>= f).run s =
      ⟨((f a).run (x.run s).state).state,
        (x.run s).calls ++ ((f a).run (x.run s).state).calls,
        ((f a).run (x.run s).state).result⟩ := by
  show (Tracing.bind x f).run s = _
  simp only [Tracing.bind, h]

theorem run_bind_of_error {x : Tracing ω σ α} {s : σ} {fault : Fault}
    (h : (x.run s).result = .error fault) (f : α → Tracing ω σ β) :
    (x >>= f).run s = ⟨(x.run s).state, (x.run s).calls, .error fault⟩ := by
  show (Tracing.bind x f).run s = _
  simp only [Tracing.bind, h]

theorem run_observe (x : Tracing ω σ α) (s : σ) :
    (observe x).run s = ⟨(x.run s).state, (x.run s).calls, .ok (x.run s).result⟩ := by
  show (Tracing.tryCatch (Tracing.bind x (Tracing.pure ∘ Except.ok))
    fun fault => Tracing.pure (.error fault)).run s = _
  cases h : (x.run s).result <;> simp [Tracing.tryCatch, Tracing.bind, Tracing.pure, h]

theorem run_resume (ended : Except Fault α) (s : σ) :
    (resume ended : Tracing ω σ α).run s = ⟨s, [], ended⟩ := by
  cases ended <;> rfl

end Tracing

/-- How an enforcement goes on: it calls the builders as often and in whatever order it likes, on
whatever combinations, learns each time what the builder returned or failed with, and ends as it
likes. -/
inductive Plan (σ : Type)
  | ends (result : Except Fault Unit) (s : σ)
  | calls (m : Matrix) (l : LinearCombination) (s : σ)
    (next : Except Fault LinearCombination → σ → Plan σ)

def Plan.follow {ω σ : Type} (builders : Triple (Builder (Tracing ω σ))) :
    Plan σ → Traced ω σ Unit
  | .ends result s => ⟨s, [], result⟩
  | .calls m l s next =>
    let built := (builders.get m l).run s
    let rest := (next built.result built.state).follow builders
    ⟨rest.state, built.calls ++ rest.calls, rest.result⟩

/-- The operations of objects on a state that they share. -/
structure Machine (ω σ : Type) where
  root : ω → EStateM Fault σ ω
  push : ω → Option (Deferred String) → EStateM Fault σ Unit
  pop : ω → EStateM Fault σ Unit
  allocate : ω → Side → Option (Deferred String) → Option (Deferred (Option Int)) →
    EStateM Fault σ Variable
  enforce : ω → Option (Deferred String) → σ → Plan σ

namespace Machine
variable {ω σ : Type}

def scopes (I : Machine ω σ) (o : ω) : Scopes (Tracing ω σ) where
  push name := .acted (fun ended => [.pushed o ended.isOk]) (I.push o name)
  pop := .acted (fun ended => [.popped o ended.isOk]) (I.pop o)

def system (I : Machine ω σ) (o : ω) : ConstraintSystem (Tracing ω σ) where
  toScopes := I.scopes o
  allocate s remark value := .acted (fun _ => [.allocated o]) (I.allocate o s remark value)
  enforce remark a b c := ⟨fun s =>
    let t := (I.enforce o remark s).follow ⟨a, b, c⟩
    ⟨t.state, .enforced o :: t.calls, t.result⟩⟩
  root := do
    let root ← .acted (fun ended => [.rooted o ended.toOption]) (I.root o)
    return I.scopes root

variable {I : Machine ω σ} {o : ω} {s s' : σ}

theorem run_root_of_ok {root : ω} (h : (I.root o).run s = .ok root s') :
    (I.system o).root.run s = ⟨s', [.rooted o (some root)], .ok (I.scopes root)⟩ := by
  have hrun := Tracing.run_acted_of_ok h fun ended => [Call.rooted o ended.toOption]
  exact (Tracing.run_bind_of_ok (by rw [hrun]) _).trans (by rw [hrun]; rfl)

theorem run_root_of_error {fault : Fault} (h : (I.root o).run s = .error fault s') :
    (I.system o).root.run s = ⟨s', [.rooted o none], .error fault⟩ := by
  have hrun := Tracing.run_acted_of_error h fun ended => [Call.rooted o ended.toOption]
  exact (Tracing.run_bind_of_error (by rw [hrun]) _).trans (by rw [hrun]; rfl)

theorem run_push_of_ok {name : Option (Deferred String)} {u : Unit}
    (h : (I.push o name).run s = .ok u s') :
    ((I.scopes o).push name).run s = ⟨s', [.pushed o true], .ok u⟩ :=
  Tracing.run_acted_of_ok h fun ended => [.pushed o ended.isOk]

theorem run_push_of_error {name : Option (Deferred String)} {fault : Fault}
    (h : (I.push o name).run s = .error fault s') :
    ((I.scopes o).push name).run s = ⟨s', [.pushed o false], .error fault⟩ :=
  Tracing.run_acted_of_error h fun ended => [.pushed o ended.isOk]

theorem run_pop_of_ok {u : Unit} (h : (I.pop o).run s = .ok u s') :
    (I.scopes o).pop.run s = ⟨s', [.popped o true], .ok u⟩ :=
  Tracing.run_acted_of_ok h fun ended => [.popped o ended.isOk]

theorem run_pop_of_error {fault : Fault} (h : (I.pop o).run s = .error fault s') :
    (I.scopes o).pop.run s = ⟨s', [.popped o false], .error fault⟩ :=
  Tracing.run_acted_of_error h fun ended => [.popped o ended.isOk]

/-- The computation is written against the system of an object. -/
inductive Written (I : Machine ω σ) (self : ω) : {α : Type} → Tracing ω σ α → Prop
  | own {α : Type} (x : EStateM Fault σ α) : Written I self (Tracing.own x)
  | bind {α β : Type} {x : Tracing ω σ α} {f : α → Tracing ω σ β} (hx : Written I self x)
    (hf : ∀ a, Written I self (f a)) : Written I self (x >>= f)
  | observe {α : Type} {x : Tracing ω σ α} (hx : Written I self x) : Written I self (observe x)
  | allocate (s : Side) (remark : Option (Deferred String))
    (value : Option (Deferred (Option Int))) :
    Written I self ((I.system self).allocate s remark value)
  | enforce (remark : Option (Deferred String)) {a b c : Builder (Tracing ω σ)}
    (ha : ∀ l, Written I self (a l)) (hb : ∀ l, Written I self (b l))
    (hc : ∀ l, Written I self (c l)) : Written I self ((I.system self).enforce remark a b c)
  | inside {α : Type} (name : Option (Deferred String))
    {body : ConstraintSystem (Tracing ω σ) → Tracing ω σ α}
    (hbody : Written I self (body (I.system self))) :
    Written I self ((I.system self).inside name body)

end Machine

end RankOne
