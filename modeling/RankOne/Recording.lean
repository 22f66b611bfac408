import RankOne.ConstraintSystem
import RankOne.Recorder

/-! A recording is a computation on a recorder. It leaves its traces also when it fails: the
recorder as it then stands, the steps it logged, and a journal of all that was done to the
recorder. -/
namespace RankOne

inductive Answer
  | variable (v : Variable)
  | done
  | nothing
  | row (row : Row)
  | column (column : Column)
  | fault (fault : Fault)
  deriving DecidableEq, Repr

/-- A step that ended, with the recorder as the step left it. -/
structure LogEntry where
  step : String
  answer : Answer
  after : Recorder
  deriving DecidableEq, Repr

/-- A row as it was handed to the recorder: the recorder as it stood when the building of the row
began, the combinations that were built, and the recorder that took them. -/
structure Writing where
  begun : Recorder
  row : Row
  before : Recorder
  deriving DecidableEq, Repr

namespace Writing

/-- The count of constraints when the building of the row began. The row is posted under it. -/
def number (w : Writing) : Nat := w.begun.numConstraints

/-- The fault that cut the posting of the row short. -/
def fault? (w : Writing) : Option Fault := (w.before.write w.number w.row).2

end Writing

/-- Something done to a recorder, or a mark of what was going on. -/
inductive Act
  | allocated (v : Variable)
  /-- The building of a row began. -/
  | opened
  /-- The building that was opened last failed, so there is no row to write. -/
  | abandoned
  /-- The building that was opened last gave a row, and the row was handed over. -/
  | wrote (w : Writing)
  deriving DecidableEq, Repr

def Act.writing? : Act → Option Writing
  | .wrote w => some w
  | _ => none

def Act.variable? : Act → Option Variable
  | .allocated v => some v
  | _ => none

structure Outcome (α : Type) where
  recorder : Recorder
  log : List LogEntry
  journal : List Act
  result : Except Fault α

@[ext] structure Recording (α : Type) where
  run : Recorder → Outcome α

namespace Recording
variable {α β γ : Type}

def pure (a : α) : Recording α := ⟨fun r => ⟨r, [], [], .ok a⟩⟩

def bind (x : Recording α) (f : α → Recording β) : Recording β where
  run r :=
    let first := x.run r
    match first.result with
    | .ok a =>
      let second := (f a).run first.recorder
      ⟨second.recorder, first.log ++ second.log, first.journal ++ second.journal, second.result⟩
    | .error fault => ⟨first.recorder, first.log, first.journal, .error fault⟩

def throw (fault : Fault) : Recording α := ⟨fun r => ⟨r, [], [], .error fault⟩⟩

/-- What a failed body did to the recorder stays. -/
def tryCatch (x : Recording α) (handler : Fault → Recording α) : Recording α where
  run r :=
    let first := x.run r
    match first.result with
    | .ok a => ⟨first.recorder, first.log, first.journal, .ok a⟩
    | .error fault =>
      let second := (handler fault).run first.recorder
      ⟨second.recorder, first.log ++ second.log, first.journal ++ second.journal, second.result⟩

instance : Monad Recording where
  pure := Recording.pure
  bind := Recording.bind

instance : MonadExceptOf Fault Recording where
  throw := Recording.throw
  tryCatch := Recording.tryCatch

def recorder : Recording Recorder := ⟨fun r => ⟨r, [], [], .ok r⟩⟩

def allocate (s : Side) : Recording Variable :=
  ⟨fun r => ⟨r.allocate s, [], [.allocated (r.next s)], .ok (r.next s)⟩⟩

/-- Marks in the journal where the building of a row begins, and that it failed. -/
def building (x : Recording α) : Recording α where
  run r :=
    let o := x.run r
    match o.result with
    | .ok a => ⟨o.recorder, o.log, .opened :: o.journal, .ok a⟩
    | .error fault => ⟨o.recorder, o.log, .opened :: (o.journal ++ [.abandoned]), .error fault⟩

def build (a b c : Builder Recording) : Recording Row := do
  let a ← a .zero
  let b ← b .zero
  let c ← c .zero
  return ⟨a, b, c⟩

/-- The end of an operation that may have come upon a fault. -/
def ended : Option Fault → Except Fault Unit
  | none => .ok ()
  | some fault => .error fault

def write (begun : Recorder) (row : Row) : Recording Unit where
  run r :=
    let (after, fault) := r.write begun.numConstraints row
    ⟨after, [], [.wrote ⟨begun, row, r⟩], ended fault⟩

/-- The number of a row is the count of constraints when its building begins; the row is written
when all three combinations stand. -/
def enforce (a b c : Builder Recording) : Recording Unit := do
  let begun ← recorder
  let row ← building (build a b c)
  write begun row

/-- What a step is logged with: the answer that it ended with, or its fault. -/
def answered : Except Fault Answer → Answer
  | .ok answer => answer
  | .error fault => .fault fault

/-- Logs a step in front of the steps that ran inside it. -/
def logged (step : String) (x : Recording Answer) : Recording Unit where
  run r :=
    let o := x.run r
    ⟨o.recorder, ⟨step, answered o.result, o.recorder⟩ :: o.log, o.journal,
      o.result.map fun _ => ()⟩

@[simp] theorem run_pure (a : α) (r : Recorder) :
    (Pure.pure a : Recording α).run r = ⟨r, [], [], .ok a⟩ := rfl

@[simp] theorem run_throw (fault : Fault) (r : Recorder) :
    (throwThe Fault fault : Recording α).run r = ⟨r, [], [], .error fault⟩ := rfl

theorem run_bind_of_ok {x : Recording α} {r : Recorder} {a : α} (h : (x.run r).result = .ok a)
    (f : α → Recording β) :
    (x >>= f).run r =
      ⟨((f a).run (x.run r).recorder).recorder,
        (x.run r).log ++ ((f a).run (x.run r).recorder).log,
        (x.run r).journal ++ ((f a).run (x.run r).recorder).journal,
        ((f a).run (x.run r).recorder).result⟩ := by
  show (Recording.bind x f).run r = _
  simp only [Recording.bind, h]

theorem run_bind_of_error {x : Recording α} {r : Recorder} {fault : Fault}
    (h : (x.run r).result = .error fault) (f : α → Recording β) :
    (x >>= f).run r = ⟨(x.run r).recorder, (x.run r).log, (x.run r).journal, .error fault⟩ := by
  show (Recording.bind x f).run r = _
  simp only [Recording.bind, h]

theorem bind_pure (x : Recording α) : x >>= Pure.pure = x := by
  ext r : 2
  cases h : (x.run r).result with
  | ok a =>
    rw [run_bind_of_ok h]
    simp [← h]
  | error fault => rw [run_bind_of_error h, ← h]

theorem bind_assoc (x : Recording α) (f : α → Recording β) (g : β → Recording γ) :
    x >>= f >>= g = x >>= fun a => f a >>= g := by
  ext r : 2
  cases h : (x.run r).result with
  | error fault =>
    rw [run_bind_of_error h, run_bind_of_error (by rw [run_bind_of_error h])]
    simp [run_bind_of_error h]
  | ok a =>
    rw [run_bind_of_ok h]
    cases h' : ((f a).run (x.run r).recorder).result with
    | ok b =>
      rw [run_bind_of_ok h', run_bind_of_ok (by rw [run_bind_of_ok h]; exact h')]
      simp [run_bind_of_ok h]
    | error fault =>
      rw [run_bind_of_error h', run_bind_of_error (by rw [run_bind_of_ok h]; exact h')]
      simp [run_bind_of_ok h]

instance : LawfulMonad Recording :=
  LawfulMonad.mk' Recording bind_pure (fun _ _ => rfl) bind_assoc

/-- Observing a body keeps all that it did; its result becomes a value. -/
theorem run_observe (x : Recording α) (r : Recorder) :
    (observe x).run r =
      ⟨(x.run r).recorder, (x.run r).log, (x.run r).journal, .ok (x.run r).result⟩ := by
  have as_bind : Except.ok (ε := Fault) <$> x = x >>= fun a => Pure.pure (Except.ok a) := rfl
  show (Recording.tryCatch _ _).run r = _
  cases h : (x.run r).result with
  | ok a => simp only [Recording.tryCatch, as_bind, run_bind_of_ok h, run_pure, List.append_nil]
  | error fault =>
    simp only [Recording.tryCatch, as_bind, run_bind_of_error h, run_pure, List.append_nil]

/-- A body that is observed and then resumed is the body. -/
theorem observe_resume (x : Recording α) : observe x >>= resume = x := by
  ext r : 2
  rw [run_bind_of_ok (by rw [run_observe]), run_observe]
  cases h : (x.run r).result <;> simp [resume, ← h]

end Recording

namespace Recorder

/-- A recorder has no use for namespaces, and none for whatever is deferred. -/
def scopes : Scopes Recording where
  push _ := Recording.pure ()
  pop := Recording.pure ()

/-- The constraint system that records. It is its own root. -/
def system : ConstraintSystem Recording where
  toScopes := scopes
  allocate s _ _ := Recording.allocate s
  enforce _ a b c := Recording.enforce a b c
  root := Recording.pure scopes

/-- Namespaces leave a recording as it is. -/
theorem system_inside {α : Type} (name : Option (Deferred String))
    (body : ConstraintSystem Recording → Recording α) : system.inside name body = body system :=
  Recording.observe_resume (body system)

end Recorder

end RankOne
