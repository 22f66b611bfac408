import RankOne.Proofs.Closure
import RankOne.Proofs.Replay

/-! The acts of a journal are nested as the building of rows was. `Chronicle` states this as a
derivation, in which a row is numbered by the recorder that stood at its opening mark, and every
program keeps one, whatever fails on the way. -/
namespace RankOne

/-- The acts that lead from one recorder to another, nested as the building of rows was. -/
inductive Chronicle : Recorder → List Act → Recorder → Prop
  | nil (r : Recorder) : Chronicle r [] r
  | allocated {r r' : Recorder} {acts : List Act} (s : Side)
      (rest : Chronicle (r.allocate s) acts r') :
      Chronicle r (.allocated (r.next s) :: acts) r'
  | abandoned {r mid r' : Recorder} {inner acts : List Act}
      (building : Chronicle r inner mid) (rest : Chronicle mid acts r') :
      Chronicle r (.opened :: (inner ++ .abandoned :: acts)) r'
  | written {r mid r' : Recorder} {inner acts : List Act} (row : Row)
      (building : Chronicle r inner mid)
      (rest : Chronicle (mid.write r.numConstraints row).1 acts r') :
      Chronicle r (.opened :: (inner ++ .wrote ⟨r, row, mid⟩ :: acts)) r'

namespace Chronicle

theorem append {r mid r' : Recorder} {xs ys : List Act} (first : Chronicle r xs mid)
    (second : Chronicle mid ys r') : Chronicle r (xs ++ ys) r' := by
  induction first with
  | nil => exact second
  | allocated s _ ih => exact .allocated s (ih second)
  | abandoned building _ _ ih =>
    simpa using Chronicle.abandoned building (ih second)
  | written row building _ _ ih =>
    simpa using Chronicle.written row building (ih second)

theorem replay_eq {r r' : Recorder} {acts : List Act} (h : Chronicle r acts r') :
    r.replay acts = r' := by
  induction h with
  | nil => rfl
  | allocated s _ ih => simpa [Act.apply, Recorder.next, Variable.side] using ih
  | abandoned _ _ ihb ihr => simp [Act.apply, ihb, ihr]
  | written row _ _ ihb ihr => simp [Act.apply, Writing.number, ihb, ihr]

theorem admits {r r' : Recorder} {acts : List Act} (h : Chronicle r acts r') :
    r.Admits acts := by
  induction h with
  | nil => trivial
  | @allocated r r' acts s _ ih =>
    have hside : (r.next s).side = s := by simp [Recorder.next, Variable.side]
    simp only [Recorder.Admits, Act.Fits, Act.apply, hside]
    exact ⟨trivial, ih⟩
  | abandoned building _ ihb ihr =>
    refine ⟨trivial, Recorder.admits_append.mpr ⟨ihb, trivial, ?_⟩⟩
    simpa [Act.apply, building.replay_eq] using ihr
  | written row building _ ihb ihr =>
    refine ⟨trivial, Recorder.admits_append.mpr ⟨ihb, building.replay_eq.symm, ?_⟩⟩
    simpa [Act.apply, Writing.number, building.replay_eq] using ihr

/-- The recorder that took a row leads to the one that the chronicle ends with. -/
theorem exists_before {r r' : Recorder} {acts : List Act} (h : Chronicle r acts r') {w : Writing}
    (hw : w ∈ Act.writings acts) :
    ∃ earlier later, w.before = r.replay earlier ∧ r' = w.before.replay later := by
  obtain ⟨p, hp⟩ := List.mem_iff_getElem?.mp hw
  obtain ⟨earlier, later, hacts, -, hbefore⟩ := Recorder.exists_before h.admits hp
  refine ⟨earlier, .wrote w :: later, hbefore, ?_⟩
  rw [hbefore, ← Recorder.replay_append, ← hacts, h.replay_eq]

theorem aligned_before {r r' : Recorder} {acts : List Act} (h : Chronicle r acts r')
    (hr : r.Aligned) {w : Writing} (hw : w ∈ Act.writings acts) : w.before.Aligned := by
  obtain ⟨earlier, later, hbefore, -⟩ := h.exists_before hw
  rw [hbefore]
  exact hr.replay earlier

end Chronicle

/-- The mark that ends a building: the row is handed over, or there is none. -/
def Act.ending (begun : Recorder) (built : Outcome Row) : Act :=
  match built.result with
  | .ok row => .wrote ⟨begun, row, built.recorder⟩
  | .error _ => .abandoned

namespace Recording
variable {α β : Type}

/-- Whatever recorder it is run on, the recording's journal leads to the recorder it leaves. -/
def Faithful (x : Recording α) : Prop :=
  ∀ r, Chronicle r (x.run r).journal (x.run r).recorder

theorem Faithful.pure (a : α) : Faithful (Pure.pure a : Recording α) := fun r => .nil r

theorem Faithful.throw (fault : Fault) : Faithful (throwThe Fault fault : Recording α) :=
  fun r => .nil r

theorem Faithful.recorder : Faithful recorder := fun r => .nil r

theorem Faithful.allocate (s : Side) : Faithful (allocate s) :=
  fun r => .allocated s (.nil (r.allocate s))

theorem Faithful.bind {x : Recording α} {f : α → Recording β} (hx : Faithful x)
    (hf : ∀ a, Faithful (f a)) : Faithful (x >>= f) := by
  intro r
  cases h : (x.run r).result with
  | ok a =>
    rw [run_bind_of_ok h]
    exact (hx r).append (hf a _)
  | error fault =>
    rw [run_bind_of_error h]
    exact hx r

theorem Faithful.observe {x : Recording α} (hx : Faithful x) : Faithful (observe x) := by
  intro r
  rw [run_observe]
  exact hx r

theorem Faithful.logged (step : String) {x : Recording Answer} (hx : Faithful x) :
    Faithful (logged step x) := hx

theorem run_building_of_ok {x : Recording α} {r : Recorder} {a : α}
    (h : (x.run r).result = .ok a) :
    (building x).run r =
      ⟨(x.run r).recorder, (x.run r).log, .opened :: (x.run r).journal, .ok a⟩ := by
  simp only [building, h]

theorem run_building_of_error {x : Recording α} {r : Recorder} {fault : Fault}
    (h : (x.run r).result = .error fault) :
    (building x).run r =
      ⟨(x.run r).recorder, (x.run r).log, .opened :: ((x.run r).journal ++ [.abandoned]),
        .error fault⟩ := by
  simp only [building, h]

theorem run_enforce (a b c : Builder Recording) (r : Recorder) :
    (enforce a b c).run r = (building (build a b c) >>= write r).run r := rfl

/-- Enforcement whose combinations were built hands the row to the recorder that the building
left, under the number of the recorder that stood when it began. -/
theorem run_enforce_of_ok {a b c : Builder Recording} {r : Recorder} {row : Row}
    (h : ((build a b c).run r).result = .ok row) :
    (enforce a b c).run r =
      let o := (build a b c).run r
      let written := o.recorder.write r.numConstraints row
      ⟨written.1, o.log, .opened :: (o.journal ++ [.wrote ⟨r, row, o.recorder⟩]),
        ended written.2⟩ := by
  have hbuilding := run_building_of_ok h
  rw [run_enforce, run_bind_of_ok (by rw [hbuilding]), hbuilding]
  exact congrArg (fun log => Outcome.mk _ log _ _) (List.append_nil _)

theorem run_enforce_of_error {a b c : Builder Recording} {r : Recorder} {fault : Fault}
    (h : ((build a b c).run r).result = .error fault) :
    (enforce a b c).run r =
      let o := (build a b c).run r
      ⟨o.recorder, o.log, .opened :: (o.journal ++ [.abandoned]), .error fault⟩ := by
  have hbuilding := run_building_of_error h
  rw [run_enforce, run_bind_of_error (by rw [hbuilding]), hbuilding]

theorem journal_enforce (a b c : Builder Recording) (r : Recorder) :
    ((enforce a b c).run r).journal =
      let built := (build a b c).run r
      .opened :: (built.journal ++ [Act.ending r built]) := by
  cases h : ((build a b c).run r).result with
  | ok row => simp only [run_enforce_of_ok h, Act.ending, h]
  | error fault => simp only [run_enforce_of_error h, Act.ending, h]

theorem Faithful.enforce {a b c : Builder Recording} (hbuild : Faithful (build a b c)) :
    Faithful (enforce a b c) := by
  intro r
  have hbuilt := hbuild r
  cases h : ((Recording.build a b c).run r).result with
  | ok row =>
    rw [run_enforce_of_ok h]
    exact .written row hbuilt (.nil _)
  | error fault =>
    rw [run_enforce_of_error h]
    exact .abandoned hbuilt (.nil _)

theorem Faithful.closed : Closed (fun _ x => Faithful x) (fun _ x => Faithful x) where
  pure := .pure
  recorder := .recorder
  allocate := .allocate
  throw := .throw
  bind := .bind
  bind_whole := .bind
  enforce := .enforce
  observe := .observe
  logged s := .logged s.name
  part_of_whole hx := hx

end Recording

namespace Edit

def buildRow (a b c : List Edit) : Recording Row :=
  Recording.build (applyAll a) (applyAll b) (applyAll c)

theorem buildRow_faithful (a b c : List Edit) : (buildRow a b c).Faithful :=
  have h := Recording.Faithful.closed
  h.build (h.edits a) (h.edits b) (h.edits c)

def enforceRow (a b c : List Edit) : Recording Unit :=
  Recorder.system.enforce none (applyAll a) (applyAll b) (applyAll c)

end Edit

theorem Step.run_enforce (a b c : List Edit) :
    (Step.enforce a b c).run = Edit.enforceRow a b c >>= fun _ => Recording.lastRow := rfl

/-- A program as a circuit: it stops at its first fault, or goes on with the next step of the
outermost list. -/
def Step.circuit (continuing : Bool) (steps : List Step) : Recording Unit :=
  if continuing then Step.runContinuing steps else Step.runAll steps

theorem Recording.Closed.circuit {part whole : ∀ ⦃α : Type⦄, Recording α → Prop}
    (h : Closed part whole) (continuing : Bool) (steps : List Step) :
    whole (Step.circuit continuing steps) := by
  cases continuing with
  | true => exact h.stepsContinuing steps
  | false => exact h.steps steps

theorem Step.circuit_faithful (continuing : Bool) (steps : List Step) :
    (Step.circuit continuing steps).Faithful :=
  Recording.Faithful.closed.circuit continuing steps

theorem Recorder.aligned_primed : primed.Aligned := aligned_empty.allocate .input

inductive Session
  /-- On a new recorder, to the end. -/
  | bare
  /-- As a circuit that is exported. -/
  | exported (continuing : Bool)
  deriving DecidableEq, Repr

namespace Session

def start : Session → Recorder
  | .bare => .empty
  | .exported _ => .primed

def run (steps : List Step) : Session → Outcome Unit
  | .bare => (Step.runContinuing steps).run .empty
  | .exported continuing =>
    let o := exportCircuit (Step.circuit continuing steps)
    ⟨o.recorder, o.log, o.journal, o.result.map fun _ => ()⟩

def writings (steps : List Step) (session : Session) : List Writing :=
  Act.writings (session.run steps).journal

theorem chronicle (session : Session) (steps : List Step) :
    Chronicle session.start (session.run steps).journal (session.run steps).recorder := by
  cases session with
  | bare => exact Step.circuit_faithful true steps _
  | exported continuing =>
    exact Recording.Faithful.closed.exported (Step.circuit_faithful continuing steps) _

theorem start_aligned (session : Session) : session.start.Aligned := by
  cases session with
  | bare => exact Recorder.aligned_empty
  | exported continuing => exact Recorder.aligned_primed

@[simp] theorem rows_start (session : Session) : session.start.rows = [] := by
  cases session <;> rfl

@[simp] theorem numConstraints_start (session : Session) : session.start.numConstraints = 0 := by
  cases session <;> rfl

@[simp] theorem slot_start (session : Session) (s : Side) (m : Matrix) (k : Nat) :
    session.start.ledgers.slot s m k = [] := by
  cases session with
  | bare => exact Ledgers.slot_empty s m k
  | exported continuing =>
    rw [start, Recorder.primed, Recorder.ledgers_allocate, Ledgers.slot_openColumn]
    exact Ledgers.slot_empty s m k

end Session

end RankOne
