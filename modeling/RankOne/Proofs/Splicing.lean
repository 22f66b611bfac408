import RankOne.Proofs.Closure

/-! Namespaces leave no trace in an export. The log of a program without its namespaces is another
one, so everything is compared without logs: taking the log away commutes with every operation.
-/
namespace RankOne

namespace Recording
variable {α β : Type}

def unlogged (x : Recording α) : Recording α :=
  ⟨fun r => { x.run r with log := [] }⟩

theorem run_unlogged (x : Recording α) (r : Recorder) :
    x.unlogged.run r = { x.run r with log := [] } := rfl

theorem unlogged_pure (a : α) : (Pure.pure a : Recording α).unlogged = Pure.pure a := rfl

theorem unlogged_bind (x : Recording α) (f : α → Recording β) :
    (x >>= f).unlogged = x.unlogged >>= fun a => (f a).unlogged := by
  ext r : 2
  rw [run_unlogged]
  cases h : (x.run r).result with
  | ok a =>
    have h' : (x.unlogged.run r).result = .ok a := h
    rw [run_bind_of_ok h, run_bind_of_ok h']
    rfl
  | error fault =>
    have h' : (x.unlogged.run r).result = .error fault := h
    rw [run_bind_of_error h, run_bind_of_error h']
    rfl

theorem unlogged_observe (x : Recording α) : (observe x).unlogged = observe x.unlogged := by
  ext r : 2
  rw [run_unlogged, run_observe, run_observe]
  rfl

theorem unlogged_build (a b c : Builder Recording) :
    (build a b c).unlogged =
      build (fun l => (a l).unlogged) (fun l => (b l).unlogged) fun l => (c l).unlogged := by
  simp only [build, unlogged_bind, unlogged_pure]

theorem unlogged_building (x : Recording α) : (building x).unlogged = building x.unlogged := by
  ext r : 2
  rw [run_unlogged]
  cases h : (x.run r).result with
  | ok a => simp only [building, run_unlogged, h]
  | error fault => simp only [building, run_unlogged, h]

theorem unlogged_enforce (a b c : Builder Recording) :
    (enforce a b c).unlogged =
      enforce (fun l => (a l).unlogged) (fun l => (b l).unlogged) fun l => (c l).unlogged := by
  simp only [enforce, unlogged_bind, unlogged_building, unlogged_build]
  rfl

theorem unlogged_logged (step : String) (x : Recording Answer) :
    (logged step x).unlogged = x.unlogged >>= fun _ => Pure.pure () := by
  ext r : 2
  cases h : (x.run r).result with
  | ok answer =>
    have h' : (x.unlogged.run r).result = .ok answer := h
    rw [run_bind_of_ok h']
    simp [run_unlogged, logged, h, Except.map]
  | error fault =>
    have h' : (x.unlogged.run r).result = .error fault := h
    rw [run_bind_of_error h']
    simp [run_unlogged, logged, h, Except.map]

/-- What is exported of a circuit depends on the circuit without its log. -/
theorem unlogged_exported {x y : Recording Unit} (h : x.unlogged = y.unlogged) :
    (exported x).unlogged = (exported y).unlogged := by
  simp only [exported, unlogged_bind, h]

end Recording

mutual

/-- What is left of a step: of a namespace its body, and nothing of a step that has no effect. -/
def Step.spliced : Step → List Step
  | .one | .root | .push | .pop => []
  | .inside body => Step.splicedAll body
  | .attempt body => [.attempt (Step.splicedAll body)]
  | .enforce a b c => [.enforce (Edit.splicedAll a) (Edit.splicedAll b) (Edit.splicedAll c)]
  | .allocate s => [.allocate s]
  | .column v label => [.column v label]
  | .raise text => [.raise text]

def Step.splicedAll : List Step → List Step
  | [] => []
  | s :: steps => s.spliced ++ Step.splicedAll steps

def Edit.spliced : Edit → Edit
  | .run steps => .run (Step.splicedAll steps)
  | .combine s o => .combine s o
  | .fresh s => .fresh s
  | .replace l => .replace l
  | .raise text => .raise text

def Edit.splicedAll : List Edit → List Edit
  | [] => []
  | e :: edits => e.spliced :: Edit.splicedAll edits

end

mutual

/-- There is nothing in the step that deals with namespaces. -/
def Step.Unscoped : Step → Prop
  | .one | .root | .push | .pop | .inside _ => False
  | .attempt body => Step.AllUnscoped body
  | .enforce a b c => Edit.AllUnscoped a ∧ Edit.AllUnscoped b ∧ Edit.AllUnscoped c
  | .allocate _ | .column .. | .raise _ => True

def Step.AllUnscoped : List Step → Prop
  | [] => True
  | s :: steps => s.Unscoped ∧ Step.AllUnscoped steps

def Edit.Unscoped : Edit → Prop
  | .run steps => Step.AllUnscoped steps
  | .combine .. | .fresh _ | .replace _ | .raise _ => True

def Edit.AllUnscoped : List Edit → Prop
  | [] => True
  | e :: edits => e.Unscoped ∧ Edit.AllUnscoped edits

end

theorem Step.allUnscoped_append {xs ys : List Step} (hx : Step.AllUnscoped xs)
    (hy : Step.AllUnscoped ys) : Step.AllUnscoped (xs ++ ys) := by
  induction xs with
  | nil => exact hy
  | cons s xs ih => exact ⟨hx.1, ih hx.2⟩

mutual

theorem Step.unscoped_spliced : ∀ s : Step, Step.AllUnscoped s.spliced
  | .one | .root | .push | .pop => trivial
  | .inside body => Step.unscoped_splicedAll body
  | .attempt body => ⟨Step.unscoped_splicedAll body, trivial⟩
  | .enforce a b c =>
    ⟨⟨Edit.unscoped_splicedAll a, Edit.unscoped_splicedAll b, Edit.unscoped_splicedAll c⟩, trivial⟩
  | .allocate _ | .column .. | .raise _ => ⟨trivial, trivial⟩

theorem Step.unscoped_splicedAll : ∀ steps : List Step, Step.AllUnscoped (Step.splicedAll steps)
  | [] => trivial
  | s :: steps =>
    Step.allUnscoped_append (Step.unscoped_spliced s) (Step.unscoped_splicedAll steps)

theorem Edit.unscoped_spliced : ∀ e : Edit, e.spliced.Unscoped
  | .run steps => Step.unscoped_splicedAll steps
  | .combine .. | .fresh _ | .replace _ | .raise _ => trivial

theorem Edit.unscoped_splicedAll : ∀ edits : List Edit, Edit.AllUnscoped (Edit.splicedAll edits)
  | [] => trivial
  | e :: edits => ⟨Edit.unscoped_spliced e, Edit.unscoped_splicedAll edits⟩

end

theorem Step.runAll_append (xs ys : List Step) :
    Step.runAll (xs ++ ys) = Step.runAll xs >>= fun _ => Step.runAll ys := by
  induction xs with
  | nil => rfl
  | cons s xs ih => simp only [List.cons_append, Step.runAll, ih, bind_assoc]

open Recording (enforce unlogged_bind unlogged_pure unlogged_observe unlogged_enforce
  unlogged_logged unlogged_exported)

theorem Step.unlogged_runAll_singleton (s : Step) :
    (Step.runAll [s]).unlogged = s.run.unlogged >>= fun _ => pure () := by
  simp only [Step.runAll, unlogged_bind, unlogged_logged, unlogged_pure, bind_assoc, pure_bind]

mutual

theorem Step.unlogged_spliced : ∀ s : Step,
    (Step.runAll s.spliced).unlogged = s.run.unlogged >>= fun _ => pure ()
  | .one | .root | .push | .pop => rfl
  | .inside body => by
    rw [Step.spliced, Step.unlogged_splicedAll body, Step.run, Recorder.system_inside]
    simp only [unlogged_bind, unlogged_pure, bind_assoc, pure_bind]
    exact (bind_pure _).symm
  | .attempt body => by
    rw [Step.spliced, Step.unlogged_runAll_singleton]
    simp only [Step.run, unlogged_bind, unlogged_observe, Step.unlogged_splicedAll body]
  | .enforce a b c => by
    have hrow : (enforce (Edit.applyAll (Edit.splicedAll a)) (Edit.applyAll (Edit.splicedAll b))
        (Edit.applyAll (Edit.splicedAll c))).unlogged =
          (enforce (Edit.applyAll a) (Edit.applyAll b) (Edit.applyAll c)).unlogged := by
      simp only [unlogged_enforce, Edit.unlogged_splicedAll]
    rw [Step.spliced, Step.unlogged_runAll_singleton]
    simp only [Step.run, Recorder.system, unlogged_bind, hrow]
  | .allocate s => Step.unlogged_runAll_singleton (.allocate s)
  | .column v label => Step.unlogged_runAll_singleton (.column v label)
  | .raise text => Step.unlogged_runAll_singleton (.raise text)

theorem Step.unlogged_splicedAll : ∀ steps : List Step,
    (Step.runAll (Step.splicedAll steps)).unlogged = (Step.runAll steps).unlogged
  | [] => rfl
  | s :: steps => by
    rw [Step.splicedAll, Step.runAll_append, Step.runAll]
    simp only [unlogged_bind, unlogged_logged, Step.unlogged_spliced s,
      Step.unlogged_splicedAll steps]

theorem Edit.unlogged_spliced : ∀ (e : Edit) (l : LinearCombination),
    (e.spliced.apply l).unlogged = (e.apply l).unlogged
  | .run steps, _ => by
    simp only [Edit.spliced, Edit.apply, unlogged_bind, Step.unlogged_splicedAll steps]
  | .combine .., _ | .fresh _, _ | .replace _, _ | .raise _, _ => rfl

theorem Edit.unlogged_splicedAll : ∀ (edits : List Edit) (l : LinearCombination),
    (Edit.applyAll (Edit.splicedAll edits) l).unlogged = (Edit.applyAll edits l).unlogged
  | [], _ => rfl
  | e :: edits, l => by
    simp only [Edit.splicedAll, Edit.applyAll, unlogged_bind, Edit.unlogged_spliced e,
      Edit.unlogged_splicedAll edits]

end

/-- A program without its namespaces is exported as the program is, or ends with the same fault, and
does the same to the recorder on the way. -/
theorem export_of_spliced (steps : List Step) :
    let o := exportCircuit (Step.runAll steps)
    let o' := exportCircuit (Step.runAll (Step.splicedAll steps))
    Step.AllUnscoped (Step.splicedAll steps) ∧
      o'.result = o.result ∧ o'.recorder = o.recorder ∧ o'.journal = o.journal := by
  intro o o'
  have hexported := unlogged_exported (Step.unlogged_splicedAll steps)
  have hrun : { o' with log := [] } = { o with log := [] } :=
    congrArg (fun x => x.run .primed) hexported
  rw [Outcome.mk.injEq] at hrun
  obtain ⟨hrecorder, -, hjournal, hresult⟩ := hrun
  exact ⟨Step.unscoped_splicedAll steps, hresult, hrecorder, hjournal⟩

end RankOne
