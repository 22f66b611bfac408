import RankOne.Proofs.Chronicle

/-! An enforcement opens one building and ends it, with a row exactly when its three builders
returned. Every building that a program opens is that of an enforcement in its log. -/
namespace RankOne

namespace Recording

theorem run_lastRow (r : Recorder) : ∃ answer, lastRow.run r = ⟨r, [], [], .ok answer⟩ := by
  have hrecorder : (recorder.run r).result = .ok r := rfl
  rw [lastRow, run_bind_of_ok hrecorder]
  cases r.rows.getLast? with
  | none => exact ⟨_, rfl⟩
  | some row => exact ⟨_, rfl⟩

end Recording

/-- An enforcement opens a building, does what its builders do and ends the building, with the row
when all three of them returned and without one when not. -/
theorem Step.journal_enforce (a b c : List Edit) (r : Recorder) :
    ((Step.enforce a b c).run.run r).journal =
      let built := (Edit.buildRow a b c).run r
      .opened :: (built.journal ++ [Act.ending r built]) := by
  have henforce : ((Edit.enforceRow a b c).run r).journal = _ := Recording.journal_enforce ..
  rw [Edit.buildRow, ← henforce, Step.run_enforce]
  cases h : ((Edit.enforceRow a b c).run r).result with
  | error fault => rw [Recording.run_bind_of_error h]
  | ok u =>
    obtain ⟨answer, hlast⟩ := Recording.run_lastRow ((Edit.enforceRow a b c).run r).recorder
    rw [Recording.run_bind_of_ok h, hlast]
    exact List.append_nil _

/-- The entry is that of an enforcement. -/
def LogEntry.enforces (e : LogEntry) : Bool := e.step = (Step.enforce [] [] []).name

/-- How many buildings a step opens that are not those of steps inside it. -/
def Step.opens : Step → Nat
  | .enforce .. => 1
  | _ => 0

theorem Step.opens_eq (s : Step) (answer : Answer) (after : Recorder) :
    (if LogEntry.enforces ⟨s.name, answer, after⟩ then 1 else 0) = s.opens := by
  cases s with
  | allocate side => cases side <;> rfl
  | _ => rfl

namespace Recording
variable {α β : Type} {k : Nat}

/-- Besides those of the enforcements that it logs, the recording opens so many buildings. -/
def Opens (k : Nat) (x : Recording α) : Prop :=
  ∀ r, (x.run r).journal.count .opened = (x.run r).log.countP LogEntry.enforces + k

theorem Opens.pure (a : α) : (Pure.pure a : Recording α).Opens 0 := fun _ => rfl

theorem Opens.throw (fault : Fault) : (throwThe Fault fault : Recording α).Opens 0 := fun _ => rfl

theorem Opens.recorder : recorder.Opens 0 := fun _ => rfl

theorem Opens.allocate (s : Side) : (allocate s).Opens 0 := fun _ => rfl

theorem Opens.resume (e : Except Fault α) : (RankOne.resume e : Recording α).Opens 0 := by
  cases e with
  | ok a => exact .pure a
  | error fault => exact .throw fault

theorem Opens.bind {x : Recording α} {f : α → Recording β} (hx : x.Opens k)
    (hf : ∀ a, (f a).Opens 0) : (x >>= f).Opens k := by
  intro r
  have hfirst := hx r
  cases h : (x.run r).result with
  | error fault =>
    rw [run_bind_of_error h]
    exact hfirst
  | ok a =>
    have hsecond := hf a (x.run r).recorder
    rw [run_bind_of_ok h, List.count_append, List.countP_append]
    omega

theorem Opens.map {x : Recording α} (f : α → β) (hx : x.Opens k) : (f <$> x).Opens k := by
  rw [map_eq_pure_bind]
  exact hx.bind fun a => .pure (f a)

theorem Opens.observe {x : Recording α} (hx : x.Opens k) : (observe x).Opens k := by
  intro r
  rw [run_observe]
  exact hx r

theorem count_ending (begun : Recorder) (built : Outcome Row) :
    [Act.ending begun built].count .opened = 0 := by
  unfold Act.ending
  split <;> rfl

theorem log_enforce (a b c : Builder Recording) (r : Recorder) :
    ((enforce a b c).run r).log = ((build a b c).run r).log := by
  cases h : ((build a b c).run r).result with
  | ok row => rw [run_enforce_of_ok h]
  | error fault => rw [run_enforce_of_error h]

theorem Opens.enforce {a b c : Builder Recording} (ha : ∀ l, (a l).Opens 0)
    (hb : ∀ l, (b l).Opens 0) (hc : ∀ l, (c l).Opens 0) : (enforce a b c).Opens 1 := by
  intro r
  have hbuild : (build a b c).Opens 0 :=
    (ha _).bind fun _ => (hb _).bind fun _ => (hc _).bind fun _ => .pure _
  have hbuilt := hbuild r
  rw [journal_enforce, log_enforce, List.count_cons, List.count_append, count_ending, hbuilt]
  rfl

theorem Opens.logged {s : Step} (hs : s.run.Opens s.opens) : (logged s.name s.run).Opens 0 := by
  intro r
  have hrun := hs r
  rw [← s.opens_eq (answered (s.run.run r).result) (s.run.run r).recorder] at hrun
  simp only [Recording.logged, List.countP_cons]
  exact hrun

theorem Opens.lastRow : lastRow.Opens 0 := by
  refine Opens.recorder.bind fun r => ?_
  cases r.rows.getLast? with
  | none => exact .pure _
  | some row => exact .pure _

end Recording

open Recording in
mutual

theorem Step.run_opens : ∀ s : Step, s.run.Opens s.opens
  | .allocate s => (Opens.allocate s).map _
  | .one => .pure _
  | .root => (Opens.pure _).bind fun _ => .pure _
  | .push => (Opens.pure _).bind fun _ => .pure _
  | .pop => (Opens.pure _).bind fun _ => .pure _
  | .enforce a b c =>
    (Opens.enforce (Edit.applyAll_opens a) (Edit.applyAll_opens b)
      (Edit.applyAll_opens c)).bind fun _ => .lastRow
  | .inside body => by
    rw [Step.run, Recorder.system_inside]
    exact (Step.runAll_opens body).bind fun _ => .pure _
  | .column .. => Opens.recorder.bind fun _ => (Opens.resume _).bind fun _ => .pure _
  | .raise _ => .throw _
  | .attempt body => by
    refine (Step.runAll_opens body).observe.bind fun ended => ?_
    cases ended <;> exact .pure _

theorem Step.runAll_opens : ∀ steps : List Step, (Step.runAll steps).Opens 0
  | [] => .pure _
  | s :: steps => (Step.run_opens s).logged.bind fun _ => Step.runAll_opens steps

theorem Edit.apply_opens : ∀ (e : Edit) (l : LinearCombination), (e.apply l).Opens 0
  | .combine .., _ => .resume _
  | .fresh s, _ => (Opens.allocate s).bind fun _ => .pure _
  | .replace _, _ => .pure _
  | .run steps, _ => (Step.runAll_opens steps).bind fun _ => .pure _
  | .raise _, _ => .throw _

theorem Edit.applyAll_opens : ∀ (edits : List Edit) (l : LinearCombination),
    (Edit.applyAll edits l).Opens 0
  | [], _ => .pure _
  | e :: edits, l => (Edit.apply_opens e l).bind fun next => Edit.applyAll_opens edits next

end

theorem Step.runContinuing_opens (steps : List Step) : (Step.runContinuing steps).Opens 0 := by
  induction steps with
  | nil => exact .pure _
  | cons s steps ih => exact (Step.run_opens s).logged.observe.bind fun _ => ih

theorem Step.circuit_opens (continuing : Bool) (steps : List Step) :
    (Step.circuit continuing steps).Opens 0 := by
  cases continuing with
  | true => exact Step.runContinuing_opens steps
  | false => exact Step.runAll_opens steps

/-- Every building that was opened was ended, with a row or without one. -/
theorem Chronicle.count_opened {r r' : Recorder} {acts : List Act} (h : Chronicle r acts r') :
    acts.count .opened = (Act.writings acts).length + acts.count .abandoned := by
  induction h with
  | nil => rfl
  | allocated s _ ih => simpa using ih
  | abandoned _ _ ihb ihr =>
    simp only [List.count_cons_self, List.count_append, ihb, ne_eq, reduceCtorEq,
      not_false_eq_true, List.count_cons_of_ne, ihr, Act.writings_opened, Act.writings_append,
      Act.writings_abandoned, List.length_append]
    omega
  | written row _ _ ihb ihr =>
    simp only [List.count_cons_self, List.count_append, ihb, ne_eq, reduceCtorEq,
      not_false_eq_true, List.count_cons_of_ne, ihr, Act.writings_opened, Act.writings_append,
      Act.writings_wrote, List.length_append, List.length_cons]
    omega

end RankOne
