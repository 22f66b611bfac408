import RankOne.Proofs.Enforcement
import RankOne.Proofs.Nesting

/-! At the end of every step the recorder is accounted for by what was done until then. A row is
numbered before it is built and written after, so the bounds on numbers rest on the counter
never going down in between. -/
namespace RankOne

/-- The step was run on the recorder: it did these acts and was logged with this entry. -/
structure Step.Entered (s : Step) (r : Recorder) (acts : List Act) (e : LogEntry) : Prop where
  acts_eq : acts = (s.run.run r).journal
  entry_eq : e = ⟨s.name, Recording.answered (s.run.run r).result, (s.run.run r).recorder⟩

theorem Step.Entered.chronicle {s : Step} {r : Recorder} {acts : List Act} {e : LogEntry}
    (h : s.Entered r acts e) : Chronicle r acts e.after := by
  rw [h.acts_eq, h.entry_eq]
  exact Recording.Faithful.closed.step s r

/-- A logged enforcement opened a building, did what some builders do, and ended the building. -/
theorem Step.Entered.enforced {s : Step} {r : Recorder} {acts : List Act} {e : LogEntry}
    (h : s.Entered r acts e) (henforces : e.enforces) : ∃ a b c : List Edit,
      let built := (Edit.buildRow a b c).run r
      acts = .opened :: (built.journal ++ [Act.ending r built]) := by
  obtain ⟨rfl, rfl⟩ := h
  cases s with
  | enforce a b c => exact ⟨a, b, c, Step.journal_enforce a b c r⟩
  | allocate side => cases side <;> simp [LogEntry.enforces, Step.name] at henforces
  | _ => simp [LogEntry.enforces, Step.name] at henforces

/-- Every logged step is a stretch of the acts: it was run on the recorder that the acts in front
of the stretch lead to. -/
def Located (r : Recorder) (acts : List Act) (log : List LogEntry) : Prop :=
  ∀ e ∈ log, ∃ (s : Step) (earlier during later : List Act),
    acts = earlier ++ (during ++ later) ∧ s.Entered (r.replay earlier) during e

namespace Located
variable {r : Recorder} {acts : List Act} {log : List LogEntry}

theorem nil (r : Recorder) (acts : List Act) : Located r acts [] := by
  intro e he
  cases he

theorem between (xs ys : List Act) (h : Located (r.replay xs) acts log) :
    Located r (xs ++ (acts ++ ys)) log := by
  intro e he
  obtain ⟨s, earlier, during, later, rfl, hstep⟩ := h e he
  refine ⟨s, xs ++ earlier, during, later ++ ys, by simp, ?_⟩
  rwa [Recorder.replay_append]

theorem append {xs ys : List Act} {log' : List LogEntry} (first : Located r xs log)
    (second : Located (r.replay xs) ys log') : Located r (xs ++ ys) (log ++ log') := by
  intro e he
  rcases List.mem_append.mp he with he | he
  · exact between [] ys first e he
  · have h := between xs [] second e he
    rwa [List.append_nil] at h

theorem cons {e : LogEntry} (h : Located r acts log) {s : Step} (step : s.Entered r acts e) :
    Located r acts (e :: log) := by
  intro e' he
  rcases List.mem_cons.mp he with rfl | he
  · exact ⟨s, [], acts, [], by simp, step⟩
  · exact h e' he

end Located

namespace Recording
variable {α β : Type}

def Locates (x : Recording α) : Prop :=
  x.Faithful ∧ ∀ r, Located r (x.run r).journal (x.run r).log

theorem Locates.of_log_eq_nil {x : Recording α} (hx : x.Faithful) (h : ∀ r, (x.run r).log = []) :
    x.Locates := by
  refine ⟨hx, fun r => ?_⟩
  rw [h r]
  exact .nil r _

theorem Locates.bind {x : Recording α} {f : α → Recording β} (hx : x.Locates)
    (hf : ∀ a, (f a).Locates) : (x >>= f).Locates := by
  refine ⟨hx.1.bind fun a => (hf a).1, fun r => ?_⟩
  cases h : (x.run r).result with
  | error fault =>
    rw [run_bind_of_error h]
    exact hx.2 r
  | ok a =>
    rw [run_bind_of_ok h]
    have hsecond := (hf a).2 (x.run r).recorder
    rw [← (hx.1 r).replay_eq] at hsecond ⊢
    exact (hx.2 r).append hsecond

theorem Locates.observe {x : Recording α} (hx : x.Locates) : (observe x).Locates := by
  refine ⟨hx.1.observe, fun r => ?_⟩
  rw [run_observe]
  exact hx.2 r

theorem Locates.logged (s : Step) (hs : s.run.Locates) : (logged s.name s.run).Locates :=
  ⟨hs.1.logged s.name, fun r => (hs.2 r).cons ⟨rfl, rfl⟩⟩

theorem Locates.enforce {a b c : Builder Recording} (hbuild : (build a b c).Locates) :
    (enforce a b c).Locates := by
  refine ⟨.enforce hbuild.1, fun r => ?_⟩
  -- the mark that opens the building leaves the recorder as it is
  have hopened : Located (r.replay [.opened]) _ _ := hbuild.2 r
  cases h : ((build a b c).run r).result with
  | ok row =>
    rw [run_enforce_of_ok h]
    exact hopened.between [_] [_]
  | error fault =>
    rw [run_enforce_of_error h]
    exact hopened.between [_] [_]

theorem Locates.closed : Closed (fun _ x => Locates x) (fun _ x => Locates x) where
  pure a := .of_log_eq_nil (.pure a) fun _ => rfl
  recorder := .of_log_eq_nil .recorder fun _ => rfl
  allocate s := .of_log_eq_nil (.allocate s) fun _ => rfl
  throw fault := .of_log_eq_nil (.throw fault) fun _ => rfl
  bind := .bind
  bind_whole := .bind
  enforce := .enforce
  observe := .observe
  logged := .logged
  part_of_whole hx := hx

end Recording

namespace Writing

theorem row_of_mem_share {w : Writing} {s : Side} {m : Matrix} {k : Nat} {p : Posting}
    (h : p ∈ w.share s m k) : p.row = w.number := by
  obtain ⟨e, -, he⟩ := List.mem_filterMap.mp h
  split at he
  · exact congrArg Posting.row (Option.some.inj he).symm
  · cases he

end Writing

theorem Chronicle.number_le {r r' : Recorder} {acts : List Act} (h : Chronicle r acts r')
    {w : Writing} (hw : w ∈ Act.writings acts) : w.number ≤ w.before.numConstraints := by
  obtain ⟨earlier, inner, later, -, -, hinner, -⟩ := h.exists_building hw
  have hle := Recorder.numConstraints_le_replay hinner.admits
  rwa [hinner.replay_eq] at hle

namespace Recorder

/-- Nothing was written to the recorder. -/
structure Blank (r : Recorder) : Prop where
  rows : r.rows = []
  numConstraints : r.numConstraints = 0
  slot : ∀ s m k, r.ledgers.slot s m k = []

theorem blank_empty : empty.Blank := ⟨rfl, rfl, Ledgers.slot_empty⟩

theorem blank_primed : primed.Blank :=
  ⟨rfl, rfl, Session.slot_start (.exported false)⟩

/-- The recorder is accounted for by the acts that led to it. -/
structure Accounted (r : Recorder) (acts : List Act) : Prop where
  rows_eq : r.rows = (Act.writings acts).map Writing.row
  length_rows : r.rows.length =
    r.numConstraints + (Act.writings acts).countP (·.fault?.isSome)
  numbers : ∀ s m, ∀ column ∈ r.ledgers.columns s m, ∀ p ∈ column,
    p.row ≤ r.numConstraints ∧ p.row < r.rows.length ∧
      ((∀ w ∈ Act.writings acts, w.fault? = none) → p.row < r.numConstraints)

/-- A writing that was numbered no higher than the count when it was handed over is numbered below
the rows of every later recorder. -/
theorem Blank.number_lt {r : Recorder} (hr : r.Blank) {acts : List Act} (h : r.Admits acts)
    {w : Writing} (hw : w ∈ Act.writings acts) (hle : w.number ≤ w.before.numConstraints) :
    w.number ≤ (r.replay acts).numConstraints ∧ w.number < (r.replay acts).rows.length := by
  obtain ⟨p, hp⟩ := List.mem_iff_getElem?.mp hw
  have hlt : p < (Act.writings acts).length := (List.getElem?_eq_some_iff.mp hp).1
  have hbefore := (numConstraints_before h hp).2
  have hrows := congrArg List.length (r.rows_replay acts)
  simp only [hr.rows, List.nil_append, List.length_map] at hrows
  constructor
  · obtain ⟨earlier, later, hacts, -, hearlier⟩ := exists_before h hp
    subst hacts
    have hrest := numConstraints_le_replay (admits_append.mp h).2
    rw [← hearlier] at hrest
    rw [replay_append, ← hearlier]
    exact Nat.le_trans hle hrest
  · rw [hr.numConstraints] at hbefore
    omega

theorem Blank.accounted {r : Recorder} (hr : r.Blank) {acts : List Act} (h : r.Admits acts)
    (hnumber : ∀ w ∈ Act.writings acts, w.number ≤ w.before.numConstraints) :
    (r.replay acts).Accounted acts := by
  have hrows : (r.replay acts).rows = (Act.writings acts).map Writing.row := by
    rw [rows_replay, hr.rows, List.nil_append]
  have hlength : (r.replay acts).rows.length =
      (r.replay acts).numConstraints + (Act.writings acts).countP (·.fault?.isSome) := by
    have hcount := numConstraints_replay h
    rw [hr.numConstraints, Nat.zero_add] at hcount
    rw [hcount, hrows, List.length_map]
  refine ⟨hrows, hlength, fun s m column hcolumn p hp => ?_⟩
  obtain ⟨k, hk⟩ := List.mem_iff_getElem?.mp hcolumn
  have hslot := slot_replay h s m k
  rw [hr.slot, List.nil_append, Ledgers.slot, List.getD_eq_getElem?_getD, hk] at hslot
  have hmem : p ∈ (Act.writings acts).flatMap fun w => w.share s m k := by
    rwa [← hslot]
  obtain ⟨w, hw, hshare⟩ := List.mem_flatMap.mp hmem
  rw [Writing.row_of_mem_share hshare]
  obtain ⟨hle, hlt⟩ := hr.number_lt h hw (hnumber w hw)
  refine ⟨hle, hlt, fun hkept => ?_⟩
  have hnone := Writing.countP_fault_eq_zero hkept
  omega

end Recorder

/-- Every logged step was run on the recorder that the acts in front of it lead to, with a building
opened and ended when it is an enforcement, and at its end the recorder is accounted for by the acts
until then. -/
def Outcome.Accounted {α : Type} (start : Recorder) (o : Outcome α) : Prop :=
  ∀ e ∈ o.log, ∃ (s : Step) (earlier during later : List Act),
    o.journal = earlier ++ (during ++ later) ∧ s.Entered (start.replay earlier) during e ∧
      (e.enforces → ∃ a b c : List Edit,
        let built := (Edit.buildRow a b c).run (start.replay earlier)
        during = .opened :: (built.journal ++ [Act.ending (start.replay earlier) built])) ∧
      Chronicle (start.replay earlier) during e.after ∧ e.after.Accounted (earlier ++ during)

theorem Recording.Locates.accounted {α : Type} {x : Recording α} (hx : x.Locates)
    {start : Recorder} (hstart : start.Blank) : (x.run start).Accounted start := by
  intro e he
  have h := hx.1 start
  obtain ⟨s, earlier, during, later, hacts, hentered⟩ := hx.2 start e he
  have hstep := hentered.chronicle
  refine ⟨s, earlier, during, later, hacts, hentered, hentered.enforced, hstep, ?_⟩
  have hjournal : (x.run start).journal = (earlier ++ during) ++ later := by
    rw [hacts, List.append_assoc]
  have hafter : e.after = start.replay (earlier ++ during) := by
    rw [Recorder.replay_append, hstep.replay_eq]
  rw [hafter]
  refine hstart.accounted (h.admits.of_eq_append hjournal) fun w hw => h.number_le ?_
  rw [hjournal, Act.writings_append]
  exact List.mem_append_left _ hw

/-- On a new recorder and as a circuit that is exported, stopping or continuing, a program keeps
its recorder accounted for. The marks of the account are those of the enforcements: each opens a
building and ends it, with a row exactly when its three builders returned, and on whatever recorder
the program is run, its log has as many enforcements as buildings were opened, which are those that
gave a row and those that did not. -/
theorem accounted_at_every_step (continuing : Bool) (steps : List Step) :
    ((Step.circuit continuing steps).run .empty).Accounted .empty ∧
      (exportCircuit (Step.circuit continuing steps)).Accounted .primed ∧
      (∀ (a b c : List Edit) (r : Recorder),
        ((Step.enforce a b c).run.run r).journal =
          let built := (Edit.buildRow a b c).run r
          .opened :: (built.journal ++ [Act.ending r built])) ∧
      ∀ r, let o := (Step.circuit continuing steps).run r
        o.log.countP LogEntry.enforces = o.journal.count .opened ∧
          o.journal.count .opened =
            (Act.writings o.journal).length + o.journal.count .abandoned := by
  have hcircuit := Recording.Locates.closed.circuit continuing steps
  have hexported := Recording.Locates.closed.exported hcircuit
  exact ⟨hcircuit.accounted Recorder.blank_empty, hexported.accounted Recorder.blank_primed,
    Step.journal_enforce,
    fun r => ⟨(Step.circuit_opens continuing steps r).symm, (hcircuit.1 r).count_opened⟩⟩

end RankOne
