import RankOne.Proofs.Accounting
import RankOne.Proofs.Interruption
import RankOne.Proofs.Numbering

/-! A recorder only grows, whatever is done to it and however that ends. Variables are therefore
given out in order: those of a side are numbered from zero without a gap, also by builders that
fail later. -/
namespace RankOne

/-- The variables of a side that were allocated, in the order of their allocation. -/
def Act.allocations (s : Side) (acts : List Act) : List Variable :=
  (acts.filterMap Act.variable?).filter fun v => v.side = s

namespace Recorder

/-- The variables of a side that the recorder has given out, by their indices. -/
def given (r : Recorder) (s : Side) : List Variable :=
  (List.range (r.count s)).map fun k : Nat => ⟨s.kind, k⟩

@[simp] theorem side_next (r : Recorder) (s : Side) : (r.next s).side = s :=
  s.side_kind

theorem given_allocate (r : Recorder) (s s' : Side) :
    (r.allocate s).given s' =
      r.given s' ++ if s = s' then [r.next s] else [] := by
  simp only [given, count_allocate]
  by_cases h : s = s'
  · subst h
    simp [List.range_succ, next]
  · simp [h, Ne.symm h]

theorem given_write (r : Recorder) (number : Nat) (row : Row) (s : Side) :
    (r.write number row).1.given s = r.given s := by
  rw [given, count_write, given]

/-- The variables that were given out are those from before and the ones allocated since. -/
theorem given_replay {r : Recorder} {acts : List Act} (h : r.Admits acts) (s : Side) :
    (r.replay acts).given s = r.given s ++ Act.allocations s acts := by
  induction acts generalizing r with
  | nil => exact (List.append_nil _).symm
  | cons act acts ih =>
    obtain ⟨hfit, hrest⟩ := h
    rw [replay_cons, ih hrest]
    cases act with
    | allocated v =>
      have hv : r.next v.side = v := Eq.symm hfit
      rw [Act.apply, given_allocate, hv, List.append_assoc]
      by_cases hs : v.side = s
      · simp [Act.allocations, Act.variable?, hs]
      · simp [Act.allocations, Act.variable?, hs]
    | wrote w =>
      rw [Act.apply, given_write]
      rfl
    | opened => rfl
    | abandoned => rfl

end Recorder

theorem Step.run_allocate (s : Side) (r : Recorder) :
    (Step.allocate s).run.run r =
      ⟨r.allocate s, [], [.allocated (r.next s)], .ok (.variable (r.next s))⟩ := rfl

theorem Edit.run_fresh (s : Side) (l : LinearCombination) (r : Recorder) :
    ((Edit.fresh s).apply l).run r =
      ⟨r.allocate s, [], [.allocated (r.next s)], .ok (l.plus (r.next s))⟩ := rfl

theorem Step.eq_allocate_of_name {step : Step} {s : Side}
    (h : step.name = (Step.allocate s).name) : step = .allocate s := by
  cases step with
  | allocate s' => cases s <;> cases s' <;> simp_all [Step.name]
  | _ => cases s <;> simp [Step.name] at h

/-- An allocation that was logged answers the variable that it marks, the next one of its side. -/
theorem Step.Entered.allocated {step : Step} {r : Recorder} {acts : List Act} {e : LogEntry}
    (h : step.Entered r acts e) {s : Side} (hname : e.step = (Step.allocate s).name) :
    acts = [.allocated (r.next s)] ∧ e.answer = .variable (r.next s) := by
  obtain ⟨rfl, rfl⟩ := h
  obtain rfl := Step.eq_allocate_of_name hname
  rw [Step.run_allocate]
  exact ⟨rfl, rfl⟩

/-- The second recorder holds all that the first one held, unchanged and in front of what is new,
and has its columns in order. -/
structure Recorder.Grows (r r' : Recorder) : Prop where
  rows : r.rows <+: r'.rows
  column : ∀ m v, r.Allocated v → ∃ before after, r.ledgers.column v m = .ok before ∧
    r'.ledgers.column v m = .ok after ∧ before <+: after
  count : ∀ s, r.count s ≤ r'.count s
  numConstraints : r.numConstraints ≤ r'.numConstraints
  aligned : r'.Aligned

theorem Chronicle.column_prefix {r r' : Recorder} {acts : List Act} (h : Chronicle r acts r')
    (hr : r.Aligned) (hr' : r'.Aligned) (m : Matrix) {v : Variable} (hv : r.Allocated v) :
    ∃ before after, r.ledgers.column v m = .ok before ∧ r'.ledgers.column v m = .ok after ∧
      before <+: after := by
  obtain ⟨k, hk⟩ := Int.eq_ofNat_of_zero_le hv.2.1
  have hlt := hv.2.2
  have hle := r.count_le_replay acts v.side
  have hslot := Recorder.slot_replay h.admits v.side m k
  rw [h.replay_eq] at hle hslot
  refine ⟨_, _, hr.column_eq m hk (by omega), hr'.column_eq m hk (by omega), ?_⟩
  rw [hslot]
  exact List.prefix_append _ _

/-- Whatever was done to a recorder, it has grown. -/
theorem Chronicle.grows {r r' : Recorder} {acts : List Act} (h : Chronicle r acts r')
    (hr : r.Aligned) : r.Grows r' := by
  have haligned := hr.replay acts
  have hrows := r.rows_replay acts
  have hcount := r.count_le_replay acts
  have hconstraints := Recorder.numConstraints_le_replay h.admits
  rw [h.replay_eq] at haligned hrows hconstraints
  simp only [h.replay_eq] at hcount
  refine ⟨?_, fun m v hv => h.column_prefix hr haligned m hv, hcount, hconstraints, haligned⟩
  rw [hrows]
  exact List.prefix_append _ _

/-- Where a journal is cut that begins with a building: in front of it, inside it, or behind it. -/
theorem Act.cut_cases {opening ending : Act} {inner rest earlier later : List Act}
    (h : opening :: (inner ++ ending :: rest) = earlier ++ later) :
    earlier = [] ∨ (∃ front between, inner = front ++ between ∧ earlier = opening :: front) ∨
      ∃ front, rest = front ++ later ∧ earlier = opening :: (inner ++ ending :: front) := by
  rcases List.cons_eq_append_iff.mp h with ⟨rfl, -⟩ | ⟨cut, rfl, hcut⟩
  · exact .inl rfl
  rcases List.append_eq_append_iff.mp hcut with ⟨between, rfl, htail⟩ | ⟨between, hinner, -⟩
  · rcases List.cons_eq_append_iff.mp htail with ⟨rfl, -⟩ | ⟨front, rfl, hrest⟩
    · exact .inr (.inl ⟨inner, [], by simp⟩)
    · exact .inr (.inr ⟨front, hrest, rfl⟩)
  · exact .inr (.inl ⟨cut, between, hinner, rfl⟩)

/-- Every recorder on the way of a chronicle is the end of one. In the middle of the building of a
row, it is the chronicle that goes on into the building without the mark that opened it. -/
theorem Chronicle.exists_of_eq_append {r r' : Recorder} {acts : List Act} (h : Chronicle r acts r')
    {earlier later : List Act} (hacts : acts = earlier ++ later) :
    ∃ done, Chronicle r done (r.replay earlier) := by
  induction h generalizing earlier later with
  | nil r =>
    obtain ⟨rfl, -⟩ := List.append_eq_nil_iff.mp hacts.symm
    exact ⟨[], .nil r⟩
  | @allocated r r' acts s _ ih =>
    rcases List.cons_eq_append_iff.mp hacts with ⟨rfl, -⟩ | ⟨front, rfl, hrest⟩
    · exact ⟨[], .nil r⟩
    · obtain ⟨done, hdone⟩ := ih hrest
      rw [Recorder.replay_cons, Act.apply, Recorder.side_next]
      exact ⟨_, .allocated s hdone⟩
  | @abandoned r mid r' inner acts building _ ihb ihr =>
    rcases Act.cut_cases hacts with rfl | ⟨front, between, hinner, rfl⟩ | ⟨front, hrest, rfl⟩
    · exact ⟨[], .nil r⟩
    -- the mark that opens the building leaves the recorder as it is
    · have hfront := ihb hinner
      exact hfront
    · obtain ⟨done, hdone⟩ := ihr hrest
      simp only [Recorder.replay_cons, Recorder.replay_append, Act.apply, building.replay_eq]
      exact ⟨_, .abandoned building hdone⟩
  | @written r mid r' inner acts row building _ ihb ihr =>
    rcases Act.cut_cases hacts with rfl | ⟨front, between, hinner, rfl⟩ | ⟨front, hrest, rfl⟩
    · exact ⟨[], .nil r⟩
    · have hfront := ihb hinner
      exact hfront
    · obtain ⟨done, hdone⟩ := ihr hrest
      simp only [Recorder.replay_cons, Recorder.replay_append, Act.apply, building.replay_eq]
      exact ⟨_, .written row building hdone⟩

theorem Recording.Faithful.grows {α : Type} {x : Recording α} (hx : x.Faithful) {r : Recorder}
    (hr : r.Reachable) : r.Grows (x.run r).recorder :=
  (hx r).grows hr.aligned

namespace Session

theorem start_reachable (session : Session) : session.start.Reachable := by
  cases session with
  | bare => exact ⟨[], .nil _⟩
  | exported continuing => exact ⟨_, .allocated .input (.nil _)⟩

/-- Every step that a session logs was run on a reachable recorder, the one that the acts before
the step lead to, and made it grow. -/
theorem grows_at_every_step (session : Session) (steps : List Step) :
    ∀ e ∈ (session.run steps).log, ∃ (step : Step) (earlier during later : List Act),
      (session.run steps).journal = earlier ++ (during ++ later) ∧
        step.Entered (session.start.replay earlier) during e ∧
        (session.start.replay earlier).Reachable ∧
        Chronicle (session.start.replay earlier) during e.after ∧
        (session.start.replay earlier).Grows e.after := by
  have hlocates : Located session.start (session.run steps).journal (session.run steps).log := by
    have hclosed := Recording.Locates.closed
    cases session with
    | bare => exact (hclosed.stepsContinuing steps).2 _
    | exported continuing => exact (hclosed.exported (hclosed.circuit continuing steps)).2 _
  intro e he
  obtain ⟨step, earlier, during, later, hjournal, hentered⟩ := hlocates e he
  have hstep := hentered.chronicle
  obtain ⟨done, hdone⟩ := (session.chronicle steps).exists_of_eq_append hjournal
  have hbefore : (session.start.replay earlier).Reachable := session.start_reachable.append hdone
  exact ⟨step, earlier, during, later, hjournal, hentered, hbefore, hstep,
    hstep.grows hbefore.aligned⟩

theorem given_run (session : Session) (steps : List Step) (s : Side) :
    (session.run steps).recorder.given s =
      session.start.given s ++ Act.allocations s (session.run steps).journal := by
  have h := session.chronicle steps
  rw [← Recorder.given_replay h.admits s, h.replay_eq]

end Session

/-- On any recorder that operations lead to, steps and edits make the recorder grow, whether they
end well or not; so does every step of a run, however deep it stands. An allocation, by a step or
by an edit of a builder, returns the variable that it marks, the next one of its side. The variables
of a side that a run leaves, which are numbered from zero, are those that the recorder was handed
over with and then those that the run allocated, one after the other. -/
theorem recorder_grows {r : Recorder} (reachable : r.Reachable) :
    (∀ step : Step, r.Grows (step.run.run r).recorder) ∧
    (∀ (edit : Edit) (l : LinearCombination), r.Grows ((edit.apply l).run r).recorder) ∧
    (∀ s, (Step.allocate s).run.run r =
      ⟨r.allocate s, [], [.allocated (r.next s)], .ok (.variable (r.next s))⟩) ∧
    (∀ s l, ((Edit.fresh s).apply l).run r =
      ⟨r.allocate s, [], [.allocated (r.next s)], .ok (l.plus (r.next s))⟩) ∧
    ∀ (session : Session) (steps : List Step),
      let o := session.run steps
      (∀ e ∈ o.log, ∃ (step : Step) (earlier during later : List Act),
        o.journal = earlier ++ (during ++ later) ∧
        step.Entered (session.start.replay earlier) during e ∧
        (∀ s, e.step = (Step.allocate s).name →
          ∃ v, v = (session.start.replay earlier).next s ∧ during = [.allocated v] ∧
            e.answer = .variable v) ∧
        (session.start.replay earlier).Reachable ∧
        Chronicle (session.start.replay earlier) during e.after ∧
        (session.start.replay earlier).Grows e.after) ∧
      ∀ s, session.start.given s ++ Act.allocations s o.journal =
        (List.range (o.recorder.count s)).map fun k : Nat => ⟨s.kind, k⟩ := by
  have hclosed := Recording.Faithful.closed
  refine ⟨fun step => (hclosed.step step).grows reachable,
    fun edit l => (hclosed.edit edit l).grows reachable, fun s => Step.run_allocate s r,
    fun s l => Edit.run_fresh s l r, fun session steps => ⟨fun e he => ?_, fun s => ?_⟩⟩
  · obtain ⟨step, earlier, during, later, hjournal, hentered, hgrown⟩ :=
      session.grows_at_every_step steps e he
    exact ⟨step, earlier, during, later, hjournal, hentered,
      fun s hname => ⟨_, rfl, hentered.allocated hname⟩, hgrown⟩
  · exact (session.given_run steps s).symm

/-- A row that fails behind its first term, on a recorder with one private variable, where the next
private variable is the second; and the private variables of a program whose last builder allocates
and then gives up. -/
theorem recorder_grows_of_failing_rows :
    let r := Recorder.primed.allocate .aux
    let step : Step :=
      .enforce [.combine .plus (.variable .one), .combine .plus (.variable ⟨.aux, 3⟩)] [] []
    r.Reachable ∧ (step.run.run r).result = .error .outOfRange ∧
      r.Grows (step.run.run r).recorder ∧
      ((Step.allocate .aux).run.run r).result = .ok (.variable ⟨.aux, 1⟩) ∧
      Act.allocations .aux (Session.bare.run Step.nestedProgram).journal =
        [⟨.aux, 0⟩, ⟨.aux, 1⟩] := by
  intro r step
  have reachable : r.Reachable := ⟨_, .allocated .input (.allocated .aux (.nil _))⟩
  obtain ⟨hstep, -, hallocate, -, hsession⟩ := recorder_grows reachable
  obtain ⟨-, hallocated⟩ := hsession .bare Step.nestedProgram
  have haux : [] ++ Act.allocations .aux _ = [⟨.aux, 0⟩, ⟨.aux, 1⟩] := hallocated .aux
  exact ⟨reachable, rfl, hstep step, congrArg Outcome.result (hallocate .aux), haux⟩

end RankOne
