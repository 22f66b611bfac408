import RankOne.Proofs.Chronicle

/-! A row is nested when another row was opened while it was being built. Without nesting nothing is
written between the opening mark of a row and its writing, so its number is the count of
constraints at its writing. -/
namespace RankOne

/-- No row is opened while another is being built. The flag tells whether one is being built when
the journal begins. -/
def Act.unnested : Bool → List Act → Bool
  | _, [] => true
  | building, .allocated _ :: acts => unnested building acts
  | building, .opened :: acts => !building && unnested true acts
  | _, .abandoned :: acts => unnested false acts
  | _, .wrote _ :: acts => unnested false acts

theorem Act.unnested_of_append {b : Bool} {xs ys : List Act} (h : unnested b (xs ++ ys) = true) :
    unnested b xs = true := by
  induction xs generalizing b with
  | nil => rfl
  | cons act xs ih =>
    cases act with
    | allocated v => exact ih (b := b) h
    | opened =>
      simp only [List.cons_append, unnested, Bool.and_eq_true] at h ⊢
      exact ⟨h.1, ih h.2⟩
    | abandoned => exact ih (b := false) h
    | wrote w => exact ih (b := false) h

namespace Chronicle

/-- In the middle of a building that is not nested, a chronicle writes no row. -/
theorem writings_of_unnested {r r' : Recorder} {acts : List Act} (h : Chronicle r acts r')
    {rest : List Act} (hu : Act.unnested true (acts ++ rest) = true) :
    Act.writings acts = [] ∧ Act.unnested true rest = true := by
  induction h with
  | nil => exact ⟨rfl, hu⟩
  | allocated s _ ih => exact ih hu
  | abandoned _ _ _ _ => simp [Act.unnested] at hu
  | written _ _ _ _ _ => simp [Act.unnested] at hu

/-- A chronicle leaves off where it began: between two rows, or inside the one that was being
built. -/
theorem unnested_append {r r' : Recorder} {acts : List Act} (h : Chronicle r acts r')
    {b : Bool} (hu : Act.unnested b acts = true) {rest : List Act}
    (hrest : Act.unnested b rest = true) : Act.unnested b (acts ++ rest) = true := by
  induction h generalizing b rest with
  | nil => exact hrest
  | allocated s _ ih => exact ih hu hrest
  | abandoned hbuilding _ ihb ihr =>
    cases b with
    | true => simp [Act.unnested] at hu
    | false =>
      have hafter := ihr (writings_of_unnested hbuilding hu).2 hrest
      rw [List.cons_append, List.append_assoc]
      exact ihb (b := true) (Act.unnested_of_append hu) hafter
  | written row hbuilding _ ihb ihr =>
    cases b with
    | true => simp [Act.unnested] at hu
    | false =>
      have hafter := ihr (writings_of_unnested hbuilding hu).2 hrest
      rw [List.cons_append, List.append_assoc]
      exact ihb (b := true) (Act.unnested_of_append hu) hafter

/-- Every row of a chronicle was opened, built and written in this order. The acts of its building
are a chronicle from the recorder that opened it to the one that took it, and write no row when
nothing is nested. -/
theorem exists_building {r r' : Recorder} {acts : List Act} (h : Chronicle r acts r')
    {w : Writing} (hw : w ∈ Act.writings acts) :
    ∃ earlier inner later, acts = earlier ++ .opened :: (inner ++ .wrote w :: later) ∧
      w.begun = r.replay earlier ∧ Chronicle w.begun inner w.before ∧
      (Act.unnested false acts = true → Act.writings inner = []) := by
  induction h with
  | nil => simp at hw
  | @allocated r r' acts s _ ih =>
    obtain ⟨earlier, inner, later, rfl, hbegun, hinner, hu⟩ := ih hw
    have hside : (r.next s).side = s := by simp [Recorder.next, Variable.side]
    refine ⟨.allocated (r.next s) :: earlier, inner, later, rfl, ?_, hinner, hu⟩
    rw [hbegun, Recorder.replay_cons, Act.apply, hside]
  | @abandoned r mid r' building acts hbuilding _ ihb ihr =>
    simp only [Act.writings_opened, Act.writings_append, Act.writings_abandoned,
      List.mem_append] at hw
    rcases hw with hw | hw
    -- a row written inside a building contradicts the absence of nesting
    · obtain ⟨earlier, inner, later, hacts, hbegun, hinner, -⟩ := ihb hw
      refine ⟨.opened :: earlier, inner, later ++ .abandoned :: acts, by simp [hacts], hbegun,
        hinner, fun hu => ?_⟩
      have hnone := (writings_of_unnested hbuilding hu).1
      simp [hnone] at hw
    · obtain ⟨earlier, inner, later, hacts, hbegun, hinner, hu⟩ := ihr hw
      refine ⟨.opened :: (building ++ .abandoned :: earlier), inner, later, by simp [hacts], ?_,
        hinner, fun hu' => hu ?_⟩
      · rw [hbegun, Recorder.replay_cons, Recorder.replay_append, Recorder.replay_cons]
        simp [Act.apply, hbuilding.replay_eq]
      · exact (writings_of_unnested hbuilding hu').2
  | @written r mid r' building acts row hbuilding _ ihb ihr =>
    simp only [Act.writings_opened, Act.writings_append, Act.writings_wrote, List.mem_append,
      List.mem_cons] at hw
    rcases hw with hw | rfl | hw
    · obtain ⟨earlier, inner, later, hacts, hbegun, hinner, -⟩ := ihb hw
      refine ⟨.opened :: earlier, inner, later ++ .wrote ⟨r, row, mid⟩ :: acts, by simp [hacts],
        hbegun, hinner, fun hu => ?_⟩
      have hnone := (writings_of_unnested hbuilding hu).1
      simp [hnone] at hw
    · refine ⟨[], building, acts, rfl, rfl, hbuilding, fun hu => ?_⟩
      exact (writings_of_unnested hbuilding hu).1
    · obtain ⟨earlier, inner, later, hacts, hbegun, hinner, hu⟩ := ihr hw
      refine ⟨.opened :: (building ++ .wrote ⟨r, row, mid⟩ :: earlier), inner, later,
        by simp [hacts], ?_, hinner, fun hu' => hu ?_⟩
      · rw [hbegun, Recorder.replay_cons, Recorder.replay_append, Recorder.replay_cons]
        simp [Act.apply, hbuilding.replay_eq, Writing.number]
      · exact (writings_of_unnested hbuilding hu').2

/-- Without nesting, the recorder that takes a row is the one that stood when it was opened, but
for the variables allocated since. -/
theorem before_eq_begun {r r' : Recorder} {acts : List Act} (h : Chronicle r acts r')
    (hu : Act.unnested false acts = true) {w : Writing} (hw : w ∈ Act.writings acts) :
    w.before.rows = w.begun.rows ∧ w.before.numConstraints = w.number := by
  obtain ⟨earlier, inner, later, -, -, hinner, hnone⟩ := h.exists_building hw
  have hrows := w.begun.rows_replay inner
  have hcount := Recorder.numConstraints_replay hinner.admits
  rw [hinner.replay_eq, hnone hu] at hrows hcount
  exact ⟨by simpa using hrows, by simpa [Writing.number] using hcount⟩

end Chronicle

end RankOne
