import RankOne.Proofs.CanonicalPatterns

/-! An export has patterns exactly when all three matrices fit; lists that are too short count as
filled up with empty rows. The fault is that of the first matrix that does not fit, also for the
summary. -/
namespace RankOne

/-- A list is gone through up to the first element that fails. -/
theorem mapM_eq_error_iff {α β ε : Type} {f : α → Except ε β} {xs : List α} {e : ε} :
    xs.mapM f = .error e ↔ ∃ before x after, xs = before ++ x :: after ∧
      (∀ y ∈ before, ∃ b, f y = .ok b) ∧ f x = .error e := by
  induction xs with
  | nil => simp [pure, Except.pure]
  | cons x xs ih =>
    cases hx : f x with
    | error e' =>
      rw [List.mapM_cons, hx]
      constructor
      · intro h
        exact ⟨[], x, xs, rfl, by simp, hx.trans (by cases h; rfl)⟩
      · rintro ⟨before, y, after, hxs, hbefore, hy⟩
        cases before with
        | nil =>
          cases hxs
          cases hx.symm.trans hy
          rfl
        | cons z before =>
          cases hxs
          obtain ⟨b, hb⟩ := hbefore x (List.mem_cons_self ..)
          cases hx.symm.trans hb
    | ok b =>
      have hrest : (x :: xs).mapM f = .error e ↔ xs.mapM f = .error e := by
        rw [List.mapM_cons, hx]
        cases xs.mapM f <;> simp [bind, Except.bind, pure, Except.pure]
      rw [hrest, ih]
      constructor
      · rintro ⟨before, y, after, rfl, hbefore, hy⟩
        exact ⟨x :: before, y, after, rfl, List.forall_mem_cons.mpr ⟨⟨b, hx⟩, hbefore⟩, hy⟩
      · rintro ⟨before, y, after, hxs, hbefore, hy⟩
        cases before with
        | nil =>
          cases hxs
          cases hx.symm.trans hy
        | cons z before =>
          cases hxs
          exact ⟨before, y, after, rfl, (List.forall_mem_cons.mp hbefore).2, hy⟩

namespace Export
variable {ex : Export} {m : Matrix} {fault : RenderFault}

theorem patterns_isOk_iff : (∃ ps, ex.patterns = .ok ps) ↔ ∀ m, ex.Fits m := by
  constructor
  · rintro ⟨ps, hps⟩ m
    exact fits_of_pattern_eq_ok (pattern_of_patterns hps m)
  · exact exists_patterns

theorem patterns_eq_error_iff_mapM :
    ex.patterns = .error fault ↔ Matrix.all.mapM ex.pattern = .error fault := by
  simp only [patterns, Matrix.all, List.mapM_cons, List.mapM_nil]
  cases ex.pattern .a with
  | error a => simp [bind, Except.bind]
  | ok a =>
    cases ex.pattern .b with
    | error b => simp [bind, Except.bind]
    | ok b => cases ex.pattern .c <;> simp [bind, Except.bind, pure, Except.pure]

/-- The fault is that of the first matrix that does not fit. -/
theorem patterns_eq_error_iff :
    ex.patterns = .error fault ↔ ∃ before m after, Matrix.all = before ++ m :: after ∧
      (∀ m' ∈ before, ex.Fits m') ∧ ex.pattern m = .error fault := by
  simp only [patterns_eq_error_iff_mapM, mapM_eq_error_iff, pattern_isOk_iff]

theorem summary_eq_error_iff : ex.summary = .error fault ↔ ex.patterns = .error fault := by
  rw [summary]
  cases ex.patterns with
  | error fault' => simp [bind, Except.bind]
  | ok ps => simp [bind, Except.bind, pure, Except.pure]

/-- The lists of all matrices, cut off or filled up with empty rows to the number of constraints. -/
def evened (ex : Export) : Export :=
  { ex with
    combinations := ex.combinations.map fun rows =>
      (rows ++ List.replicate (ex.numConstraints - rows.length) .zero).take ex.numConstraints }

theorem numConstraints_evened (ex : Export) : ex.evened.numConstraints = ex.numConstraints := by
  simp [evened, numConstraints, Triple.map]

theorem wireRows_evened (ex : Export) (m : Matrix) :
    ex.evened.wireRows m = fitRows ex.numConstraints (ex.wireRows m) := by
  have hlists : ex.evened.combinations.get m =
      (ex.combinations.get m ++ List.replicate (ex.numConstraints - (ex.combinations.get m).length)
        LinearCombination.zero).take ex.numConstraints := Triple.get_map _ _ m
  have hwire : ex.evened.wire = ex.wire := rfl
  simp [wireRows, hlists, hwire, fitRows, List.map_take]

theorem mentions_evened {i : Nat} {w : Int} :
    ex.evened.Mentions m i w ↔ i < ex.numConstraints ∧ ex.Mentions m i w := by
  rw [← mem_wireRows_getD, ← mem_wireRows_getD, wireRows_evened, getD_fitRows]
  split
  · next h => simp [h]
  · next h => simp [h]

end Export

/-- Patterns are made exactly when every matrix fits. Lists of different lengths count as evened out,
unless a row behind the last constraint has a term: then there are no patterns. A fault is the same
for the patterns and the summary: it is that of the first matrix that does not fit, and it names a
condition that this matrix breaks. -/
theorem patterns_isOk_iff_fits (ex : Export) :
    ((∃ ps, ex.patterns = .ok ps) ↔ ∀ m, ex.Fits m) ∧
    ((∀ m i w, ex.Mentions m i w → i < ex.numConstraints) → ex.patterns = ex.evened.patterns) ∧
    (∀ m i w, ex.Mentions m i w → ex.numConstraints ≤ i → ∃ fault, ex.patterns = .error fault) ∧
    (∀ fault, ex.summary = .error fault ↔ ex.patterns = .error fault) ∧
    ∀ fault, ex.patterns = .error fault ↔
      ∃ before m after, Matrix.all = before ++ m :: after ∧ (∀ m' ∈ before, ex.Fits m') ∧
        ex.Misfit m fault ∧ ex.pattern m = .error fault := by
  refine ⟨Export.patterns_isOk_iff, fun hrows => ?_, fun m i w hmention hi => ?_,
    fun fault => Export.summary_eq_error_iff, fun fault => ⟨fun h => ?_, ?_⟩⟩
  · refine Export.patterns_congr ex.numConstraints_evened.symm rfl fun m i w => ?_
    rw [Export.mentions_evened, iff_and_self]
    exact hrows m i w
  · cases hps : ex.patterns with
    | error fault => exact ⟨fault, rfl⟩
    | ok ps =>
      have hrow := (Export.patterns_isOk_iff.mp ⟨ps, hps⟩ m).row_lt i w hmention
      omega
  · obtain ⟨before, m, after, hall, hbefore, hm⟩ := Export.patterns_eq_error_iff.mp h
    exact ⟨before, m, after, hall, hbefore, Export.misfit_of_pattern_eq_error hm, hm⟩
  · rintro ⟨before, m, after, hall, hbefore, -, hm⟩
    exact Export.patterns_eq_error_iff.mpr ⟨before, m, after, hall, hbefore, hm⟩

/-- More wires than a machine word counts, of which one row mentions the first. -/
def Export.oversized : Export :=
  { combinations := ⟨[⟨[⟨-1, ⟨.aux, -wordLimit⟩⟩]⟩], [.zero], [.zero]⟩
    numInputs := wordLimit
    numAux := 0
    ledgers := .empty }

/-- Every wire of a term is small and every row is a constraint, and yet there are no patterns. -/
theorem patterns_of_oversized :
    0 ≤ Export.oversized.numVars ∧ Export.oversized.Mentions .a 0 0 ∧
      (∀ m i w, Export.oversized.Mentions m i w →
        (0 ≤ w ∧ w < Export.oversized.numVars) ∧ fitsWord w = true ∧
          i < Export.oversized.numConstraints) ∧
      ¬ ∃ ps, Export.oversized.patterns = .ok ps := by
  refine ⟨by decide, ⟨_, rfl, ⟨-1, ⟨.aux, -wordLimit⟩⟩, by decide, by decide⟩, ?_, ?_⟩
  · rintro m i w ⟨l, hl, t, ht, rfl⟩
    have hlength : (Export.oversized.combinations.get m).length = 1 := by cases m <;> rfl
    have hwire : ∀ l ∈ Export.oversized.combinations.get m, ∀ t ∈ l.terms,
        Export.oversized.wire t.var = 0 := by
      cases m <;> decide
    obtain ⟨hi, -⟩ := List.getElem?_eq_some_iff.mp hl
    rw [hlength] at hi
    rw [hwire l (List.mem_of_getElem? hl) t ht]
    exact ⟨by decide, by decide, hi⟩
  · rw [Export.patterns_of_wordLimit_le (by decide)]
    rintro ⟨ps, hps⟩
    cases hps

end RankOne
