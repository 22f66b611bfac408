import Mathlib.Algebra.BigOperators.Fin
import Mathlib.Algebra.BigOperators.Group.List.Lemmas
import Mathlib.Data.List.GetD
import RankOne.Proofs.Rendering

/-! Between two neighbouring offsets of a pattern stand the wires of one row, so a pattern gives
back the supports it was made of, and its size is the number of wires in all rows together. -/
namespace RankOne

theorem sum_map_eq_sum_range {α : Type} (xs : List α) (f : α → Nat) (d : α) :
    (xs.map f).sum = ∑ i ∈ Finset.range xs.length, f (xs.getD i d) := by
  rw [← Fin.sum_univ_fun_getElem, Finset.sum_range]
  exact Finset.sum_congr rfl fun i _ => by simp

theorem getD_offsets (start : Nat) (ns : List Nat) {i : Nat} (h : i ≤ ns.length) :
    (offsets start ns).getD i 0 = start + (ns.take i).sum := by
  induction ns generalizing start i with
  | nil =>
    obtain rfl : i = 0 := Nat.le_zero.mp h
    rfl
  | cons n ns ih =>
    cases i with
    | zero => rfl
    | succ i =>
      have hrest := ih (start + n) (Nat.le_of_succ_le_succ h)
      simp only [offsets, List.getD_cons_succ, hrest, List.take_succ_cons, List.sum_cons]
      omega

namespace Pattern

/-- A pattern gives back its supports; there is nothing in a row that it does not have. -/
theorem row_ofSupports (numColumns : Int) (supports : List (List Int)) (i : Nat) :
    (ofSupports numColumns supports).row i = supports.getD i [] := by
  have hbounds : (ofSupports numColumns supports).row i =
      (supports.flatten.take
          ((RankOne.offsets 0 (supports.map List.length)).getD (i + 1) 0)).drop
        ((RankOne.offsets 0 (supports.map List.length)).getD i 0) := rfl
  rw [hbounds]
  by_cases hi : i < supports.length
  · have hlength : i + 1 ≤ (supports.map List.length).length := by
      rw [List.length_map]
      exact hi
    rw [getD_offsets 0 _ hlength, getD_offsets 0 _ (Nat.le_of_succ_le hlength), Nat.zero_add,
      Nat.zero_add, List.drop_take_succ_flatten_eq_getElem supports i hi]
    simp [hi]
  · have hoffset : (RankOne.offsets 0 (supports.map List.length)).length ≤ i + 1 := by
      rw [length_offsets, List.length_map]
      omega
    simp [List.getD_eq_getElem?_getD, List.getElem?_eq_none hoffset,
      List.getElem?_eq_none (Nat.le_of_not_lt hi)]

@[simp] theorem size_ofSupports (numColumns : Int) (supports : List (List Int)) :
    (ofSupports numColumns supports).size = (supports.map List.length).sum :=
  List.length_flatten

/-- The size of a pattern, counted row by row. -/
theorem size_ofSupports_eq_sum (numColumns : Int) (supports : List (List Int)) :
    (ofSupports numColumns supports).size =
      ∑ i ∈ Finset.range supports.length, ((ofSupports numColumns supports).row i).length := by
  rw [size_ofSupports, sum_map_eq_sum_range supports List.length []]
  simp only [row_ofSupports]

end Pattern

/-- What a summary says of an export and its patterns. -/
structure Summary.Describes (s : Summary) (ex : Export) (ps : Triple Pattern) : Prop where
  numConstraints : s.numConstraints = ex.numConstraints
  paddingRows : s.paddingRows = ex.numInputs
  multiplicativeRows : s.multiplicativeRows = Export.countBoth ps.a ps.b
  linearRows : s.linearRows = ex.numConstraints - Export.countBoth ps.a ps.b
  entries : s.entries = ps.map Pattern.size
  totalFanIn : s.totalFanIn = (ex.rows.map Row.fanIn).sum
  fanInRows : s.fanInRows = ex.rows.length

namespace Export
variable {ex : Export} {m : Matrix} {p : Pattern}

theorem of_pattern_eq_ok (h : ex.pattern m = .ok p) :
    p = .ofSupports ex.numVars ((fitRows ex.numConstraints (ex.wireRows m)).map ascending) := by
  rw [pattern] at h
  split at h
  · cases h
  · exact (Except.ok.inj h).symm

theorem pattern_of_patterns {ps : Triple Pattern} (h : ex.patterns = .ok ps) (m : Matrix) :
    ex.pattern m = .ok (ps.get m) := by
  rw [patterns] at h
  cases ha : ex.pattern .a with
  | error fault => simp [ha, bind, Except.bind] at h
  | ok a =>
    cases hb : ex.pattern .b with
    | error fault => simp [ha, hb, bind, Except.bind] at h
    | ok b =>
      cases hc : ex.pattern .c with
      | error fault => simp [ha, hb, hc, bind, Except.bind] at h
      | ok c =>
        simp only [ha, hb, hc] at h
        cases h
        cases m with
        | a => exact ha
        | b => exact hb
        | c => exact hc

theorem exists_of_summary_eq_ok {s : Summary} (h : ex.summary = .ok s) :
    ∃ ps, ex.patterns = .ok ps ∧ s.Describes ex ps := by
  rw [summary] at h
  cases hps : ex.patterns with
  | error fault => simp [hps, bind, Except.bind] at h
  | ok ps =>
    simp only [hps] at h
    cases h
    exact ⟨ps, rfl, ⟨rfl, rfl, rfl, rfl, rfl, rfl, rfl⟩⟩

/-- There are no patterns over more wires than a machine word counts. -/
theorem patterns_of_wordLimit_le (h : wordLimit ≤ ex.numVars) :
    ex.patterns = .error .wireTooWide := by
  have hnonneg : ¬ ex.numVars < 0 := by
    unfold wordLimit at h
    omega
  have hwide : fitsWord ex.numVars = false := by simp [fitsWord, Int.not_lt.mpr h]
  have hmisfit : misfit? ex.numConstraints ex.numVars (ex.wireRows .a) = some .wireTooWide := by
    simp [misfit?, hnonneg, hwide]
  have ha : ex.pattern .a = .error .wireTooWide := by rw [pattern, hmisfit]
  rw [patterns, ha]
  rfl

theorem row_pattern (h : ex.pattern m = .ok p) (i : Nat) :
    p.row i = ascending ((fitRows ex.numConstraints (ex.wireRows m)).getD i []) := by
  rw [of_pattern_eq_ok h, Pattern.row_ofSupports]
  exact List.getD_map _ [] ascending

/-- A row of the pattern has the wires of the terms in this row, and no others. -/
theorem mem_row_pattern_iff (h : ex.pattern m = .ok p) {i : Nat} {w : Int} :
    w ∈ p.row i ↔ ex.Mentions m i w := by
  rw [row_pattern h, mem_ascending, getD_fitRows, ← mem_wireRows_getD]
  split
  · rfl
  · next hi =>
    -- behind the last constraint there is no row with a term, else there would be no pattern
    have hnone : w ∉ (ex.wireRows m).getD i [] := fun hw =>
      hi ((fits_of_pattern_eq_ok h).row_lt i w (mem_wireRows_getD.mp hw))
    simp only [List.not_mem_nil, hnone]

end Export

end RankOne
