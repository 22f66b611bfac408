import Mathlib.Data.Int.Order.Basic
import Mathlib.Data.List.GetD
import Mathlib.Data.List.Sort
import RankOne.ExportSummary

/-! A matrix of an export has a support pattern exactly when its rows fit the shape. When they do
not, the fault names a condition that they break. Both depend on the counts and on the wires of
each row only. -/
namespace RankOne

theorem max?_congr {α : Type} [LE α] [Max α] [Std.IsLinearOrder α] [Std.LawfulOrderMax α]
    {xs ys : List α} (h : ∀ x, x ∈ xs ↔ x ∈ ys) : xs.max? = ys.max? := by
  apply Option.ext
  intro x
  simp only [List.max?_eq_some_iff, h]

theorem min?_congr {α : Type} [LE α] [Min α] [Std.IsLinearOrder α] [Std.LawfulOrderMin α]
    {xs ys : List α} (h : ∀ x, x ∈ xs ↔ x ∈ ys) : xs.min? = ys.min? := by
  apply Option.ext
  intro x
  simp only [List.min?_eq_some_iff, h]

theorem ascending_congr {ws ws' : List Int} (h : ∀ w, w ∈ ws ↔ w ∈ ws') :
    ascending ws = ascending ws' := by
  refine (pairwise_ascending ws).eq_of_mem_iff (pairwise_ascending ws') fun w => ?_
  rw [mem_ascending, mem_ascending, h]

theorem fitsWord_eq_false_iff {w : Int} : fitsWord w = false ↔ w < -wordLimit ∨ wordLimit ≤ w := by
  rw [fitsWord, Bool.and_eq_false_iff, decide_eq_false_iff_not, decide_eq_false_iff_not,
    Int.not_le, Int.not_lt]

namespace Export

section
variable {rows rows' : List (List Int)}

theorem mem_flatten_iff_getD {w : Int} : w ∈ rows.flatten ↔ ∃ i, w ∈ rows.getD i [] := by
  simp only [List.mem_flatten, List.getD_eq_getElem?_getD]
  constructor
  · rintro ⟨row, hrow, hw⟩
    obtain ⟨i, hi⟩ := List.mem_iff_getElem?.mp hrow
    exact ⟨i, by rwa [hi]⟩
  · rintro ⟨i, hw⟩
    cases hi : rows[i]? with
    | none => simp [hi] at hw
    | some row => exact ⟨row, List.mem_of_getElem? hi, by rwa [hi] at hw⟩

/-- The rows that count for the last used one are those that have a wire. -/
theorem mem_used_iff {i : Nat} :
    i ∈ (rows.zipIdx.filterMap fun (row, i) => if row.isEmpty then none else some i) ↔
      ∃ w, w ∈ rows.getD i [] := by
  rw [List.getD_eq_getElem?_getD]
  constructor
  · intro h
    obtain ⟨⟨row, j⟩, hrow, hj⟩ := List.mem_filterMap.mp h
    have hget := List.mem_zipIdx_iff_getElem?.mp hrow
    dsimp only at hget hj
    split at hj
    · cases hj
    · next hne =>
      cases hj
      rw [hget]
      exact List.isEmpty_eq_false_iff_exists_mem.mp (Bool.eq_false_of_not_eq_true hne)
  · rintro ⟨w, hw⟩
    cases hi : rows[i]? with
    | none => simp [hi] at hw
    | some row =>
      rw [hi, Option.getD_some] at hw
      refine List.mem_filterMap.mpr ⟨(row, i), List.mem_zipIdx_iff_getElem?.mpr hi, ?_⟩
      simp [List.ne_nil_of_mem hw]

theorem lastUsedRow?_eq_some_iff {i : Nat} :
    lastUsedRow? rows = some i ↔
      (∃ w, w ∈ rows.getD i []) ∧ ∀ j, (∃ w, w ∈ rows.getD j []) → j ≤ i := by
  simp only [lastUsedRow?, List.max?_eq_some_iff, mem_used_iff]

/-- The misfit depends only on which wires each row has. -/
theorem misfit?_congr (h : ∀ i w, w ∈ rows.getD i [] ↔ w ∈ rows'.getD i []) (numRows : Nat)
    (numColumns : Int) : misfit? numRows numColumns rows = misfit? numRows numColumns rows' := by
  have hflatten : ∀ w, w ∈ rows.flatten ↔ w ∈ rows'.flatten := fun w => by
    simp only [mem_flatten_iff_getD, h]
  have hlast : lastUsedRow? rows = lastUsedRow? rows' :=
    max?_congr fun i => by simp only [mem_used_iff, h]
  have hwide : (rows.flatten.any fun w => !fitsWord w) = rows'.flatten.any fun w => !fitsWord w := by
    rw [Bool.eq_iff_iff]
    simp only [List.any_eq_true, hflatten]
  have hmax : rows.flatten.max? = rows'.flatten.max? := max?_congr hflatten
  have hmin : rows.flatten.min? = rows'.flatten.min? := min?_congr hflatten
  rw [misfit?, misfit?, hwide, hlast, hmax, hmin]

/-- Without a misfit the shape is possible, and every wire and every used row lies inside. -/
theorem bounds_of_misfit?_eq_none {numRows : Nat} {numColumns : Int}
    (h : misfit? numRows numColumns rows = none) :
    0 ≤ numColumns ∧ numColumns < wordLimit ∧
      ∀ i, ∀ w ∈ rows.getD i [], (0 ≤ w ∧ w < numColumns) ∧ i < numRows := by
  simp only [misfit?] at h
  split at h
  · cases h
  split at h
  · cases h
  next hnonneg =>
  split at h
  · cases h
  next hword =>
  rw [Bool.not_eq_true', fitsWord_eq_false_iff] at hword
  refine ⟨by omega, by omega, fun i w hi => ?_⟩
  have hmem : w ∈ rows.flatten := mem_flatten_iff_getD.mpr ⟨i, hi⟩
  have hused : ∃ w, w ∈ rows.getD i [] := ⟨w, hi⟩
  obtain ⟨row, hrow⟩ := Option.isSome_iff_exists.mp
    (List.isSome_max?_of_mem (mem_used_iff.mpr hused))
  obtain ⟨largest, hlargest⟩ := Option.isSome_iff_exists.mp (List.isSome_max?_of_mem hmem)
  obtain ⟨smallest, hsmallest⟩ := Option.isSome_iff_exists.mp (List.isSome_min?_of_mem hmem)
  have hlast : lastUsedRow? rows = some row := hrow
  have hrow_le := (lastUsedRow?_eq_some_iff.mp hlast).2 i hused
  have hle := (List.max?_eq_some_iff.mp hlargest).2 w hmem
  have hge := (List.min?_eq_some_iff.mp hsmallest).2 w hmem
  simp only [hlast, hlargest, hsmallest] at h
  split at h
  · cases h
  split at h
  · cases h
  split at h
  · cases h
  omega

theorem length_fitRows (n : Nat) (rows : List (List Int)) : (fitRows n rows).length = n := by
  rw [fitRows, List.length_take, List.length_append, List.length_replicate]
  omega

theorem getD_fitRows (n : Nat) (rows : List (List Int)) (i : Nat) :
    (fitRows n rows).getD i [] = if i < n then rows.getD i [] else [] := by
  simp only [fitRows, List.getD_eq_getElem?_getD, List.getElem?_take]
  split
  · rw [List.getElem?_append]
    split
    · rfl
    · next h =>
      rw [List.getElem?_eq_none (Nat.le_of_not_lt h), List.getElem?_replicate]
      split <;> rfl
  · rfl

theorem getElem_fitRows {n i : Nat} (h : i < (fitRows n rows).length) :
    (fitRows n rows)[i] = rows.getD i [] := by
  have hlt : i < n := by rwa [length_fitRows] at h
  rw [← List.getD_eq_getElem _ [] h, getD_fitRows, if_pos hlt]

end

/-- The row at a position has a term of the wire. -/
def Mentions (ex : Export) (m : Matrix) (i : Nat) (w : Int) : Prop :=
  ∃ l, (ex.combinations.get m)[i]? = some l ∧ ∃ t ∈ l.terms, ex.wire t.var = w

/-- The shape is possible, every wire of a term is inside of it, and so is every row that has a
term. -/
structure Fits (ex : Export) (m : Matrix) : Prop where
  nonneg : 0 ≤ ex.numVars
  lt_wordLimit : ex.numVars < wordLimit
  wire_range : ∀ i w, ex.Mentions m i w → 0 ≤ w ∧ w < ex.numVars
  row_lt : ∀ i w, ex.Mentions m i w → i < ex.numConstraints

/-- A fault and a condition that the matrix breaks, which the fault names. -/
inductive Misfit (ex : Export) (m : Matrix) : RenderFault → Prop
  | wideWire {i : Nat} {w : Int} :
    ex.Mentions m i w → fitsWord w = false → Misfit ex m .wireTooWide
  | wideShape : wordLimit ≤ ex.numVars → Misfit ex m .wireTooWide
  | negativeShape : ex.numVars < 0 → Misfit ex m .negativeShape
  | rowOutside {i : Nat} {w : Int} :
    ex.Mentions m i w → ex.numConstraints ≤ i → Misfit ex m (.rowOutside i ex.numConstraints)
  | wireOutside {i : Nat} {w : Int} :
    ex.Mentions m i w → ex.numVars ≤ w → Misfit ex m (.wireOutside w ex.numVars)
  | wireNegative {i : Nat} {w : Int} :
    ex.Mentions m i w → w < 0 → Misfit ex m (.wireNegative w)

variable {ex ex' : Export} {m : Matrix} {fault : RenderFault}

theorem mem_wireRows_getD {i : Nat} {w : Int} :
    w ∈ (ex.wireRows m).getD i [] ↔ ex.Mentions m i w := by
  rw [Mentions, wireRows, List.getD_eq_getElem?_getD, List.getElem?_map]
  cases (ex.combinations.get m)[i]? with
  | none => simp
  | some l => simp

theorem mem_flatten_wireRows {w : Int} :
    w ∈ (ex.wireRows m).flatten ↔ ∃ i, ex.Mentions m i w := by
  simp only [mem_flatten_iff_getD, mem_wireRows_getD]

/-- Pattern and fault depend only on the counts and on which wires each row mentions. -/
theorem pattern_congr (hrows : ex.numConstraints = ex'.numConstraints)
    (hvars : ex.numVars = ex'.numVars) (h : ∀ i w, ex.Mentions m i w ↔ ex'.Mentions m i w) :
    ex.pattern m = ex'.pattern m := by
  have hwires : ∀ i w, w ∈ (ex.wireRows m).getD i [] ↔ w ∈ (ex'.wireRows m).getD i [] := by
    simpa only [mem_wireRows_getD] using h
  have hfit : (fitRows ex'.numConstraints (ex.wireRows m)).map ascending =
      (fitRows ex'.numConstraints (ex'.wireRows m)).map ascending := by
    apply List.ext_getElem
    · rw [List.length_map, List.length_map, length_fitRows, length_fitRows]
    · intro i hi hi'
      rw [List.getElem_map, List.getElem_map, getElem_fitRows, getElem_fitRows]
      exact ascending_congr (hwires i)
  rw [pattern, pattern, hrows, hvars, misfit?_congr hwires, hfit]

/-- A fault names a condition that the matrix breaks. -/
theorem misfit_of_pattern_eq_error (h : ex.pattern m = .error fault) : ex.Misfit m fault := by
  have hmisfit : misfit? ex.numConstraints ex.numVars (ex.wireRows m) = some fault := by
    rw [pattern] at h
    split at h
    · next hfault => rwa [← Except.error.inj h]
    · cases h
  simp only [misfit?] at hmisfit
  split at hmisfit
  · next hwide =>
    obtain ⟨w, hw, hwide⟩ := List.any_eq_true.mp hwide
    obtain ⟨i, hi⟩ := mem_flatten_wireRows.mp hw
    cases hmisfit
    exact .wideWire hi (by simpa using hwide)
  split at hmisfit
  · next hneg =>
    cases hmisfit
    exact .negativeShape hneg
  split at hmisfit
  · next hnonneg hwide =>
    cases hmisfit
    rw [Bool.not_eq_true', fitsWord_eq_false_iff] at hwide
    have hpos : -wordLimit < 0 := by decide
    exact .wideShape (by omega)
  split at hmisfit
  · next row largest smallest hrow hlargest hsmallest =>
    split at hmisfit
    · next hle =>
      cases hmisfit
      obtain ⟨w, hw⟩ := (lastUsedRow?_eq_some_iff.mp hrow).1
      exact .rowOutside (mem_wireRows_getD.mp hw) hle
    split at hmisfit
    · next hle =>
      cases hmisfit
      obtain ⟨i, hi⟩ := mem_flatten_wireRows.mp (List.max?_mem hlargest)
      exact .wireOutside hi hle
    split at hmisfit
    · next hlt =>
      cases hmisfit
      obtain ⟨i, hi⟩ := mem_flatten_wireRows.mp (List.min?_mem hsmallest)
      exact .wireNegative hi hlt
    · cases hmisfit
  · cases hmisfit

theorem Fits.not_misfit (h : ex.Fits m) : ¬ ex.Misfit m fault := by
  have hlo := h.nonneg
  have hhi := h.lt_wordLimit
  rintro (⟨hi, hw⟩ | hw | hw | ⟨hi, hw⟩ | ⟨hi, hw⟩ | ⟨hi, hw⟩)
  · have hrange := h.wire_range _ _ hi
    rw [fitsWord_eq_false_iff] at hw
    unfold wordLimit at hw hhi
    omega
  · omega
  · omega
  · have hrow := h.row_lt _ _ hi
    omega
  · have hrange := h.wire_range _ _ hi
    omega
  · have hrange := h.wire_range _ _ hi
    omega

theorem fits_of_pattern_eq_ok {p : Pattern} (h : ex.pattern m = .ok p) : ex.Fits m := by
  have hfit : misfit? ex.numConstraints ex.numVars (ex.wireRows m) = none := by
    rw [pattern] at h
    split at h
    · cases h
    · assumption
  obtain ⟨hnonneg, hlimit, hrows⟩ := bounds_of_misfit?_eq_none hfit
  simp only [mem_wireRows_getD] at hrows
  exact ⟨hnonneg, hlimit, fun i w hi => (hrows i w hi).1, fun i w hi => (hrows i w hi).2⟩

theorem pattern_isOk_iff : (∃ p, ex.pattern m = .ok p) ↔ ex.Fits m := by
  constructor
  · rintro ⟨p, hp⟩
    exact fits_of_pattern_eq_ok hp
  · intro h
    cases hp : ex.pattern m with
    | ok p => exact ⟨p, rfl⟩
    | error fault => exact absurd (misfit_of_pattern_eq_error hp) h.not_misfit

theorem exists_patterns (h : ∀ m, ex.Fits m) : ∃ ps, ex.patterns = .ok ps := by
  obtain ⟨a, ha⟩ := pattern_isOk_iff.mpr (h .a)
  obtain ⟨b, hb⟩ := pattern_isOk_iff.mpr (h .b)
  obtain ⟨c, hc⟩ := pattern_isOk_iff.mpr (h .c)
  refine ⟨⟨a, b, c⟩, ?_⟩
  rw [patterns, ha, hb, hc]
  rfl

theorem exists_summary (h : ∀ m, ex.Fits m) : ∃ s, ex.summary = .ok s := by
  obtain ⟨ps, hps⟩ := exists_patterns h
  rw [summary, hps]
  exact ⟨_, rfl⟩

end Export
end RankOne
