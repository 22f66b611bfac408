import RankOne.Proofs.Decoding
import RankOne.Proofs.Refusals

/-! The fan-in of a row counts variables and the patterns count wires. Where the export counts every
variable, no two of them have one wire, so the fan-in is also the number of wires in the row's
three patterns. -/
namespace RankOne

theorem nodup_eraseDups {α : Type} [DecidableEq α] : ∀ xs : List α, xs.eraseDups.Nodup
  | [] => List.nodup_nil
  | x :: xs => by
    rw [List.eraseDups_cons, List.nodup_cons]
    refine ⟨fun hx => ?_, nodup_eraseDups _⟩
    simpa using List.mem_eraseDups.mp hx
termination_by xs => xs.length
decreasing_by exact Nat.lt_succ_of_le (List.length_filter_le _ _)

namespace Row

theorem mem_variables {row : Row} {v : Variable} :
    v ∈ row.variables ↔ ∃ m, ∃ t ∈ (row.get m).terms, t.var = v := by
  simp only [Row.variables, List.mem_eraseDups, List.mem_flatMap, List.mem_map]
  constructor
  · rintro ⟨l, hl, hv⟩
    obtain rfl | rfl | rfl : l = row.a ∨ l = row.b ∨ l = row.c := by simpa [Triple.toList] using hl
    · exact ⟨.a, hv⟩
    · exact ⟨.b, hv⟩
    · exact ⟨.c, hv⟩
  · rintro ⟨m, hv⟩
    exact ⟨row.get m, by cases m <;> simp [Triple.toList, Triple.get], hv⟩

theorem fanIn_eq_card (row : Row) : row.fanIn = row.variables.toFinset.card :=
  (List.toFinset_card_of_nodup (nodup_eraseDups _)).symm

end Row

/-- The wires that a row has in any of the three patterns. -/
def Triple.rowWires (ps : Triple Pattern) (i : Nat) : Finset Int :=
  (ps.a.row i).toFinset ∪ (ps.b.row i).toFinset ∪ (ps.c.row i).toFinset

theorem Triple.mem_rowWires {ps : Triple Pattern} {i : Nat} {w : Int} :
    w ∈ ps.rowWires i ↔ ∃ m, w ∈ (ps.get m).row i := by
  simp only [rowWires, Finset.mem_union, List.mem_toFinset]
  constructor
  · rintro ((h | h) | h)
    · exact ⟨.a, h⟩
    · exact ⟨.b, h⟩
    · exact ⟨.c, h⟩
  · rintro ⟨m, h⟩
    cases m with
    | a => exact .inl (.inl h)
    | b => exact .inl (.inr h)
    | c => exact .inr h

/-- The fan-ins of all rows over the number of rows, as an exact number. -/
def Summary.meanFanIn (s : Summary) : ℚ := s.totalFanIn / s.fanInRows

namespace Export
variable {ex : Export} {m : Matrix} {i : Nat} {row : Row} {ps : Triple Pattern}

theorem mentions_iff (h : ex.rows[i]? = some row) {w : Int} :
    ex.Mentions m i w ↔ ∃ t ∈ (row.get m).terms, ex.wire t.var = w := by
  rw [Mentions, getElem?_combinations h]
  simp

theorem InScope.fits (h : ex.InScope) (hinputs : 0 ≤ ex.numInputs) (haux : 0 ≤ ex.numAux)
    (hvars : ex.numVars < wordLimit) (m : Matrix) : ex.Fits m where
  nonneg := add_nonneg hinputs haux
  lt_wordLimit := hvars
  wire_range i w hw := by
    obtain ⟨l, hl, t, ht, rfl⟩ := hw
    exact Export.wire_range hinputs haux (h.counts m l (List.mem_of_getElem? hl) t ht).2
  row_lt i w hw := by
    obtain ⟨l, hl, -⟩ := hw
    rw [← h.length_eq m]
    exact (List.getElem?_eq_some_iff.mp hl).1

/-- Variables that the export counts have different wires, so they can be counted by them. -/
theorem InScope.fanIn_eq (h : ex.InScope) (hps : ex.patterns = .ok ps)
    (hrow : ex.rows[i]? = some row) : row.fanIn = (ps.rowWires i).card := by
  have hcounts : ∀ v ∈ row.variables, ex.Counts v := by
    intro v hv
    obtain ⟨m, t, ht, rfl⟩ := Row.mem_variables.mp hv
    exact h.counts_of_mem (List.mem_of_getElem? hrow) m t ht
  have himage : row.variables.toFinset.image ex.wire = ps.rowWires i := by
    ext w
    simp only [Finset.mem_image, List.mem_toFinset, Row.mem_variables, Triple.mem_rowWires,
      mem_row_pattern_iff (pattern_of_patterns hps _), mentions_iff hrow]
    constructor
    · rintro ⟨v, ⟨m, t, ht, rfl⟩, hw⟩
      exact ⟨m, t, ht, hw⟩
    · rintro ⟨m, t, ht, hw⟩
      exact ⟨t.var, ⟨m, t, ht, rfl⟩, hw⟩
  have hinjective : Set.InjOn ex.wire row.variables.toFinset := by
    intro u hu v hv huv
    have hu' := hcounts u (List.mem_toFinset.mp hu)
    have hv' := hcounts v (List.mem_toFinset.mp hv)
    rw [← hu'.ofWire_wire, ← hv'.ofWire_wire, huv]
  rw [row.fanIn_eq_card, ← himage, Finset.card_image_of_injOn hinjective]

theorem card_row (hps : ex.patterns = .ok ps) (m : Matrix) (i : Nat) :
    ((ps.get m).row i).toFinset.card = ((ps.get m).row i).length := by
  rw [row_pattern (pattern_of_patterns hps m)]
  exact List.toFinset_card_of_nodup (nodup_ascending _)

theorem length_row_le (hps : ex.patterns = .ok ps) (m : Matrix) (i : Nat) :
    ((ps.get m).row i).length ≤ (ps.rowWires i).card := by
  rw [← card_row hps]
  refine Finset.card_le_card fun w hw => ?_
  exact Triple.mem_rowWires.mpr ⟨m, List.mem_toFinset.mp hw⟩

theorem card_rowWires_le (ps : Triple Pattern) (i : Nat) :
    (ps.rowWires i).card ≤ (ps.a.row i).length + (ps.b.row i).length + (ps.c.row i).length := by
  calc (ps.rowWires i).card
      ≤ ((ps.a.row i).toFinset ∪ (ps.b.row i).toFinset).card + (ps.c.row i).toFinset.card :=
        Finset.card_union_le _ _
    _ ≤ (ps.a.row i).toFinset.card + (ps.b.row i).toFinset.card + (ps.c.row i).toFinset.card :=
        Nat.add_le_add_right (Finset.card_union_le _ _) _
    _ ≤ _ := Nat.add_le_add (Nat.add_le_add (List.toFinset_card_le _) (List.toFinset_card_le _))
        (List.toFinset_card_le _)

theorem card_rowWires_le_numVars (hps : ex.patterns = .ok ps) (i : Nat) :
    ((ps.rowWires i).card : Int) ≤ ex.numVars := by
  have hnonneg := (fits_of_pattern_eq_ok (pattern_of_patterns hps .a)).nonneg
  have hsubset : ps.rowWires i ⊆ Finset.Ico 0 ex.numVars := by
    intro w hw
    obtain ⟨m, hm⟩ := Triple.mem_rowWires.mp hw
    have hp := pattern_of_patterns hps m
    exact Finset.mem_Ico.mpr
      ((fits_of_pattern_eq_ok hp).wire_range i w ((mem_row_pattern_iff hp).mp hm))
  have hcard := Finset.card_le_card hsubset
  rw [Int.card_Ico, Int.sub_zero] at hcard
  omega

theorem size_eq_sum (hps : ex.patterns = .ok ps) (m : Matrix) :
    (ps.get m).size = ∑ i ∈ Finset.range ex.numConstraints, ((ps.get m).row i).length := by
  rw [of_pattern_eq_ok (pattern_of_patterns hps m), Pattern.size_ofSupports_eq_sum,
    List.length_map, length_fitRows]

theorem InScope.sum_fanIn (h : ex.InScope) (hps : ex.patterns = .ok ps) :
    (ex.rows.map Row.fanIn).sum = ∑ i ∈ Finset.range ex.numConstraints, (ps.rowWires i).card := by
  rw [sum_map_eq_sum_range ex.rows Row.fanIn (.const .zero), h.length_rows]
  refine Finset.sum_congr rfl fun i hi => h.fanIn_eq hps ?_
  rw [← h.length_rows, Finset.mem_range] at hi
  rw [List.getD_eq_getElem _ _ hi, List.getElem?_eq_getElem hi]

theorem InScope.size_le (h : ex.InScope) (hps : ex.patterns = .ok ps) (m : Matrix) :
    (ps.get m).size ≤ (ex.rows.map Row.fanIn).sum := by
  rw [size_eq_sum hps, h.sum_fanIn hps]
  exact Finset.sum_le_sum fun i _ => length_row_le hps m i

theorem InScope.sum_fanIn_le (h : ex.InScope) (hps : ex.patterns = .ok ps) :
    (ex.rows.map Row.fanIn).sum ≤ ps.a.size + ps.b.size + ps.c.size := by
  have ha := size_eq_sum hps .a
  have hb := size_eq_sum hps .b
  have hc := size_eq_sum hps .c
  simp only [Triple.get] at ha hb hc
  rw [h.sum_fanIn hps, ha, hb, hc, ← Finset.sum_add_distrib, ← Finset.sum_add_distrib]
  exact Finset.sum_le_sum fun i _ => card_rowWires_le ps i

end Export

theorem Summary.meanFanIn_mul {s : Summary} (h : s.fanInRows = 0 → s.totalFanIn = 0) :
    s.meanFanIn * s.fanInRows = s.totalFanIn := by
  rw [meanFanIn]
  by_cases hrows : s.fanInRows = 0
  · rw [hrows, h hrows]
    simp
  · exact div_mul_cancel₀ _ (Nat.cast_ne_zero.mpr hrows)

/-- The fan-in of a row is the number of wires that it has in any of the three patterns. It is at
least the size of the row in each of them, at most the sum of the three, and at most the number of
wires. The mean over all rows, zero when there are none, is the number whose text is shown; times the
number of rows it lies between the size of each pattern and that of all three together. When the
counts are not negative, a summary is made unless there are more wires than a machine word counts. -/
theorem fanIn_counts_wires {ex : Export} (h : ex.InScope) :
    (0 ≤ ex.numInputs → 0 ≤ ex.numAux →
      (ex.numVars < wordLimit → ∃ s, ex.summary = .ok s) ∧
      (wordLimit ≤ ex.numVars → ex.summary = .error .wireTooWide)) ∧
    ∀ s, ex.summary = .ok s → ∃ ps, ex.patterns = .ok ps ∧
      (∀ i row, ex.rows[i]? = some row →
        row.fanIn = (ps.rowWires i).card ∧ (∀ m, ((ps.get m).row i).length ≤ row.fanIn) ∧
        row.fanIn ≤ ex.numVars ∧
        row.fanIn ≤ (ps.a.row i).length + (ps.b.row i).length + (ps.c.row i).length) ∧
      s.meanFanIn = ((ex.rows.map Row.fanIn).sum : ℚ) / ex.numConstraints ∧
      s.averageText = Decimal.quotientText (ex.rows.map Row.fanIn).sum ex.numConstraints ∧
      (ex.numConstraints = 0 → s.meanFanIn = 0 ∧ s.averageText = "0.0") ∧
      (∀ m, s.entries.get m ≤ s.meanFanIn * s.numConstraints) ∧
      s.meanFanIn * s.numConstraints ≤ s.entries.a + s.entries.b + s.entries.c := by
  refine ⟨fun hinputs haux => ⟨fun hvars => Export.exists_summary (h.fits hinputs haux hvars),
    fun hvars => Export.summary_eq_error_iff.mpr (Export.patterns_of_wordLimit_le hvars)⟩,
    fun s hs => ?_⟩
  obtain ⟨ps, hps, hdescribes⟩ := Export.exists_of_summary_eq_ok hs
  have htotal := hdescribes.totalFanIn
  have hover : s.fanInRows = ex.numConstraints := hdescribes.fanInRows.trans h.length_rows
  have hempty : s.fanInRows = 0 → s.totalFanIn = 0 := by
    intro hzero
    rw [hover, ← h.length_rows, List.length_eq_zero_iff] at hzero
    rw [htotal, hzero]
    rfl
  have hproduct : s.meanFanIn * s.numConstraints = ((ex.rows.map Row.fanIn).sum : ℚ) := by
    rw [hdescribes.numConstraints, ← hover, s.meanFanIn_mul hempty, htotal]
  refine ⟨ps, hps, fun i row hrow => ?_, ?_, ?_, fun hzero => ⟨?_, ?_⟩, fun m => ?_, ?_⟩
  · rw [h.fanIn_eq hps hrow]
    exact ⟨rfl, fun m => Export.length_row_le hps m i, Export.card_rowWires_le_numVars hps i,
      Export.card_rowWires_le ps i⟩
  · rw [Summary.meanFanIn, htotal, hover]
  · rw [Summary.averageText, htotal, hover]
  · rw [Summary.meanFanIn, hover, hzero, Nat.cast_zero, div_zero]
  · rw [Summary.averageText, Decimal.quotientText, if_pos (.inr (hover.trans hzero))]
  · rw [hproduct, hdescribes.entries, Triple.get_map]
    exact Nat.cast_le.mpr (h.size_le hps m)
  · rw [hproduct, hdescribes.entries]
    exact_mod_cast h.sum_fanIn_le hps

/-- A row with one variable in all three combinations, twice in the first, and a row whose only term
is zero times the constant. -/
def Export.entangled : Export :=
  { combinations :=
      ⟨[⟨[⟨2, ⟨.aux, 0⟩⟩, ⟨-2, ⟨.aux, 0⟩⟩, ⟨1, ⟨.input, 0⟩⟩]⟩, .zero],
        [⟨[⟨1, ⟨.aux, 0⟩⟩]⟩, ⟨[⟨0, .one⟩]⟩],
        [⟨[⟨1, ⟨.aux, 1⟩⟩, ⟨1, ⟨.aux, 0⟩⟩]⟩, .zero]⟩
    numInputs := 1
    numAux := 2
    ledgers := .empty }

/-- The first row has six terms of three variables, the second one of one, and the mean is two. -/
theorem fanIn_of_entangled :
    Export.entangled.InScope ∧ ∃ s ps, Export.entangled.summary = .ok s ∧
      Export.entangled.patterns = .ok ps ∧ (ps.rowWires 0).card = 3 ∧ (ps.rowWires 1).card = 1 ∧
      s.meanFanIn = 2 ∧ s.entries.a ≤ (4 : ℚ) ∧ (4 : ℚ) ≤ s.entries.a + s.entries.b + s.entries.c := by
  have hscope : Export.entangled.InScope := by
    constructor <;> intro m <;> cases m <;> decide
  obtain ⟨hmade, hcounts⟩ := fanIn_counts_wires hscope
  obtain ⟨s, hs⟩ := (hmade (by decide) (by decide)).1 (by decide)
  obtain ⟨ps, hps, hrows, hmean, -, -, hlower, hupper⟩ := hcounts s hs
  have hfirst : Row.fanIn _ = (ps.rowWires 0).card := (hrows 0 _ rfl).1
  have hsecond : Row.fanIn _ = (ps.rowWires 1).card := (hrows 1 _ rfl).1
  have htotal : (Export.entangled.rows.map Row.fanIn).sum = 4 := by decide
  have hnumber : Export.entangled.numConstraints = 2 := rfl
  have hmean' : s.meanFanIn = 2 := by
    rw [hmean, htotal, hnumber]
    norm_num
  obtain ⟨_, _, hdescribes⟩ := Export.exists_of_summary_eq_ok hs
  rw [hmean', hdescribes.numConstraints, hnumber] at hlower hupper
  refine ⟨hscope, s, ps, hs, hps, hfirst.symm.trans (by decide), hsecond.symm.trans (by decide),
    hmean', ?_, ?_⟩
  · exact (hlower .a).trans (by norm_num)
  · exact le_trans (by norm_num) hupper

end RankOne
