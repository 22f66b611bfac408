import RankOne.Proofs.CanonicalPatterns
import RankOne.Proofs.FanIn
import RankOne.Proofs.Scope

/-! A summary is counted on compressed patterns; here it is told from the rows that a circuit
recorded. Padding rows are linear and have one entry each, in `A`, where they are the identity
on the wires of the inputs. -/
namespace RankOne

theorem length_ascending (ws : List Int) : (ascending ws).length = ws.toFinset.card := by
  rw [← List.toFinset_card_of_nodup (nodup_ascending ws)]
  congr 1
  ext w
  rw [List.mem_toFinset, List.mem_toFinset, mem_ascending]

namespace Pattern

theorem rowSizes_ofSupports (numColumns : Int) (supports : List (List Int)) :
    (ofSupports numColumns supports).rowSizes = supports.map List.length := by
  apply List.ext_getElem
  · simp [rowSizes, ofSupports]
  · intro i hi hi'
    have hlength : i + 1 ≤ (supports.map List.length).length := hi'
    have hoffset := getD_offsets 0 (supports.map List.length) (Nat.le_of_succ_le hlength)
    have hnext := getD_offsets 0 (supports.map List.length) hlength
    rw [List.sum_take_succ _ i hi'] at hnext
    simp only [rowSizes, bounds, ofSupports, List.getElem_map, List.getElem_range, hoffset, hnext]
    omega

/-- The number at a place of the matrix: the data beside the wire in the row, added up. -/
def entry (p : Pattern) (i : Nat) (w : Int) : Int :=
  let (start, stop) := p.bounds i
  (((((p.wires.zip p.data).take stop).drop start).filter fun e => e.1 = w).map Prod.snd).sum

/-- The matrix is zero but at the wires of the rows, and one there. -/
theorem Canonical.entry_eq {p : Pattern} (h : p.Canonical) (i : Nat) (w : Int) :
    p.entry i w = if w ∈ p.row i then 1 else 0 := by
  have hzip : p.wires.zip p.data = p.wires.map fun x => (x, 1) := by
    rw [h.data, size, ← List.map_const', List.map_prod_left_eq_zip]
  have hrow : ((p.wires.zip p.data).take (p.bounds i).2).drop (p.bounds i).1 =
      (p.row i).map fun x => (x, 1) := by
    rw [hzip, ← List.map_take, ← List.map_drop]
    rfl
  have hcount : p.entry i w = (p.row i).count w := by
    show (((((p.wires.zip p.data).take (p.bounds i).2).drop (p.bounds i).1).filter fun e =>
      e.1 = w).map Prod.snd).sum = _
    rw [hrow, List.filter_map, List.map_map, List.count_eq_length_filter]
    simp [Function.comp_def, beq_eq_decide]
  have hnodup : (p.row i).Nodup := (h.pairwise_row i).imp Int.ne_of_lt
  rw [hcount, hnodup.count]
  split <;> rfl

end Pattern

/-- Both factors have terms, whatever these add up to. -/
def Row.Multiplies (row : Row) : Prop := row.a.terms ≠ [] ∧ row.b.terms ≠ []

instance : DecidablePred Row.Multiplies := fun row =>
  inferInstanceAs (Decidable (row.a.terms ≠ [] ∧ row.b.terms ≠ []))

namespace Export

/-- The wires that a combination mentions. -/
def wires (ex : Export) (l : LinearCombination) : Finset Int :=
  (l.terms.map fun t => ex.wire t.var).toFinset

theorem mem_wires {ex : Export} {l : LinearCombination} {w : Int} :
    w ∈ ex.wires l ↔ ∃ t ∈ l.terms, ex.wire t.var = w := by
  rw [wires, List.mem_toFinset, List.mem_map]

theorem card_wires_pos_iff {ex : Export} {l : LinearCombination} :
    0 < (ex.wires l).card ↔ l.terms ≠ [] := by
  simp [wires, Finset.card_pos]

end Export

namespace Recorder
variable {r : Recorder} {m : Matrix} {p : Pattern} {s : Summary}

/-- The pattern of a recorder, row by row. -/
theorem pattern_eq (h : r.toExport.pattern m = .ok p) :
    p = .ofSupports r.toExport.numVars (r.rows.map fun row =>
      ascending ((row.get m).terms.map fun t => r.toExport.wire t.var)) := by
  rw [Export.of_pattern_eq_ok h, r.fitRows_wireRows, Export.wireRows, get_combinations_toExport,
    combinations, List.map_map, List.map_map]
  rfl

theorem rowSizes_eq (h : r.toExport.pattern m = .ok p) :
    p.rowSizes = r.rows.map fun row => (r.toExport.wires (row.get m)).card := by
  rw [pattern_eq h, Pattern.rowSizes_ofSupports, List.map_map]
  exact List.map_congr_left fun row _ => length_ascending _

theorem size_eq_sum_wires (h : r.toExport.pattern m = .ok p) :
    p.size = (r.rows.map fun row => (r.toExport.wires (row.get m)).card).sum := by
  rw [pattern_eq h, Pattern.size_ofSupports, List.map_map]
  exact congrArg List.sum (List.map_congr_left fun row _ => length_ascending _)

/-- The multiplicative rows are those that have terms in both factors. -/
theorem countBoth_eq {ps : Triple Pattern} (h : r.toExport.patterns = .ok ps) :
    Export.countBoth ps.a ps.b = r.rows.countP (Row.Multiplies ·) := by
  have ha : ps.a.rowSizes = r.rows.map fun row => (r.toExport.wires row.a).card :=
    rowSizes_eq (Export.pattern_of_patterns h .a)
  have hb : ps.b.rowSizes = r.rows.map fun row => (r.toExport.wires row.b).card :=
    rowSizes_eq (Export.pattern_of_patterns h .b)
  rw [Export.countBoth, ha, hb, List.zip_map', ← List.countP_eq_length_filter, List.countP_map]
  refine List.countP_congr fun row _ => ?_
  have hrow : row.Multiplies ↔
      0 < (r.toExport.wires row.a).card ∧ 0 < (r.toExport.wires row.b).card :=
    and_congr Export.card_wires_pos_iff.symm Export.card_wires_pos_iff.symm
  simp only [Function.comp_apply, Bool.decide_and, Bool.and_eq_true, decide_eq_true_eq, hrow]

/-- The summary as it is counted on the rows. -/
def tally (r : Recorder) : Summary :=
  let multiplicative := r.rows.countP (Row.Multiplies ·)
  let wires (m : Matrix) := (r.rows.map fun row => (r.toExport.wires (row.get m)).card).sum
  { numConstraints := r.rows.length
    numInputs := r.numInputs
    numAux := r.numAux
    numVars := r.numInputs + r.numAux
    paddingRows := r.numInputs
    multiplicativeRows := multiplicative
    linearRows := r.rows.length - multiplicative
    entries := ⟨wires .a, wires .b, wires .c⟩
    totalFanIn := (r.rows.map Row.fanIn).sum
    fanInRows := r.rows.length }

theorem multiplicativeRows_add_linearRows (r : Recorder) :
    r.tally.multiplicativeRows + r.tally.linearRows = r.tally.numConstraints :=
  Nat.add_sub_cancel' List.countP_le_length

theorem summary_eq_tally {ps : Triple Pattern} (h : r.toExport.patterns = .ok ps) :
    r.toExport.summary = .ok r.tally := by
  have hsizes : ps.map Pattern.size = r.tally.entries := by
    refine Triple.ext_get fun m => ?_
    rw [Triple.get_map, size_eq_sum_wires (Export.pattern_of_patterns h m)]
    cases m <;> rfl
  rw [Export.summary, h]
  refine congrArg Except.ok ?_
  rw [hsizes, countBoth_eq h, numConstraints_toExport, rows_toExport]
  rfl

end Recorder

theorem Row.not_multiplies_padding (i : Nat) : ¬ (padding i).Multiplies := fun h => h.2 rfl

theorem Export.wires_padding (ex : Export) (i : Nat) (m : Matrix) :
    ex.wires ((Row.padding i).get m) = if m = .a then {(i : Int)} else ∅ := by
  have hwire := ex.wire_input i
  cases m <;> simp [wires, Row.padding, Triple.get, Addend.terms, hwire]

namespace Recorder

theorem countP_multiplies_padded (r : Recorder) (n : Nat) :
    (r.padded n).rows.countP (Row.Multiplies ·) = r.rows.countP (Row.Multiplies ·) := by
  have hnone : ((List.range n).map Row.padding).countP (Row.Multiplies ·) = 0 := by
    rw [List.countP_eq_zero]
    intro row hrow
    obtain ⟨i, -, rfl⟩ := List.mem_map.mp hrow
    simp [Row.not_multiplies_padding]
  rw [padded, List.countP_append, hnone, Nat.add_zero]

theorem sum_wires_padded (r : Recorder) (n : Nat) (ex : Export) (m : Matrix) :
    ((r.padded n).rows.map fun row => (ex.wires (row.get m)).card).sum =
      (if m = .a then n else 0) + (r.rows.map fun row => (ex.wires (row.get m)).card).sum := by
  have hpadding : (((List.range n).map Row.padding).map fun row =>
      (ex.wires (row.get m)).card).sum = if m = .a then n else 0 := by
    rw [List.map_map]
    simp only [Function.comp_def, ex.wires_padding]
    split <;> simp
  rw [padded, List.map_append, List.sum_append, hpadding, Nat.add_comm]

/-- The padding row of an input, which stands behind the rows of the recorder, mentions the wire of
the input and no other. -/
theorem mentions_padded_iff (r : Recorder) {n i : Nat} (hi : i < n) {w : Int} :
    (r.padded n).toExport.Mentions .a (r.rows.length + i) w ↔ (i : Int) = w := by
  have hrow : (r.padded n).toExport.rows[r.rows.length + i]? = some (.padding i) := by
    rw [rows_toExport, padded, List.getElem?_append_right (Nat.le_add_right _ _),
      Nat.add_sub_cancel_left]
    simp [hi]
  have hwires := (r.padded n).toExport.wires_padding i .a
  rw [Export.mentions_iff hrow, ← Export.mem_wires, hwires, if_pos rfl, Finset.mem_singleton,
    eq_comm]

theorem entry_padded (r : Recorder) {n : Nat}
    (h : (r.padded n).toExport.pattern .a = .ok p) {i : Nat} (hi : i < n) (w : Int) :
    p.entry (r.rows.length + i) w = if (i : Int) = w then 1 else 0 := by
  simp only [(Export.canonical_pattern h).entry_eq, Export.mem_row_pattern_iff h,
    r.mentions_padded_iff hi]

end Recorder

/-- The summary of an exported program whose rows keep within the recorder, told from these rows.
There are as many padding rows as inputs, at least the one of the constant, and none of them is
multiplicative; in `A` each has one entry, and behind the rows of the program they are the identity
on the wires of the inputs. -/
theorem summary_of_program (continuing : Bool) (steps : List Step) {ex : Export}
    (completed : (exportCircuit (Step.circuit continuing steps)).result = .ok ex)
    (within : ∀ row ∈ ((Step.circuit continuing steps).run .primed).recorder.rows,
      row.Within ((Step.circuit continuing steps).run .primed).recorder) :
    let recorded := ((Step.circuit continuing steps).run .primed).recorder
    let k := recorded.rows.length
    let n := recorded.numInputs
    1 ≤ n ∧ ex.numInputs = n ∧ ex.rows = recorded.rows ++ (List.range n).map Row.padding ∧
    (ex.numVars < wordLimit → ∃ s ps, ex.summary = .ok s ∧ ex.patterns = .ok ps ∧
      s.numConstraints = k + n ∧ s.numInputs = n ∧ s.paddingRows = n ∧
      s.multiplicativeRows = recorded.rows.countP (Row.Multiplies ·) ∧
      s.multiplicativeRows + s.linearRows = s.numConstraints ∧ n ≤ s.linearRows ∧
      s.entries.a = n + (recorded.rows.map fun row => (ex.wires row.a).card).sum ∧
      s.entries.b = (recorded.rows.map fun row => (ex.wires row.b).card).sum ∧
      s.entries.c = (recorded.rows.map fun row => (ex.wires row.c).card).sum ∧
      (∀ w, 0 ≤ w → w < ex.numInputs → ∃ i < k + n, w ∈ ps.a.row i) ∧
      ∀ i < n, ∀ j < n, ps.a.entry (k + i) j = if i = j then 1 else 0) ∧
    (wordLimit ≤ ex.numVars → ex.summary = .error .wireTooWide) := by
  intro recorded k n
  obtain ⟨rfl, hn⟩ := (Step.circuit_faithful continuing steps).export_eq completed
  refine ⟨hn, rfl, (Recorder.rows_toExport _), fun hvars => ?_, fun hmany =>
    Export.summary_eq_error_iff.mpr (Export.patterns_of_wordLimit_le hmany)⟩
  obtain ⟨ps, hps⟩ := Recorder.exists_patterns (Recorder.rows_padded_within within) hvars
  have hpattern := Export.pattern_of_patterns hps .a
  have hconstraints : (recorded.padded n).rows.length = k + n := by simp [Recorder.padded, k]
  have hmultiplicative : (recorded.padded n).tally.multiplicativeRows =
      recorded.rows.countP (Row.Multiplies ·) := recorded.countP_multiplies_padded n
  have hsplit := (recorded.padded n).multiplicativeRows_add_linearRows
  have hlinear : n ≤ (recorded.padded n).tally.linearRows := by
    have hnumber : (recorded.padded n).tally.numConstraints = k + n := hconstraints
    have hle : recorded.rows.countP (Row.Multiplies ·) ≤ k := List.countP_le_length
    omega
  have hwires := recorded.sum_wires_padded n (recorded.padded n).toExport
  have hentry : ∀ i < n, ∀ w : Int, ps.a.entry (k + i) w = if (i : Int) = w then 1 else 0 :=
    fun i hi w => recorded.entry_padded hpattern hi w
  refine ⟨_, ps, Recorder.summary_eq_tally hps, hps, hconstraints, rfl, rfl, hmultiplicative,
    hsplit, hlinear, hwires .a, ?_, ?_, ?_, ?_⟩
  · exact (hwires .b).trans (Nat.zero_add _)
  · exact (hwires .c).trans (Nat.zero_add _)
  · intro w hlo hhi
    obtain ⟨i, rfl⟩ := Int.eq_ofNat_of_zero_le hlo
    have hi : i < n := Int.ofNat_lt.mp hhi
    exact ⟨k + i, Nat.add_lt_add_left hi k, (Export.mem_row_pattern_iff hpattern).mpr
      ((recorded.mentions_padded_iff hi).mpr rfl)⟩
  · intro i hi j _
    rw [hentry i hi]
    simp only [Int.ofNat_inj]

/-- A row that is kept though its posting fails, as its variable is allocated only later, and a row
whose terms cancel in one factor and vanish in the other. -/
def Step.belatedProgram : List Step :=
  [.attempt [.enforce [.combine .plus (.variable ⟨.aux, 0⟩)] [] []], .allocate .aux,
    .enforce
      [.combine .plus (.variable ⟨.aux, 0⟩), .combine .minus (.variable ⟨.aux, 0⟩)]
      [.combine .plus (.term ⟨0, .one⟩)] [],
    .allocate .input]

/-- Of the four rows one is multiplicative. -/
theorem summary_of_belated_program :
    let circuit := Step.circuit false Step.belatedProgram
    (∀ row ∈ (circuit.run .primed).recorder.rows, row.Within (circuit.run .primed).recorder) ∧
      ∃ ex s, (exportCircuit circuit).result = .ok ex ∧ ex.summary = .ok s ∧
        s.numConstraints = 4 ∧ s.paddingRows = 2 ∧ s.multiplicativeRows = 1 ∧ s.linearRows = 3 ∧
        s.entries = ⟨4, 1, 0⟩ := by
  intro circuit
  have within : ∀ row ∈ (circuit.run .primed).recorder.rows,
      row.Within (circuit.run .primed).recorder := by decide
  have completed : (exportCircuit circuit).result = .ok _ := rfl
  obtain ⟨-, -, -, hsummary, -⟩ := summary_of_program false Step.belatedProgram completed within
  obtain ⟨s, ps, hs, -, hconstraints, -, hpadding, hmultiplicative, hlinear, -, ha, hb, hc, -⟩ :=
    hsummary (by decide)
  have hone : s.multiplicativeRows = 1 := hmultiplicative.trans (by decide)
  have hfour : s.numConstraints = 4 := hconstraints
  refine ⟨within, _, s, completed, hs, hfour, hpadding, hone, by omega, Triple.ext_get fun m => ?_⟩
  cases m with
  | a => exact ha.trans (by decide)
  | b => exact hb.trans (by decide)
  | c => exact hc.trans (by decide)

end RankOne
