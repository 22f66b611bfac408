import RankOne.Proofs.Support

/-! A pattern keeps its rows in the one canonical form of compressed rows, so exports with the same
counts whose rows mention the same wires have the same patterns. -/
namespace RankOne

theorem head?_offsets (start : Nat) (ns : List Nat) : (offsets start ns).head? = some start := by
  cases ns <;> rfl

theorem getLast?_offsets (start : Nat) (ns : List Nat) :
    (offsets start ns).getLast? = some (start + ns.sum) := by
  induction ns generalizing start with
  | nil => rfl
  | cons n ns ih =>
    rw [offsets, List.getLast?_cons, ih, Option.getD_some, List.sum_cons, Nat.add_assoc]

theorem le_of_mem_offsets {start x : Nat} {ns : List Nat} (h : x ∈ offsets start ns) :
    start ≤ x := by
  induction ns generalizing start with
  | nil =>
    rw [offsets, List.mem_singleton] at h
    exact h.ge
  | cons n ns ih =>
    rcases List.mem_cons.mp h with rfl | h
    · exact le_rfl
    · exact Nat.le_of_add_right_le (ih h)

theorem pairwise_offsets (start : Nat) (ns : List Nat) :
    (offsets start ns).Pairwise (· ≤ ·) := by
  induction ns generalizing start with
  | nil => exact List.pairwise_singleton _ _
  | cons n ns ih =>
    refine List.pairwise_cons.mpr ⟨fun x hx => ?_, ih (start + n)⟩
    exact Nat.le_of_add_right_le (le_of_mem_offsets hx)

namespace Pattern

/-- Compressed rows in canonical form. -/
structure Canonical (p : Pattern) : Prop where
  length_offsets : p.offsets.length = p.numRows + 1
  head_offsets : p.offsets.head? = some 0
  pairwise_offsets : p.offsets.Pairwise (· ≤ ·)
  last_offsets : p.offsets.getLast? = some p.size
  pairwise_row : ∀ i, (p.row i).Pairwise (· < ·)
  row_range : ∀ i, ∀ w ∈ p.row i, 0 ≤ w ∧ w < p.numColumns
  data : p.data = List.replicate p.size 1

end Pattern

namespace Export
variable {ex ex' : Export} {m : Matrix} {p : Pattern}

theorem numRows_pattern (h : ex.pattern m = .ok p) : p.numRows = ex.numConstraints := by
  rw [of_pattern_eq_ok h, Pattern.ofSupports, List.length_map, length_fitRows]

theorem numColumns_pattern (h : ex.pattern m = .ok p) : p.numColumns = ex.numVars := by
  rw [of_pattern_eq_ok h, Pattern.ofSupports]

theorem canonical_pattern (h : ex.pattern m = .ok p) : p.Canonical where
  length_offsets := by
    rw [of_pattern_eq_ok h, Pattern.ofSupports, length_offsets, List.length_map]
  head_offsets := by
    rw [of_pattern_eq_ok h]
    exact head?_offsets 0 _
  pairwise_offsets := by
    rw [of_pattern_eq_ok h]
    exact pairwise_offsets 0 _
  last_offsets := by
    rw [of_pattern_eq_ok h, Pattern.size_ofSupports, Pattern.ofSupports, getLast?_offsets,
      Nat.zero_add]
  pairwise_row i := by
    rw [row_pattern h]
    exact pairwise_ascending _
  row_range i w hw := by
    rw [numColumns_pattern h]
    exact (fits_of_pattern_eq_ok h).wire_range i w ((mem_row_pattern_iff h).mp hw)
  data := by
    rw [of_pattern_eq_ok h, Pattern.ofSupports, Pattern.size, List.map_const']

/-- Patterns and faults depend only on the counts and on which wires each row mentions. -/
theorem patterns_congr (hrows : ex.numConstraints = ex'.numConstraints)
    (hvars : ex.numVars = ex'.numVars) (h : ∀ m i w, ex.Mentions m i w ↔ ex'.Mentions m i w) :
    ex.patterns = ex'.patterns := by
  rw [patterns, patterns, pattern_congr hrows hvars (h .a), pattern_congr hrows hvars (h .b),
    pattern_congr hrows hvars (h .c)]

end Export

/-- Every pattern that is made has one row for every constraint and one column for every wire, is
canonical, and has in each row the wires that the terms of this row have. Another export with the
same counts whose rows mention the same wires has the same patterns. -/
theorem patterns_canonical {ex : Export} {ps : Triple Pattern} (h : ex.patterns = .ok ps) :
    (∀ m, (ps.get m).numRows = ex.numConstraints ∧ (ps.get m).numColumns = ex.numVars ∧
      (ps.get m).Canonical ∧ ∀ i w, w ∈ (ps.get m).row i ↔ ex.Mentions m i w) ∧
    ∀ ex' : Export, ex'.numConstraints = ex.numConstraints → ex'.numVars = ex.numVars →
      (∀ m i w, ex'.Mentions m i w ↔ ex.Mentions m i w) → ex'.patterns = .ok ps := by
  refine ⟨fun m => ?_, fun ex' hrows hvars hwires => ?_⟩
  · have hm := Export.pattern_of_patterns h m
    exact ⟨Export.numRows_pattern hm, Export.numColumns_pattern hm, Export.canonical_pattern hm,
      fun i w => Export.mem_row_pattern_iff hm⟩
  · rw [Export.patterns_congr hrows hvars hwires, h]

/-- A wire that occurs 256 times, a coefficient that is zero and terms that cancel. There are no rows
of `B`, and one more of `C` than there are constraints. -/
def Export.repetitive : Export :=
  { combinations :=
      ⟨[⟨List.replicate 256 ⟨1, .one⟩⟩,
          ⟨[⟨0, ⟨.aux, 0⟩⟩, ⟨3, ⟨.input, 1⟩⟩, ⟨-3, ⟨.input, 1⟩⟩]⟩],
        [], [.zero, .zero, .zero]⟩
    numInputs := 2
    numAux := 1
    ledgers := .empty }

theorem patterns_canonical_of_repetitive :
    ∃ ps, Export.repetitive.patterns = .ok ps ∧ (∀ m, (ps.get m).Canonical) ∧
      0 ∈ ps.a.row 0 ∧ (1 ∈ ps.a.row 1 ∧ 2 ∈ ps.a.row 1) ∧ ps.b.numRows = 2 ∧ ps.c.numRows = 2 := by
  have hok : Export.repetitive.patterns.isOk = true := by decide +kernel
  obtain ⟨ps, hps⟩ : ∃ ps, Export.repetitive.patterns = .ok ps := by
    cases hps : Export.repetitive.patterns with
    | ok ps => exact ⟨ps, rfl⟩
    | error fault =>
      rw [hps] at hok
      cases hok
  obtain ⟨hpattern, -⟩ := patterns_canonical hps
  obtain ⟨-, -, -, ha⟩ := hpattern .a
  refine ⟨_, hps, fun m => (hpattern m).2.2.1, (ha 0 0).mpr ?_, ⟨(ha 1 1).mpr ?_, (ha 1 2).mpr ?_⟩,
    (hpattern .b).1, (hpattern .c).1⟩
  · exact ⟨_, rfl, ⟨1, .one⟩, by decide, rfl⟩
  · exact ⟨_, rfl, ⟨3, ⟨.input, 1⟩⟩, by decide, rfl⟩
  · exact ⟨_, rfl, ⟨0, ⟨.aux, 0⟩⟩, by decide, rfl⟩

end RankOne
