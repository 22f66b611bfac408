import Mathlib.Data.List.Nodup
import RankOne.Proofs.Fitting
import RankOne.Proofs.Solutions

/-! An export whose terms all keep within its counts can be rendered, when the counts leave room for
the wires in a machine word. -/
namespace RankOne

namespace Recorder
variable {r : Recorder}

@[simp] theorem get_combinations_toExport (r : Recorder) (m : Matrix) :
    r.toExport.combinations.get m = r.combinations m := by
  cases m <;> rfl

@[simp] theorem length_combinations (r : Recorder) (m : Matrix) :
    (r.combinations m).length = r.rows.length := by
  simp [combinations]

@[simp] theorem numConstraints_toExport (r : Recorder) :
    r.toExport.numConstraints = r.rows.length :=
  r.length_combinations .a

theorem length_wireRows (r : Recorder) (m : Matrix) :
    (r.toExport.wireRows m).length = r.toExport.numConstraints := by
  rw [Export.wireRows, get_combinations_toExport, List.length_map, length_combinations,
    numConstraints_toExport]

theorem fitRows_wireRows (r : Recorder) (m : Matrix) :
    Export.fitRows r.toExport.numConstraints (r.toExport.wireRows m) = r.toExport.wireRows m := by
  rw [Export.fitRows, length_wireRows, Nat.sub_self, List.replicate_zero, List.append_nil]
  exact List.take_of_length_le (r.length_wireRows m).le

theorem wires_range (hrows : ∀ row ∈ r.rows, row.Within r) (m : Matrix) :
    ∀ w ∈ (r.toExport.wireRows m).flatten, 0 ≤ w ∧ w < r.toExport.numVars := by
  intro w hw
  obtain ⟨wires, hwires, hmem⟩ := List.mem_flatten.mp hw
  rw [Export.wireRows, get_combinations_toExport, combinations, List.map_map] at hwires
  obtain ⟨row, hrow, rfl⟩ := List.mem_map.mp hwires
  obtain ⟨t, ht, rfl⟩ := List.mem_map.mp hmem
  exact Recorder.wire_range (hrows row hrow (m, t) (Row.mem_entries.mpr ht))

theorem fits (hrows : ∀ row ∈ r.rows, row.Within r) (hvars : r.toExport.numVars < wordLimit)
    (m : Matrix) : r.toExport.Fits m where
  nonneg := by
    simp only [Export.numVars, toExport]
    omega
  lt_wordLimit := hvars
  wire_range i w hw := wires_range hrows m w (Export.mem_flatten_wireRows.mpr ⟨i, hw⟩)
  row_lt i w hw := by
    obtain ⟨l, hl, -⟩ := hw
    obtain ⟨hlt, -⟩ := List.getElem?_eq_some_iff.mp hl
    rwa [get_combinations_toExport, length_combinations, ← numConstraints_toExport] at hlt

theorem exists_patterns (hrows : ∀ row ∈ r.rows, row.Within r)
    (hvars : r.toExport.numVars < wordLimit) : ∃ ps, r.toExport.patterns = .ok ps :=
  Export.exists_patterns (fits hrows hvars)

theorem exists_summary (hrows : ∀ row ∈ r.rows, row.Within r)
    (hvars : r.toExport.numVars < wordLimit) : ∃ s, r.toExport.summary = .ok s :=
  Export.exists_summary (fits hrows hvars)

/-- The document has the counts of the export. It lists every row, and its map lists every wire
once, those of its terms among them. -/
theorem exists_document (hrows : ∀ row ∈ r.rows, row.Within r)
    (hvars : r.toExport.numVars < wordLimit) {prime : Int} (hprime : 2 ≤ prime) :
    ∃ d, r.toExport.document prime = .ok d ∧
      d.numVars = r.toExport.numVars ∧ d.numConstraints = r.toExport.numConstraints ∧
      d.map = (List.range r.toExport.numVars.toNat).map Int.ofNat ∧
      d.numConstraints = d.constraints.length ∧
      (∀ constraint ∈ d.constraints, ∀ m, ∀ t ∈ constraint.get m,
        0 ≤ t.wire ∧ t.wire < d.numVars ∧ t.wire ∈ d.map) ∧
      d.map.Nodup ∧ ∀ w, w ∈ d.map ↔ 0 ≤ w ∧ w < d.numVars := by
  have hmap : ∀ w, w ∈ (List.range r.toExport.numVars.toNat).map Int.ofNat ↔
      0 ≤ w ∧ w < r.toExport.numVars := by
    intro w
    simp only [List.mem_map, List.mem_range]
    constructor
    · rintro ⟨k, hk, rfl⟩
      have hcast : Int.ofNat k = k := rfl
      omega
    · rintro ⟨hlo, hhi⟩
      exact ⟨w.toNat, by omega, Int.toNat_of_nonneg hlo⟩
  rw [Export.document, if_neg (by omega), if_neg (by omega)]
  refine ⟨_, rfl, rfl, rfl, rfl, ?_, fun constraint hmem m t ht => ?_, ?_, hmap⟩
  · rw [List.length_map, rows_toExport, ← r.length_combinations .a]
    rfl
  · rw [rows_toExport] at hmem
    obtain ⟨row, hrow, rfl⟩ := List.mem_map.mp hmem
    have hrange := Export.wire_mem_range (hrows row hrow) ht
    exact ⟨hrange.1, hrange.2, (hmap t.wire).mpr hrange⟩
  · exact List.Nodup.map (fun _ _ h => Int.ofNat_inj.mp h) List.nodup_range

end Recorder

end RankOne
