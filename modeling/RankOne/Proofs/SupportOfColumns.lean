import RankOne.Proofs.Numbering
import RankOne.Proofs.Scope
import RankOne.Proofs.Support

/-! The support of a matrix is computed twice: from the rows when the export is rendered, and as the
row numbers in the columns while the circuit is recorded. Without nesting, failed postings and
negative indices both say the same. -/
namespace RankOne

/-- The columns of a matrix in the order of the wires. -/
def Ledgers.allColumns (l : Ledgers) (m : Matrix) : List Column :=
  l.columns .input m ++ l.columns .aux m

/-- The numbers of the rows that a column has postings of. -/
def Column.rowNumbers (column : Column) : Finset Nat := (column.map Posting.row).toFinset

theorem Column.mem_rowNumbers {column : Column} {i : Nat} :
    i ∈ Column.rowNumbers column ↔ ∃ p ∈ column, p.row = i := by
  simp [rowNumbers]

theorem length_eq_card_filter {ws : List Int} {n : Nat} (hnodup : ws.Nodup)
    (hrange : ∀ w ∈ ws, 0 ≤ w ∧ w < n) :
    ws.length = ((Finset.range n).filter fun j : Nat => (j : Int) ∈ ws).card := by
  rw [← List.toFinset_card_of_nodup hnodup,
    ← Finset.card_image_of_injective _ (Nat.cast_injective (R := Int))]
  congr 1
  ext w
  simp only [List.mem_toFinset, Finset.mem_image, Finset.mem_filter, Finset.mem_range]
  constructor
  · intro hw
    obtain ⟨hlo, hhi⟩ := hrange w hw
    have hcast : ((w.toNat : Nat) : Int) = w := Int.toNat_of_nonneg hlo
    exact ⟨w.toNat, ⟨by omega, by rwa [hcast]⟩, hcast⟩
  · rintro ⟨j, ⟨-, hj⟩, rfl⟩
    exact hj

/-- Supports by rows and by columns have equally many entries when they tell the same. -/
theorem sum_length_eq_sum_card {rows : List (List Int)} {columns : List (Finset Nat)}
    (hrows : ∀ ws ∈ rows, ws.Nodup ∧ ∀ w ∈ ws, 0 ≤ w ∧ w < columns.length)
    (hsame : ∀ i j, j < columns.length → ((j : Int) ∈ rows.getD i [] ↔ i ∈ columns.getD j ∅)) :
    (rows.map List.length).sum = (columns.map Finset.card).sum := by
  have hrow : ∀ i ∈ Finset.range rows.length, (rows.getD i []).length =
      ∑ j ∈ Finset.range columns.length, if (j : Int) ∈ rows.getD i [] then 1 else 0 := by
    intro i hi
    have hmem : rows.getD i [] ∈ rows := by
      rw [List.getD_eq_getElem _ _ (Finset.mem_range.mp hi)]
      exact List.getElem_mem _
    rw [length_eq_card_filter (hrows _ hmem).1 (hrows _ hmem).2, Finset.card_filter]
  have hcolumn : ∀ j ∈ Finset.range columns.length, (columns.getD j ∅).card =
      ∑ i ∈ Finset.range rows.length, if (j : Int) ∈ rows.getD i [] then 1 else 0 := by
    intro j hj
    rw [← Finset.card_filter]
    congr 1
    ext i
    have hiff := hsame i j (Finset.mem_range.mp hj)
    rw [Finset.mem_filter, Finset.mem_range, ← hiff, iff_and_self]
    -- a position behind the last row has no wires
    intro h
    by_contra hge
    rw [List.getD_eq_default _ _ (Nat.le_of_not_lt hge)] at h
    cases h
  rw [sum_map_eq_sum_range rows List.length [], sum_map_eq_sum_range columns Finset.card ∅,
    Finset.sum_congr rfl hrow, Finset.sum_congr rfl hcolumn, Finset.sum_comm]

namespace Writing

theorem Kept.within {w : Writing} (h : w.Kept) (ha : w.before.Aligned) : w.row.Within w.before := by
  intro e he
  have hhas := ha.fault?_eq_none_iff.mp h.1 e he
  exact ⟨h.2 e he, hhas.2⟩

end Writing

namespace Session
variable {session : Session} {steps : List Step}

theorem rows_within (kept : ∀ w ∈ session.writings steps, w.Kept) :
    ∀ row ∈ (session.run steps).recorder.rows, row.Within (session.run steps).recorder := by
  have hchronicle := session.chronicle steps
  exact hchronicle.rows_within session.rows_start fun w hw =>
    (kept w hw).within (hchronicle.aligned_before session.start_aligned hw)

/-- Without nesting, a column has a posting with a number exactly when the row at this position has
a term on the side and the index of the column. -/
theorem exists_posting_iff (kept : ∀ w ∈ session.writings steps, w.Kept)
    (unnested : Act.unnested false (session.run steps).journal = true) {m : Matrix} {v : Variable}
    {i : Nat} :
    (∃ p ∈ (session.writings steps).flatMap fun w => w.row.postings m v w.number, p.row = i) ↔
      ∃ row, (session.run steps).recorder.rows[i]? = some row ∧
        ∃ t ∈ (row.get m).terms, t.var.side = v.side ∧ t.var.index = v.index := by
  have hstarts := session.starts_of_unnested steps unnested fun w hw => (kept w hw).1
  have hnumber : ∀ {j : Nat} {w : Writing}, (session.writings steps)[j]? = some w →
      w.number = j := by
    intro j w hw
    have hget : (session.starts steps)[j]? = some w.number := by
      rw [starts, List.getElem?_map, hw]
      rfl
    rw [hstarts] at hget
    obtain ⟨hlt, heq⟩ := List.getElem?_eq_some_iff.mp hget
    rw [← heq, List.getElem_range]
  rw [rows_run, List.getElem?_map]
  constructor
  · rintro ⟨p, hp, rfl⟩
    obtain ⟨w, hw, hposting⟩ := List.mem_flatMap.mp hp
    obtain ⟨hrow, t, ht, hside, hindex, -⟩ := Row.mem_postings.mp hposting
    obtain ⟨j, hj⟩ := List.mem_iff_getElem?.mp hw
    rw [hrow, hnumber hj, hj]
    exact ⟨w.row, rfl, t, ht, hside, hindex⟩
  · rintro ⟨row, hrow, t, ht, hside, hindex⟩
    obtain ⟨w, hw, rfl⟩ := Option.map_eq_some_iff.mp hrow
    refine ⟨⟨t.coeff, i⟩, List.mem_flatMap.mpr ⟨w, List.mem_of_getElem? hw, ?_⟩, rfl⟩
    exact Row.mem_postings.mpr ⟨(hnumber hw).symm, t, ht, hside, hindex, rfl⟩

end Session

namespace Recorder
variable {r : Recorder} {m : Matrix} {p : Pattern}

theorem Aligned.column_kind (h : r.Aligned) (m : Matrix) {s : Side} {k : Nat}
    (hk : k < r.count s) :
    r.toExport.Counts ⟨s.kind, k⟩ ∧
      r.ledgers.column ⟨s.kind, k⟩ m = .ok ((r.ledgers.columns s m).getD k []) := by
  have hside : (Variable.mk s.kind k).side = s := s.side_kind
  have hcolumn := h.column_eq m (v := ⟨s.kind, k⟩) rfl (by rwa [hside])
  rw [hside] at hcolumn
  refine ⟨?_, hcolumn⟩
  rw [Export.Counts, hside, count_toExport]
  exact ⟨rfl, Int.natCast_nonneg k, Int.ofNat_lt.mpr hk⟩

theorem Aligned.length_allColumns (h : r.Aligned) (m : Matrix) :
    (r.ledgers.allColumns m).length = r.numInputs + r.numAux := by
  rw [Ledgers.allColumns, List.length_append, h, h]
  rfl

/-- The columns in the order of the wires are those of the variables that have these wires. -/
theorem Aligned.exists_column_getD (h : r.Aligned) (m : Matrix) {j : Nat}
    (hj : j < r.numInputs + r.numAux) :
    ∃ v, r.toExport.Counts v ∧ r.toExport.wire v = j ∧
      r.ledgers.column v m = .ok ((r.ledgers.allColumns m).getD j []) := by
  have hinputs : (r.ledgers.columns .input m).length = r.numInputs := h .input m
  by_cases hlt : j < r.numInputs
  · obtain ⟨hcounts, hcolumn⟩ := h.column_kind m (s := .input) hlt
    refine ⟨_, hcounts, Export.wire_input _ _, ?_⟩
    rw [hcolumn, Ledgers.allColumns, List.getD_append _ _ _ _ (by rwa [hinputs])]
  · have haux : j - r.numInputs < r.count .aux := show _ < r.numAux by omega
    obtain ⟨hcounts, hcolumn⟩ := h.column_kind m haux
    refine ⟨_, hcounts, ?_, ?_⟩
    · have hwire := r.toExport.wire_aux (j - r.numInputs : Nat)
      rw [Side.kind, hwire]
      show (r.numInputs : Int) + (j - r.numInputs : Nat) = j
      omega
    · rw [hcolumn, Ledgers.allColumns, List.getD_append_right _ _ _ _ (by omega), hinputs]

/-- Counted by columns, a pattern has as many entries as there are different numbers in each. -/
theorem Aligned.size_pattern (h : r.Aligned) (hrows : ∀ row ∈ r.rows, row.Within r)
    (hp : r.toExport.pattern m = .ok p)
    (hsame : ∀ v, r.toExport.Counts v → ∀ column, r.ledgers.column v m = .ok column →
      ∀ i, r.toExport.wire v ∈ p.row i ↔ ∃ posting ∈ column, posting.row = i) :
    p.size = ((r.ledgers.allColumns m).map fun c => (Column.rowNumbers c).card).sum := by
  have hlength := h.length_allColumns m
  have hvars : ((r.numInputs + r.numAux : Nat) : Int) = r.toExport.numVars := Int.natCast_add _ _
  have hsupports := Export.of_pattern_eq_ok hp
  rw [r.fitRows_wireRows m] at hsupports
  have hcount : p.size =
      (((r.ledgers.allColumns m).map Column.rowNumbers).map Finset.card).sum := by
    rw [hsupports, Pattern.size_ofSupports]
    refine sum_length_eq_sum_card (fun ws hws => ?_) fun i j hj => ?_
    · obtain ⟨row, hrow, rfl⟩ := List.mem_map.mp hws
      refine ⟨nodup_ascending row, fun w hw => ?_⟩
      have hrange := wires_range hrows m w (List.mem_flatten.mpr ⟨row, hrow, mem_ascending.mp hw⟩)
      rwa [List.length_map, hlength, hvars]
    · rw [List.length_map, hlength] at hj
      obtain ⟨v, hcounts, hwire, hcolumn⟩ := h.exists_column_getD m hj
      have hiff := hsame v hcounts _ hcolumn i
      rw [hwire, hsupports, Pattern.row_ofSupports, ← Column.mem_rowNumbers] at hiff
      rw [hiff, ← List.getD_map _ [] Column.rowNumbers]
      rfl
  rw [hcount, List.map_map]
  rfl

end Recorder

namespace Session
variable {session : Session} {steps : List Step}

/-- A row of the pattern has the wire of a variable exactly when the variable's column has a posting
with the number of the row. -/
theorem wire_mem_row_iff (kept : ∀ w ∈ session.writings steps, w.Kept)
    (unnested : Act.unnested false (session.run steps).journal = true) {m : Matrix} {p : Pattern}
    (hp : (session.run steps).recorder.toExport.pattern m = .ok p) {v : Variable}
    (hv : (session.run steps).recorder.toExport.Counts v) {column : Column}
    (hcolumn : (session.run steps).recorder.ledgers.column v m = .ok column) (i : Nat) :
    (session.run steps).recorder.toExport.wire v ∈ p.row i ↔
      ∃ posting ∈ column, posting.row = i := by
  have hbelow := hv.2
  rw [Recorder.count_toExport] at hbelow
  have hposted := session.column_of_kept steps kept m hbelow.1 hbelow.2
  rw [hcolumn, Except.ok.injEq] at hposted
  rw [hposted, exists_posting_iff kept unnested, Export.mem_row_pattern_iff hp, Export.Mentions,
    Recorder.get_combinations_toExport, Recorder.combinations, List.getElem?_map]
  have hterm : ∀ row, (session.run steps).recorder.rows[i]? = some row →
      ∀ t ∈ (row.get m).terms, (session.run steps).recorder.toExport.wire t.var =
        (session.run steps).recorder.toExport.wire v ↔
          t.var.side = v.side ∧ t.var.index = v.index := by
    intro row hrow t ht
    have hwithin := rows_within kept row (List.mem_of_getElem? hrow) (m, t) (Row.mem_entries.mpr ht)
    refine Export.wire_eq_wire_iff ?_ hv.2
    rwa [Recorder.count_toExport]
  constructor
  · rintro ⟨l, hl, t, ht, hwire⟩
    obtain ⟨row, hrow, rfl⟩ := Option.map_eq_some_iff.mp hl
    exact ⟨row, hrow, t, ht, (hterm row hrow t ht).mp hwire⟩
  · rintro ⟨row, hrow, t, ht, hsame⟩
    exact ⟨row.get m, by rw [hrow]; rfl, t, ht, (hterm row hrow t ht).mpr hsame⟩

end Session

namespace Recorder

/-- Padding rows are built one after the other. -/
theorem unnested_paddingActs (r : Recorder) (n : Nat) :
    Act.unnested false (r.paddingActs n) = true := by
  rw [paddingActs]
  induction List.range n with
  | nil => rfl
  | cons i indices ih => exact ih

theorem Aligned.kept_paddingActs {r : Recorder} (h : r.Aligned) :
    ∀ w ∈ Act.writings (r.paddingActs r.numInputs), w.Kept := by
  intro w hw
  refine ⟨h.posted_paddingActs w hw, ?_⟩
  rw [writings_paddingActs] at hw
  obtain ⟨i, -, rfl⟩ := List.mem_map.mp hw
  intro e he
  rw [Row.entries_padding, List.mem_singleton] at he
  rw [he]
  exact Int.natCast_nonneg i

end Recorder

namespace Session

/-- The padding that follows a circuit is kept and not nested, so the session is when the circuit
is. -/
theorem exported_of_circuit {continuing : Bool} {steps : List Step} {ex : Export}
    (completed : (exportCircuit (Step.circuit continuing steps)).result = .ok ex)
    (kept : ∀ w ∈ Act.writings ((Step.circuit continuing steps).run .primed).journal, w.Kept)
    (unnested : Act.unnested false ((Step.circuit continuing steps).run .primed).journal = true) :
    ex = ((exported continuing).run steps).recorder.toExport ∧
      (∀ w ∈ (exported continuing).writings steps, w.Kept) ∧
      Act.unnested false ((exported continuing).run steps).journal = true := by
  have hfaithful := Step.circuit_faithful continuing steps
  have haligned := hfaithful.aligned Recorder.aligned_primed
  obtain ⟨_, returned, -, -⟩ := Recording.of_bind_eq_ok completed
  have hrun := Recording.run_exported_of_ok returned haligned
  have hexport : exportCircuit (Step.circuit continuing steps) = _ := hrun
  have hjournal := congrArg Outcome.journal hexport
  refine ⟨?_, fun w hw => ?_, ?_⟩
  · rw [hexport] at completed
    rw [run, hexport]
    exact (Except.ok.inj completed).symm
  · have hmem : w ∈ Act.writings (exportCircuit (Step.circuit continuing steps)).journal := hw
    rw [hjournal, Act.writings_append] at hmem
    rcases List.mem_append.mp hmem with hown | hpadding
    · exact kept w hown
    · exact haligned.kept_paddingActs w hpadding
  · show Act.unnested false (exportCircuit (Step.circuit continuing steps)).journal = true
    rw [hjournal]
    exact (hfaithful .primed).unnested_append unnested (Recorder.unnested_paddingActs _ _)

end Session

/-- The patterns of an exported circuit that kept its rows and nested none of them are the supports
of the columns, padding included, and the sizes that the summary gives can be counted column by
column. There are patterns unless there are more wires than a machine word counts. -/
theorem patterns_of_unnested {continuing : Bool} {steps : List Step} {ex : Export}
    (completed : (exportCircuit (Step.circuit continuing steps)).result = .ok ex)
    (kept : ∀ w ∈ Act.writings ((Step.circuit continuing steps).run .primed).journal, w.Kept)
    (unnested : Act.unnested false ((Step.circuit continuing steps).run .primed).journal = true) :
    (ex.numVars < wordLimit → ∃ ps s, ex.patterns = .ok ps ∧ ex.summary = .ok s ∧
      (∀ m v, ex.Counts v → ∃ column, ex.ledgers.column v m = .ok column ∧
        ∀ i, ex.wire v ∈ (ps.get m).row i ↔ ∃ posting ∈ column, posting.row = i) ∧
      ∀ m, s.entries.get m =
        ((ex.ledgers.allColumns m).map fun c => (Column.rowNumbers c).card).sum) ∧
    (wordLimit ≤ ex.numVars → ex.patterns = .error .wireTooWide) := by
  obtain ⟨rfl, hkept, hunnested⟩ := Session.exported_of_circuit completed kept unnested
  refine ⟨fun hvars => ?_, Export.patterns_of_wordLimit_le⟩
  have hrows := Session.rows_within hkept
  have haligned := (Session.exported continuing).aligned_run steps
  obtain ⟨s, hs⟩ := Recorder.exists_summary hrows hvars
  obtain ⟨ps, hps, hdescribes⟩ := Export.exists_of_summary_eq_ok hs
  have hpattern := Export.pattern_of_patterns hps
  refine ⟨ps, s, hps, hs, fun m v hv => ?_, fun m => ?_⟩
  · have hbelow := hv.2
    rw [Recorder.count_toExport] at hbelow
    have hcolumn := Session.column_of_kept _ steps hkept m hbelow.1 hbelow.2
    exact ⟨_, hcolumn, Session.wire_mem_row_iff hkept hunnested (hpattern m) hv hcolumn⟩
  · rw [hdescribes.entries, Triple.get_map]
    exact haligned.size_pattern hrows (hpattern m) fun v hv column hcolumn =>
      Session.wire_mem_row_iff hkept hunnested (hpattern m) hv hcolumn

/-- Terms that cancel under two labels, a coefficient that is zero, and variables that are allocated
between the rows. -/
def Step.cancellingProgram : List Step :=
  [.allocate .aux,
    .enforce
      [.combine .plus (.variable ⟨.aux, 0⟩), .combine .minus (.variable ⟨⟨"hidden"⟩, 0⟩)]
      [.combine .plus (.term ⟨0, .one⟩)] [],
    .allocate .input, .allocate .aux,
    .enforce [.combine .plus (.variable ⟨.aux, 1⟩)] [.combine .plus (.variable ⟨.aux, 0⟩)]
      [.combine .plus (.variable ⟨.input, 1⟩)]]

/-- The wire of the first private variable is 2, though 1 was the next wire when its row was
written. Its two terms are one entry, and the padding has two. -/
theorem patterns_of_cancelling_program :
    let circuit := Step.circuit false Step.cancellingProgram
    (∀ w ∈ Act.writings (circuit.run .primed).journal, w.Kept) ∧
      Act.unnested false (circuit.run .primed).journal = true ∧
      ∃ ex ps s, (exportCircuit circuit).result = .ok ex ∧ ex.patterns = .ok ps ∧
        ex.summary = .ok s ∧ (2 ∈ ps.a.row 0 ∧ 2 ∉ ps.a.row 1 ∧ 0 ∈ ps.b.row 0) ∧
        s.entries.a = 4 ∧ s.entries.b = 2 ∧ s.entries.c = 1 := by
  intro circuit
  have kept : ∀ w ∈ Act.writings (circuit.run .primed).journal, w.Kept := by decide
  have unnested : Act.unnested false (circuit.run .primed).journal = true := by decide
  have completed : (exportCircuit circuit).result = .ok _ := rfl
  obtain ⟨ps, s, hps, hs, hpattern, hentries⟩ :=
    (patterns_of_unnested completed kept unnested).1 (by decide)
  obtain ⟨column, hcolumn, hfirst⟩ := hpattern .a ⟨.aux, 0⟩ (by decide)
  obtain rfl : [⟨1, 0⟩, ⟨-1, 0⟩] = column := Except.ok.inj hcolumn
  obtain ⟨column, hcolumn, hone⟩ := hpattern .b .one (by decide)
  obtain rfl : [⟨0, 0⟩] = column := Except.ok.inj hcolumn
  exact ⟨kept, unnested, _, ps, s, completed, hps, hs,
    ⟨(hfirst 0).mpr (by decide), fun h => absurd ((hfirst 1).mp h) (by decide),
      (hone 0).mpr (by decide)⟩,
    (hentries .a).trans (by decide), (hentries .b).trans (by decide),
    (hentries .c).trans (by decide)⟩

end RankOne
