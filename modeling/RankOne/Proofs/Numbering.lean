import RankOne.Proofs.Transpose

/-! A row is numbered when its building begins and appended when it ends, so its number names the
first row that was finished inside its building, or the row itself when there is none. -/
namespace RankOne

namespace Recorder

/-- Every column of an allocated variable lists coefficients that stand in the rows it names, and
lists them in the order of the rows. -/
def NamesRows (r : Recorder) : Prop :=
  ∀ (m : Matrix) (v : Variable), r.Allocated v → ∃ column, r.ledgers.column v m = .ok column ∧
    (∀ p ∈ column, ∃ row, r.rows[p.row]? = some row ∧ ⟨p.coeff, v⟩ ∈ (row.get m).terms) ∧
    column.Pairwise fun p q => p.row ≤ q.row

end Recorder

namespace Writing

/-- Every term of the row names a variable that was allocated when the row was written. -/
def InScope (w : Writing) : Prop := ∀ e ∈ w.row.entries, w.before.Allocated e.2.var

instance : DecidablePred InScope := fun w =>
  inferInstanceAs (Decidable (∀ e ∈ w.row.entries, w.before.Allocated e.2.var))

/-- The rows that were finished while this one was being built. -/
def inner (w : Writing) : List Row := w.before.rows.drop w.begun.rows.length

/-- The rows have a variable in common in some matrix. -/
def Shares (w w' : Writing) : Prop :=
  ∃ m, ∃ t ∈ (w.row.get m).terms, ∃ t' ∈ (w'.row.get m).terms, t.var = t'.var

theorem InScope.kept {w : Writing} (h : w.InScope) (ha : w.before.Aligned) : w.Kept :=
  ⟨ha.fault?_eq_none_iff.mpr fun e he => (h e he).has, fun e he => (h e he).2.1⟩

end Writing

@[simp] theorem Row.mem_postings {row : Row} {m : Matrix} {v : Variable} {number : Nat}
    {p : Posting} :
    p ∈ row.postings m v number ↔
      p.row = number ∧ ∃ t ∈ (row.get m).terms,
        t.var.side = v.side ∧ t.var.index = v.index ∧ t.coeff = p.coeff := by
  cases p
  simp only [postings, List.mem_map, List.mem_filter, decide_eq_true_eq, Posting.mk.injEq]
  constructor
  · rintro ⟨t, ⟨ht, hs, hi⟩, hc, rfl⟩
    exact ⟨rfl, t, ht, hs, hi, hc⟩
  · rintro ⟨rfl, t, ht, hs, hi, hc⟩
    exact ⟨t, ⟨ht, hs, hi⟩, hc, rfl⟩

namespace Session
variable {session : Session} {steps : List Step} {w : Writing}

theorem kept_of_inScope (hscope : ∀ w ∈ session.writings steps, w.InScope) :
    ∀ w ∈ session.writings steps, w.Kept := by
  intro w hw
  exact (hscope w hw).kept ((session.chronicle steps).aligned_before session.start_aligned hw)

theorem allocated_run (hw : w ∈ session.writings steps) (hscope : w.InScope) {m : Matrix}
    {t : Term} (ht : t ∈ (w.row.get m).terms) :
    (session.run steps).recorder.Allocated t.var := by
  obtain ⟨earlier, later, -, hrun⟩ := (session.chronicle steps).exists_before hw
  rw [hrun]
  exact (hscope (m, t) (Row.mem_entries.mpr ht)).replay later

/-- The number of a row names the first row finished inside it, or the row itself. -/
theorem row_at_number (hkept : ∀ w ∈ session.writings steps, w.fault? = none)
    (hw : w ∈ session.writings steps) :
    (session.run steps).recorder.rows[w.number]? = (w.inner ++ [w.row]).head? := by
  have h := session.chronicle steps
  obtain ⟨earlier, inner, later, hacts, hbegun, hinner, -⟩ := h.exists_building hw
  have hwritings : session.writings steps =
      Act.writings earlier ++ (Act.writings inner ++ w :: Act.writings later) := by
    simp [writings, hacts]
  have hearlier : ∀ w' ∈ Act.writings earlier, w'.fault? = none := fun w' hw' =>
    hkept w' (by simp [hwritings, hw'])
  -- no posting failed, so the count at the opening is the number of rows written before it
  have hnumber : w.number = (Act.writings earlier).length := by
    have hcount := Recorder.numConstraints_replay (h.admits.of_eq_append hacts)
    rw [Writing.countP_fault_eq_zero hearlier, ← hbegun, numConstraints_start] at hcount
    simpa [Writing.number] using hcount
  have hrows : w.begun.rows = (Act.writings earlier).map Writing.row := by
    rw [hbegun, Recorder.rows_replay, rows_start, List.nil_append]
  have hfinished : w.inner = (Act.writings inner).map Writing.row := by
    rw [Writing.inner, ← hinner.replay_eq, Recorder.rows_replay, List.drop_left]
  rw [rows_run, hwritings, hnumber, hfinished, List.map_append,
    List.getElem?_append_right (by simp)]
  cases Act.writings inner <;> simp

theorem term_at_number_iff (hkept : ∀ w ∈ session.writings steps, w.fault? = none)
    (hw : w ∈ session.writings steps) {m : Matrix} {t : Term} (ht : t ∈ (w.row.get m).terms) :
    (∃ row, (session.run steps).recorder.rows[w.number]? = some row ∧ t ∈ (row.get m).terms) ↔
      ∀ first, w.inner.head? = some first → t ∈ (first.get m).terms := by
  rw [row_at_number hkept hw]
  cases h : w.inner with
  | nil => simp [ht]
  | cons first rest => simp

theorem mem_postings_iff (hw : w ∈ session.writings steps) (hscope : w.InScope) {m : Matrix}
    {v : Variable} (hv : (session.run steps).recorder.Allocated v) {p : Posting} :
    p ∈ w.row.postings m v w.number ↔
      p.row = w.number ∧ ⟨p.coeff, v⟩ ∈ (w.row.get m).terms := by
  rw [Row.mem_postings]
  refine and_congr_right fun _ => ⟨?_, fun ht => ⟨_, ht, rfl, rfl, rfl⟩⟩
  rintro ⟨t, ht, hs, hi, hc⟩
  have hvar : t.var = v := (allocated_run hw hscope ht).eq_of_index hv hs hi
  rw [← hc, ← hvar]
  exact ht

theorem pairwise_column_iff (hscope : ∀ w ∈ session.writings steps, w.InScope) {m : Matrix}
    {v : Variable} (hv : (session.run steps).recorder.Allocated v) :
    ((session.writings steps).flatMap fun w => w.row.postings m v w.number).Pairwise
        (fun p q => p.row ≤ q.row) ↔
      (session.writings steps).Pairwise fun w w' =>
        (∃ t ∈ (w.row.get m).terms, t.var = v) → (∃ t ∈ (w'.row.get m).terms, t.var = v) →
          w.number ≤ w'.number := by
  rw [List.pairwise_flatMap]
  constructor
  · rintro ⟨-, h⟩
    refine h.imp_of_mem fun {w w'} hw hw' hle => ?_
    rintro ⟨⟨c, _⟩, ht, rfl⟩ ⟨⟨c', _⟩, ht', rfl⟩
    exact hle ⟨c, w.number⟩ ((mem_postings_iff hw (hscope w hw) hv).mpr ⟨rfl, ht⟩)
      ⟨c', w'.number⟩ ((mem_postings_iff hw' (hscope w' hw') hv).mpr ⟨rfl, ht'⟩)
  · intro h
    constructor
    · intro w hw
      apply List.pairwise_of_forall_mem_list
      intro p hp q hq
      rw [(Row.mem_postings.mp hp).1, (Row.mem_postings.mp hq).1]
    · refine h.imp_of_mem fun {w w'} hw hw' hle p hp q hq => ?_
      obtain ⟨hp, hpt⟩ := (mem_postings_iff hw (hscope w hw) hv).mp hp
      obtain ⟨hq, hqt⟩ := (mem_postings_iff hw' (hscope w' hw') hv).mp hq
      rw [hp, hq]
      exact hle ⟨_, hpt, rfl⟩ ⟨_, hqt, rfl⟩

/-- Naming the right rows, said without the columns. -/
theorem namesRows_iff_rows (hscope : ∀ w ∈ session.writings steps, w.InScope) :
    (session.run steps).recorder.NamesRows ↔
      ∀ m v, (session.run steps).recorder.Allocated v →
        (∀ w ∈ session.writings steps, ∀ c, ⟨c, v⟩ ∈ (w.row.get m).terms →
          ∃ row, (session.run steps).recorder.rows[w.number]? = some row ∧
            ⟨c, v⟩ ∈ (row.get m).terms) ∧
        (session.writings steps).Pairwise fun w w' =>
          (∃ t ∈ (w.row.get m).terms, t.var = v) → (∃ t ∈ (w'.row.get m).terms, t.var = v) →
            w.number ≤ w'.number := by
  refine forall_congr' fun m => forall_congr' fun v => imp_congr_right fun hv => ?_
  have hcolumn := session.column_of_kept steps (kept_of_inScope hscope) m hv.2.1 hv.2.2
  simp only [hcolumn, Except.ok.injEq, exists_eq_left', pairwise_column_iff hscope hv,
    List.mem_flatMap]
  refine and_congr_left fun _ => ⟨?_, ?_⟩
  · intro h w hw c hc
    exact h ⟨c, w.number⟩ ⟨w, hw, (mem_postings_iff hw (hscope w hw) hv).mpr ⟨rfl, hc⟩⟩
  · rintro h p ⟨w, hw, hp⟩
    obtain ⟨hrow, hterm⟩ := (mem_postings_iff hw (hscope w hw) hv).mp hp
    rw [hrow]
    exact h w hw p.coeff hterm

/-- Nested rows do no harm to the numbers of a session. -/
structure HarmlessNesting (session : Session) (steps : List Step) : Prop where
  /-- Every row is repeated in the first row finished inside it. -/
  repeated : ∀ w ∈ session.writings steps, ∀ first, w.inner.head? = some first →
    ∀ m, ∀ t ∈ (w.row.get m).terms, t ∈ (first.get m).terms
  /-- Of two rows that share a variable, the later one has no smaller number. -/
  ordered : (session.writings steps).Pairwise fun w w' => w.Shares w' → w.number ≤ w'.number

theorem HarmlessNesting.namesRows (h : session.HarmlessNesting steps)
    (hscope : ∀ w ∈ session.writings steps, w.InScope) :
    (session.run steps).recorder.NamesRows := by
  rw [namesRows_iff_rows hscope]
  intro m v _
  refine ⟨fun w hw c hc => ?_, h.ordered.imp fun {w w'} hle => ?_⟩
  · have hkept := fun w hw => (kept_of_inScope hscope w hw).1
    exact (term_at_number_iff hkept hw hc).mpr fun first hfirst =>
      h.repeated w hw first hfirst m _ hc
  · rintro ⟨t, ht, rfl⟩ ⟨t', ht', hvar⟩
    exact hle ⟨m, t, ht, t', ht', hvar.symm⟩

theorem harmlessNesting_of_namesRows (hscope : ∀ w ∈ session.writings steps, w.InScope)
    (h : (session.run steps).recorder.NamesRows) : session.HarmlessNesting steps := by
  rw [namesRows_iff_rows hscope] at h
  constructor
  · intro w hw first hfirst m t ht
    have hkept := fun w hw => (kept_of_inScope hscope w hw).1
    have hv := allocated_run hw (hscope w hw) ht
    exact (term_at_number_iff hkept hw ht).mp ((h m t.var hv).1 w hw t.coeff ht) first hfirst
  · rw [List.pairwise_iff_forall_sublist]
    rintro w w' hsub ⟨m, t, ht, t', ht', hvar⟩
    have hw : w ∈ session.writings steps := hsub.subset (by simp)
    have hv := allocated_run hw (hscope w hw) ht
    exact List.pairwise_iff_forall_sublist.mp (h m t.var hv).2 hsub ⟨t, ht, rfl⟩
      ⟨t', ht', hvar.symm⟩

theorem harmlessNesting_of_unnested (hscope : ∀ w ∈ session.writings steps, w.InScope)
    (hu : Act.unnested false (session.run steps).journal = true) :
    session.HarmlessNesting steps := by
  constructor
  · intro w hw first hfirst
    have hrows := ((session.chronicle steps).before_eq_begun hu hw).1
    simp [Writing.inner, hrows] at hfirst
  · have hstarts := session.starts_of_unnested steps hu fun w hw =>
      (kept_of_inScope hscope w hw).1
    have hsorted : (session.starts steps).Pairwise (· ≤ ·) := by
      rw [hstarts]
      exact List.pairwise_le_range
    exact (List.pairwise_map.mp hsorted).imp fun {w w'} hle (_ : w.Shares w') => hle

end Session

/-- In a program whose terms are in scope, columns name the right rows exactly when nested rows do
no harm, and without nesting they always do. -/
theorem namesRows_iff (session : Session) (steps : List Step)
    (hscope : ∀ w ∈ session.writings steps, w.InScope) :
    ((session.run steps).recorder.NamesRows ↔ session.HarmlessNesting steps) ∧
      (Act.unnested false (session.run steps).journal = true →
        (session.run steps).recorder.NamesRows) :=
  ⟨⟨Session.harmlessNesting_of_namesRows hscope, fun h => h.namesRows hscope⟩,
    fun hu => (Session.harmlessNesting_of_unnested hscope hu).namesRows hscope⟩

def Step.flatProgram : List Step :=
  [.allocate .aux,
    .enforce [.combine .plus (.variable ⟨.aux, 0⟩)] [.combine .minus (.variable ⟨.aux, 0⟩)] [],
    .enforce [.fresh .aux, .combine .plus (.variable ⟨.aux, 0⟩)] [] [.fresh .input]]

theorem namesRows_of_flat_program :
    (∀ w ∈ (Session.exported false).writings Step.flatProgram, w.InScope) ∧
      ((Session.exported false).run Step.flatProgram).recorder.NamesRows := by
  have hscope : ∀ w ∈ (Session.exported false).writings Step.flatProgram, w.InScope := by decide
  exact ⟨hscope, (namesRows_iff _ _ hscope).2 (by decide)⟩

/-- A row on a variable whose builder first enforces an empty row. -/
def Step.reentrantProgram : List Step :=
  [.allocate .aux,
    .enforce [.run [.enforce [] [] []], .combine .plus (.variable ⟨.aux, 0⟩)] [] []]

/-- No step fails and every term is in scope, but the column of the variable names the empty row. -/
theorem not_namesRows_of_reentrant_program :
    (∀ e ∈ (Session.bare.run Step.reentrantProgram).log, ∀ fault, e.answer ≠ .fault fault) ∧
      (∀ w ∈ Session.bare.writings Step.reentrantProgram, w.InScope) ∧
      ¬ (Session.bare.run Step.reentrantProgram).recorder.NamesRows := by
  refine ⟨?_, by decide, fun h => ?_⟩
  · have hanswers : (Session.bare.run Step.reentrantProgram).log.map LogEntry.answer =
        [.variable ⟨.aux, 0⟩, .row ⟨⟨[⟨1, ⟨.aux, 0⟩⟩]⟩, .zero, .zero⟩,
          .row ⟨.zero, .zero, .zero⟩] := by decide
    intro e he fault hfault
    have hmem := List.mem_map_of_mem (f := LogEntry.answer) he
    rw [hanswers, hfault] at hmem
    simp at hmem
  · obtain ⟨column, hcolumn, hrows, -⟩ := h .a ⟨.aux, 0⟩ (by decide)
    have hposted : column = [⟨1, 0⟩] := (Except.ok.inj hcolumn).symm
    obtain ⟨row, hrow, hterm⟩ := hrows ⟨1, 0⟩ (by simp [hposted])
    have hempty : row = ⟨.zero, .zero, .zero⟩ := (Option.some.inj hrow).symm
    rw [hempty] at hterm
    cases hterm

end RankOne
