import Mathlib.Data.List.Basic
import RankOne.Proofs.Nesting

/-! When every term names a column by an index that is not negative and no posting fails, columns
list the coefficients of the rows. They are the transpose of the rows when no row is nested. -/
namespace RankOne

/-- The coefficients of a variable in one matrix of a row, each beside a number. -/
def Row.postings (row : Row) (m : Matrix) (v : Variable) (number : Nat) : Column :=
  ((row.get m).terms.filter fun t => t.var.side = v.side ∧ t.var.index = v.index).map fun t =>
    ⟨t.coeff, number⟩

/-- What is read off the entries of one matrix is read off its terms. -/
theorem Row.filterMap_entries {α : Type} (row : Row) (m : Matrix)
    (f : Matrix × Term → Option α) (h : ∀ m' t, m' ≠ m → f (m', t) = none) :
    row.entries.filterMap f = (row.get m).terms.filterMap fun t => f (m, t) := by
  have hother : ∀ m' : Matrix, m' ≠ m → ∀ ts : List Term,
      (ts.map fun t => (m', t)).filterMap f = [] := by
    intro m' hm ts
    simp [List.filterMap_map, h m' _ hm]
  have hown : ∀ ts : List Term,
      (ts.map fun t => (m, t)).filterMap f = ts.filterMap fun t => f (m, t) := by
    intro ts
    simp [List.filterMap_map]
  cases m <;> simp [entries, Matrix.all, hother, hown]

namespace Writing

/-- Every term of the row found its column, and found it by counting from the first. -/
def Kept (w : Writing) : Prop :=
  w.fault? = none ∧ ∀ e ∈ w.row.entries, 0 ≤ e.2.var.index

instance : DecidablePred Kept := fun w =>
  inferInstanceAs (Decidable (w.fault? = none ∧ ∀ e ∈ w.row.entries, 0 ≤ e.2.var.index))

/-- A kept row posts to the column of a variable what the row has for the variable. -/
theorem Kept.share_eq {w : Writing} (h : w.Kept) (m : Matrix) {v : Variable} {k : Nat}
    (hk : v.index = k) : w.share v.side m k = w.row.postings m v w.number := by
  have hplaced := (Ledgers.post_eq_none_iff w.number w.row.entries w.before.ledgers).mp h.1
  rw [share, Ledgers.posted_of_post_eq_none h.1, Ledgers.share, Row.postings,
    Row.filterMap_entries _ m _ fun m' t hm => by simp [hm], ← List.filterMap_eq_map,
    List.filterMap_filter]
  apply List.filterMap_congr
  intro t ht
  have hmem : (m, t) ∈ w.row.entries := Row.mem_entries.mpr ht
  have hnonneg : 0 ≤ t.var.index := h.2 _ hmem
  have hsome : (w.before.ledgers.place? t.var m).isSome := hplaced _ hmem
  obtain ⟨place, hplace⟩ := Option.isSome_iff_exists.mp hsome
  have hindex : t.var.index = place := by
    rcases position?_eq_some_iff.mp hplace with ⟨hlt, hi | hi⟩
    · exact hi
    · omega
  simp only [hplace, Option.some.injEq, true_and, hindex, hk, Int.ofNat_inj]
  by_cases hs : t.var.side = v.side ∧ place = k
  · simp [hs]
  · simp [hs]

end Writing

namespace Session

/-- The count of constraints when the building of each row began, in the order of writing. -/
def starts (steps : List Step) (session : Session) : List Nat :=
  (session.writings steps).map Writing.number

theorem rows_run (session : Session) (steps : List Step) :
    (session.run steps).recorder.rows = (session.writings steps).map Writing.row := by
  have h := session.chronicle steps
  rw [← h.replay_eq, Recorder.rows_replay, rows_start, List.nil_append, writings]

theorem aligned_run (session : Session) (steps : List Step) :
    (session.run steps).recorder.Aligned := by
  have h := session.start_aligned.replay (session.run steps).journal
  rwa [(session.chronicle steps).replay_eq] at h

theorem column_run (session : Session) (steps : List Step) (m : Matrix) {v : Variable} {k : Nat}
    (hk : v.index = k) (hlt : k < (session.run steps).recorder.count v.side) :
    (session.run steps).recorder.ledgers.column v m =
      .ok ((session.writings steps).flatMap fun w => w.share v.side m k) := by
  have h := session.chronicle steps
  have hslot := Recorder.slot_replay h.admits v.side m k
  rw [h.replay_eq, slot_start, List.nil_append] at hslot
  rw [(session.aligned_run steps).column_eq m hk hlt, hslot, writings]

/-- Without nesting, and when no posting fails, rows are numbered by their positions. -/
theorem starts_of_unnested (session : Session) (steps : List Step)
    (hu : Act.unnested false (session.run steps).journal = true)
    (hkept : ∀ w ∈ session.writings steps, w.fault? = none) :
    session.starts steps = List.range (session.writings steps).length := by
  have h := session.chronicle steps
  apply List.ext_getElem (by simp [starts])
  intro p hp _
  have hlt : p < (session.writings steps).length := by simpa [starts] using hp
  have hw : (session.writings steps)[p]? = some (session.writings steps)[p] := by simp [hlt]
  obtain ⟨-, hcount⟩ := Recorder.numConstraints_before h.admits hw
  have hearlier : ∀ w ∈ (Act.writings (session.run steps).journal).take p, w.fault? = none :=
    fun w hmem => hkept w (List.mem_of_mem_take hmem)
  rw [Writing.countP_fault_eq_zero hearlier, numConstraints_start,
    (h.before_eq_begun hu (List.getElem_mem hlt)).2] at hcount
  simpa [starts] using hcount

theorem column_of_kept (session : Session) (steps : List Step)
    (kept : ∀ w ∈ session.writings steps, w.Kept) (m : Matrix) {v : Variable}
    (hv : 0 ≤ v.index) (hlt : v.index < (session.run steps).recorder.count v.side) :
    (session.run steps).recorder.ledgers.column v m =
      .ok ((session.writings steps).flatMap fun w => w.row.postings m v w.number) := by
  obtain ⟨k, hk⟩ := Int.eq_ofNat_of_zero_le hv
  rw [column_run session steps m hk (by omega)]
  congr 1
  apply List.flatMap_congr
  intro w hw
  exact (kept w hw).share_eq m hk

end Session

/-- Rows and columns agree, with multiplicity and in order. -/
theorem columns_transpose_rows (session : Session) (steps : List Step)
    (kept : ∀ w ∈ session.writings steps, w.Kept) :
    let o := session.run steps
    let r := o.recorder
    r.rows = (session.writings steps).map Writing.row ∧
    (∀ w ∈ session.writings steps, ∃ earlier inner later,
      o.journal = earlier ++ .opened :: (inner ++ .wrote w :: later) ∧
        w.begun = session.start.replay earlier) ∧
    (∀ (m : Matrix) (v : Variable), 0 ≤ v.index → v.index < r.count v.side →
      r.ledgers.column v m =
        .ok ((r.rows.zip (session.starts steps)).flatMap fun p => p.1.postings m v p.2)) ∧
    (Act.unnested false o.journal = true →
      session.starts steps = List.range r.rows.length ∧
      ∀ (m : Matrix) (v : Variable), 0 ≤ v.index → v.index < r.count v.side →
        r.ledgers.column v m = .ok (r.rows.zipIdx.flatMap fun p => p.1.postings m v p.2)) := by
  intro o r
  have hrows : r.rows = (session.writings steps).map Writing.row := session.rows_run steps
  have hcolumn : ∀ (m : Matrix) (v : Variable), 0 ≤ v.index → v.index < r.count v.side →
      r.ledgers.column v m =
        .ok ((r.rows.zip (session.starts steps)).flatMap fun p => p.1.postings m v p.2) := by
    intro m v hv hlt
    rw [hrows, Session.starts, List.zip_map', List.flatMap_map]
    exact session.column_of_kept steps kept m hv hlt
  refine ⟨hrows, fun w hw => ?_, hcolumn, fun hu => ?_⟩
  · obtain ⟨earlier, inner, later, hacts, hbegun, -, -⟩ :=
      (session.chronicle steps).exists_building hw
    exact ⟨earlier, inner, later, hacts, hbegun⟩
  · have hstarts : session.starts steps = List.range r.rows.length := by
      rw [session.starts_of_unnested steps hu fun w hw => (kept w hw).1, hrows, List.length_map]
    refine ⟨hstarts, fun m v hv hlt => ?_⟩
    rw [hcolumn m v hv hlt, hstarts, List.zipIdx_eq_zip_range', List.range_eq_range']

/-- A row whose first builder enforces a row of its own on a fresh input, and an attempt that
allocates a variable and gives up. -/
def Step.nestedProgram : List Step :=
  [.allocate .aux,
    .enforce
      [.combine .plus (.variable ⟨.aux, 0⟩),
        .run [.enforce [.fresh .input] [] [.combine .minus (.term ⟨3, ⟨.aux, 0⟩⟩)]]]
      [.combine .plus (.variable ⟨.aux, 0⟩), .combine .plus (.variable ⟨.aux, 0⟩)] [],
    .attempt [.enforce [.fresh .aux, .raise "stop"] [] []]]

/-- The columns of the first variable: the inner row stands in front of the outer one, and both are
numbered zero. -/
theorem columns_of_nested_program :
    (∀ w ∈ Session.bare.writings Step.nestedProgram, w.Kept) ∧
      let r := (Session.bare.run Step.nestedProgram).recorder
      (r.ledgers.column ⟨.aux, 0⟩ .a = .ok [⟨1, 0⟩] ∧
        r.ledgers.column ⟨.aux, 0⟩ .b = .ok [⟨1, 0⟩, ⟨1, 0⟩] ∧
        r.ledgers.column ⟨.aux, 0⟩ .c = .ok [⟨-3, 0⟩]) := by
  have kept : ∀ w ∈ Session.bare.writings Step.nestedProgram, w.Kept := by decide
  obtain ⟨-, -, hcolumn, -⟩ := columns_transpose_rows .bare Step.nestedProgram kept
  have hzero := fun m => hcolumn m ⟨.aux, 0⟩ (by decide) (by decide)
  exact ⟨kept, hzero .a, hzero .b, hzero .c⟩

end RankOne
