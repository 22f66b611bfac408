import RankOne.Proofs.Clean
import RankOne.Proofs.Numbering
import RankOne.Proofs.Solutions

/-! A variable is looked up in the ledgers when a row is posted, and by its wire when the export is
rendered. An index below zero counts from the last variable in the ledgers, but its wire is
plain arithmetic. -/
namespace RankOne

namespace Recorder
variable {r : Recorder} {m : Matrix} {u v : Variable}

/-- The variable whose column a lookup finds. -/
def target? (r : Recorder) (m : Matrix) (v : Variable) : Option Variable :=
  match r.ledgers.find v m with
  | .ok k => some ⟨v.side.kind, k⟩
  | .error _ => none

theorem target?_eq_some_iff :
    r.target? m v = some u ↔ ∃ k, r.ledgers.place? v m = some k ∧ ⟨v.side.kind, k⟩ = u := by
  rw [target?]
  cases h : r.ledgers.find v m with
  | ok k => simp [Ledgers.find_eq_ok_iff.mp h]
  | error fault =>
    have hnone : ∀ k, r.ledgers.place? v m ≠ some k := fun k hk => by
      rw [Ledgers.find_eq_ok_iff.mpr hk] at h
      cases h
    simp [hnone]

/-- A lookup that finds a column finds the one of an allocated variable, counted from the first
variable of the side or from behind the last. -/
theorem Aligned.of_target? (h : r.Aligned) (hu : r.target? m v = some u) :
    r.Allocated u ∧ u.side = v.side ∧
      (v.index = u.index ∨ v.index = u.index - r.count v.side) := by
  obtain ⟨k, hk, rfl⟩ := target?_eq_some_iff.mp hu
  have hside : (Variable.mk v.side.kind k).side = v.side := v.side.side_kind
  obtain ⟨hlt, hindex⟩ := position?_eq_some_iff.mp hk
  rw [h] at hlt hindex
  refine ⟨⟨?_, Int.natCast_nonneg k, ?_⟩, hside, hindex⟩
  · rw [hside]
  · rw [hside]
    exact Int.ofNat_lt.mpr hlt

theorem Aligned.exists_target? (h : r.Aligned) (hv : r.Has v) (m : Matrix) :
    ∃ u, r.target? m v = some u := by
  obtain ⟨k, hk⟩ := Option.isSome_iff_exists.mp ((h.place?_isSome_iff v m).mpr hv)
  exact ⟨_, target?_eq_some_iff.mpr ⟨k, hk, rfl⟩⟩

theorem Allocated.target?_eq_iff (hu : r.Allocated u) {r' : Recorder} {k : Nat}
    (hk : u.index = k) :
    r'.target? m v = some u ↔ v.side = u.side ∧ r'.ledgers.place? v m = some k := by
  rw [target?_eq_some_iff]
  constructor
  · rintro ⟨place, hplace, rfl⟩
    obtain rfl : place = k := Int.ofNat_inj.mp hk
    exact ⟨v.side.side_kind.symm, hplace⟩
  · rintro ⟨hside, hplace⟩
    refine ⟨k, hplace, ?_⟩
    rw [hside, ← hu.1, ← hk]

end Recorder

namespace Writing

/-- What the row posted to the column of a variable. -/
def postedTo (w : Writing) (m : Matrix) (v : Variable) : Column :=
  (w.row.get m).terms.filterMap fun t =>
    if w.before.target? m t.var = some v then some ⟨t.coeff, w.number⟩ else none

theorem share_eq_postedTo {w : Writing} (h : w.fault? = none) (m : Matrix) {r : Recorder}
    {v : Variable} (hv : r.Allocated v) {k : Nat} (hk : v.index = k) :
    w.share v.side m k = w.postedTo m v := by
  rw [share, Ledgers.posted_of_post_eq_none h, Ledgers.share,
    Row.filterMap_entries _ m _ fun m' t hm => by simp [hm]]
  simp only [postedTo, hv.target?_eq_iff hk, true_and]

end Writing

namespace Export
variable {u v : Variable}

/-- On one side, wires are as far apart as indices. -/
theorem wire_sub_wire (ex : Export) (h : u.side = v.side) :
    ex.wire v - ex.wire u = v.index - u.index := by
  simp only [wire, h]
  cases v.side with
  | input => rfl
  | aux => exact add_sub_add_left_eq_sub v.index u.index ex.numInputs

end Export

/-- The wire of a term against the variable that it was posted to. -/
theorem Writing.wire_of_target? {w : Writing} (h : w.before.Aligned) {m : Matrix} {t : Term}
    {v : Variable} (hv : w.before.target? m t.var = some v) (ex : Export) :
    (ex.wire t.var = ex.wire v ↔ 0 ≤ t.var.index) ∧
      (t.var.index < 0 → ex.wire t.var = ex.wire v - w.before.count t.var.side) := by
  obtain ⟨⟨-, hlo, hhi⟩, hside, hindex⟩ := h.of_target? hv
  have hdistance := ex.wire_sub_wire hside
  rw [hside] at hhi
  constructor
  · omega
  · intro hneg
    omega

/-- When no posting is cut short, every term has been posted to a variable, and this is allocated
ever after. -/
theorem Chronicle.exists_target? {r r' : Recorder} {acts : List Act} (h : Chronicle r acts r')
    (hr : r.Aligned) (hposted : Posted acts) {w : Writing} (hw : w ∈ Act.writings acts)
    {m : Matrix} {t : Term} (ht : t ∈ (w.row.get m).terms) :
    ∃ v, w.before.target? m t.var = some v ∧ r'.Allocated v := by
  have haligned := h.aligned_before hr hw
  have hhas := haligned.fault?_eq_none_iff.mp (hposted w hw) (m, t) (Row.mem_entries.mpr ht)
  obtain ⟨v, hv⟩ := haligned.exists_target? hhas m
  obtain ⟨earlier, later, -, hafter⟩ := h.exists_before hw
  refine ⟨v, hv, ?_⟩
  rw [hafter]
  exact (haligned.of_target? hv).1.replay later

theorem Session.column_of_posted {session : Session} {steps : List Step}
    (hposted : Posted (session.run steps).journal) (m : Matrix) {v : Variable}
    (hv : (session.run steps).recorder.Allocated v) :
    (session.run steps).recorder.ledgers.column v m =
      .ok ((session.writings steps).flatMap fun w => w.postedTo m v) := by
  have hlt := hv.2.2
  obtain ⟨k, hk⟩ := Int.eq_ofNat_of_zero_le hv.2.1
  rw [session.column_run steps m hk (by omega)]
  congr 1
  apply List.flatMap_congr
  intro w hw
  exact Writing.share_eq_postedTo (hposted w hw) m hv hk

/-- In a program none of whose steps fails, the ledgers hold every term of the export in the column
of an allocated variable. The term has the wire of this variable exactly when its index is not
negative, and two such terms are posted to one variable exactly when they have one wire. -/
theorem wires_of_clean (continuing : Bool) (steps : List Step)
    (clean : Clean (exportCircuit (Step.circuit continuing steps)).log) :
    let o := exportCircuit (Step.circuit continuing steps)
    let written := Act.writings o.journal
    ∃ ex, o.result = .ok ex ∧ ex.rows = written.map Writing.row ∧
      (∀ m v, o.recorder.Allocated v →
        ex.ledgers.column v m = .ok (written.flatMap fun w => w.postedTo m v)) ∧
      (∀ w ∈ written, ∀ m, ∀ t ∈ (w.row.get m).terms, ∃ v,
        w.before.target? m t.var = some v ∧ o.recorder.Allocated v ∧
        (0 ≤ ex.wire v ∧ ex.wire v < ex.numVars) ∧
        (ex.wire t.var = ex.wire v ↔ 0 ≤ t.var.index) ∧
        (t.var.index < 0 → ex.wire t.var = ex.wire v - w.before.count t.var.side)) ∧
      ∀ w ∈ written, ∀ m, ∀ t ∈ (w.row.get m).terms, 0 ≤ t.var.index →
        ∀ w' ∈ written, ∀ m', ∀ t' ∈ (w'.row.get m').terms, 0 ≤ t'.var.index →
          (w.before.target? m t.var = w'.before.target? m' t'.var ↔
            ex.wire t.var = ex.wire t'.var) := by
  intro o written
  obtain ⟨hresult, hposted⟩ := Step.export_of_clean clean
  let session := Session.exported continuing
  have hchronicle : Chronicle .primed o.journal o.recorder := session.chronicle steps
  have haligned : ∀ w ∈ written, w.before.Aligned := fun w hw =>
    hchronicle.aligned_before Recorder.aligned_primed hw
  have htarget : ∀ w ∈ written, ∀ m, ∀ t ∈ (w.row.get m).terms, ∃ v,
      w.before.target? m t.var = some v ∧ o.recorder.Allocated v := fun w hw m t ht =>
    hchronicle.exists_target? Recorder.aligned_primed hposted hw ht
  refine ⟨_, hresult, ?_, fun m v hv => session.column_of_posted hposted m hv,
    fun w hw m t ht => ?_, ?_⟩
  · rw [Recorder.rows_toExport]
    exact session.rows_run steps
  · obtain ⟨v, hv, hallocated⟩ := htarget w hw m t ht
    exact ⟨v, hv, hallocated, Recorder.wire_range hallocated.2,
      Writing.wire_of_target? (haligned w hw) hv _⟩
  · intro w hw m t ht hnonneg w' hw' m' t' ht' hnonneg'
    obtain ⟨v, hv, hallocated⟩ := htarget w hw m t ht
    obtain ⟨v', hv', hallocated'⟩ := htarget w' hw' m' t' ht'
    rw [hv, hv', (Writing.wire_of_target? (haligned w hw) hv _).1.mpr hnonneg,
      (Writing.wire_of_target? (haligned w' hw') hv' _).1.mpr hnonneg', Option.some.injEq]
    exact ⟨fun h => by rw [h], Export.eq_of_wire_eq hallocated hallocated'⟩

/-- A private variable under two labels, and an input that is allocated by a row inside the row. -/
def Step.labelledProgram : List Step :=
  [.allocate .aux,
    .enforce
      [.run [.enforce [.fresh .input] [] []], .combine .plus (.variable ⟨⟨"private"⟩, 0⟩)]
      [.combine .plus (.variable ⟨.aux, 0⟩)] [.combine .minus (.variable ⟨.input, 1⟩)]]

theorem wires_of_labelled_program :
    let o := exportCircuit (Step.circuit false Step.labelledProgram)
    Clean o.log ∧ ∃ ex, o.result = .ok ex ∧
      ex.ledgers.column ⟨.aux, 0⟩ .a = .ok [⟨1, 0⟩] ∧
      ∀ w ∈ Act.writings o.journal, ∀ m, ∀ t ∈ (w.row.get m).terms, ∃ v,
        w.before.target? m t.var = some v ∧ ex.wire t.var = ex.wire v ∧
          0 ≤ ex.wire t.var ∧ ex.wire t.var < ex.numVars := by
  intro o
  have clean : Clean o.log := by decide
  have hnonneg : ∀ w ∈ Act.writings o.journal, ∀ e ∈ w.row.entries, 0 ≤ e.2.var.index := by decide
  obtain ⟨ex, hex, -, hcolumn, hwire, -⟩ := wires_of_clean false Step.labelledProgram clean
  refine ⟨clean, ex, hex, hcolumn .a ⟨.aux, 0⟩ (by decide), fun w hw m t ht => ?_⟩
  obtain ⟨v, hv, -, hrange, hsame, -⟩ := hwire w hw m t ht
  have heq := hsame.mpr (hnonneg w hw (m, t) (Row.mem_entries.mpr ht))
  rw [heq]
  exact ⟨v, hv, rfl, hrange⟩

/-- A row on the variable that was allocated last, named from the end. -/
def Step.lastProgram : List Step :=
  [.allocate .aux, .enforce [.combine .plus (.variable ⟨.aux, -1⟩)] [] []]

/-- The term is posted to the private variable, which has wire one, but its own wire is zero, like
that of the constant in the padding row. -/
theorem wire_of_last_program :
    let o := exportCircuit (Step.circuit false Step.lastProgram)
    Clean o.log ∧ ∃ ex, o.result = .ok ex ∧
      ex.ledgers.column ⟨.aux, 0⟩ .a = .ok [⟨1, 0⟩] ∧
      ∃ w ∈ Act.writings o.journal, ∃ t ∈ (w.row.get .a).terms,
        w.before.target? .a t.var = some ⟨.aux, 0⟩ ∧ ex.wire ⟨.aux, 0⟩ = 1 ∧ ex.wire t.var = 0 ∧
        ∃ w' ∈ Act.writings o.journal, ∃ t' ∈ (w'.row.get .a).terms,
          w'.before.target? .a t'.var = some .one ∧ ex.wire t'.var = 0 := by
  intro o
  have clean : Clean o.log := by decide
  refine ⟨clean, o.recorder.toExport, rfl, by decide, ?_⟩
  decide

end RankOne
