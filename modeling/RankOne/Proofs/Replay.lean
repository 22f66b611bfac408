import RankOne.Proofs.Posting
import RankOne.Recording

/-! A journal tells what was done to a recorder, so doing it again leads to the same recorder. Laws
about whole runs are proved here by induction on the journal from laws about one act. -/
namespace RankOne

/-- Carries an act out; the marks around the building of a row change nothing. -/
def Act.apply (r : Recorder) : Act → Recorder
  | .allocated v => r.allocate v.side
  | .wrote w => (r.write w.number w.row).1
  | .opened | .abandoned => r

/-- An act can have been done to a recorder when it names what that recorder gives and takes. -/
def Act.Fits (r : Recorder) : Act → Prop
  | .allocated v => v = r.next v.side
  | .wrote w => w.before = r
  | .opened | .abandoned => True

def Act.writings (acts : List Act) : List Writing := acts.filterMap Act.writing?

@[simp] theorem Act.writings_nil : writings [] = [] := rfl

@[simp] theorem Act.writings_append (xs ys : List Act) :
    writings (xs ++ ys) = writings xs ++ writings ys :=
  List.filterMap_append

@[simp] theorem Act.writings_allocated (v : Variable) (acts : List Act) :
    writings (.allocated v :: acts) = writings acts := rfl

@[simp] theorem Act.writings_opened (acts : List Act) :
    writings (.opened :: acts) = writings acts := rfl

@[simp] theorem Act.writings_abandoned (acts : List Act) :
    writings (.abandoned :: acts) = writings acts := rfl

@[simp] theorem Act.writings_wrote (w : Writing) (acts : List Act) :
    writings (.wrote w :: acts) = w :: writings acts := rfl

namespace Writing

def share (w : Writing) (s : Side) (m : Matrix) (k : Nat) : Column :=
  w.before.ledgers.share w.number s m k (w.before.ledgers.posted w.row.entries)

theorem fault?_eq (w : Writing) :
    w.fault? = (w.before.ledgers.post w.number w.row.entries).2 := rfl

theorem countP_fault_eq_zero {ws : List Writing} (h : ∀ w ∈ ws, w.fault? = none) :
    ws.countP (·.fault?.isSome) = 0 := by
  rw [List.countP_eq_zero]
  intro w hw
  simp [h w hw]

end Writing

/-- Every row was posted to the end. -/
def Posted (acts : List Act) : Prop := ∀ w ∈ Act.writings acts, w.fault? = none

theorem posted_append {xs ys : List Act} : Posted (xs ++ ys) ↔ Posted xs ∧ Posted ys := by
  rw [Posted, Act.writings_append]
  exact List.forall_mem_append

namespace Recorder

def replay (r : Recorder) (acts : List Act) : Recorder := acts.foldl Act.apply r

/-- Every act can have been done to the recorder that the acts before it lead to. -/
def Admits : Recorder → List Act → Prop
  | _, [] => True
  | r, act :: acts => act.Fits r ∧ (act.apply r).Admits acts

@[simp] theorem replay_nil (r : Recorder) : r.replay [] = r := rfl

@[simp] theorem replay_cons (r : Recorder) (act : Act) (acts : List Act) :
    r.replay (act :: acts) = (act.apply r).replay acts := rfl

@[simp] theorem replay_append (r : Recorder) (xs ys : List Act) :
    r.replay (xs ++ ys) = (r.replay xs).replay ys := by
  simp [replay]

theorem admits_append {r : Recorder} {xs ys : List Act} :
    r.Admits (xs ++ ys) ↔ r.Admits xs ∧ (r.replay xs).Admits ys := by
  induction xs generalizing r with
  | nil => simp [Admits]
  | cons act xs ih => simp only [List.cons_append, Admits, replay_cons, ih, and_assoc]

/-- A journal can be cut short anywhere. -/
theorem Admits.of_eq_append {r : Recorder} {acts xs ys : List Act} (h : r.Admits acts)
    (hacts : acts = xs ++ ys) : r.Admits xs := by
  rw [hacts] at h
  exact (admits_append.mp h).1

@[simp] theorem numConstraints_write (r : Recorder) (number : Nat) (row : Row) :
    (r.write number row).1.numConstraints =
      if (r.write number row).2.isSome then r.numConstraints else r.numConstraints + 1 := rfl

theorem rows_replay (r : Recorder) (acts : List Act) :
    (r.replay acts).rows = r.rows ++ (Act.writings acts).map Writing.row := by
  induction acts generalizing r with
  | nil => simp
  | cons act acts ih => cases act <;> simp [ih, Act.apply]

theorem count_le_replay (r : Recorder) (acts : List Act) (s : Side) :
    r.count s ≤ (r.replay acts).count s := by
  induction acts generalizing r with
  | nil => exact Nat.le_refl _
  | cons act acts ih =>
    refine Nat.le_trans ?_ (ih (act.apply r))
    cases act with
    | allocated v =>
      simp only [Act.apply, count_allocate]
      split <;> omega
    | wrote w => simp [Act.apply]
    | opened => exact Nat.le_refl _
    | abandoned => exact Nat.le_refl _

/-- The recorder counts every row but those whose posting failed. -/
theorem numConstraints_replay {r : Recorder} {acts : List Act} (h : r.Admits acts) :
    (r.replay acts).numConstraints + (Act.writings acts).countP (·.fault?.isSome) =
      r.numConstraints + (Act.writings acts).length := by
  induction acts generalizing r with
  | nil => simp
  | cons act acts ih =>
    obtain ⟨hfit, hrest⟩ := h
    have hi := ih hrest
    cases act with
    | wrote w =>
      have hw : w.before = r := hfit
      subst hw
      simp only [replay_cons, Act.apply, Act.writings_wrote, List.countP_cons, List.length_cons,
        numConstraints_write, Writing.fault?] at hi ⊢
      split at hi <;> simp_all <;> omega
    | allocated v => simpa [Act.apply] using hi
    | opened => exact hi
    | abandoned => exact hi

/-- What is done to a recorder does not close a gap between its rows and its count. -/
theorem rows_sub_numConstraints_le {r : Recorder} {acts : List Act} (h : r.Admits acts) :
    r.rows.length + (r.replay acts).numConstraints ≤
      (r.replay acts).rows.length + r.numConstraints := by
  have hcount := numConstraints_replay h
  have hrows := congrArg List.length (r.rows_replay acts)
  simp only [List.length_append, List.length_map] at hrows
  omega

theorem numConstraints_le_replay {r : Recorder} {acts : List Act} (h : r.Admits acts) :
    r.numConstraints ≤ (r.replay acts).numConstraints := by
  have hcount := numConstraints_replay h
  have hle : (Act.writings acts).countP (·.fault?.isSome) ≤ (Act.writings acts).length :=
    List.countP_le_length
  omega

/-- The recorder that took a row of a journal is the one that the acts before it lead to. -/
theorem exists_before {r : Recorder} {acts : List Act} (h : r.Admits acts) {p : Nat}
    {w : Writing} (hp : (Act.writings acts)[p]? = some w) :
    ∃ earlier later, acts = earlier ++ .wrote w :: later ∧
      Act.writings earlier = (Act.writings acts).take p ∧ w.before = r.replay earlier := by
  have hsplit : Act.writings acts =
      (Act.writings acts).take p ++ w :: (Act.writings acts).drop (p + 1) := by
    obtain ⟨hlt, rfl⟩ := List.getElem?_eq_some_iff.mp hp
    simp
  obtain ⟨xs, rest, hacts, htake, hcons⟩ := List.filterMap_eq_append_iff.mp hsplit
  obtain ⟨ys, act, later, hrest, hnone, hact, -⟩ := List.filterMap_eq_cons_iff.mp hcons
  have hwrote : act = .wrote w := by
    cases act with
    | wrote w' => exact congrArg Act.wrote (Option.some.inj hact)
    | allocated v => cases hact
    | opened => cases hact
    | abandoned => cases hact
  subst hwrote hrest hacts
  have hys : Act.writings ys = [] := List.filterMap_eq_nil_iff.mpr hnone
  have hadmits : (r.replay (xs ++ ys)).Admits (.wrote w :: later) := by
    rw [← List.append_assoc] at h
    exact (admits_append.mp h).2
  refine ⟨xs ++ ys, later, by simp, ?_, hadmits.1⟩
  rw [Act.writings_append, hys, List.append_nil]
  exact htake

/-- The recorder that took a row held the rows written before it, and counted those of them that
were posted to the end. -/
theorem numConstraints_before {r : Recorder} {acts : List Act} (h : r.Admits acts) {p : Nat}
    {w : Writing} (hp : (Act.writings acts)[p]? = some w) :
    w.before.rows = r.rows ++ ((Act.writings acts).take p).map Writing.row ∧
      w.before.numConstraints + ((Act.writings acts).take p).countP (·.fault?.isSome) =
        r.numConstraints + p := by
  obtain ⟨earlier, later, hacts, htake, hbefore⟩ := exists_before h hp
  have hlt : p < (Act.writings acts).length := (List.getElem?_eq_some_iff.mp hp).1
  have hcount := numConstraints_replay (h.of_eq_append hacts)
  rw [hbefore, rows_replay, ← htake]
  rw [htake, List.length_take, Nat.min_eq_left (Nat.le_of_lt hlt)] at hcount
  rw [htake]
  exact ⟨rfl, hcount⟩

/-- There is one column in each matrix for every variable that was counted. -/
def Aligned (r : Recorder) : Prop :=
  ∀ s m, (r.ledgers.columns s m).length = r.count s

theorem aligned_empty : empty.Aligned := by
  intro s m
  cases s <;> cases m <;> rfl

theorem Aligned.allocate {r : Recorder} (h : r.Aligned) (s : Side) : (r.allocate s).Aligned := by
  intro s' m
  rw [ledgers_allocate, Ledgers.columns_openColumn, count_allocate]
  split <;> simp [h s' m]

theorem Aligned.write {r : Recorder} (h : r.Aligned) (number : Nat) (row : Row) :
    (r.write number row).1.Aligned := by
  intro s m
  rw [ledgers_write, Ledgers.length_columns_post, count_write, h s m]

theorem Aligned.replay {r : Recorder} (h : r.Aligned) (acts : List Act) :
    (r.replay acts).Aligned := by
  induction acts generalizing r with
  | nil => exact h
  | cons act acts ih =>
    cases act with
    | allocated v => exact ih (h.allocate v.side)
    | wrote w => exact ih (h.write w.number w.row)
    | opened => exact ih h
    | abandoned => exact ih h

theorem Aligned.column_eq {r : Recorder} (h : r.Aligned) (m : Matrix) {v : Variable} {k : Nat}
    (hk : v.index = k) (hlt : k < r.count v.side) :
    r.ledgers.column v m = .ok (r.ledgers.slot v.side m k) := by
  have hplace : r.ledgers.place? v m = some k := by
    rw [Ledgers.place?, h, hk]
    exact position?_natCast hlt
  rw [Ledgers.column, Ledgers.find_eq_ok_iff.mpr hplace]
  rfl

/-- The recorder has a column for the variable, counted from the first one or from the last. -/
def Has (r : Recorder) (v : Variable) : Prop :=
  -(r.count v.side : Int) ≤ v.index ∧ v.index < r.count v.side

instance (r : Recorder) : DecidablePred r.Has := fun v =>
  inferInstanceAs (Decidable (-(r.count v.side : Int) ≤ v.index ∧ v.index < r.count v.side))

theorem Aligned.place?_isSome_iff {r : Recorder} (h : r.Aligned) (v : Variable) (m : Matrix) :
    (r.ledgers.place? v m).isSome ↔ r.Has v := by
  rw [Ledgers.place?, h v.side m, Option.isSome_iff_exists]
  constructor
  · rintro ⟨k, hk⟩
    obtain ⟨hlt, hi⟩ := position?_eq_some_iff.mp hk
    constructor <;> omega
  · rintro ⟨hlo, hhi⟩
    by_cases hv : 0 ≤ v.index
    · exact ⟨v.index.toNat, position?_eq_some_iff.mpr ⟨by omega, Or.inl (by omega)⟩⟩
    · exact ⟨(v.index + r.count v.side).toNat,
        position?_eq_some_iff.mpr ⟨by omega, Or.inr (by omega)⟩⟩

theorem Aligned.fault?_eq_none_iff {w : Writing} (h : w.before.Aligned) :
    w.fault? = none ↔ ∀ e ∈ w.row.entries, w.before.Has e.2.var := by
  simp only [Writing.fault?_eq, Ledgers.post_eq_none_iff, h.place?_isSome_iff]

/-- The variable is one that the recorder gave out. -/
def Allocated (r : Recorder) (v : Variable) : Prop :=
  v.kind = v.side.kind ∧ 0 ≤ v.index ∧ v.index < r.count v.side

instance (r : Recorder) : DecidablePred r.Allocated := fun v =>
  inferInstanceAs (Decidable (v.kind = v.side.kind ∧ 0 ≤ v.index ∧ v.index < r.count v.side))

theorem Allocated.has {r : Recorder} {v : Variable} (h : r.Allocated v) : r.Has v := by
  obtain ⟨-, hlo, hhi⟩ := h
  exact ⟨by omega, hhi⟩

theorem Allocated.replay {r : Recorder} {v : Variable} (h : r.Allocated v) (acts : List Act) :
    (r.replay acts).Allocated v := by
  obtain ⟨hkind, hlo, hhi⟩ := h
  have hle := r.count_le_replay acts v.side
  exact ⟨hkind, hlo, by omega⟩

theorem Allocated.eq_of_index {r r' : Recorder} {v v' : Variable} (h : r.Allocated v)
    (h' : r'.Allocated v') (hs : v.side = v'.side) (hi : v.index = v'.index) : v = v' := by
  have hkind : v.kind = v'.kind := by rw [h.1, h'.1, hs]
  cases v
  cases v'
  simp_all

/-- A column grows by what each writing posts to it, and by nothing else. -/
theorem slot_replay {r : Recorder} {acts : List Act} (h : r.Admits acts) (s : Side) (m : Matrix)
    (k : Nat) :
    (r.replay acts).ledgers.slot s m k =
      r.ledgers.slot s m k ++ (Act.writings acts).flatMap fun w => w.share s m k := by
  induction acts generalizing r with
  | nil => simp
  | cons act acts ih =>
    obtain ⟨hfit, hrest⟩ := h
    rw [replay_cons, ih hrest]
    cases act with
    | wrote w =>
      have hw : w.before = r := hfit
      subst hw
      simp [Act.apply, Ledgers.slot_post, Writing.share]
    | allocated v => simp [Act.apply]
    | opened => rfl
    | abandoned => rfl

end Recorder

end RankOne
