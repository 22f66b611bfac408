import Mathlib.Data.List.TakeWhile
import RankOne.Recorder

/-! What posting a row does to the ledgers, column by column. Posting changes no number of columns,
so all terms of a row are placed by the ledgers as they stood before it. -/
namespace RankOne.Ledgers

/-- The column at a place; a place that no column has counts as empty. -/
def slot (l : Ledgers) (s : Side) (m : Matrix) (k : Nat) : Column := (l.columns s m).getD k []

/-- The place of a variable's column, if it has one. -/
def place? (l : Ledgers) (v : Variable) (m : Matrix) : Option Nat :=
  position? (l.columns v.side m).length v.index

/-- The terms before the first one that has no column. -/
def posted (l : Ledgers) (entries : List (Matrix × Term)) : List (Matrix × Term) :=
  entries.takeWhile fun e => (l.place? e.2.var e.1).isSome

/-- What terms add to the column at a place when they are posted under a number. -/
def share (l : Ledgers) (number : Nat) (s : Side) (m : Matrix) (k : Nat)
    (entries : List (Matrix × Term)) : Column :=
  entries.filterMap fun e =>
    if e.1 = m ∧ e.2.var.side = s ∧ l.place? e.2.var e.1 = some k then some ⟨e.2.coeff, number⟩
    else none

def SameShape (l l' : Ledgers) : Prop :=
  ∀ s m, (l.columns s m).length = (l'.columns s m).length

theorem SameShape.place?_eq {l l' : Ledgers} (h : SameShape l l') (v : Variable) (m : Matrix) :
    l.place? v m = l'.place? v m := by
  simp only [place?, h v.side m]

theorem SameShape.posted_eq {l l' : Ledgers} (h : SameShape l l')
    (entries : List (Matrix × Term)) : l.posted entries = l'.posted entries := by
  simp only [posted, h.place?_eq]

theorem SameShape.share_eq {l l' : Ledgers} (h : SameShape l l') (number : Nat) (s : Side)
    (m : Matrix) (k : Nat) (entries : List (Matrix × Term)) :
    l.share number s m k entries = l'.share number s m k entries := by
  simp only [share, h.place?_eq]

theorem isSome_of_mem_posted {l : Ledgers} {entries : List (Matrix × Term)} {e : Matrix × Term}
    (h : e ∈ l.posted entries) : (l.place? e.2.var e.1).isSome :=
  List.mem_takeWhile_imp (p := fun e : Matrix × Term => (l.place? e.2.var e.1).isSome) h

theorem enter_sameShape (l : Ledgers) (s : Side) (m : Matrix) (k : Nat) (p : Posting) :
    SameShape (l.enter s m k p) l := by
  intro s' m'
  rw [columns_enter]
  split <;> simp

theorem find_eq_ok_iff {l : Ledgers} {v : Variable} {m : Matrix} {k : Nat} :
    l.find v m = .ok k ↔ l.place? v m = some k := by
  unfold find place?
  cases position? (l.columns v.side m).length v.index <;> simp

theorem place?_lt {l : Ledgers} {v : Variable} {m : Matrix} {k : Nat}
    (h : l.place? v m = some k) : k < (l.columns v.side m).length :=
  (position?_eq_some_iff.mp h).1

@[simp] theorem slot_empty (s : Side) (m : Matrix) (k : Nat) : empty.slot s m k = [] := by
  simp [slot]

@[simp] theorem slot_openColumn (l : Ledgers) (s s' : Side) (m : Matrix) (k : Nat) :
    (l.openColumn s).slot s' m k = l.slot s' m k := by
  simp only [slot, columns_openColumn]
  split
  · simp only [List.getD_eq_getElem?_getD, List.getElem?_append]
    split
    · rfl
    · next h =>
      rw [List.getElem?_singleton, List.getElem?_eq_none (Nat.le_of_not_lt h)]
      split <;> rfl
  · rfl

theorem slot_enter {l : Ledgers} {s : Side} {m : Matrix} {k : Nat}
    (h : k < (l.columns s m).length) (p : Posting) (s' : Side) (m' : Matrix) (k' : Nat) :
    (l.enter s m k p).slot s' m' k' =
      if s' = s ∧ m' = m ∧ k' = k then l.slot s' m' k' ++ [p] else l.slot s' m' k' := by
  simp only [slot, columns_enter]
  by_cases hs : s' = s ∧ m' = m
  · obtain ⟨rfl, rfl⟩ := hs
    simp only [and_self, true_and, if_true, List.getD_eq_getElem?_getD, List.getElem?_modify]
    by_cases hk : k' = k
    · subst hk
      simp [h]
    · simp [hk, Ne.symm hk]
  · have hs' : ¬ (s' = s ∧ m' = m ∧ k' = k) := fun hh => hs ⟨hh.1, hh.2.1⟩
    simp only [hs, hs', if_false]

theorem slot_post (number : Nat) (entries : List (Matrix × Term)) (l : Ledgers) (s : Side)
    (m : Matrix) (k : Nat) :
    (post number entries l).1.slot s m k =
      l.slot s m k ++ l.share number s m k (l.posted entries) := by
  induction entries generalizing l with
  | nil => simp [post, posted, share]
  | cons e entries ih =>
    obtain ⟨m', t⟩ := e
    cases hp : l.place? t.var m' with
    | none =>
      have hf : ∀ k, l.find t.var m' ≠ .ok k := fun k hk => by
        rw [find_eq_ok_iff, hp] at hk
        cases hk
      simp only [post]
      split
      · next k hk => exact absurd hk (hf k)
      · simp [posted, share, hp]
    | some place =>
      have hlt := place?_lt hp
      -- the entered ledgers place the later terms as the old ones do
      have hshape := enter_sameShape l t.var.side m' place ⟨t.coeff, number⟩
      simp only [post, find_eq_ok_iff.mpr hp]
      rw [ih, hshape.posted_eq, hshape.share_eq, slot_enter hlt]
      have hposted : l.posted ((m', t) :: entries) = (m', t) :: l.posted entries := by
        simp [posted, hp]
      rw [hposted]
      simp only [share, List.filterMap_cons, hp, Option.some.injEq]
      by_cases hs : s = t.var.side ∧ m = m' ∧ k = place
      · obtain ⟨rfl, rfl, rfl⟩ := hs
        simp
      · have hs' : ¬ (m' = m ∧ t.var.side = s ∧ place = k) := fun hh =>
          hs ⟨hh.2.1.symm, hh.1.symm, hh.2.2.symm⟩
        simp only [hs, hs', if_false]

/-- Posting goes through exactly when every term has a column. -/
theorem post_eq_none_iff (number : Nat) (entries : List (Matrix × Term)) (l : Ledgers) :
    (post number entries l).2 = none ↔ ∀ e ∈ entries, (l.place? e.2.var e.1).isSome := by
  induction entries generalizing l with
  | nil => simp [post]
  | cons e entries ih =>
    obtain ⟨m, t⟩ := e
    simp only [post, List.forall_mem_cons]
    split
    · next k hk =>
      rw [find_eq_ok_iff] at hk
      simp only [ih, hk, Option.isSome_some, true_and,
        (enter_sameShape l t.var.side m k ⟨t.coeff, number⟩).place?_eq]
    · next fault hf =>
      have hn : l.place? t.var m = none := by
        cases hp : l.place? t.var m with
        | none => rfl
        | some k =>
          rw [find_eq_ok_iff.mpr hp] at hf
          cases hf
      simp [hn]

theorem posted_of_post_eq_none {number : Nat} {entries : List (Matrix × Term)} {l : Ledgers}
    (h : (post number entries l).2 = none) : l.posted entries = entries :=
  List.takeWhile_eq_self_iff.mpr ((post_eq_none_iff number entries l).mp h)

end RankOne.Ledgers
