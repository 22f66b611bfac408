import RankOne.Fault
import RankOne.LinearCombination
import RankOne.Matrix

/-! The column form of a constraint system: for each variable and matrix the coefficients of the
variable, each beside the number of its row, in the order of posting. A negative index counts
from the last variable of its side. -/
namespace RankOne

/-- One nonzero entry of a column. -/
structure Posting where
  coeff : Int
  row : Nat
  deriving DecidableEq, Repr

abbrev Column := List Posting

/-- The combinations of one constraint. -/
abbrev Row := Triple LinearCombination

/-- The terms of a row in posting order: matrix by matrix, and in each as written. -/
def Row.entries (row : Row) : List (Matrix × Term) :=
  Matrix.all.flatMap fun m => (row.get m).terms.map fun t => (m, t)

@[simp] theorem Row.mem_entries {row : Row} {e : Matrix × Term} :
    e ∈ row.entries ↔ e.2 ∈ (row.get e.1).terms := by
  obtain ⟨m, t⟩ := e
  cases m <;> simp [entries, Matrix.all]

/-- The place of an index among `n` items; a negative index counts from the end. -/
def position? (n : Nat) (i : Int) : Option Nat :=
  let place := if 0 ≤ i then i else i + n
  if 0 ≤ place ∧ place < n then some place.toNat else none

theorem position?_eq_some_iff {n : Nat} {i : Int} {k : Nat} :
    position? n i = some k ↔ k < n ∧ (i = k ∨ i = k - n) := by
  simp only [position?]
  split <;> split <;> simp <;> omega

theorem position?_natCast {n k : Nat} (h : k < n) : position? n k = some k := by
  rw [position?_eq_some_iff]
  exact ⟨h, Or.inl rfl⟩

/-- The first number that 64 bits with a sign do not hold, `2 ^ 63`. -/
def wordLimit : Int := 9223372036854775808

def fitsWord (i : Int) : Bool := -wordLimit ≤ i && i < wordLimit

structure Ledgers where
  input : Triple (List Column)
  aux : Triple (List Column)
  deriving DecidableEq, Repr

namespace Ledgers

def empty : Ledgers := ⟨.const [], .const []⟩

def side (l : Ledgers) : Side → Triple (List Column)
  | .input => l.input
  | .aux => l.aux

def columns (l : Ledgers) (s : Side) (m : Matrix) : List Column := (l.side s).get m

def modify (l : Ledgers) (s : Side) (m : Matrix) (f : List Column → List Column) : Ledgers :=
  match s with
  | .input => { l with input := l.input.modify m f }
  | .aux => { l with aux := l.aux.modify m f }

/-- Opens an empty column in every matrix for the next variable of a side. -/
def openColumn (l : Ledgers) (s : Side) : Ledgers :=
  match s with
  | .input => { l with input := l.input.map (· ++ [[]]) }
  | .aux => { l with aux := l.aux.map (· ++ [[]]) }

def find (l : Ledgers) (v : Variable) (m : Matrix) : Except Fault Nat :=
  match position? (l.columns v.side m).length v.index with
  | some k => .ok k
  | none => .error (if fitsWord v.index then .outOfRange else .indexTooWide)

def column (l : Ledgers) (v : Variable) (m : Matrix) : Except Fault Column :=
  match l.find v m with
  | .ok k => .ok ((l.columns v.side m).getD k [])
  | .error fault => .error fault

/-- Adds a posting at the end of one column. -/
def enter (l : Ledgers) (s : Side) (m : Matrix) (k : Nat) (p : Posting) : Ledgers :=
  l.modify s m fun columns => columns.modify k (· ++ [p])

/-- Posts terms in order under a row number, and stops at the first whose variable has no column.
The postings made before it stay. -/
def post (number : Nat) : List (Matrix × Term) → Ledgers → Ledgers × Option Fault
  | [], l => (l, none)
  | (m, t) :: entries, l =>
    match l.find t.var m with
    | .ok k => post number entries (l.enter t.var.side m k ⟨t.coeff, number⟩)
    | .error fault => (l, some fault)

@[simp] theorem columns_empty (s : Side) (m : Matrix) : empty.columns s m = [] := by
  cases s <;> cases m <;> rfl

theorem columns_modify (l : Ledgers) (s s' : Side) (m m' : Matrix)
    (f : List Column → List Column) :
    (l.modify s m f).columns s' m' =
      if s' = s ∧ m' = m then f (l.columns s' m') else l.columns s' m' := by
  cases s <;> cases s' <;> simp [modify, columns, side, Triple.get_modify]

theorem columns_openColumn (l : Ledgers) (s s' : Side) (m : Matrix) :
    (l.openColumn s).columns s' m =
      if s' = s then l.columns s' m ++ [[]] else l.columns s' m := by
  cases s <;> cases s' <;> simp [openColumn, columns, side]

theorem columns_enter (l : Ledgers) (s s' : Side) (m m' : Matrix) (k : Nat) (p : Posting) :
    (l.enter s m k p).columns s' m' =
      if s' = s ∧ m' = m then (l.columns s' m').modify k (· ++ [p]) else l.columns s' m' := by
  simp [enter, columns_modify]

theorem ext_columns {l l' : Ledgers} (h : ∀ s m, l.columns s m = l'.columns s m) : l = l' := by
  cases l
  cases l'
  simp only [mk.injEq]
  exact ⟨Triple.ext_get (h .input), Triple.ext_get (h .aux)⟩

theorem length_columns_post (number : Nat) (entries : List (Matrix × Term)) (l : Ledgers)
    (s : Side) (m : Matrix) :
    ((post number entries l).1.columns s m).length = (l.columns s m).length := by
  induction entries generalizing l with
  | nil => rfl
  | cons entry entries ih =>
    obtain ⟨m', t⟩ := entry
    simp only [post]
    split
    · rw [ih, columns_enter]
      split <;> simp
    · rfl

end Ledgers

end RankOne
