import RankOne.Variable

/-! A linear combination is an ordered list of terms. Adding never merges, so addition and
subtraction are signed concatenation, and `value` turns them into sums and differences. -/
namespace RankOne

structure Term where
  coeff : Int
  var : Variable
  deriving DecidableEq, Repr

namespace Term

def scale (k : Int) (t : Term) : Term := ⟨k * t.coeff, t.var⟩

/-- The coefficient is written out however long it is. The limit that a runtime may set on the
digits of a number is left out. -/
def text (t : Term) : String :=
  "(" ++ toString t.coeff ++ ", " ++ t.var.text ++ ")"

/-- What a term is worth under an assignment. -/
def value (w : Variable → Int) (t : Term) : Int := t.coeff * w t.var

theorem value_scale (w : Variable → Int) (k : Int) (t : Term) :
    (t.scale k).value w = k * t.value w := by
  simp [scale, value, Int.mul_assoc]

end Term

structure LinearCombination where
  terms : List Term
  deriving DecidableEq, Repr

/-- What can be added to a combination or taken from it. -/
inductive Addend
  | variable (v : Variable)
  | term (t : Term)
  | combination (l : LinearCombination)
  deriving DecidableEq, Repr

namespace Addend

/-- A variable alone has coefficient one. -/
def terms : Addend → List Term
  | .variable v => [⟨1, v⟩]
  | .term t => [t]
  | .combination l => l.terms

instance : Coe Variable Addend := ⟨.variable⟩
instance : Coe Term Addend := ⟨.term⟩
instance : Coe LinearCombination Addend := ⟨.combination⟩

end Addend

namespace LinearCombination

def zero : LinearCombination := ⟨[]⟩

def plus (l : LinearCombination) (o : Addend) : LinearCombination :=
  ⟨l.terms ++ o.terms.map (Term.scale 1)⟩

def minus (l : LinearCombination) (o : Addend) : LinearCombination :=
  ⟨l.terms ++ o.terms.map (Term.scale (-1))⟩

def length (l : LinearCombination) : Nat := l.terms.length

def text (l : LinearCombination) : String :=
  "[" ++ String.intercalate ", " (l.terms.map Term.text) ++ "]"

def value (w : Variable → Int) (l : LinearCombination) : Int :=
  l.terms.foldr (fun t rest => t.value w + rest) 0

@[simp] theorem terms_zero : zero.terms = [] := rfl

@[simp] theorem terms_plus (l : LinearCombination) (o : Addend) :
    (l.plus o).terms = l.terms ++ o.terms := by
  have h : ∀ t : Term, Term.scale 1 t = t := fun t => by simp [Term.scale]
  simp [plus, funext h]

@[simp] theorem value_zero (w : Variable → Int) : zero.value w = 0 := rfl

theorem value_append (w : Variable → Int) (xs ys : List Term) :
    value w ⟨xs ++ ys⟩ = value w ⟨xs⟩ + value w ⟨ys⟩ := by
  induction xs with
  | nil => simp [value]
  | cons t xs ih =>
    simp only [value, List.cons_append, List.foldr_cons] at ih ⊢
    rw [ih, Int.add_assoc]

theorem value_map_scale (w : Variable → Int) (k : Int) (ts : List Term) :
    value w ⟨ts.map (Term.scale k)⟩ = k * value w ⟨ts⟩ := by
  induction ts with
  | nil => simp [value]
  | cons t ts ih =>
    simp only [value, List.map_cons, List.foldr_cons, Term.value_scale] at ih ⊢
    rw [ih, Int.mul_add]

end LinearCombination

end RankOne
