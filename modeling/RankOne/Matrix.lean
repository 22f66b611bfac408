namespace RankOne

inductive Matrix
  | a
  | b
  | c
  deriving DecidableEq, Repr

namespace Matrix

def all : List Matrix := [.a, .b, .c]

def label : Matrix → String
  | .a => "A"
  | .b => "B"
  | .c => "C"

def ofLabel? (label : String) : Option Matrix :=
  all.find? fun m => m.label = label

end Matrix

structure Triple (α : Type) where
  a : α
  b : α
  c : α
  deriving DecidableEq, Repr

namespace Triple
variable {α β : Type}

def const (x : α) : Triple α := ⟨x, x, x⟩

def get (t : Triple α) : Matrix → α
  | .a => t.a
  | .b => t.b
  | .c => t.c

def map (f : α → β) (t : Triple α) : Triple β := ⟨f t.a, f t.b, f t.c⟩

def modify (t : Triple α) (m : Matrix) (f : α → α) : Triple α :=
  match m with
  | .a => { t with a := f t.a }
  | .b => { t with b := f t.b }
  | .c => { t with c := f t.c }

def toList (t : Triple α) : List α := [t.a, t.b, t.c]

@[simp] theorem get_map (f : α → β) (t : Triple α) (m : Matrix) :
    (t.map f).get m = f (t.get m) := by
  cases m <;> rfl

theorem get_modify (t : Triple α) (m k : Matrix) (f : α → α) :
    (t.modify m f).get k = if k = m then f (t.get k) else t.get k := by
  cases m <;> cases k <;> rfl

theorem ext_get {s t : Triple α} (h : ∀ m, s.get m = t.get m) : s = t := by
  cases s
  cases t
  simpa [get] using And.intro (h .a) (And.intro (h .b) (h .c))

end Triple

end RankOne
