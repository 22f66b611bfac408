import RankOne.Export

/-! The pattern of a matrix says which wires occur in which row, in compressed rows: the wires of
all rows one after the other, ascending and without repetition in each, and the offsets at which
the rows begin. -/
namespace RankOne

/-- Adds a wire to an ascending list unless the list has it. -/
def insertWire (w : Int) : List Int → List Int
  | [] => [w]
  | x :: xs => if w < x then w :: x :: xs else if w = x then x :: xs else x :: insertWire w xs

def ascending (ws : List Int) : List Int := ws.foldr insertWire []

/-- Where lists of the given lengths begin when they stand one after the other, and where the
last one ends. -/
def offsets (start : Nat) : List Nat → List Nat
  | [] => [start]
  | n :: ns => start :: offsets (start + n) ns

structure Pattern where
  numRows : Nat
  numColumns : Int
  offsets : List Nat
  wires : List Int
  /-- One entry for every wire. -/
  data : List Int
  deriving DecidableEq, Repr

namespace Pattern

/-- Compresses the supports of all rows. -/
def ofSupports (numColumns : Int) (supports : List (List Int)) : Pattern :=
  { numRows := supports.length
    numColumns := numColumns
    offsets := RankOne.offsets 0 (supports.map List.length)
    wires := supports.flatten
    data := supports.flatten.map fun _ => 1 }

def size (p : Pattern) : Nat := p.wires.length

def bounds (p : Pattern) (i : Nat) : Nat × Nat := (p.offsets.getD i 0, p.offsets.getD (i + 1) 0)

def row (p : Pattern) (i : Nat) : List Int :=
  let (start, stop) := p.bounds i
  (p.wires.take stop).drop start

def rowSizes (p : Pattern) : List Nat :=
  (List.range p.numRows).map fun i => (p.bounds i).2 - (p.bounds i).1

end Pattern

namespace Export

/-- The wires of the terms in each row of a matrix, as written. -/
def wireRows (ex : Export) (m : Matrix) : List (List Int) :=
  (ex.combinations.get m).map fun l => l.terms.map fun t => ex.wire t.var

def lastUsedRow? (rows : List (List Int)) : Option Nat :=
  (rows.zipIdx.filterMap fun (row, i) => if row.isEmpty then none else some i).max?

/-- The first reason for which rows of wires do not fit a matrix: a wire is too wide, the shape is
impossible, a used row lies outside, or a wire does. -/
def misfit? (numRows : Nat) (numColumns : Int) (rows : List (List Int)) : Option RenderFault :=
  if rows.flatten.any fun w => !fitsWord w then some .wireTooWide
  else if numColumns < 0 then some .negativeShape
  else if !fitsWord numColumns then some .wireTooWide
  else
    match lastUsedRow? rows, rows.flatten.max?, rows.flatten.min? with
    | some row, some largest, some smallest =>
      if numRows ≤ row then some (.rowOutside row numRows)
      else if numColumns ≤ largest then some (.wireOutside largest numColumns)
      else if smallest < 0 then some (.wireNegative smallest)
      else none
    | _, _, _ => none

/-- The first `n` rows; rows that are missing are empty. -/
def fitRows (n : Nat) (rows : List (List Int)) : List (List Int) :=
  (rows ++ List.replicate (n - rows.length) []).take n

/-- The support pattern of one matrix. -/
def pattern (ex : Export) (m : Matrix) : Except RenderFault Pattern :=
  match misfit? ex.numConstraints ex.numVars (ex.wireRows m) with
  | some fault => .error fault
  | none =>
    .ok (.ofSupports ex.numVars ((fitRows ex.numConstraints (ex.wireRows m)).map ascending))

/-- All three patterns, or the fault of the first matrix that has none. -/
def patterns (ex : Export) : Except RenderFault (Triple Pattern) := do
  let a ← ex.pattern .a
  let b ← ex.pattern .b
  let c ← ex.pattern .c
  return ⟨a, b, c⟩

end Export

theorem mem_insertWire {w x : Int} {xs : List Int} :
    x ∈ insertWire w xs ↔ x = w ∨ x ∈ xs := by
  induction xs with
  | nil => simp [insertWire]
  | cons y ys ih =>
    simp only [insertWire]
    split
    · simp
    · split
      · subst w
        simp
      · simp only [List.mem_cons, ih]
        exact or_left_comm

theorem mem_ascending {x : Int} {ws : List Int} : x ∈ ascending ws ↔ x ∈ ws := by
  induction ws with
  | nil => rfl
  | cons w ws ih =>
    have step : x ∈ ascending (w :: ws) ↔ x = w ∨ x ∈ ascending ws := mem_insertWire
    rw [step, ih, List.mem_cons]

theorem pairwise_insertWire (w : Int) {xs : List Int} (h : xs.Pairwise (· < ·)) :
    (insertWire w xs).Pairwise (· < ·) := by
  induction xs with
  | nil => simp [insertWire]
  | cons y ys ih =>
    obtain ⟨hy, hys⟩ := List.pairwise_cons.1 h
    simp only [insertWire]
    split
    · refine List.pairwise_cons.2 ⟨fun x hx => ?_, h⟩
      rcases List.mem_cons.1 hx with rfl | hx
      · assumption
      · have := hy x hx
        omega
    · split
      · exact h
      · refine List.pairwise_cons.2 ⟨fun x hx => ?_, ih hys⟩
        rcases mem_insertWire.1 hx with rfl | hx
        · omega
        · exact hy x hx

theorem pairwise_ascending (ws : List Int) : (ascending ws).Pairwise (· < ·) := by
  induction ws with
  | nil => exact List.Pairwise.nil
  | cons w ws ih => exact pairwise_insertWire w ih

theorem nodup_ascending (ws : List Int) : (ascending ws).Nodup :=
  (pairwise_ascending ws).imp Int.ne_of_lt

theorem length_offsets (start : Nat) (ns : List Nat) :
    (offsets start ns).length = ns.length + 1 := by
  induction ns generalizing start with
  | nil => rfl
  | cons n ns ih => simp [offsets, ih]

end RankOne
