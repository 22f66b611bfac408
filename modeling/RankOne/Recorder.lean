import RankOne.Ledger

/-! A recorder keeps the structure of a circuit and no values: every constraint as a row, and as
postings under a number that is read before the row is built. Number and position of a row are
two different things. -/
namespace RankOne

structure Recorder where
  numInputs : Nat
  numAux : Nat
  numConstraints : Nat
  rows : List Row
  ledgers : Ledgers
  deriving DecidableEq, Repr

namespace Recorder

def empty : Recorder := ⟨0, 0, 0, [], .empty⟩

def count (r : Recorder) : Side → Nat
  | .input => r.numInputs
  | .aux => r.numAux

def next (r : Recorder) (s : Side) : Variable := ⟨s.kind, r.count s⟩

/-- Counts the next variable of a side and opens its columns. -/
def allocate (r : Recorder) (s : Side) : Recorder :=
  match s with
  | .input => { r with numInputs := r.numInputs + 1, ledgers := r.ledgers.openColumn .input }
  | .aux => { r with numAux := r.numAux + 1, ledgers := r.ledgers.openColumn .aux }

/-- Writes a finished row. The row list takes it first, then the ledgers take its terms one by
one, and the row is counted only when every term found its column. -/
def write (r : Recorder) (number : Nat) (row : Row) : Recorder × Option Fault :=
  let (ledgers, fault) := r.ledgers.post number row.entries
  let counted := if fault.isSome then r.numConstraints else r.numConstraints + 1
  ({ r with rows := r.rows ++ [row], ledgers := ledgers, numConstraints := counted }, fault)

/-- A variable's column in the matrix of a label. The label is looked at first. -/
def column (r : Recorder) (v : Variable) (label : String) : Except Fault Column :=
  match Matrix.ofLabel? label with
  | some m => r.ledgers.column v m
  | none => .error (.noSuchMatrix label)

def combinations (r : Recorder) (m : Matrix) : List LinearCombination := r.rows.map (·.get m)

theorem count_allocate (r : Recorder) (s s' : Side) :
    (r.allocate s).count s' = if s' = s then r.count s' + 1 else r.count s' := by
  cases s <;> cases s' <;> rfl

@[simp] theorem rows_allocate (r : Recorder) (s : Side) : (r.allocate s).rows = r.rows := by
  cases s <;> rfl

@[simp] theorem numConstraints_allocate (r : Recorder) (s : Side) :
    (r.allocate s).numConstraints = r.numConstraints := by
  cases s <;> rfl

@[simp] theorem ledgers_allocate (r : Recorder) (s : Side) :
    (r.allocate s).ledgers = r.ledgers.openColumn s := by
  cases s <;> rfl

@[simp] theorem rows_write (r : Recorder) (number : Nat) (row : Row) :
    (r.write number row).1.rows = r.rows ++ [row] := rfl

@[simp] theorem count_write (r : Recorder) (number : Nat) (row : Row) (s : Side) :
    (r.write number row).1.count s = r.count s := by
  cases s <;> rfl

@[simp] theorem ledgers_write (r : Recorder) (number : Nat) (row : Row) :
    (r.write number row).1.ledgers = (r.ledgers.post number row.entries).1 := rfl

end Recorder

end RankOne
