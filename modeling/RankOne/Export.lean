import RankOne.Recording

/-! An export is what a finished recording hands on: the combinations of all rows, the two counts,
and the ledgers. Before it is taken, every input gets a padding row. Wires number the inputs
first, the constant at zero. -/
namespace RankOne

structure Export where
  combinations : Triple (List LinearCombination)
  numInputs : Int
  numAux : Int
  ledgers : Ledgers
  deriving DecidableEq, Repr

namespace Export

def numConstraints (ex : Export) : Nat := ex.combinations.a.length

def numVars (ex : Export) : Int := ex.numInputs + ex.numAux

/-- The wire of a variable. Nothing checks that the export has it. -/
def wire (ex : Export) (v : Variable) : Int :=
  match v.side with
  | .input => v.index
  | .aux => ex.numInputs + v.index

def count (ex : Export) : Side → Int
  | .input => ex.numInputs
  | .aux => ex.numAux

/-- The variable is one of those that the export counts. -/
def Counts (ex : Export) (v : Variable) : Prop :=
  v.kind = v.side.kind ∧ 0 ≤ v.index ∧ v.index < ex.count v.side

instance (ex : Export) : DecidablePred ex.Counts := fun v =>
  inferInstanceAs (Decidable (v.kind = v.side.kind ∧ 0 ≤ v.index ∧ v.index < ex.count v.side))

/-- The rows that all three lists have, as many as the shortest. -/
def rows (ex : Export) : List Row :=
  (ex.combinations.a.zip (ex.combinations.b.zip ex.combinations.c)).map fun (a, b, c) => ⟨a, b, c⟩

end Export

/-- The variable of a wire when so many wires are inputs. -/
def Variable.ofWire (numInputs wire : Int) : Variable :=
  if wire < numInputs then ⟨.input, wire⟩ else ⟨.aux, wire - numInputs⟩

/-- What the recorder has taken down, without regard to how rows were numbered. -/
def Recorder.toExport (r : Recorder) : Export :=
  ⟨⟨r.combinations .a, r.combinations .b, r.combinations .c⟩, r.numInputs, r.numAux, r.ledgers⟩

/-- The recorder that a circuit is handed: it holds the constant wire. -/
def Recorder.primed : Recorder := Recorder.empty.allocate .input

namespace Recording

/-- One constraint that says nothing: an input times zero is zero. -/
def padInput (index : Nat) : Recording Unit :=
  Recorder.system.enforce none (fun l => return l.plus (Variable.mk .input index))
    (fun l => return l) (fun l => return l)

/-- One padding row for every input that the recorder has when padding begins. -/
def pad : Recording Unit := do
  (List.range (← recorder).numInputs).forM padInput

def exported (circuit : Recording Unit) : Recording Export := do
  circuit
  pad
  return (← recorder).toExport

end Recording

def exportCircuit (circuit : Recording Unit) : Outcome Export :=
  (Recording.exported circuit).run Recorder.primed

inductive RenderFault
  | primeTooSmall (prime : Int)
  /-- There are more wires than a list can be long. -/
  | tooManyWires
  /-- A wire or a dimension is wider than a machine word. -/
  | wireTooWide
  | negativeShape
  | rowOutside (row rows : Nat)
  | wireOutside (wire wires : Int)
  | wireNegative (wire : Int)
  deriving DecidableEq, Repr

def RenderFault.message : RenderFault → String
  | .primeTooSmall prime => "prime must be at least 2, got " ++ toString prime
  | .tooManyWires => "Python int too large to convert to C ssize_t"
  | .wireTooWide => "Python int too large to convert to C long"
  | .negativeShape => "'shape' elements cannot be negative"
  | .rowOutside row rows =>
    "axis 0 index " ++ toString row ++ " exceeds matrix dimension " ++ toString rows
  | .wireOutside wire wires =>
    "axis 1 index " ++ toString wire ++ " exceeds matrix dimension " ++ toString wires
  | .wireNegative wire => "negative axis 1 index: " ++ toString wire

namespace Export

theorem wire_input (ex : Export) (i : Int) : ex.wire ⟨.input, i⟩ = i := by
  simp [wire, Variable.side]

theorem wire_aux (ex : Export) (i : Int) : ex.wire ⟨.aux, i⟩ = ex.numInputs + i := by
  simp [wire, Variable.side]

/-- The wire of an index below the count of its side tells the side and the index. -/
theorem ofWire_wire {ex : Export} {v : Variable} (h : 0 ≤ v.index ∧ v.index < ex.count v.side) :
    Variable.ofWire ex.numInputs (ex.wire v) = ⟨v.side.kind, v.index⟩ := by
  obtain ⟨hlo, hhi⟩ := h
  cases hside : v.side with
  | input =>
    have hwire : ex.wire v = v.index := by simp [wire, hside]
    have hlt : v.index < ex.numInputs := by rwa [hside] at hhi
    rw [hwire, Variable.ofWire, if_pos hlt]
    rfl
  | aux =>
    have hwire : ex.wire v = ex.numInputs + v.index := by simp [wire, hside]
    have hindex : ex.numInputs + v.index - ex.numInputs = v.index := by omega
    rw [hwire, Variable.ofWire, if_neg (by omega), hindex]
    rfl

theorem Counts.ofWire_wire {ex : Export} {v : Variable} (h : ex.Counts v) :
    Variable.ofWire ex.numInputs (ex.wire v) = v := by
  rw [Export.ofWire_wire h.2, ← h.1]

/-- Below the counts, wires tell apart what differs in side or index. -/
theorem wire_eq_wire_iff {ex : Export} {u v : Variable}
    (hu : 0 ≤ u.index ∧ u.index < ex.count u.side) (hv : 0 ≤ v.index ∧ v.index < ex.count v.side) :
    ex.wire u = ex.wire v ↔ u.side = v.side ∧ u.index = v.index := by
  constructor
  · intro h
    have hread := congrArg (Variable.ofWire ex.numInputs) h
    rw [ofWire_wire hu, ofWire_wire hv, Variable.mk.injEq] at hread
    have hside := congrArg Kind.side hread.1
    rw [Side.side_kind, Side.side_kind] at hside
    exact ⟨hside, hread.2⟩
  · rintro ⟨hside, hindex⟩
    rw [wire, wire, hside, hindex]

/-- Below counts that are not negative, a wire is one of those that the export has. -/
theorem wire_range {ex : Export} (hinputs : 0 ≤ ex.numInputs) (haux : 0 ≤ ex.numAux) {v : Variable}
    (h : 0 ≤ v.index ∧ v.index < ex.count v.side) : 0 ≤ ex.wire v ∧ ex.wire v < ex.numVars := by
  simp only [wire, numVars]
  cases hside : v.side <;> simp only [hside, count] at h ⊢ <;> omega

end Export

@[simp] theorem Recorder.count_toExport (r : Recorder) (s : Side) :
    r.toExport.count s = r.count s := by
  cases s <;> rfl

theorem Recorder.wire_range {r : Recorder} {v : Variable}
    (h : 0 ≤ v.index ∧ v.index < r.count v.side) :
    0 ≤ r.toExport.wire v ∧ r.toExport.wire v < r.toExport.numVars :=
  Export.wire_range (Int.natCast_nonneg _) (Int.natCast_nonneg _) (by rwa [count_toExport])

end RankOne
