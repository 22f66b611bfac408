import RankOne.Circuit
import RankOne.Proofs.BinarySums
import RankOne.Proofs.Solutions

/-! The rows that are exported of the product, of the cubic and of the decomposition into bits,
whatever their values. The decomposition is run bit by bit; a bit takes one private variable and
one row. -/
namespace RankOne

namespace Row

/-- The product of the private variables is the public input. -/
def product : Row :=
  ⟨⟨[⟨1, ⟨.aux, 0⟩⟩]⟩, ⟨[⟨1, ⟨.aux, 1⟩⟩]⟩, ⟨[⟨1, ⟨.input, 1⟩⟩]⟩⟩

def square : Row :=
  ⟨⟨[⟨1, ⟨.aux, 0⟩⟩]⟩, ⟨[⟨1, ⟨.aux, 0⟩⟩]⟩, ⟨[⟨1, ⟨.aux, 1⟩⟩]⟩⟩

def cube : Row :=
  ⟨⟨[⟨1, ⟨.aux, 1⟩⟩]⟩, ⟨[⟨1, ⟨.aux, 0⟩⟩]⟩, ⟨[⟨1, ⟨.aux, 2⟩⟩]⟩⟩

/-- The cube, the private variable and five together are the public input. -/
def cubicSum : Row :=
  ⟨⟨[⟨1, ⟨.aux, 2⟩⟩, ⟨1, ⟨.aux, 0⟩⟩, ⟨5, .one⟩]⟩, ⟨[⟨1, .one⟩]⟩, ⟨[⟨1, ⟨.input, 1⟩⟩]⟩⟩

/-- A bit times one less the bit is zero. -/
def boolean (i : Nat) : Row :=
  ⟨⟨[⟨1, ⟨.aux, i⟩⟩]⟩, ⟨[⟨1, .one⟩, ⟨-1, ⟨.aux, i⟩⟩]⟩, .zero⟩

/-- The first bits, each with its power of two, are the first input behind the constant. -/
def packing (n : Nat) : Row :=
  ⟨⟨(List.range n).map fun i : Nat => ⟨2 ^ i, ⟨.aux, i⟩⟩⟩, ⟨[⟨1, .one⟩]⟩, ⟨[⟨1, ⟨.input, 1⟩⟩]⟩⟩

/-- The rows of a decomposition into so many bits. -/
def decomposition (n : Nat) : List Row := (List.range n).map boolean ++ [packing n]

theorem value_weights (w : Variable → Int) (n : Nat) :
    LinearCombination.value w ⟨(List.range n).map fun i : Nat => ⟨2 ^ i, ⟨.aux, i⟩⟩⟩ =
      ∑ i ∈ Finset.range n, 2 ^ i * w ⟨.aux, i⟩ := by
  induction n with
  | zero => rfl
  | succ n ih =>
    rw [List.range_succ, List.map_append, LinearCombination.value_append, ih,
      Finset.sum_range_succ]
    simp [LinearCombination.value, Term.value]

theorem product_boolean (w : Variable → Int) (i : Nat) :
    (boolean i).a.value w * (boolean i).b.value w = w ⟨.aux, i⟩ * (w .one - w ⟨.aux, i⟩) := by
  simp [boolean, LinearCombination.value, Term.value, sub_eq_add_neg]

theorem product_packing (w : Variable → Int) (n : Nat) :
    (packing n).a.value w * (packing n).b.value w =
      (∑ i ∈ Finset.range n, 2 ^ i * w ⟨.aux, i⟩) * w .one := by
  rw [packing, value_weights]
  simp [LinearCombination.value, Term.value]

theorem value_packing (w : Variable → Int) (n : Nat) :
    (packing n).c.value w = w ⟨.input, 1⟩ := by
  simp [packing, LinearCombination.value, Term.value]

theorem within_boolean {r : Recorder} (hone : 0 < r.numInputs) {i : Nat} (hi : i < r.numAux) :
    (boolean i).Within r := by
  have hinput : (Variable.one.index : Int) < r.count .input := Int.ofNat_lt.mpr hone
  have haux : (i : Int) < r.count .aux := Int.ofNat_lt.mpr hi
  have hentries : (boolean i).entries =
      [(.a, ⟨1, ⟨.aux, i⟩⟩), (.b, ⟨1, .one⟩), (.b, ⟨-1, ⟨.aux, i⟩⟩)] := rfl
  intro e he
  simp only [hentries, List.mem_cons, List.not_mem_nil, or_false] at he
  rcases he with rfl | rfl | rfl
  · exact ⟨Int.natCast_nonneg i, haux⟩
  · exact ⟨Int.le_refl 0, hinput⟩
  · exact ⟨Int.natCast_nonneg i, haux⟩

theorem within_packing {r : Recorder} (hinputs : 1 < r.numInputs) {n : Nat} (hn : n ≤ r.numAux) :
    (packing n).Within r := by
  rintro ⟨m, t⟩ he
  have ht : t ∈ ((packing n).get m).terms := Row.mem_entries.mp he
  cases m with
  | a =>
    obtain ⟨i, hi, rfl⟩ := List.mem_map.mp ht
    have hlt : i < r.count .aux := Nat.lt_of_lt_of_le (List.mem_range.mp hi) hn
    exact ⟨Int.natCast_nonneg i, Int.ofNat_lt.mpr hlt⟩
  | b =>
    obtain rfl := List.mem_singleton.mp ht
    have hlt : 0 < r.count .input := Nat.lt_of_succ_lt hinputs
    exact ⟨Int.le_refl 0, Int.ofNat_lt.mpr hlt⟩
  | c =>
    obtain rfl := List.mem_singleton.mp ht
    have hlt : 1 < r.count .input := hinputs
    exact ⟨Int.zero_le_ofNat 1, Int.ofNat_lt.mpr hlt⟩

end Row

/-- The recorder when it has taken a row under the next number. -/
def Recorder.add (r : Recorder) (row : Row) : Recorder := (r.write r.numConstraints row).1

theorem Recorder.Aligned.add {r : Recorder} (h : r.Aligned) (row : Row) : (r.add row).Aligned :=
  h.write _ row

namespace Recording
variable {α β : Type} {r r' r'' : Recorder}

/-- From a recorder, the recording returns the value and leaves the other recorder. -/
def Yields (x : Recording α) (r : Recorder) (a : α) (r' : Recorder) : Prop :=
  (x.run r).result = .ok a ∧ (x.run r).recorder = r'

theorem Yields.bind {x : Recording α} {f : α → Recording β} {a : α} {b : β}
    (hx : x.Yields r a r') (hf : (f a).Yields r' b r'') : (x >>= f).Yields r b r'' := by
  obtain ⟨hresult, rfl⟩ := hx
  rw [Yields, run_bind_of_ok hresult]
  exact hf

theorem yields_allocate {s : Side} {remark : Option (Deferred String)}
    {value : Option (Deferred (Option Int))} :
    (Recorder.system.allocate s remark value).Yields r (r.next s) (r.allocate s) := ⟨rfl, rfl⟩

/-- A row whose combinations need no effects is written as it stands, and posted when it keeps
within the recorder. -/
theorem yields_enforce {remark : Option (Deferred String)}
    {f g k : LinearCombination → LinearCombination} (row : Row) (ha : r.Aligned)
    (hrow : ⟨f .zero, g .zero, k .zero⟩ = row) (hin : row.Within r) :
    (Recorder.system.enforce remark (Circuit.building f) (Circuit.building g)
      (Circuit.building k)).Yields r () (r.add row) := by
  subst hrow
  have hbuilt : ((build (Circuit.building f) (Circuit.building g) (Circuit.building k)).run
      r).result = .ok ⟨f .zero, g .zero, k .zero⟩ := rfl
  have hposted : (r.write r.numConstraints ⟨f .zero, g .zero, k .zero⟩).2 = none :=
    Writing.fault?_of_within (w := ⟨r, _, r⟩) ha hin
  have hresult : ended (r.write r.numConstraints ⟨f .zero, g .zero, k .zero⟩).2 = .ok () := by
    rw [hposted]
    rfl
  -- the recorder has no use for the remark
  show (enforce _ _ _).Yields r () _
  rw [Yields, run_enforce_of_ok hbuilt]
  exact ⟨hresult, rfl⟩

end Recording

namespace Recorder

/-- The recorder after one bit more: a private variable and the row that makes it a bit. -/
def withBit (r : Recorder) : Recorder := (r.allocate .aux).add (.boolean r.numAux)

def withBits : Nat → Recorder → Recorder
  | 0, r => r
  | n + 1, r => withBits n r.withBit

theorem Aligned.withBit {r : Recorder} (h : r.Aligned) : r.withBit.Aligned :=
  (h.allocate .aux).add _

theorem Aligned.withBits {r : Recorder} (h : r.Aligned) (n : Nat) : (r.withBits n).Aligned := by
  induction n generalizing r with
  | zero => exact h
  | succ n ih => exact ih h.withBit

theorem numInputs_withBits (n : Nat) (r : Recorder) :
    (r.withBits n).numInputs = r.numInputs := by
  induction n generalizing r with
  | zero => rfl
  | succ n ih => exact ih r.withBit

theorem numAux_withBits (n : Nat) (r : Recorder) : (r.withBits n).numAux = r.numAux + n := by
  induction n generalizing r with
  | zero => rfl
  | succ n ih =>
    have hbit : r.withBit.numAux = r.numAux + 1 := rfl
    rw [withBits, ih, hbit]
    omega

theorem rows_withBits (n : Nat) (r : Recorder) :
    (r.withBits n).rows = r.rows ++ (List.range' r.numAux n).map Row.boolean := by
  induction n generalizing r with
  | zero => exact (List.append_nil _).symm
  | succ n ih =>
    have hrows : r.withBit.rows = r.rows ++ [.boolean r.numAux] := rfl
    have hbit : r.withBit.numAux = r.numAux + 1 := rfl
    rw [withBits, ih, hrows, hbit, List.range'_succ, List.map_cons, List.append_assoc]
    rfl

end Recorder

namespace Circuit
open Recording
variable {r : Recorder}

theorem yields_bit (value : Option Int) (i : Nat) (ha : r.Aligned) (hone : 0 < r.numInputs) :
    (bit Recorder.system value i).Yields r ⟨.aux, r.numAux⟩ r.withBit := by
  have hrow : Row.Within (r.allocate .aux) (.boolean r.numAux) :=
    Row.within_boolean (r := r.allocate .aux) hone (Nat.lt_succ_self r.numAux)
  exact yields_allocate.bind
    ((yields_enforce (.boolean r.numAux) (ha.allocate .aux) rfl hrow).bind ⟨rfl, rfl⟩)

/-- Bits are numbered by the recorder, wherever their positions begin. -/
theorem yields_bitsFrom (value : Option Int) (i n : Nat) (ha : r.Aligned) (hone : 0 < r.numInputs) :
    (bitsFrom Recorder.system value i n).Yields r
      ((List.range' r.numAux n).map fun k : Nat => ⟨.aux, k⟩) (r.withBits n) := by
  induction n generalizing r i with
  | zero => exact ⟨rfl, rfl⟩
  | succ n ih =>
    have hbit := yields_bit value i ha hone
    have hrest := ih (i + 1) ha.withBit hone
    rw [bitsFrom, Recorder.system_inside]
    exact hbit.bind (hrest.bind ⟨rfl, rfl⟩)

/-- Bits that are numbered by their positions get the powers of two of their numbers. -/
theorem weighted_range' (i n : Nat) (l : LinearCombination) :
    weighted i ((List.range' i n).map fun k : Nat => ⟨.aux, k⟩) l =
      ⟨l.terms ++ (List.range' i n).map fun k : Nat => ⟨2 ^ k, ⟨.aux, k⟩⟩⟩ := by
  induction n generalizing i l with
  | zero => simp [weighted]
  | succ n ih =>
    rw [List.range'_succ, List.map_cons, weighted, ih, LinearCombination.terms_plus]
    simp [Addend.terms, Nat.one_shiftLeft]

/-- The combinations that pack the bits. -/
theorem packing_eq (n : Nat) :
    Row.packing n =
      ⟨weighted 0 ((List.range' 0 n).map fun k : Nat => ⟨.aux, k⟩) .zero,
        LinearCombination.zero.plus Variable.one,
        LinearCombination.zero.plus (Variable.mk .input 1)⟩ := by
  rw [weighted_range', Row.packing, List.range_eq_range']
  rfl

/-- What the decomposition into bits leaves of the recorder that it is handed. -/
def bitsRecorder (n : Nat) : Recorder :=
  ((Recorder.primed.allocate .input).withBits n).add (.packing n)

@[simp] theorem numInputs_bitsRecorder (n : Nat) : (bitsRecorder n).numInputs = 2 :=
  Recorder.numInputs_withBits _ _

@[simp] theorem numAux_bitsRecorder (n : Nat) : (bitsRecorder n).numAux = n :=
  (Recorder.numAux_withBits _ _).trans (Nat.zero_add n)

@[simp] theorem rows_bitsRecorder (n : Nat) : (bitsRecorder n).rows = Row.decomposition n := by
  rw [bitsRecorder, Recorder.add, Recorder.rows_write, Recorder.rows_withBits, Row.decomposition,
    List.range_eq_range']
  rfl

theorem within_packing_withBits (n : Nat) :
    (Row.packing n).Within ((Recorder.primed.allocate .input).withBits n) := by
  refine Row.within_packing ?_ ?_
  · rw [Recorder.numInputs_withBits]
    decide
  · rw [Recorder.numAux_withBits]
    exact Nat.le_add_left _ _

theorem yields_bits (width : Int) (value : Option Int) :
    ((Circuit.bits width value).synthesize Recorder.system).Yields .primed ()
      (bitsRecorder width.toNat) := by
  have ha := Recorder.aligned_primed.allocate .input
  refine yields_allocate.bind ((yields_bitsFrom value 0 width.toNat ha (Nat.succ_pos 1)).bind ?_)
  exact yields_enforce _ (ha.withBits width.toNat) (packing_eq width.toNat).symm
    (within_packing_withBits width.toNat)

/-- The circuit is exported with these rows, the padding of two inputs and so many private
variables. -/
def Exports (c : Circuit) (rows : List Row) (numAux : Nat) (ex : Export) : Prop :=
  (exportCircuit (c.synthesize Recorder.system)).result = .ok ex ∧
    ex.rows = rows ++ [.padding 0, .padding 1] ∧ ex.numInputs = 2 ∧ ex.numAux = numAux

namespace Exports
variable {c : Circuit} {rows : List Row} {numAux : Nat} {ex : Export} {p : Int}

theorem wire_aux (h : c.Exports rows numAux ex) (k : Int) : ex.wire ⟨.aux, k⟩ = 2 + k := by
  rw [Export.wire_aux, h.2.2.1]

theorem numVars_eq (h : c.Exports rows numAux ex) : ex.numVars = 2 + numAux := by
  rw [Export.numVars, h.2.2.1, h.2.2.2]

/-- The document has the solutions of the rows that the circuit enforces. -/
theorem exists_document (h : c.Exports rows numAux ex) (hp : 2 ≤ p)
    (hfits : (2 + numAux : Int) < wordLimit) :
    ∃ d, ex.document p = .ok d ∧ ∀ w : Int → Int, d.Solved p w ↔
      ∀ row ∈ rows, row.SatisfiedMod p fun v => w (ex.wire v) := by
  obtain ⟨d, hd, hsolved⟩ := ex.exists_document_solved_iff hp (h.numVars_eq ▸ hfits)
  refine ⟨d, hd, fun w => ?_⟩
  rw [hsolved, h.2.1]
  exact Row.forall_satisfiedMod_append_padding p _ rows [0, 1]

end Exports

/-- A circuit that leaves an aligned recorder is exported as this recorder is padded. -/
theorem result_of_yields {c : Circuit} {left : Recorder}
    (h : (c.synthesize Recorder.system).Yields .primed () left) (ha : left.Aligned) :
    (exportCircuit (c.synthesize Recorder.system)).result =
      .ok (left.padded left.numInputs).toExport := by
  obtain ⟨returned, rfl⟩ := h
  exact congrArg Outcome.result (Recording.run_exported_of_ok returned ha)

/-- With one public input, the padding is that of the constant and of the input. -/
theorem exists_exports {c : Circuit} {left : Recorder}
    (h : (c.synthesize Recorder.system).Yields .primed () left) (ha : left.Aligned)
    (hinputs : left.numInputs = 2) : ∃ ex, c.Exports left.rows left.numAux ex := by
  refine ⟨_, result_of_yields h ha, ?_, congrArg Nat.cast hinputs, rfl⟩
  rw [Recorder.rows_toExport, Recorder.padded, hinputs]
  rfl

theorem exports_multiply (x y : Option Int) :
    ∃ ex, (Circuit.multiply x y).Exports [.product] 2 ex := by
  have ha := ((Recorder.aligned_primed.allocate .aux).allocate .aux).allocate .input
  have hrun : ((Circuit.multiply x y).synthesize Recorder.system).Yields .primed () _ :=
    yields_allocate.bind <| yields_allocate.bind <| yields_allocate.bind <|
      yields_enforce .product ha rfl (by decide)
  exact exists_exports hrun (ha.add _) rfl

theorem exports_cubic (x : Option Int) :
    ∃ ex, (Circuit.cubic x).Exports [.square, .cube, .cubicSum] 3 ex := by
  have ha :=
    (((Recorder.aligned_primed.allocate .aux).allocate .aux).allocate .aux).allocate .input
  have hrun : ((Circuit.cubic x).synthesize Recorder.system).Yields .primed () _ :=
    yields_allocate.bind <| yields_allocate.bind <| yields_allocate.bind <| yields_allocate.bind <|
      (yields_enforce .square ha rfl (by decide)).bind <|
        (yields_enforce .cube (ha.add _) rfl (by decide)).bind <|
          yields_enforce .cubicSum ((ha.add _).add _) rfl (by decide)
  exact exists_exports hrun (((ha.add _).add _).add _) rfl

theorem exports_bits (width : Int) (value : Option Int) :
    ∃ ex, (Circuit.bits width value).Exports (Row.decomposition width.toNat) width.toNat ex := by
  have ha := (Recorder.aligned_primed.allocate .input).withBits width.toNat
  have hexports := exists_exports (yields_bits width value) (ha.add _) (numInputs_bitsRecorder _)
  rwa [rows_bitsRecorder, numAux_bitsRecorder] at hexports

end Circuit

end RankOne
