import RankOne.Proofs.CircuitRows
import RankOne.Proofs.Interleaving
import RankOne.Proofs.SummaryOfRows

/-! The export of the decomposition into bits, in closed form for every width. Throughout the run
the columns are the transpose of the rows, so columns and sizes are read off the rows, each
under its position. -/
namespace RankOne

namespace Recorder
variable {r : Recorder}

/-- Every row was posted under its position, and the columns have nothing but these postings. -/
structure Transposed (r : Recorder) : Prop where
  aligned : r.Aligned
  within : ∀ row ∈ r.rows, row.Within r
  numConstraints_eq : r.numConstraints = r.rows.length
  slot_eq : ∀ s m (k : Nat), r.ledgers.slot s m k =
    r.rows.zipIdx.flatMap fun p => p.1.postings m ⟨s.kind, k⟩ p.2

theorem transposed_primed : primed.Transposed where
  aligned := aligned_primed
  within _ hrow := nomatch hrow
  numConstraints_eq := rfl
  slot_eq s m k := by
    show (Ledgers.empty.openColumn .input).slot s m k = []
    rw [Ledgers.slot_openColumn, Ledgers.slot_empty]

theorem Transposed.allocate (h : r.Transposed) (s : Side) : (r.allocate s).Transposed where
  aligned := h.aligned.allocate s
  within row hrow := by
    rw [rows_allocate] at hrow
    refine (h.within row hrow).mono fun s' => ?_
    rw [count_allocate]
    split <;> omega
  numConstraints_eq := by rw [numConstraints_allocate, rows_allocate, h.numConstraints_eq]
  slot_eq s' m k := by rw [ledgers_allocate, Ledgers.slot_openColumn, rows_allocate, h.slot_eq]

section
variable {row : Row} (ha : r.Aligned) (hrow : row.Within r)
include ha hrow

/-- A row that keeps within the recorder is counted. -/
theorem Aligned.numConstraints_add : (r.add row).numConstraints = r.numConstraints + 1 := by
  let w : Writing := ⟨r, row, r⟩
  have hposted : w.fault? = none := Writing.fault?_of_within ha hrow
  show (if w.fault?.isSome then _ else _) = _
  rw [hposted]
  rfl

/-- A row that keeps within the recorder adds to every column what it has for the variable. -/
theorem Aligned.slot_add (s : Side) (m : Matrix) (k : Nat) :
    (r.add row).ledgers.slot s m k =
      r.ledgers.slot s m k ++ row.postings m ⟨s.kind, k⟩ r.numConstraints := by
  let w : Writing := ⟨r, row, r⟩
  have hkept : w.Kept := ⟨Writing.fault?_of_within ha hrow, fun e he => (hrow e he).1⟩
  have hshare := hkept.share_eq m (v := ⟨s.kind, k⟩) rfl
  have hside : (Variable.mk s.kind k).side = s := s.side_kind
  rw [hside] at hshare
  rw [Recorder.add, ledgers_write, Ledgers.slot_post]
  exact congrArg _ hshare

end

theorem Transposed.add (h : r.Transposed) {row : Row} (hrow : row.Within r) :
    (r.add row).Transposed := by
  have hrows : (r.add row).rows = r.rows ++ [row] := rfl
  refine ⟨h.aligned.add row, fun row' hmem => ?_, ?_, fun s m k => ?_⟩
  · have hwithin : row'.Within r := by
      rcases List.mem_append.mp hmem with hold | hnew
      · exact h.within row' hold
      · rwa [List.mem_singleton.mp hnew]
    exact hwithin.mono fun s => (r.count_write r.numConstraints row s).ge
  · rw [h.aligned.numConstraints_add hrow, h.numConstraints_eq, hrows, List.length_append]
    rfl
  · -- the new row stands behind the others, at the position under which it was posted
    rw [h.aligned.slot_add hrow, h.slot_eq, h.numConstraints_eq, hrows, List.zipIdx_append,
      List.flatMap_append, Nat.zero_add]
    exact congrArg _ (List.append_nil _).symm

theorem Transposed.padded (h : r.Transposed) {n : Nat} (hn : n ≤ r.numInputs) :
    (r.padded n).Transposed := by
  induction n with
  | zero => rwa [padded_zero]
  | succ n ih =>
    have hadd : (r.padded n).add (.padding n) = r.padded (n + 1) :=
      congrArg Prod.fst (h.aligned.write_padded hn)
    rw [← hadd]
    exact (ih (Nat.le_of_succ_le hn)).add (Row.within_padding hn)

theorem Transposed.withBit (h : r.Transposed) (hone : 0 < r.numInputs) : r.withBit.Transposed :=
  (h.allocate .aux).add
    (Row.within_boolean (r := r.allocate .aux) hone (Nat.lt_succ_self r.numAux))

theorem Transposed.withBits (h : r.Transposed) (hone : 0 < r.numInputs) (n : Nat) :
    (r.withBits n).Transposed := by
  induction n generalizing r with
  | zero => exact h
  | succ n ih => exact ih (h.withBit hone) hone

theorem Transposed.columns_eq (h : r.Transposed) (s : Side) (m : Matrix) :
    r.ledgers.columns s m = (List.range (r.count s)).map fun k =>
      r.rows.zipIdx.flatMap fun p => p.1.postings m ⟨s.kind, k⟩ p.2 := by
  rw [h.aligned.columns_eq]
  exact List.map_congr_left fun k _ => h.slot_eq s m k

end Recorder

namespace Row

/-- The rows of an exported decomposition: the padding follows, of the constant and of the packed
number. -/
def paddedDecomposition (n : Nat) : List Row := decomposition n ++ [padding 0, padding 1]

theorem length_paddedDecomposition (n : Nat) : (paddedDecomposition n).length = n + 3 := by
  simp [paddedDecomposition, decomposition]

/-- What is read off the rows under their positions: first off the bits, then off the packing and
the padding. -/
theorem flatMap_paddedDecomposition {α : Type} (f : Row × Nat → List α) (n : Nat) :
    (paddedDecomposition n).zipIdx.flatMap f =
      (List.range n).flatMap (fun i => f (boolean i, i)) ++
        (f (packing n, n) ++ (f (padding 0, n + 1) ++ f (padding 1, n + 2))) := by
  have hbits : ((List.range n).map boolean).zipIdx =
      (List.range n).map fun i => (boolean i, i) := by
    induction n with
    | zero => rfl
    | succ n ih => simp [List.range_succ, List.zipIdx_append, ih]
  simp [paddedDecomposition, decomposition, List.zipIdx_append, hbits, List.flatMap_map]

/-- What is counted on the rows when all bits count alike. -/
theorem sum_paddedDecomposition (f : Row → Nat) {c : Nat} (hf : ∀ i, f (boolean i) = c) (n : Nat) :
    ((paddedDecomposition n).map f).sum =
      n * c + f (packing n) + f (padding 0) + f (padding 1) := by
  have hbits : (((List.range n).map boolean).map f).sum = n * c := by
    simp [Function.comp_def, hf]
  simp only [paddedDecomposition, decomposition, List.map_append, List.sum_append, hbits]
  simp
  omega

end Row

namespace Circuit

/-- The recorder that the decomposition leaves, with both inputs padded. -/
def paddedBits (n : Nat) : Recorder := (bitsRecorder n).padded 2

@[simp] theorem numInputs_paddedBits (n : Nat) : (paddedBits n).numInputs = 2 :=
  numInputs_bitsRecorder n

@[simp] theorem numAux_paddedBits (n : Nat) : (paddedBits n).numAux = n := numAux_bitsRecorder n

@[simp] theorem rows_paddedBits (n : Nat) : (paddedBits n).rows = Row.paddedDecomposition n := by
  rw [paddedBits, Recorder.padded, rows_bitsRecorder]
  rfl

theorem transposed_bitsRecorder (n : Nat) : (bitsRecorder n).Transposed :=
  ((Recorder.transposed_primed.allocate .input).withBits (Nat.succ_pos 1) n).add
    (within_packing_withBits n)

theorem transposed_paddedBits (n : Nat) : (paddedBits n).Transposed :=
  (transposed_bitsRecorder n).padded (numInputs_bitsRecorder n).ge

theorem export_bits (width : Int) (value : Option Int) :
    (exportCircuit ((Circuit.bits width value).synthesize Recorder.system)).result =
      .ok (paddedBits width.toNat).toExport := by
  have hresult :=
    result_of_yields (yields_bits width value) (transposed_bitsRecorder width.toNat).aligned
  rwa [numInputs_bitsRecorder] at hresult

end Circuit

/-- The columns of the decomposition: a bit stands in its own row and in the packing, the constant
beside every bit and beside the packing, and each input in its padding row. -/
def Ledgers.decomposition (n : Nat) : Ledgers where
  input :=
    ⟨[[⟨1, n + 1⟩], [⟨1, n + 2⟩]],
      [(List.range (n + 1)).map fun i => ⟨1, i⟩, []],
      [[], [⟨1, n⟩]]⟩
  aux :=
    ⟨(List.range n).map fun i => [⟨1, i⟩, ⟨2 ^ i, n⟩],
      (List.range n).map fun i => [⟨-1, i⟩],
      List.replicate n []⟩

/-- Of a range, only the part that belongs to one place is left when the others give nothing. -/
theorem flatMap_range_eq {α : Type} {f : Nat → List α} {n k : Nat} (hk : k < n)
    (hf : ∀ i, i ≠ k → f i = []) : (List.range n).flatMap f = f k := by
  induction n with
  | zero => cases hk
  | succ n ih =>
    rw [List.range_succ, List.flatMap_append, List.flatMap_singleton]
    rcases Nat.lt_succ_iff_lt_or_eq.mp hk with hlt | rfl
    · rw [ih hlt, hf n (Nat.ne_of_gt hlt), List.append_nil]
    · have hearlier : (List.range k).flatMap f = [] :=
        List.flatMap_eq_nil_iff.mpr fun i hi => hf i (Nat.ne_of_lt (List.mem_range.mp hi))
      rw [hearlier, List.nil_append]

namespace Row
variable (number : Nat) (m : Matrix)

theorem postings_boolean_aux (i k : Nat) :
    (boolean i).postings m ⟨.aux, k⟩ number =
      if i = k then
        match m with
        | .a => [⟨1, number⟩]
        | .b => [⟨-1, number⟩]
        | .c => []
      else [] := by
  by_cases h : i = k <;> cases m <;>
    simp [postings, boolean, Triple.get, Variable.side, Variable.one, h]

theorem postings_boolean_input (i : Nat) (j : Int) :
    (boolean i).postings m ⟨.input, j⟩ number = if m = .b ∧ 0 = j then [⟨1, number⟩] else [] := by
  by_cases h : 0 = j <;> cases m <;>
    simp [postings, boolean, Triple.get, Variable.side, Variable.one, h]

theorem postings_packing_aux {n k : Nat} (hk : k < n) :
    (packing n).postings m ⟨.aux, k⟩ number = if m = .a then [⟨2 ^ k, number⟩] else [] := by
  cases m with
  | a =>
    have hweight : ((List.range n).filter fun i => i = k) = [k] := by
      have hcount := List.count_eq_one_of_mem List.nodup_range (List.mem_range.mpr hk)
      have hfilter := List.filter_beq (l := List.range n) k
      rwa [hcount] at hfilter
    simp [postings, packing, Triple.get, Variable.side, List.filter_map, Function.comp_def, hweight]
  | b => simp [postings, packing, Triple.get, Variable.side, Variable.one]
  | c => simp [postings, packing, Triple.get, Variable.side]

theorem postings_packing_input (n : Nat) (j : Int) :
    (packing n).postings m ⟨.input, j⟩ number =
      if m = .b ∧ 0 = j ∨ m = .c ∧ 1 = j then [⟨1, number⟩] else [] := by
  cases m with
  | a => simp [postings, packing, Triple.get, Variable.side, List.filter_map, Function.comp_def]
  | b =>
    by_cases h : 0 = j <;> simp [postings, packing, Triple.get, Variable.side, Variable.one, h]
  | c => by_cases h : 1 = j <;> simp [postings, packing, Triple.get, Variable.side, h]

theorem postings_padding_aux (i : Nat) (j : Int) :
    (padding i).postings m ⟨.aux, j⟩ number = [] := by
  cases m <;> simp [postings, padding, Triple.get, Variable.side, Addend.terms]

theorem postings_padding_input (i : Nat) (j : Int) :
    (padding i).postings m ⟨.input, j⟩ number = if m = .a ∧ i = j then [⟨1, number⟩] else [] := by
  by_cases h : i = j <;> cases m <;>
    simp [postings, padding, Triple.get, Variable.side, Addend.terms, h]

theorem column_bit {n k : Nat} (hk : k < n) :
    ((paddedDecomposition n).zipIdx.flatMap fun p => p.1.postings m ⟨.aux, k⟩ p.2) =
      match m with
      | .a => [⟨1, k⟩, ⟨2 ^ k, n⟩]
      | .b => [⟨-1, k⟩]
      | .c => [] := by
  have hbits : ((List.range n).flatMap fun i => (boolean i).postings m ⟨.aux, k⟩ i) =
      (boolean k).postings m ⟨.aux, k⟩ k :=
    flatMap_range_eq hk fun i hi => by rw [postings_boolean_aux, if_neg hi]
  rw [flatMap_paddedDecomposition, hbits, postings_boolean_aux, postings_packing_aux _ _ hk,
    postings_padding_aux, postings_padding_aux]
  cases m <;> simp

/-- What is posted to an input: the constant stands in every row of a bit. -/
theorem column_input (n : Nat) (j : Int) :
    ((paddedDecomposition n).zipIdx.flatMap fun p => p.1.postings m ⟨.input, j⟩ p.2) =
      (if m = .b ∧ 0 = j then (List.range n).map fun i => ⟨1, i⟩ else []) ++
        ((if m = .b ∧ 0 = j ∨ m = .c ∧ 1 = j then [⟨1, n⟩] else []) ++
          ((if m = .a ∧ 0 = j then [⟨1, n + 1⟩] else []) ++
            (if m = .a ∧ 1 = j then [⟨1, n + 2⟩] else []))) := by
  have hbits : ((List.range n).flatMap fun i => (boolean i).postings m ⟨.input, j⟩ i) =
      if m = .b ∧ 0 = j then (List.range n).map fun i => ⟨1, i⟩ else [] := by
    simp only [postings_boolean_input]
    split
    · rw [List.map_eq_flatMap]
    · exact List.flatMap_eq_nil_iff.mpr fun _ _ => rfl
  rw [flatMap_paddedDecomposition, hbits, postings_packing_input, postings_padding_input,
    postings_padding_input]
  rfl

end Row

theorem Circuit.ledgers_paddedBits (n : Nat) : (paddedBits n).ledgers = .decomposition n := by
  apply Ledgers.ext_columns
  intro s m
  rw [(transposed_paddedBits n).columns_eq, rows_paddedBits]
  cases s with
  | input =>
    have hcount : (paddedBits n).count .input = 2 := numInputs_paddedBits n
    simp only [hcount, Side.kind, Row.column_input]
    cases m <;>
      simp [List.range_succ, Ledgers.columns, Ledgers.side, Ledgers.decomposition, Triple.get]
  | aux =>
    have hcount : (paddedBits n).count .aux = n := numAux_paddedBits n
    have hcolumn : ∀ k ∈ List.range n, _ = _ := fun k hk =>
      Row.column_bit m (List.mem_range.mp hk)
    rw [hcount]
    refine (List.map_congr_left hcolumn).trans ?_
    cases m with
    | a => rfl
    | b => rfl
    | c => simp [Ledgers.columns, Ledgers.side, Ledgers.decomposition, Triple.get]

/-- What is counted of an export with the decomposition. The packing multiplies unless there is no
bit to be packed. -/
def Summary.decomposition (n : Nat) : Summary :=
  let multiplicative := n + if 0 < n then 1 else 0
  { numConstraints := n + 3
    numInputs := 2
    numAux := n
    numVars := 2 + n
    paddingRows := 2
    multiplicativeRows := multiplicative
    linearRows := n + 3 - multiplicative
    entries := ⟨2 * n + 2, 2 * n + 1, 1⟩
    totalFanIn := 3 * n + 4
    fanInRows := n + 3 }

namespace Export
variable {ex : Export} (m : Matrix)

theorem card_wires_boolean (hinputs : 0 < ex.numInputs) (i : Nat) :
    (ex.wires ((Row.boolean i).get m)).card = (⟨1, 2, 0⟩ : Triple Nat).get m := by
  have hbit : ex.wire ⟨.aux, i⟩ = ex.numInputs + i := ex.wire_aux i
  have hone : ex.wire .one = 0 := ex.wire_input 0
  have hnodup : [ex.wire .one, ex.wire ⟨.aux, i⟩].Nodup := by
    rw [hbit, hone, List.nodup_cons, List.mem_singleton]
    exact ⟨by omega, List.nodup_singleton _⟩
  cases m with
  | a => rfl
  | b => exact List.toFinset_card_of_nodup hnodup
  | c => rfl

theorem card_wires_packing (n : Nat) :
    (ex.wires ((Row.packing n).get m)).card = (⟨n, 1, 1⟩ : Triple Nat).get m := by
  cases m with
  | a =>
    have hwires : (Row.packing n).a.terms.map (fun t => ex.wire t.var) =
        (List.range n).map fun i : Nat => ex.numInputs + i := by
      simp [Row.packing, Function.comp_def, ex.wire_aux]
    have hnodup : ((List.range n).map fun i : Nat => ex.numInputs + (i : Int)).Nodup :=
      List.nodup_range.map fun i j h => by simpa using h
    show ((Row.packing n).a.terms.map _).toFinset.card = n
    rw [hwires, List.toFinset_card_of_nodup hnodup, List.length_map, List.length_range]
  | b => rfl
  | c => rfl

end Export

namespace Row

theorem fanIn_boolean (i : Nat) : (boolean i).fanIn = 2 := by
  simp [fanIn, Row.variables, boolean, Triple.toList, List.eraseDups_cons, Variable.one, Kind.aux,
    Kind.input]

theorem fanIn_packing (n : Nat) : (packing n).fanIn = n + 2 := by
  let named : List Variable :=
    ((List.range n).map fun i : Nat => ⟨.aux, i⟩) ++ [.one, ⟨.input, 1⟩]
  have hvariables : (packing n).variables = named.eraseDups := by
    simp [Row.variables, packing, Triple.toList, Function.comp_def, named]
  have hset : named.eraseDups.toFinset = named.toFinset := by
    ext v
    rw [List.mem_toFinset, List.mem_toFinset, List.mem_eraseDups]
  have hnodup : named.Nodup := by
    refine List.nodup_append'.mpr ⟨List.nodup_range.map ?_, by decide, ?_⟩
    · intro i j h
      simpa using h
    · intro v hv hinput
      obtain ⟨i, -, rfl⟩ := List.mem_map.mp hv
      simp [Variable.one, Kind.aux, Kind.input] at hinput
  rw [fanIn_eq_card, hvariables, hset, List.toFinset_card_of_nodup hnodup]
  simp [named]

theorem fanIn_padding (i : Nat) : (padding i).fanIn = 1 := rfl

theorem countP_multiplies_decomposition (n : Nat) :
    (decomposition n).countP (Multiplies ·) = n + if 0 < n then 1 else 0 := by
  have hbits : ((List.range n).map boolean).countP (Multiplies ·) = n := by
    rw [List.countP_eq_length.mpr, List.length_map, List.length_range]
    intro row hrow
    obtain ⟨i, -, rfl⟩ := List.mem_map.mp hrow
    rfl
  have hpacking : (packing n).Multiplies ↔ 0 < n := by
    simp [Multiplies, packing, Nat.pos_iff_ne_zero]
  rw [decomposition, List.countP_append, hbits, List.countP_singleton]
  simp only [hpacking, decide_eq_true_eq]

end Row

theorem Circuit.tally_paddedBits (n : Nat) : (paddedBits n).tally = .decomposition n := by
  have hmultiplicative :
      (paddedBits n).rows.countP (Row.Multiplies ·) = n + if 0 < n then 1 else 0 := by
    rw [paddedBits, Recorder.countP_multiplies_padded, rows_bitsRecorder]
    exact Row.countP_multiplies_decomposition n
  have hwires : ∀ m,
      ((paddedBits n).rows.map fun row => ((paddedBits n).toExport.wires (row.get m)).card).sum =
        (⟨2 * n + 2, 2 * n + 1, 1⟩ : Triple Nat).get m := by
    intro m
    have hinputs : 0 < (paddedBits n).toExport.numInputs := by
      show (0 : Int) < (paddedBits n).numInputs
      rw [numInputs_paddedBits]
      decide
    rw [rows_paddedBits, Row.sum_paddedDecomposition _ (Export.card_wires_boolean m hinputs)]
    simp only [Export.card_wires_packing, Export.wires_padding]
    cases m <;> simp [Triple.get] <;> omega
  have hfanIn : ((paddedBits n).rows.map Row.fanIn).sum = 3 * n + 4 := by
    rw [rows_paddedBits, Row.sum_paddedDecomposition _ Row.fanIn_boolean, Row.fanIn_packing,
      Row.fanIn_padding, Row.fanIn_padding]
    omega
  have hlength : (paddedBits n).rows.length = n + 3 := by
    rw [rows_paddedBits, Row.length_paddedDecomposition]
  rw [Recorder.tally]
  simp only [numInputs_paddedBits, numAux_paddedBits, hlength, hmultiplicative, hwires, hfanIn]
  rfl

/-- The decomposition into bits is exported in closed form, whatever the width and the value; a
width below zero counts as zero. A summary is made unless there are more wires than a machine word
counts. -/
theorem bits_export_closed_form (width : Int) (value : Option Int) :
    let n := width.toNat
    ∃ ex, (exportCircuit ((Circuit.bits width value).synthesize Recorder.system)).result = .ok ex ∧
      ex.numInputs = 2 ∧ ex.numAux = n ∧ ex.numConstraints = n + 3 ∧
      ex.rows = Row.paddedDecomposition n ∧ ex.ledgers = .decomposition n ∧
      ((2 : Int) + n < wordLimit → ex.summary = .ok (.decomposition n)) ∧
      (wordLimit ≤ (2 : Int) + n → ex.summary = .error .wireTooWide) := by
  intro n
  let r := Circuit.paddedBits n
  have hinputs : r.toExport.numInputs = 2 := congrArg Nat.cast (Circuit.numInputs_paddedBits n)
  have haux : r.toExport.numAux = n := congrArg Nat.cast (Circuit.numAux_paddedBits n)
  have hrows : r.rows = Row.paddedDecomposition n := Circuit.rows_paddedBits n
  have hvars : r.toExport.numVars = 2 + n := by rw [Export.numVars, hinputs, haux]
  refine ⟨r.toExport, Circuit.export_bits width value, hinputs, haux, ?_, ?_,
    Circuit.ledgers_paddedBits n, fun hfits => ?_, fun hmany => ?_⟩
  · rw [Recorder.numConstraints_toExport, hrows, Row.length_paddedDecomposition]
  · rw [Recorder.rows_toExport, hrows]
  · have hwithin := (Circuit.transposed_paddedBits n).within
    obtain ⟨ps, hps⟩ := Recorder.exists_patterns hwithin (hvars ▸ hfits)
    rw [Recorder.summary_eq_tally hps, Circuit.tally_paddedBits]
  · exact Export.summary_eq_error_iff.mpr (Export.patterns_of_wordLimit_le (hvars ▸ hmany))

/-- Two bits, and a width below zero, which leaves nothing to be packed. -/
theorem bits_export_of_two :
    (∃ ex s, (exportCircuit ((Circuit.bits 2 none).synthesize Recorder.system)).result = .ok ex ∧
      ex.ledgers.aux = ⟨[[⟨1, 0⟩, ⟨1, 2⟩], [⟨1, 1⟩, ⟨2, 2⟩]], [[⟨-1, 0⟩], [⟨-1, 1⟩]], [[], []]⟩ ∧
      ex.summary = .ok s ∧ s.entries = ⟨6, 5, 1⟩ ∧ s.multiplicativeRows = 3 ∧ s.totalFanIn = 10) ∧
    ∃ ex s, (exportCircuit ((Circuit.bits (-1) (some 5)).synthesize Recorder.system)).result =
        .ok ex ∧
      ex.ledgers.input = ⟨[[⟨1, 1⟩], [⟨1, 2⟩]], [[⟨1, 0⟩], []], [[], [⟨1, 0⟩]]⟩ ∧
      ex.summary = .ok s ∧ s.multiplicativeRows = 0 ∧ s.linearRows = 3 ∧ s.totalFanIn = 4 := by
  constructor
  · obtain ⟨ex, completed, -, -, -, -, hledgers, hsummary, -⟩ := bits_export_closed_form 2 none
    have hs := hsummary (by decide)
    exact ⟨ex, _, completed, by rw [hledgers]; decide, hs, by decide, by decide, by decide⟩
  · obtain ⟨ex, completed, -, -, -, -, hledgers, hsummary, -⟩ :=
      bits_export_closed_form (-1) (some 5)
    have hs := hsummary (by decide)
    exact ⟨ex, _, completed, by rw [hledgers]; decide, hs, by decide, by decide, by decide⟩

end RankOne
