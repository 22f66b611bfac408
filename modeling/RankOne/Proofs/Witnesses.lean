import RankOne.CircuitProbe
import RankOne.Proofs.CircuitRows

/-! A probe works out the values that the bundled circuits give their variables. With the constant
wire at one they make an assignment to the variables of the export, and the rows are read under
it. -/
namespace RankOne

namespace Probe

/-- Works out values only, and never stops. -/
def valuing : Options := ⟨false, true, false, none⟩

/-- The value that a variable is allocated with by an event. -/
def Event.value? (v : Variable) : Event → Option Int
  | .allocated _ _ u _ value => if u = v then value else none
  | _ => none

end Probe

namespace Circuit

def events (c : Circuit) : List Probe.Event := (Probe.watch Probe.valuing .root c).1

/-- The value of a variable: one for the constant wire, and what it was allocated with for any
other. -/
def value? (c : Circuit) (v : Variable) : Option Int :=
  if v = .one then some 1 else c.events.findSome? (Probe.Event.value? v)

def assignment (c : Circuit) (v : Variable) : Int := (c.value? v).getD 0

/-- The circuit is exported, all its values can be worked out, and every variable of the export has
one. -/
structure Valued (c : Circuit) (ex : Export) : Prop where
  completed : (exportCircuit (c.synthesize Recorder.system)).result = .ok ex
  unfailing : (Probe.watch Probe.valuing .root c).2 = none
  isSome : ∀ v, ex.Counts v → (c.value? v).isSome

end Circuit

namespace Row

/-- The product of the first two combinations is the third. -/
def Satisfied (w : Variable → Int) (row : Row) : Prop :=
  row.a.value w * row.b.value w = row.c.value w

instance (w : Variable → Int) : DecidablePred (Satisfied w) := fun row =>
  inferInstanceAs (Decidable (row.a.value w * row.b.value w = row.c.value w))

variable {w : Variable → Int}

theorem satisfied_padding (w : Variable → Int) (i : Nat) : (padding i).Satisfied w := by
  simp [Satisfied, padding]

theorem satisfied_boolean_iff (hone : w .one = 1) (i : Nat) :
    (boolean i).Satisfied w ↔ w ⟨.aux, i⟩ = 0 ∨ w ⟨.aux, i⟩ = 1 := by
  have hzero : (boolean i).c.value w = 0 := rfl
  rw [Satisfied, product_boolean, hzero, hone, mul_eq_zero]
  exact or_congr_right ⟨fun h => by omega, fun h => by omega⟩

theorem satisfied_packing_iff (hone : w .one = 1) (n : Nat) :
    (packing n).Satisfied w ↔ ∑ i ∈ Finset.range n, 2 ^ i * w ⟨.aux, i⟩ = w ⟨.input, 1⟩ := by
  rw [Satisfied, product_packing, value_packing, hone, mul_one]

theorem forall_satisfied_append_padding (w : Variable → Int) (rows : List Row) :
    (∀ row ∈ rows ++ [padding 0, padding 1], row.Satisfied w) ↔ ∀ row ∈ rows, row.Satisfied w := by
  rw [List.forall_mem_append, and_iff_left]
  simp [satisfied_padding]

end Row

namespace Probe

theorem run_enforce (text : String) (f g k : LinearCombination → LinearCombination) (s : State) :
    ((system valuing .root).enforce (note text) (Circuit.building f) (Circuit.building g)
      (Circuit.building k)).run s =
        .ok () ⟨s.calls + 1, s.nextInput, s.nextAux,
          s.events ++ [.enforced .root none ⟨f .zero, g .zero, k .zero⟩]⟩ := rfl

/-- What the probe writes down for a bit. -/
def bitEvents (value : Int) (i : Nat) : List Event :=
  [.pushed .root none, .allocated .root .aux ⟨.aux, i⟩ none (some ((value >>> i) % 2)),
    .enforced .root none (Row.boolean i), .popped .root]

theorem run_bit (value : Int) (i calls nextInput : Nat) (events : List Event) :
    ((system valuing .root).inside (note ("bit " ++ toString i))
        fun ns => Circuit.bit ns (some value) i).run ⟨calls, nextInput, i, events⟩ =
      .ok ⟨.aux, i⟩ ⟨calls + 3, nextInput, i + 1, events ++ bitEvents value i⟩ := by
  have hevents : events ++ bitEvents value i = events ++ [.pushed .root none] ++
      [.allocated .root .aux ⟨.aux, i⟩ none (some ((value >>> i) % 2))] ++
      [.enforced .root none (Row.boolean i)] ++ [.popped .root] := by
    simp [bitEvents]
  rw [hevents]
  rfl

theorem run_bitsFrom (value : Int) (i n calls nextInput : Nat) (events : List Event) :
    (Circuit.bitsFrom (system valuing .root) (some value) i n).run ⟨calls, nextInput, i, events⟩ =
      .ok ((List.range' i n).map fun k : Nat => ⟨.aux, k⟩)
        ⟨calls + 3 * n, nextInput, i + n,
          events ++ (List.range' i n).flatMap (bitEvents value)⟩ := by
  induction n generalizing i calls events with
  | zero => simp [Circuit.bitsFrom]
  | succ n ih =>
    have hcalls : calls + 3 + 3 * n = calls + 3 * (n + 1) := by omega
    have hplace : i + 1 + n = i + (n + 1) := by omega
    rw [Circuit.bitsFrom, EStateM.run_bind, run_bit]
    simp only [EStateM.run_bind, ih, EStateM.run_pure, hcalls, hplace]
    rw [List.range'_succ, List.map_cons, List.flatMap_cons, List.append_assoc]

theorem watch_bits (width value : Int) :
    watch valuing .root (.bits width (some value)) =
      (.allocated .root .input ⟨.input, 1⟩ none (some value) ::
        ((List.range width.toNat).flatMap (bitEvents value) ++
          [.enforced .root none (Row.packing width.toNat)]), none) := by
  have hpacked : ((system valuing .root).allocate .input (note "packed")
      (Circuit.assigned (some value))).run .initial =
        .ok ⟨.input, 1⟩ ⟨1, 2, 0, [.allocated .root .input ⟨.input, 1⟩ none (some value)]⟩ := rfl
  have hbits := run_bitsFrom value 0 width.toNat 1 2
    [.allocated .root .input ⟨.input, 1⟩ none (some value)]
  rw [watch, Circuit.synthesize, Circuit.synthesizeBits, EStateM.run_bind, hpacked]
  simp only [EStateM.run_bind, hbits, run_enforce]
  rw [Circuit.packing_eq, List.singleton_append, List.cons_append, List.range_eq_range']

theorem value?_bitEvents (value : Int) (i k : Nat) :
    (bitEvents value i).findSome? (Event.value? ⟨.aux, k⟩) =
      if i = k then some ((value >>> k) % 2) else none := by
  by_cases h : i = k
  · simp [bitEvents, Event.value?, List.findSome?_cons, h]
  · simp [bitEvents, Event.value?, List.findSome?_cons, h]

/-- Every bit of a range is found, behind the bits before it. -/
theorem value?_bits (value : Int) {i n k : Nat} (hlo : i ≤ k) (hhi : k < i + n) :
    ((List.range' i n).flatMap (bitEvents value)).findSome? (Event.value? ⟨.aux, k⟩) =
      some ((value >>> k) % 2) := by
  induction n generalizing i with
  | zero => omega
  | succ n ih =>
    rw [List.range'_succ, List.flatMap_cons, List.findSome?_append, value?_bitEvents]
    by_cases h : i = k
    · rw [if_pos h]
      rfl
    · rw [if_neg h, ih (by omega) (by omega)]
      rfl

end Probe

/-- What holds of the inputs and of the private variables up to the counts holds of all variables
that the export counts. -/
theorem Export.forall_counts {ex : Export} (numInputs numAux : Nat) {p : Variable → Prop}
    (hinputs : ex.numInputs = numInputs) (haux : ex.numAux = numAux)
    (hp : ∀ k < numInputs, p ⟨.input, k⟩) (hp' : ∀ k < numAux, p ⟨.aux, k⟩) :
    ∀ v, ex.Counts v → p v := by
  rintro ⟨kind, index⟩ ⟨hkind, hlo, hhi⟩
  obtain ⟨k, rfl⟩ := Int.eq_ofNat_of_zero_le hlo
  cases hside : (Variable.mk kind k).side with
  | input =>
    rw [hside] at hkind hhi
    obtain rfl : kind = .input := hkind
    exact hp k (by simp [count, hinputs] at hhi; omega)
  | aux =>
    rw [hside] at hkind hhi
    obtain rfl : kind = .aux := hkind
    exact hp' k (by simp [count, haux] at hhi; omega)

namespace Circuit

theorem value?_one (c : Circuit) : c.value? .one = some 1 := if_pos rfl

theorem assignment_one (c : Circuit) : c.assignment .one = 1 := by
  rw [assignment, value?_one]
  rfl

section
variable (width value : Int)

theorem events_bits : (Circuit.bits width (some value)).events =
    .allocated .root .input ⟨.input, 1⟩ none (some value) ::
      ((List.range width.toNat).flatMap (Probe.bitEvents value) ++
        [.enforced .root none (Row.packing width.toNat)]) :=
  congrArg Prod.fst (Probe.watch_bits width value)

theorem value?_packed : (Circuit.bits width (some value)).value? ⟨.input, 1⟩ = some value := by
  rw [value?, if_neg (by decide), events_bits]
  rfl

theorem value?_bit {i : Nat} (hi : i < width.toNat) :
    (Circuit.bits width (some value)).value? ⟨.aux, i⟩ = some (value / 2 ^ i % 2) := by
  have hpacked : Probe.Event.value? ⟨.aux, i⟩
      (.allocated .root .input ⟨.input, 1⟩ none (some value)) = none := rfl
  rw [value?, if_neg (by simp [Variable.one, Kind.aux, Kind.input]), events_bits,
    List.findSome?_cons_of_isNone (by rw [hpacked]; rfl), List.findSome?_append,
    List.range_eq_range', Probe.value?_bits value (Nat.zero_le i) (by omega),
    Int.shiftRight_eq_div_pow]
  simp

theorem assignment_packed : (Circuit.bits width (some value)).assignment ⟨.input, 1⟩ = value :=
  congrArg (Option.getD · 0) (value?_packed width value)

theorem assignment_bit {i : Nat} (hi : i < width.toNat) :
    (Circuit.bits width (some value)).assignment ⟨.aux, i⟩ = value / 2 ^ i % 2 :=
  congrArg (Option.getD · 0) (value?_bit width value hi)

theorem satisfied_boolean {i : Nat} (hi : i < width.toNat) :
    (Row.boolean i).Satisfied (Circuit.bits width (some value)).assignment := by
  rw [Row.satisfied_boolean_iff (assignment_one _), assignment_bit width value hi]
  exact Int.emod_two_eq _

theorem sum_assignment :
    ∑ i ∈ Finset.range width.toNat,
        2 ^ i * (Circuit.bits width (some value)).assignment ⟨.aux, i⟩ =
      value % 2 ^ width.toNat := by
  rw [← sum_digits]
  exact Finset.sum_congr rfl fun i hi => by
    rw [assignment_bit width value (Finset.mem_range.mp hi)]

/-- The packing is satisfied when no digit of the number is missing. -/
theorem satisfied_packing_bits_iff :
    (Row.packing width.toNat).Satisfied (Circuit.bits width (some value)).assignment ↔
      0 ≤ value ∧ value < 2 ^ width.toNat := by
  have hpow : (0 : Int) < 2 ^ width.toNat := Int.pow_pos (by decide)
  rw [Row.satisfied_packing_iff (assignment_one _), sum_assignment, assignment_packed]
  constructor
  · intro h
    rw [← h]
    exact ⟨Int.emod_nonneg _ hpow.ne', Int.emod_lt_of_pos _ hpow⟩
  · rintro ⟨hlo, hhi⟩
    exact Int.emod_eq_of_lt hlo hhi

/-- Five needs a third bit. -/
example :
    ¬ (Row.packing 2).Satisfied (Circuit.bits 2 (some 5)).assignment ∧
      (Row.packing 3).Satisfied (Circuit.bits 3 (some 5)).assignment := by
  decide

theorem valued_bits : ∃ ex, (Circuit.bits width (some value)).Valued ex ∧
    ex.rows = Row.decomposition width.toNat ++ [.padding 0, .padding 1] := by
  obtain ⟨ex, completed, hrows, hinputs, haux⟩ := exports_bits width (some value)
  have hunfailing := congrArg Prod.snd (Probe.watch_bits width value)
  refine ⟨ex, ⟨completed, hunfailing, Export.forall_counts 2 width.toNat hinputs haux ?_ ?_⟩, hrows⟩
  · intro k hk
    obtain rfl | rfl : k = 0 ∨ k = 1 := by omega
    · exact Option.isSome_of_eq_some (value?_one _)
    · exact Option.isSome_of_eq_some (value?_packed width value)
  · intro k hk
    exact Option.isSome_of_eq_some (value?_bit width value hk)

end

theorem valued_multiply (x y : Int) : ∃ ex, (Circuit.multiply (some x) (some y)).Valued ex ∧
    ex.rows = [.product] ++ [.padding 0, .padding 1] := by
  obtain ⟨ex, completed, hrows, hinputs, haux⟩ := exports_multiply (some x) (some y)
  refine ⟨ex, ⟨completed, rfl, Export.forall_counts 2 2 hinputs haux ?_ ?_⟩, hrows⟩
  · rintro (_ | _ | k) hk
    · rfl
    · rfl
    · omega
  · rintro (_ | _ | k) hk
    · rfl
    · rfl
    · omega

theorem valued_cubic (x : Int) : ∃ ex, (Circuit.cubic (some x)).Valued ex ∧
    ex.rows = [.square, .cube, .cubicSum] ++ [.padding 0, .padding 1] := by
  obtain ⟨ex, completed, hrows, hinputs, haux⟩ := exports_cubic (some x)
  refine ⟨ex, ⟨completed, rfl, Export.forall_counts 2 3 hinputs haux ?_ ?_⟩, hrows⟩
  · rintro (_ | _ | k) hk
    · rfl
    · rfl
    · omega
  · rintro (_ | _ | _ | k) hk
    · rfl
    · rfl
    · rfl
    · omega

theorem satisfied_product (x y : Int) :
    Row.product.Satisfied (Circuit.multiply (some x) (some y)).assignment := by
  have hx : (Circuit.multiply (some x) (some y)).assignment ⟨.aux, 0⟩ = x := rfl
  have hy : (Circuit.multiply (some x) (some y)).assignment ⟨.aux, 1⟩ = y := rfl
  have hproduct : (Circuit.multiply (some x) (some y)).assignment ⟨.input, 1⟩ = x * y := rfl
  simp [Row.Satisfied, Row.product, LinearCombination.value, Term.value, hx, hy, hproduct]

theorem satisfied_cubic (x : Int) : ∀ row ∈ [Row.square, .cube, .cubicSum],
    row.Satisfied (Circuit.cubic (some x)).assignment := by
  have hone : (Circuit.cubic (some x)).assignment .one = 1 := assignment_one _
  have hx : (Circuit.cubic (some x)).assignment ⟨.aux, 0⟩ = x := rfl
  have hsquare : (Circuit.cubic (some x)).assignment ⟨.aux, 1⟩ = x * x := rfl
  have hcube : (Circuit.cubic (some x)).assignment ⟨.aux, 2⟩ = x * x * x := rfl
  have hout : (Circuit.cubic (some x)).assignment ⟨.input, 1⟩ = x * x * x + x + 5 := rfl
  simp [Row.Satisfied, Row.square, Row.cube, Row.cubicSum, LinearCombination.value, Term.value,
    hone, hx, hsquare, hcube, hout, add_assoc]

end Circuit

/-- The values that the product and the cubic give their variables satisfy every row of their
exports. Those of the decomposition into bits make the residue of the number, and satisfy all rows
just when the number needs no more bits. -/
theorem values_satisfy_rows :
    (∀ x y : Int, ∃ ex, (Circuit.multiply (some x) (some y)).Valued ex ∧
      ∀ row ∈ ex.rows, row.Satisfied (Circuit.multiply (some x) (some y)).assignment) ∧
    (∀ x : Int, ∃ ex, (Circuit.cubic (some x)).Valued ex ∧
      ∀ row ∈ ex.rows, row.Satisfied (Circuit.cubic (some x)).assignment) ∧
    ∀ width value : Int, ∃ ex, (Circuit.bits width (some value)).Valued ex ∧
      let n := width.toNat
      let w := (Circuit.bits width (some value)).assignment
      (∀ i < n, Row.boolean i ∈ ex.rows ∧ (Row.boolean i).Satisfied w) ∧
        ∑ i ∈ Finset.range n, 2 ^ i * w ⟨.aux, i⟩ = value % 2 ^ n ∧
        ((∀ row ∈ ex.rows, row.Satisfied w) ↔ 0 ≤ value ∧ value < 2 ^ n) := by
  refine ⟨fun x y => ?_, fun x => ?_, fun width value => ?_⟩
  · obtain ⟨ex, hvalued, hrows⟩ := Circuit.valued_multiply x y
    refine ⟨ex, hvalued, ?_⟩
    rw [hrows, Row.forall_satisfied_append_padding, List.forall_mem_singleton]
    exact Circuit.satisfied_product x y
  · obtain ⟨ex, hvalued, hrows⟩ := Circuit.valued_cubic x
    refine ⟨ex, hvalued, ?_⟩
    rw [hrows, Row.forall_satisfied_append_padding]
    exact Circuit.satisfied_cubic x
  · obtain ⟨ex, hvalued, hrows⟩ := Circuit.valued_bits width value
    have hbits := fun i => Circuit.satisfied_boolean width value (i := i)
    refine ⟨ex, hvalued, fun i hi => ⟨?_, hbits i hi⟩, Circuit.sum_assignment width value, ?_⟩
    · rw [hrows, Row.decomposition, List.append_assoc]
      exact List.mem_append_left _ (List.mem_map_of_mem (List.mem_range.mpr hi))
    · rw [hrows, Row.forall_satisfied_append_padding, Row.decomposition, List.forall_mem_append,
        List.forall_mem_map, List.forall_mem_singleton, Circuit.satisfied_packing_bits_iff]
      exact and_iff_right fun i hi => hbits i (List.mem_range.mp hi)

end RankOne
