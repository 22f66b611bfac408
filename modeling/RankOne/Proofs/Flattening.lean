import RankOne.CircuitProbe
import RankOne.Proofs.CircuitRows

/-! The product and the cubic are flattened faithfully at every modulus of at least two, prime or
not; the constant five may be reduced, or vanish. Every value of the cubic's private wire is
completed in one way. -/
namespace RankOne

namespace Row
variable {p : Int} {w : Variable → Int}

/-- A row of single variables says that one is the product of the others. -/
theorem satisfiedMod_single_iff (x y z : Variable) :
    SatisfiedMod p w ⟨⟨[⟨1, x⟩]⟩, ⟨[⟨1, y⟩]⟩, ⟨[⟨1, z⟩]⟩⟩ ↔ w z ≡ w x * w y [ZMOD p] := by
  have hvalue : ∀ v, LinearCombination.value w ⟨[⟨1, v⟩]⟩ = w v := fun v => by
    simp [LinearCombination.value, Term.value]
  rw [SatisfiedMod, hvalue, hvalue, hvalue]
  exact Int.modEq_comm

theorem satisfiedMod_cubicSum_iff (hone : w .one ≡ 1 [ZMOD p]) :
    cubicSum.SatisfiedMod p w ↔ w ⟨.input, 1⟩ ≡ w ⟨.aux, 2⟩ + w ⟨.aux, 0⟩ + 5 [ZMOD p] := by
  have ha : cubicSum.a.value w = w ⟨.aux, 2⟩ + w ⟨.aux, 0⟩ + 5 * w .one := by
    simp [cubicSum, LinearCombination.value, Term.value, add_assoc]
  have hb : cubicSum.b.value w = w .one := by
    simp [cubicSum, LinearCombination.value, Term.value]
  have hc : cubicSum.c.value w = w ⟨.input, 1⟩ := by
    simp [cubicSum, LinearCombination.value, Term.value]
  have hsum : (w ⟨.aux, 2⟩ + w ⟨.aux, 0⟩ + 5 * w .one) * w .one ≡
      (w ⟨.aux, 2⟩ + w ⟨.aux, 0⟩ + 5 * 1) * 1 [ZMOD p] :=
    ((hone.mul_left 5).add_left _).mul hone
  rw [mul_one, mul_one] at hsum
  rw [SatisfiedMod, ha, hb, hc]
  exact ⟨fun h => h.symm.trans hsum, fun h => hsum.trans h.symm⟩

/-- The rows of the cubic make the powers one after the other. -/
theorem satisfiedMod_cubic_iff (hone : w .one ≡ 1 [ZMOD p]) :
    (∀ row ∈ [square, cube, cubicSum], row.SatisfiedMod p w) ↔
      w ⟨.aux, 1⟩ ≡ w ⟨.aux, 0⟩ ^ 2 [ZMOD p] ∧ w ⟨.aux, 2⟩ ≡ w ⟨.aux, 0⟩ ^ 3 [ZMOD p] ∧
        w ⟨.input, 1⟩ ≡ w ⟨.aux, 0⟩ ^ 3 + w ⟨.aux, 0⟩ + 5 [ZMOD p] := by
  have hsquare : square.SatisfiedMod p w ↔ w ⟨.aux, 1⟩ ≡ w ⟨.aux, 0⟩ ^ 2 [ZMOD p] := by
    rw [pow_two]
    exact satisfiedMod_single_iff ⟨.aux, 0⟩ ⟨.aux, 0⟩ ⟨.aux, 1⟩
  have hcube : cube.SatisfiedMod p w ↔ w ⟨.aux, 2⟩ ≡ w ⟨.aux, 1⟩ * w ⟨.aux, 0⟩ [ZMOD p] :=
    satisfiedMod_single_iff ⟨.aux, 1⟩ ⟨.aux, 0⟩ ⟨.aux, 2⟩
  simp only [List.forall_mem_cons, List.not_mem_nil, false_imp_iff, implies_true, and_true,
    hsquare, hcube, satisfiedMod_cubicSum_iff hone]
  refine and_congr_right fun hsq => ?_
  -- with the square in place, the next row makes the third power
  have hthird : w ⟨.aux, 1⟩ * w ⟨.aux, 0⟩ ≡ w ⟨.aux, 0⟩ ^ 3 [ZMOD p] := by
    rw [pow_succ]
    exact hsq.mul_right _
  have hpower : w ⟨.aux, 2⟩ ≡ w ⟨.aux, 1⟩ * w ⟨.aux, 0⟩ [ZMOD p] ↔
      w ⟨.aux, 2⟩ ≡ w ⟨.aux, 0⟩ ^ 3 [ZMOD p] :=
    ⟨fun h => h.trans hthird, fun h => h.trans hthird.symm⟩
  rw [hpower]
  refine and_congr_right fun hcb => ?_
  have hsum := (hcb.add_right (w ⟨.aux, 0⟩)).add_right 5
  exact ⟨fun h => h.trans hsum, fun h => h.trans hsum.symm⟩

end Row

namespace Circuit

/-- The variable that the circuit allocates under a remark. -/
def named? (c : Circuit) (remark : String) : Option Variable :=
  (Probe.watch ⟨true, false, false, none⟩ .root c).1.findSome? fun
    | .allocated _ _ v given _ => if given = some remark then some v else none
    | _ => none

end Circuit

/-- The intermediate wires hold the powers of the private wire, the public one the polynomial. -/
def Evaluates (p : Int) (w : Int → Int) : Prop :=
  w 3 ≡ w 2 ^ 2 [ZMOD p] ∧ w 4 ≡ w 2 ^ 3 [ZMOD p] ∧ w 1 ≡ w 2 ^ 3 + w 2 + 5 [ZMOD p]

namespace Evaluates
variable {p x : Int} {w : Int → Int}

/-- The assignment that completes a value of the private wire. -/
def assignment (x : Int) : Int → Int
  | 0 => 1
  | 1 => x ^ 3 + x + 5
  | 2 => x
  | 3 => x ^ 2
  | _ => x ^ 3

theorem of_assignment (p x : Int) : Evaluates p (assignment x) :=
  ⟨Int.ModEq.refl _, Int.ModEq.refl _, Int.ModEq.refl _⟩

/-- The value of the private wire determines all others. -/
theorem unique (h : Evaluates p w) (hone : w 0 ≡ 1 [ZMOD p]) (hx : w 2 ≡ x [ZMOD p]) {i : Int}
    (hlo : 0 ≤ i) (hhi : i < 5) : w i ≡ assignment x i [ZMOD p] := by
  obtain ⟨hsquare, hcube, hresult⟩ := h
  obtain rfl | rfl | rfl | rfl | rfl : i = 0 ∨ i = 1 ∨ i = 2 ∨ i = 3 ∨ i = 4 := by omega
  · exact hone
  · exact hresult.trans (((hx.pow 3).add hx).add_right 5)
  · exact hx
  · exact hsquare.trans (hx.pow 2)
  · exact hcube.trans (hx.pow 3)

end Evaluates

namespace Circuit
variable {p : Int}

theorem exists_cubic_document (hp : 2 ≤ p) (value : Option Int) :
    ∃ ex d, (cubic value).Exports [.square, .cube, .cubicSum] 3 ex ∧ ex.document p = .ok d ∧
      ∀ w : Int → Int, w 0 ≡ 1 [ZMOD p] → (d.Solved p w ↔ Evaluates p w) := by
  obtain ⟨ex, hex⟩ := exports_cubic value
  obtain ⟨d, hd, hrows⟩ := hex.exists_document hp (by decide)
  refine ⟨ex, d, hex, hd, fun w hone => ?_⟩
  have hwire : w (ex.wire .one) ≡ 1 [ZMOD p] := by rwa [Variable.one, Export.wire_input]
  rw [hrows, Row.satisfiedMod_cubic_iff hwire, hex.wire_aux, hex.wire_aux, hex.wire_aux,
    Export.wire_input]
  rfl

theorem exists_multiply_document (hp : 2 ≤ p) (x y : Option Int) :
    ∃ ex d, (multiply x y).Exports [.product] 2 ex ∧ ex.document p = .ok d ∧
      ∀ w : Int → Int, d.Solved p w ↔ w 1 ≡ w 2 * w 3 [ZMOD p] := by
  obtain ⟨ex, hex⟩ := exports_multiply x y
  obtain ⟨d, hd, hrows⟩ := hex.exists_document hp (by decide)
  refine ⟨ex, d, hex, hd, fun w => ?_⟩
  rw [hrows, List.forall_mem_singleton, Row.product, Row.satisfiedMod_single_iff, hex.wire_aux,
    hex.wire_aux, Export.wire_input]
  rfl

end Circuit

/-- The document of the cubic is solved exactly when the wires of the square, the cube and the
result hold these powers and the polynomial of the private wire; every value of this wire is
completed in one way up to the modulus. The document of the product is solved exactly when the
public wire holds the product. -/
theorem flattenings_solved_iff {p : Int} (hp : 2 ≤ p) :
    (∀ value : Option Int, ∃ ex d,
      (exportCircuit ((Circuit.cubic value).synthesize Recorder.system)).result = .ok ex ∧
      ex.document p = .ok d ∧ ex.numVars = 5 ∧
      (∀ e ∈ [("x", 2), ("sq", 3), ("cube", 4), ("out", 1)],
        ((Circuit.cubic value).named? e.1).map ex.wire = some e.2) ∧
      (∀ w : Int → Int, w 0 ≡ 1 [ZMOD p] → (d.Solved p w ↔
        w 3 ≡ w 2 ^ 2 [ZMOD p] ∧ w 4 ≡ w 2 ^ 3 [ZMOD p] ∧ w 1 ≡ w 2 ^ 3 + w 2 + 5 [ZMOD p])) ∧
      ∀ x : Int, ∃ w : Int → Int,
        (w 0 = 1 ∧ w 2 = x ∧ w 1 = x ^ 3 + x + 5 ∧ d.Solved p w) ∧
        ∀ w' : Int → Int, w' 0 ≡ 1 [ZMOD p] → w' 2 ≡ x [ZMOD p] → d.Solved p w' →
          ∀ i, 0 ≤ i → i < ex.numVars → w' i ≡ w i [ZMOD p]) ∧
    ∀ x y : Option Int, ∃ ex d,
      (exportCircuit ((Circuit.multiply x y).synthesize Recorder.system)).result = .ok ex ∧
      ex.document p = .ok d ∧
      (∀ e ∈ [("x", 2), ("y", 3), ("pub", 1)],
        ((Circuit.multiply x y).named? e.1).map ex.wire = some e.2) ∧
      ∀ w : Int → Int, d.Solved p w ↔ w 1 ≡ w 2 * w 3 [ZMOD p] := by
  refine ⟨fun value => ?_, fun x y => ?_⟩
  · obtain ⟨ex, d, hex, hd, hsolved⟩ := Circuit.exists_cubic_document hp value
    have hvars : ex.numVars = 5 := hex.numVars_eq
    refine ⟨ex, d, hex.1, hd, hvars, ?_, hsolved, fun x => ?_⟩
    · simp only [List.forall_mem_cons, List.not_mem_nil, false_imp_iff, implies_true, and_true]
      exact ⟨congrArg some (hex.wire_aux 0), congrArg some (hex.wire_aux 1),
        congrArg some (hex.wire_aux 2), congrArg some (ex.wire_input 1)⟩
    · have hw := (hsolved _ (Int.ModEq.refl 1)).mpr (Evaluates.of_assignment p x)
      refine ⟨_, ⟨rfl, rfl, rfl, hw⟩, fun w' hone hx hw' i hlo hhi => ?_⟩
      exact ((hsolved w' hone).mp hw').unique hone hx hlo (hvars ▸ hhi)
  · obtain ⟨ex, d, hex, hd, hsolved⟩ := Circuit.exists_multiply_document hp x y
    refine ⟨ex, d, hex.1, hd, ?_, hsolved⟩
    simp only [List.forall_mem_cons, List.not_mem_nil, false_imp_iff, implies_true, and_true]
    exact ⟨congrArg some (hex.wire_aux 0), congrArg some (hex.wire_aux 1),
      congrArg some (ex.wire_input 1)⟩

/-- Modulo five the constant vanishes: two is completed with a result of zero, and with no other. -/
theorem flattenings_solved_of_five :
    2 ≤ (5 : Int) ∧ ∃ ex d,
      (exportCircuit ((Circuit.cubic none).synthesize Recorder.system)).result = .ok ex ∧
      ex.document 5 = .ok d ∧
      (∃ w : Int → Int, w 0 = 1 ∧ w 2 = 2 ∧ d.Solved 5 w) ∧
      ∀ w : Int → Int, w 0 = 1 → w 2 = 2 → d.Solved 5 w → w 1 % 5 = 0 := by
  have hp : 2 ≤ (5 : Int) := by decide
  obtain ⟨ex, d, completed, hd, -, -, hsolved, hcompleted⟩ := (flattenings_solved_iff hp).1 none
  obtain ⟨w, ⟨hone, hx, -, hw⟩, -⟩ := hcompleted 2
  refine ⟨hp, ex, d, completed, hd, ⟨w, hone, hx, hw⟩, fun w' hone' hx' hw' => ?_⟩
  obtain ⟨-, -, hresult⟩ := (hsolved w' (by rw [hone'])).mp hw'
  rw [hx'] at hresult
  exact hresult

end RankOne
