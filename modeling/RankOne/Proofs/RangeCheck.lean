import Mathlib.Algebra.BigOperators.ModEq
import Mathlib.Data.Nat.Prime.Int
import RankOne.Proofs.CircuitRows

/-! The decomposition into bits is a range check: modulo a prime its document is solved exactly by
the assignments that give each bit wire zero or one and the public wire the number of which
these are the digits. -/
namespace RankOne

namespace Row
variable {p : Nat} {w : Variable → Int}

/-- A prime has no zero divisors, so one of the two factors of the row is zero. -/
theorem satisfiedMod_boolean_iff (hp : p.Prime) (hone : w .one ≡ 1 [ZMOD p]) (i : Nat) :
    (boolean i).SatisfiedMod p w ↔
      w ⟨.aux, i⟩ ≡ 0 [ZMOD p] ∨ w ⟨.aux, i⟩ ≡ 1 [ZMOD p] := by
  have hzero : (boolean i).c.value w = 0 := rfl
  rw [SatisfiedMod, product_boolean, hzero, Int.modEq_zero_iff_dvd,
    (Nat.prime_iff_prime_int.mp hp).dvd_mul, ← Int.modEq_zero_iff_dvd, ← Int.modEq_iff_dvd]
  exact or_congr_right ⟨fun h => h.trans hone, fun h => h.trans hone.symm⟩

theorem satisfiedMod_packing_iff (hone : w .one ≡ 1 [ZMOD p]) (n : Nat) :
    (packing n).SatisfiedMod p w ↔
      w ⟨.input, 1⟩ ≡ ∑ i ∈ Finset.range n, 2 ^ i * w ⟨.aux, i⟩ [ZMOD p] := by
  have hsum := hone.mul_left (∑ i ∈ Finset.range n, 2 ^ i * w ⟨.aux, i⟩)
  rw [mul_one] at hsum
  rw [SatisfiedMod, product_packing, value_packing]
  exact ⟨fun h => h.symm.trans hsum, fun h => hsum.trans h.symm⟩

theorem satisfiedMod_decomposition_iff (hp : p.Prime) (hone : w .one ≡ 1 [ZMOD p]) (n : Nat) :
    (∀ row ∈ decomposition n ++ [padding 0, padding 1], row.SatisfiedMod p w) ↔
      (∀ i < n, w ⟨.aux, i⟩ ≡ 0 [ZMOD p] ∨ w ⟨.aux, i⟩ ≡ 1 [ZMOD p]) ∧
        w ⟨.input, 1⟩ ≡ ∑ i ∈ Finset.range n, 2 ^ i * w ⟨.aux, i⟩ [ZMOD p] := by
  have hpadding := forall_satisfiedMod_append_padding p w (decomposition n) [0, 1]
  rw [List.map_cons, List.map_singleton] at hpadding
  rw [hpadding]
  simp only [decomposition, List.forall_mem_append, List.forall_mem_map, List.mem_range,
    List.forall_mem_singleton, satisfiedMod_boolean_iff hp hone, satisfiedMod_packing_iff hone]

end Row

section
variable {p n : Nat} {b : Nat → Int}

theorem residue_of_bit (hp : 2 ≤ p) {x : Int} (h : x ≡ 0 [ZMOD p] ∨ x ≡ 1 [ZMOD p]) :
    x % p = 0 ∨ x % p = 1 := by
  have hone : (1 : Int) % p = 1 := Int.emod_eq_of_lt (by omega) (by omega)
  rcases h with h | h
  · exact .inl h
  · exact .inr (Eq.trans h hone)

/-- When bits cannot wrap around, the residue of their sum is the sum of their residues. -/
theorem residue_of_sum_bits (hp : 2 ≤ p) (hn : 2 ^ n ≤ p)
    (hb : ∀ i < n, b i ≡ 0 [ZMOD p] ∨ b i ≡ 1 [ZMOD p]) :
    (∑ i ∈ Finset.range n, 2 ^ i * b i) % p = ∑ i ∈ Finset.range n, 2 ^ i * (b i % p) := by
  have hrange := sum_bits_range fun i hi => residue_of_bit hp (hb i hi)
  have hpow : (2 : Int) ^ n ≤ p := by exact_mod_cast hn
  have hsum : ∑ i ∈ Finset.range n, 2 ^ i * b i ≡ ∑ i ∈ Finset.range n, 2 ^ i * (b i % p)
      [ZMOD p] :=
    Int.ModEq.sum fun i _ => (Int.mod_modEq (b i) p).symm.mul_left (2 ^ i)
  exact Eq.trans hsum (Int.emod_eq_of_lt hrange.1 (lt_of_lt_of_le hrange.2 hpow))

theorem residue_of_sum_bits_lt (hp : 2 ≤ p) (hn : 2 ^ n ≤ p)
    (hb : ∀ i < n, b i ≡ 0 [ZMOD p] ∨ b i ≡ 1 [ZMOD p]) :
    (∑ i ∈ Finset.range n, 2 ^ i * b i) % p < 2 ^ n := by
  rw [residue_of_sum_bits hp hn hb]
  exact (sum_bits_range fun i hi => residue_of_bit hp (hb i hi)).2

/-- The residue of each bit is a digit of the residue of the sum. -/
theorem residue_eq_digit (hp : 2 ≤ p) (hn : 2 ^ n ≤ p)
    (hb : ∀ i < n, b i ≡ 0 [ZMOD p] ∨ b i ≡ 1 [ZMOD p]) {j : Nat} (hj : j < n) :
    b j % p = (∑ i ∈ Finset.range n, 2 ^ i * b i) % p / 2 ^ j % 2 := by
  rw [residue_of_sum_bits hp hn hb]
  exact (digit_of_sum_bits (fun i hi => residue_of_bit hp (hb i hi)) hj).symm

end

/-- The wires of the bits hold zero or one, and the public wire the number that they make. -/
def Decomposes (p n : Nat) (w : Int → Int) : Prop :=
  (∀ i < n, w (2 + i) ≡ 0 [ZMOD p] ∨ w (2 + i) ≡ 1 [ZMOD p]) ∧
    w 1 ≡ ∑ i ∈ Finset.range n, 2 ^ i * w (2 + i) [ZMOD p]

namespace Decomposes
variable {p n : Nat} {w w' : Int → Int}

/-- The assignment that decomposes a number: its digits on the wires of the bits. -/
def assignment (p : Nat) (x : Int) (wire : Int) : Int :=
  if wire = 0 then 1 else if wire = 1 then x else x % p / 2 ^ (wire - 2).toNat % 2

theorem of_residue_lt (hp : 0 < p) {x : Int} (hx : x % p < 2 ^ n) :
    Decomposes p n (assignment p x) := by
  have hbit : ∀ i : Nat, assignment p x (2 + i) = x % p / 2 ^ i % 2 := fun i => by
    have hplace : (2 + (i : Int) - 2).toNat = i := by omega
    rw [assignment, if_neg (by omega), if_neg (by omega), hplace]
  constructor
  · intro i _
    rw [hbit]
    rcases Int.emod_two_eq (x % p / 2 ^ i) with h | h <;> rw [h]
    · exact .inl rfl
    · exact .inr rfl
  · have hnonneg : 0 ≤ x % p := Int.emod_nonneg x (by omega)
    simp only [hbit]
    rw [sum_digits, Int.emod_eq_of_lt hnonneg hx]
    exact (Int.mod_modEq x p).symm

theorem residue_lt (h : Decomposes p n w) (hp : 2 ≤ p) (hn : 2 ^ n ≤ p) : w 1 % p < 2 ^ n := by
  rw [h.2]
  exact residue_of_sum_bits_lt hp hn h.1

theorem unique (h : Decomposes p n w) (h' : Decomposes p n w') (hp : 2 ≤ p) (hn : 2 ^ n ≤ p)
    (hpublic : w 1 ≡ w' 1 [ZMOD p]) {i : Nat} (hi : i < n) : w (2 + i) ≡ w' (2 + i) [ZMOD p] := by
  have hsum := (h.2.symm.trans hpublic).trans h'.2
  rw [Int.ModEq, residue_eq_digit hp hn h.1 hi, residue_eq_digit hp hn h'.1 hi, hsum]

end Decomposes

/-- Modulo a prime, the document of the decomposition into bits is solved exactly by the
decompositions. When the prime is not below the power of two, the public numbers of the solutions
are those with a residue below the power, and the bits depend on the number alone. -/
theorem bits_document_solved_iff {p : Nat} (hp : p.Prime) (width : Int) (value : Option Int) :
    let n := width.toNat
    ∃ ex, (exportCircuit ((Circuit.bits width value).synthesize Recorder.system)).result = .ok ex ∧
      ((n : Int) + 2 < wordLimit → ∃ d, ex.document p = .ok d ∧
        (∀ w : Int → Int, w 0 ≡ 1 [ZMOD p] → (d.Solved p w ↔
          (∀ i < n, w (2 + i) ≡ 0 [ZMOD p] ∨ w (2 + i) ≡ 1 [ZMOD p]) ∧
            w 1 ≡ ∑ i ∈ Finset.range n, 2 ^ i * w (2 + i) [ZMOD p])) ∧
        (2 ^ n ≤ p →
          (∀ x : Int, (∃ w : Int → Int, w 0 = 1 ∧ w 1 = x ∧ d.Solved p w) ↔ x % p < 2 ^ n) ∧
          ∀ w w' : Int → Int, w 0 ≡ 1 [ZMOD p] → w' 0 ≡ 1 [ZMOD p] → d.Solved p w →
            d.Solved p w' → w 1 ≡ w' 1 [ZMOD p] → ∀ i < n, w (2 + i) ≡ w' (2 + i) [ZMOD p])) ∧
      (wordLimit ≤ (n : Int) + 2 → ex.document p = .error .tooManyWires) := by
  intro n
  obtain ⟨ex, completed, hrows, hinputs, haux⟩ := Circuit.exports_bits width value
  have htwo := hp.two_le
  have hprime : 2 ≤ (p : Int) := by exact_mod_cast htwo
  have hvars : ex.numVars = n + 2 := by
    rw [Export.numVars, hinputs, haux, add_comm]
  refine ⟨ex, completed, fun hfits => ?_, fun hmany => ?_⟩
  · obtain ⟨d, hd, hsolved⟩ := ex.exists_document_solved_iff hprime (hvars ▸ hfits)
    have hbit : ∀ i : Nat, ex.wire ⟨.aux, i⟩ = 2 + i := fun i => by rw [Export.wire_aux, hinputs]
    have hdecomposes : ∀ w : Int → Int, w 0 ≡ 1 [ZMOD p] → (d.Solved p w ↔ Decomposes p n w) := by
      intro w hone
      have hwire : w (ex.wire .one) ≡ 1 [ZMOD p] := by rwa [Variable.one, Export.wire_input]
      rw [hsolved, hrows, Row.satisfiedMod_decomposition_iff hp hwire]
      simp only [hbit, Export.wire_input]
      rfl
    refine ⟨d, hd, hdecomposes, fun hn => ⟨fun x => ⟨?_, fun hx => ?_⟩, ?_⟩⟩
    · rintro ⟨w, hone, rfl, hw⟩
      exact ((hdecomposes w (by rw [hone])).mp hw).residue_lt htwo hn
    · have hw := Decomposes.of_residue_lt hp.pos hx
      exact ⟨_, rfl, rfl, (hdecomposes _ (Int.ModEq.refl 1)).mpr hw⟩
    · intro w w' hone hone' hw hw' hpublic i hi
      exact ((hdecomposes w hone).mp hw).unique ((hdecomposes w' hone').mp hw') htwo hn hpublic hi
  · rw [Export.document, if_neg (by omega), if_pos (by omega)]

/-- Three bits modulo eleven: five can be decomposed, and eight cannot. -/
theorem bits_document_of_three :
    Nat.Prime 11 ∧ ∃ ex d, (exportCircuit ((Circuit.bits 3 none).synthesize
        Recorder.system)).result = .ok ex ∧ ex.document (11 : Nat) = .ok d ∧
      (∃ w : Int → Int, w 0 = 1 ∧ w 1 = 5 ∧ d.Solved (11 : Nat) w) ∧
      ¬ ∃ w : Int → Int, w 0 = 1 ∧ w 1 = 8 ∧ d.Solved (11 : Nat) w := by
  have hp : Nat.Prime 11 := by decide
  obtain ⟨ex, completed, hdocument, -⟩ := bits_document_solved_iff hp 3 none
  obtain ⟨d, hd, -, hrange⟩ := hdocument (by decide)
  have hvalues := (hrange (by decide)).1
  exact ⟨hp, ex, d, completed, hd, (hvalues 5).mpr (by decide),
    fun h => absurd ((hvalues 8).mp h) (by decide)⟩

end RankOne
