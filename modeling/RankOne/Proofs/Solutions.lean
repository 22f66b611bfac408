import Mathlib.Data.Int.ModEq
import Mathlib.Logic.Function.Basic
import RankOne.ExportDocument
import RankOne.Proofs.Padding

/-! The wire document of an export has the solutions of the rows that the circuit recorded. Residues
keep every sum in its class, wires rename the variables one to one, and a padding row is
satisfied by every assignment. -/
namespace RankOne

/-- Assignments that agree on the variables of a combination give it one value. -/
theorem LinearCombination.value_congr {u w : Variable → Int} {l : LinearCombination}
    (h : ∀ t ∈ l.terms, u t.var = w t.var) : l.value u = l.value w := by
  obtain ⟨terms⟩ := l
  induction terms with
  | nil => rfl
  | cons t terms ih =>
    have hterm : t.value u = t.value w := congrArg (t.coeff * ·) (h t List.mem_cons_self)
    have hrest := ih fun t ht => h t (List.mem_cons_of_mem _ ht)
    simp only [value, List.foldr_cons] at hrest ⊢
    rw [hterm, hrest]

namespace Row

/-- The product of the first two combinations and the third leave the same residue. -/
def SatisfiedMod (prime : Int) (w : Variable → Int) (row : Row) : Prop :=
  row.a.value w * row.b.value w ≡ row.c.value w [ZMOD prime]

/-- Every term names a variable by an index below the count of its side. -/
def Within (r : Recorder) (row : Row) : Prop :=
  ∀ e ∈ row.entries, 0 ≤ e.2.var.index ∧ e.2.var.index < r.count e.2.var.side

instance (r : Recorder) : DecidablePred (Within r) := fun row =>
  inferInstanceAs
    (Decidable (∀ e ∈ row.entries, 0 ≤ e.2.var.index ∧ e.2.var.index < r.count e.2.var.side))

theorem satisfiedMod_congr {prime : Int} {u w : Variable → Int} {row : Row}
    (h : ∀ e ∈ row.entries, u e.2.var = w e.2.var) :
    row.SatisfiedMod prime u ↔ row.SatisfiedMod prime w := by
  have hvalue : ∀ m, (row.get m).value u = (row.get m).value w := fun m =>
    LinearCombination.value_congr fun t ht => h (m, t) (Row.mem_entries.mpr ht)
  have ha : row.a.value u = row.a.value w := hvalue .a
  have hb : row.b.value u = row.b.value w := hvalue .b
  have hc : row.c.value u = row.c.value w := hvalue .c
  rw [SatisfiedMod, SatisfiedMod, ha, hb, hc]

/-- Every assignment satisfies a padding row: its second and third combinations are empty. -/
theorem satisfiedMod_padding (prime : Int) (w : Variable → Int) (index : Nat) :
    (padding index).SatisfiedMod prime w := by
  simp [SatisfiedMod, padding]

theorem forall_satisfiedMod_append_padding (prime : Int) (w : Variable → Int) (rows : List Row)
    (indices : List Nat) :
    (∀ row ∈ rows ++ indices.map padding, row.SatisfiedMod prime w) ↔
      ∀ row ∈ rows, row.SatisfiedMod prime w := by
  rw [List.forall_mem_append, and_iff_left]
  intro row hrow
  obtain ⟨index, -, rfl⟩ := List.mem_map.mp hrow
  exact satisfiedMod_padding prime w index

theorem Within.mono {r r' : Recorder} {row : Row} (h : row.Within r)
    (hcount : ∀ s, r.count s ≤ r'.count s) : row.Within r' := by
  intro e he
  have hentry := h e he
  have hle := hcount e.2.var.side
  omega

theorem within_padding {r : Recorder} {index : Nat} (h : index < r.numInputs) :
    (padding index).Within r := by
  intro e he
  have hvar : e.2.var = ⟨.input, index⟩ := by
    obtain ⟨m, t⟩ := e
    cases m <;> simp_all [padding, Triple.get, Addend.terms]
  rw [hvar]
  exact ⟨Int.natCast_nonneg index, Int.ofNat_lt.mpr h⟩

end Row

/-- Rows that keep within the recorder are posted to the end. -/
theorem Writing.fault?_of_within {w : Writing} (ha : w.before.Aligned)
    (hin : w.row.Within w.before) : w.fault? = none := by
  refine ha.fault?_eq_none_iff.mpr fun e he => ?_
  obtain ⟨hlo, hhi⟩ := hin e he
  exact ⟨by omega, hhi⟩

/-- The assignment satisfies every constraint of the document. -/
def Document.Solved (prime : Int) (w : Int → Int) (d : Document) : Prop :=
  ∀ constraint ∈ d.constraints, Satisfies prime w constraint

namespace Export

/-- The sum of reduced terms over the wires is, up to the modulus, the value of the combination
when each variable has the value of its wire. -/
theorem sum_wireTerms_modEq (ex : Export) (prime : Int) (w : Int → Int) (l : LinearCombination) :
    Document.sum w (ex.wireTerms prime l) ≡ l.value fun v => w (ex.wire v) [ZMOD prime] := by
  obtain ⟨terms⟩ := l
  induction terms with
  | nil => rfl
  | cons t terms ih =>
    have hterm : (ex.wireTerm prime t).value w ≡ t.value fun v => w (ex.wire v) [ZMOD prime] :=
      (Int.mod_modEq t.coeff prime).mul_right (w (ex.wire t.var))
    exact hterm.add ih

theorem satisfies_wireTerms_iff (ex : Export) (prime : Int) (w : Int → Int) (row : Row) :
    Document.Satisfies prime w (row.map (ex.wireTerms prime)) ↔
      row.SatisfiedMod prime fun v => w (ex.wire v) := by
  have ha := ex.sum_wireTerms_modEq prime w row.a
  have hb := ex.sum_wireTerms_modEq prime w row.b
  have hc := ex.sum_wireTerms_modEq prime w row.c
  constructor
  · intro h
    exact (ha.mul hb).symm.trans (Int.ModEq.trans h hc)
  · intro h
    exact (ha.mul hb).trans (Int.ModEq.trans h hc.symm)

/-- The document has the solutions of all rows of the export. -/
theorem exists_document_solved_iff (ex : Export) {prime : Int} (hprime : 2 ≤ prime)
    (hvars : ex.numVars < wordLimit) :
    ∃ d, ex.document prime = .ok d ∧ ∀ w : Int → Int, d.Solved prime w ↔
      ∀ row ∈ ex.rows, row.SatisfiedMod prime fun v => w (ex.wire v) := by
  rw [document, if_neg (by omega), if_neg (by omega)]
  refine ⟨_, rfl, fun w => ?_⟩
  simp only [Document.Solved, List.forall_mem_map, satisfies_wireTerms_iff]

theorem wire_mem_range {r : Recorder} {row : Row} (h : row.Within r) {prime : Int} {m : Matrix}
    {t : WireTerm} (ht : t ∈ (row.map (r.toExport.wireTerms prime)).get m) :
    0 ≤ t.wire ∧ t.wire < r.toExport.numVars := by
  rw [Triple.get_map, wireTerms, List.mem_map] at ht
  obtain ⟨term, hmem, rfl⟩ := ht
  exact Recorder.wire_range (h (m, term) (Row.mem_entries.mpr hmem))

/-- Allocated variables have wires of their own. -/
theorem eq_of_wire_eq {r : Recorder} {u v : Variable} (hu : r.Allocated u) (hv : r.Allocated v)
    (h : r.toExport.wire u = r.toExport.wire v) : u = v := by
  have hbelow : ∀ {v : Variable}, r.Allocated v →
      0 ≤ v.index ∧ v.index < r.toExport.count v.side := fun hv => by
    rw [Recorder.count_toExport]
    exact hv.2
  obtain ⟨hside, hindex⟩ := (wire_eq_wire_iff (hbelow hu) (hbelow hv)).mp h
  exact hu.eq_of_index hv hside hindex

/-- The wires are those of the recorder's variables: the inputs first, then the auxiliary ones, each
with a wire of its own. -/
structure Enumerates (ex : Export) (r : Recorder) : Prop where
  input : ∀ k : Nat, ex.wire ⟨.input, k⟩ = k
  aux : ∀ k : Nat, ex.wire ⟨.aux, k⟩ = r.numInputs + k
  eq_of_wire : ∀ u v, r.Allocated u → r.Allocated v → ex.wire u = ex.wire v → u = v
  wire_iff : ∀ wire, (∃ v, r.Allocated v ∧ ex.wire v = wire) ↔ 0 ≤ wire ∧ wire < ex.numVars

theorem exists_allocated {r : Recorder} {wire : Int} (hlo : 0 ≤ wire)
    (hhi : wire < r.toExport.numVars) : ∃ v, r.Allocated v ∧ r.toExport.wire v = wire := by
  have hvars : r.toExport.numVars = r.numInputs + r.numAux := rfl
  by_cases hinput : wire < r.numInputs
  · exact ⟨⟨.input, wire⟩, ⟨rfl, hlo, hinput⟩, wire_input _ wire⟩
  · have hindex : (r.numInputs : Int) + (wire - r.numInputs) = wire := by omega
    have hfirst : 0 ≤ wire - r.numInputs := by omega
    have hlast : wire - r.numInputs < r.numAux := by omega
    exact ⟨⟨.aux, wire - r.numInputs⟩, ⟨rfl, hfirst, hlast⟩, (wire_aux _ _).trans hindex⟩

theorem enumerates_toExport (r : Recorder) : r.toExport.Enumerates r where
  input k := wire_input _ k
  aux k := wire_aux _ k
  eq_of_wire _ _ hu hv := eq_of_wire_eq hu hv
  wire_iff wire := by
    constructor
    · rintro ⟨v, hv, rfl⟩
      exact Recorder.wire_range hv.2
    · rintro ⟨hlo, hhi⟩
      exact exists_allocated hlo hhi

/-- Recorders that count alike have the same variables, and so the same wires. -/
theorem Enumerates.of_count_eq {ex : Export} {r r' : Recorder} (h : ex.Enumerates r)
    (hcount : ∀ s, r.count s = r'.count s) : ex.Enumerates r' := by
  have hallocated : ∀ v, r.Allocated v ↔ r'.Allocated v := fun v => by
    rw [Recorder.Allocated, Recorder.Allocated, hcount]
  have hinputs : r.numInputs = r'.numInputs := hcount .input
  obtain ⟨hinput, haux, heq, hwires⟩ := h
  simp only [hallocated, hinputs] at haux heq hwires
  exact ⟨hinput, haux, heq, hwires⟩

/-- Any values of the variables are those of some assignment to the wires. -/
theorem Enumerates.exists_assignment {ex : Export} {r : Recorder} (h : ex.Enumerates r)
    (u : Variable → Int) : ∃ w : Int → Int, ∀ v, r.Allocated v → w (ex.wire v) = u v := by
  let wireOf (v : { v // r.Allocated v }) : Int := ex.wire v
  have hinjective : wireOf.Injective := fun v v' heq =>
    Subtype.ext (h.eq_of_wire v v' v.2 v'.2 heq)
  exact ⟨Function.extend wireOf (fun v => u v) 0, fun v hv =>
    hinjective.extend_apply (fun v => u v) 0 ⟨v, hv⟩⟩

end Export

/-- The document of a circuit that was exported is made for every modulus of at least two, unless
the circuit has more variables than a list can hold. Its wires enumerate the variables that the
circuit allocated, so any values of these are those of an assignment to the wires, and the document
has the solutions of the rows that the circuit itself recorded. When these keep within the recorder
it speaks of the wires below the number of variables only. -/
theorem document_satisfied_iff {circuit : Recording Unit} {ex : Export}
    (completed : (exportCircuit circuit).result = .ok ex) {prime : Int} (hprime : 2 ≤ prime) :
    let recorded := (circuit.run .primed).recorder
    ex.Enumerates recorded ∧
    (∀ u : Variable → Int, ∃ w : Int → Int, ∀ v, recorded.Allocated v → w (ex.wire v) = u v) ∧
    (ex.numVars < wordLimit → ∃ d, ex.document prime = .ok d ∧
      (∀ w : Int → Int, (∀ constraint ∈ d.constraints, Document.Satisfies prime w constraint) ↔
        ∀ row ∈ recorded.rows, row.SatisfiedMod prime fun v => w (ex.wire v)) ∧
      ((∀ row ∈ recorded.rows, ∀ e ∈ row.entries, recorded.Allocated e.2.var) →
        ∀ (u : Variable → Int) (w : Int → Int),
          (∀ v, recorded.Allocated v → w (ex.wire v) = u v) →
            ((∀ constraint ∈ d.constraints, Document.Satisfies prime w constraint) ↔
              ∀ row ∈ recorded.rows, row.SatisfiedMod prime u)) ∧
      ((∀ row ∈ recorded.rows, row.Within recorded) →
        ∀ constraint ∈ d.constraints, ∀ m, ∀ t ∈ constraint.get m,
          0 ≤ t.wire ∧ t.wire < d.numVars)) ∧
    (wordLimit ≤ ex.numVars → ex.document prime = .error .tooManyWires) := by
  intro recorded
  obtain ⟨final, rfl, hrows, hcount⟩ := Recording.of_exported completed
  have hprime' : ¬ prime < 2 := by omega
  have hwires : final.toExport.Enumerates recorded :=
    (Export.enumerates_toExport final).of_count_eq hcount
  refine ⟨hwires, hwires.exists_assignment, fun hvars => ?_, fun hvars => ?_⟩
  · rw [Export.document, if_neg hprime', if_neg (by omega)]
    have hsolutions : ∀ w : Int → Int,
        (∀ constraint ∈ final.toExport.rows.map (Triple.map (final.toExport.wireTerms prime)),
          Document.Satisfies prime w constraint) ↔
        ∀ row ∈ recorded.rows, row.SatisfiedMod prime fun v => w (final.toExport.wire v) := by
      intro w
      simp only [List.forall_mem_map, Export.satisfies_wireTerms_iff, Recorder.rows_toExport]
      rw [hrows]
      exact Row.forall_satisfiedMod_append_padding prime _ _ _
    refine ⟨_, rfl, hsolutions, fun hscope u w hagree => (hsolutions w).trans ?_,
      fun hwithin constraint hmem m t ht => ?_⟩
    · exact forall₂_congr fun row hrow => Row.satisfiedMod_congr fun e he =>
        hagree e.2.var (hscope row hrow e he)
    · rw [Recorder.rows_toExport, hrows] at hmem
      obtain ⟨row, hrow, rfl⟩ := List.mem_map.mp hmem
      have hrecorded : Row.Within recorded row := by
        rcases List.mem_append.mp hrow with hown | hpadding
        · exact hwithin row hown
        · obtain ⟨index, hindex, rfl⟩ := List.mem_map.mp hpadding
          exact Row.within_padding (List.mem_range.mp hindex)
      exact Export.wire_mem_range (hrecorded.mono fun s => (hcount s).ge) ht
  · rw [Export.document, if_neg hprime', if_pos hvars]

/-- A product that a program enforces on the square of a private variable, with a coefficient
below zero and one above the modulus. -/
def Step.squareProgram : List Step :=
  [.allocate .aux, .allocate .input,
    .enforce [.combine .plus (.variable ⟨.aux, 0⟩)] [.combine .plus (.variable ⟨.aux, 0⟩)]
      [.combine .minus (.variable ⟨.input, 1⟩), .combine .plus (.term ⟨9, ⟨.input, 1⟩⟩)]]

/-- The private variable has the last of three wires, and all its values are reached. -/
theorem document_of_square_satisfied_iff :
    let recorded := ((Step.circuit false Step.squareProgram).run .primed).recorder
    ∃ ex d, (exportCircuit (Step.circuit false Step.squareProgram)).result = .ok ex ∧
      2 ≤ (7 : Int) ∧ ex.document 7 = .ok d ∧ (∀ row ∈ recorded.rows, row.Within recorded) ∧
      (∀ w : Int → Int, (∀ constraint ∈ d.constraints, Document.Satisfies 7 w constraint) ↔
        ∀ row ∈ recorded.rows, row.SatisfiedMod 7 fun v => w (ex.wire v)) ∧
      ex.wire ⟨.aux, 0⟩ = 2 ∧
      ∀ u : Variable → Int, ∃ w : Int → Int, w 2 = u ⟨.aux, 0⟩ ∧
        ((∀ constraint ∈ d.constraints, Document.Satisfies 7 w constraint) ↔
          ∀ row ∈ recorded.rows, row.SatisfiedMod 7 u) := by
  intro recorded
  have hprime : 2 ≤ (7 : Int) := by decide
  have completed : (exportCircuit (Step.circuit false Step.squareProgram)).result = .ok _ := rfl
  obtain ⟨hwires, hassign, hdocument, -⟩ := document_satisfied_iff completed hprime
  obtain ⟨d, hd, hsolutions, hcarried, -⟩ := hdocument (by decide)
  refine ⟨_, d, completed, hprime, hd, by decide, hsolutions, hwires.aux 0, fun u => ?_⟩
  obtain ⟨w, hagree⟩ := hassign u
  exact ⟨w, hagree ⟨.aux, 0⟩ (by decide), hcarried (by decide) u w hagree⟩

end RankOne
