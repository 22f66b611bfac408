import Mathlib
import RankOne.ExportDocument

/-! A document tells all about the rows of an export but the multiples of the modulus in their
coefficients. The counts say which wires are inputs, so every wire names its variable again. -/
namespace RankOne

namespace Json

/-- The value of the first field with that key. -/
def field? (key : String) : Json → Option Json
  | .object fields => fields.lookup key
  | _ => none

def int? : Json → Option Int
  | .int n => some n
  | _ => none

/-- A number that is written out as a text. -/
def decimal? : Json → Option Int
  | .text s => s.toInt?
  | _ => none

def items? : Json → Option (List Json)
  | .list items => some items
  | _ => none

end Json

def Term.ofJson? (numInputs : Int) (j : Json) : Option Term := do
  let coeff ← (← j.field? "coeff").decimal?
  let wire ← (← j.field? "var").int?
  return ⟨coeff, .ofWire numInputs wire⟩

def LinearCombination.ofJson? (numInputs : Int) (j : Json) : Option LinearCombination := do
  let terms ← (← j.items?).mapM (Term.ofJson? numInputs)
  return ⟨terms⟩

def Row.ofJson? (numInputs : Int) (j : Json) : Option Row := do
  match ← (← j.items?).mapM (LinearCombination.ofJson? numInputs) with
  | [a, b, c] => return ⟨a, b, c⟩
  | _ => none

/-- What a document tells about its export. -/
structure Document.Contents where
  numInputs : Int
  numAux : Int
  rows : List Row
  deriving DecidableEq, Repr

/-- The inputs are the variables that are not auxiliary. -/
def Document.contents? (j : Json) : Option Contents := do
  let numVars ← (← j.field? "nVars").int?
  let numAux ← (← j.field? "nAux").int?
  let rows ← (← (← j.field? "constraints").items?).mapM (Row.ofJson? (numVars - numAux))
  return ⟨numVars - numAux, numAux, rows⟩

namespace Term

/-- The term with the least residue of its coefficient. -/
def residue (prime : Int) (t : Term) : Term := ⟨t.coeff % prime, t.var⟩

/-- The same variable with coefficients that differ by a multiple of the modulus. -/
def CongruentMod (prime : Int) (t t' : Term) : Prop :=
  t.var = t'.var ∧ t.coeff ≡ t'.coeff [ZMOD prime]

theorem residue_eq_iff {prime : Int} {t t' : Term} :
    t.residue prime = t'.residue prime ↔ t.CongruentMod prime t' := by
  simp [residue, CongruentMod, Int.ModEq, and_comm]

end Term

/-- A relation that compares images holds position by position when the lists of images agree. -/
theorem forall₂_iff_map_eq {α β : Type} {related : α → α → Prop} {f : α → β}
    (h : ∀ a a', f a = f a' ↔ related a a') {xs xs' : List α} :
    List.Forall₂ related xs xs' ↔ xs.map f = xs'.map f := by
  rw [← List.forall₂_eq_eq_eq, List.forall₂_map_left_iff, List.forall₂_map_right_iff]
  simp only [h]

def LinearCombination.residue (prime : Int) (l : LinearCombination) : LinearCombination :=
  ⟨l.terms.map (Term.residue prime)⟩

namespace Row

def residue (prime : Int) (row : Row) : Row := row.map (LinearCombination.residue prime)

/-- In each matrix as many terms, and at each position congruent ones. -/
def CongruentMod (prime : Int) (row row' : Row) : Prop :=
  ∀ m, List.Forall₂ (Term.CongruentMod prime) (row.get m).terms (row'.get m).terms

/-- Every coefficient is its own least residue. -/
def Reduced (prime : Int) (row : Row) : Prop :=
  ∀ e ∈ row.entries, 0 ≤ e.2.coeff ∧ e.2.coeff < prime

instance (prime : Int) : DecidablePred (Reduced prime) := fun row =>
  inferInstanceAs (Decidable (∀ e ∈ row.entries, 0 ≤ e.2.coeff ∧ e.2.coeff < prime))

theorem residue_eq_iff {prime : Int} {row row' : Row} :
    row.residue prime = row'.residue prime ↔ row.CongruentMod prime row' := by
  have hget : ∀ (r : Row) m, (r.residue prime).get m = (r.get m).residue prime := fun r m =>
    Triple.get_map _ r m
  constructor
  · intro h m
    have hm := congrArg (fun r : Row => (r.get m).terms) h
    simp only [hget] at hm
    exact (forall₂_iff_map_eq fun _ _ => Term.residue_eq_iff).mpr hm
  · intro h
    apply Triple.ext_get
    intro m
    rw [hget, hget]
    exact congrArg LinearCombination.mk
      ((forall₂_iff_map_eq fun _ _ => Term.residue_eq_iff).mp (h m))

theorem Reduced.residue_eq {prime : Int} {row : Row} (h : row.Reduced prime) :
    row.residue prime = row := by
  apply Triple.ext_get
  intro m
  have hterm : ∀ t ∈ (row.get m).terms, t.residue prime = t := by
    intro t ht
    obtain ⟨hlo, hhi⟩ := h (m, t) (Row.mem_entries.mpr ht)
    rw [Term.residue, Int.emod_eq_of_lt hlo hhi]
  rw [residue, Triple.get_map]
  exact congrArg LinearCombination.mk ((List.map_congr_left hterm).trans (List.map_id _))

end Row

namespace Export

/-- The three lists are equally long and speak of counted variables only. -/
structure InScope (ex : Export) : Prop where
  length_eq : ∀ m, (ex.combinations.get m).length = ex.numConstraints
  counts : ∀ m, ∀ l ∈ ex.combinations.get m, ∀ t ∈ l.terms, ex.Counts t.var

/-- The counts are the same, there are as many rows, and the rows are congruent. -/
structure CongruentMod (prime : Int) (ex ex' : Export) : Prop where
  numInputs : ex.numInputs = ex'.numInputs
  numAux : ex.numAux = ex'.numAux
  rows : List.Forall₂ (Row.CongruentMod prime) ex.rows ex'.rows

theorem InScope.length_rows {ex : Export} (h : ex.InScope) :
    ex.rows.length = ex.numConstraints := by
  have ha := h.length_eq .a
  have hb := h.length_eq .b
  have hc := h.length_eq .c
  simp only [Triple.get] at ha hb hc
  simp [rows, ha, hb, hc]

theorem getElem?_combinations {ex : Export} {row : Row} {i : Nat} (h : ex.rows[i]? = some row)
    (m : Matrix) : (ex.combinations.get m)[i]? = some (row.get m) := by
  rw [rows, List.getElem?_map] at h
  obtain ⟨⟨a, b, c⟩, hzip, rfl⟩ := Option.map_eq_some_iff.mp h
  obtain ⟨ha, hbc⟩ := List.getElem?_zip_eq_some.mp hzip
  obtain ⟨hb, hc⟩ := List.getElem?_zip_eq_some.mp hbc
  cases m with
  | a => exact ha
  | b => exact hb
  | c => exact hc

theorem InScope.counts_of_mem {ex : Export} (h : ex.InScope) {row : Row} (hrow : row ∈ ex.rows)
    (m : Matrix) : ∀ t ∈ (row.get m).terms, ex.Counts t.var := by
  obtain ⟨i, hi⟩ := List.mem_iff_getElem?.mp hrow
  exact h.counts m _ (List.mem_of_getElem? (getElem?_combinations hi m))

end Export

theorem mapM_eq_some_map {α β : Type} {xs : List α} {f : α → Option β} {g : α → β}
    (h : ∀ x ∈ xs, f x = some (g x)) : xs.mapM f = some (xs.map g) := by
  induction xs with
  | nil => rfl
  | cons x xs ih =>
    obtain ⟨hx, hxs⟩ := List.forall_mem_cons.mp h
    simp [hx, ih hxs]

namespace Export
variable {ex : Export} {prime : Int}

theorem term_ofJson? (prime : Int) {t : Term} (h : ex.Counts t.var) :
    Term.ofJson? ex.numInputs (ex.wireTerm prime t).json = some (t.residue prime) := by
  have hcoeff : (ex.wireTerm prime t).json.field? "coeff" =
      some (.text (toString (t.coeff % prime))) := rfl
  have hvar : (ex.wireTerm prime t).json.field? "var" = some (.int (ex.wire t.var)) := rfl
  simp [Term.ofJson?, hcoeff, hvar, Json.decimal?, Json.int?, h.ofWire_wire, Term.residue]

theorem combination_ofJson? (prime : Int) {l : LinearCombination}
    (h : ∀ t ∈ l.terms, ex.Counts t.var) :
    LinearCombination.ofJson? ex.numInputs
        (.list ((ex.wireTerms prime l).map WireTerm.json)) = some (l.residue prime) := by
  have hterms := mapM_eq_some_map fun t ht => term_ofJson? prime (h t ht)
  simp [LinearCombination.ofJson?, Json.items?, wireTerms, Function.comp_def, hterms,
    LinearCombination.residue]

theorem row_ofJson? (prime : Int) {row : Row}
    (h : ∀ m, ∀ t ∈ (row.get m).terms, ex.Counts t.var) :
    Row.ofJson? ex.numInputs (Document.constraintJson (row.map (ex.wireTerms prime))) =
      some (row.residue prime) := by
  have ha := combination_ofJson? prime (h .a)
  have hb := combination_ofJson? prime (h .b)
  have hc := combination_ofJson? prime (h .c)
  simp only [Triple.get] at ha hb hc
  simp [Row.ofJson?, Document.constraintJson, Json.items?, Triple.map, Triple.toList, ha, hb, hc,
    Row.residue]

/-- What a document tells about an export: its counts, and its rows up to the modulus. -/
theorem InScope.contents?_json (h : ex.InScope) {d : Document} (hd : ex.document prime = .ok d) :
    Document.contents? d.json =
      some ⟨ex.numInputs, ex.numAux, ex.rows.map (Row.residue prime)⟩ := by
  rw [document] at hd
  split at hd
  · cases hd
  split at hd
  · cases hd
  cases hd
  have hrows := mapM_eq_some_map fun row hrow =>
    row_ofJson? prime (h.counts_of_mem hrow)
  have hinputs : ex.numVars - ex.numAux = ex.numInputs := add_sub_cancel_right _ _
  simp [Document.contents?, Document.json, Json.field?, Json.int?, Json.items?, List.lookup,
    hinputs, Function.comp_def, hrows]

/-- A document keeps the residues of a row and the wires of its variables. -/
theorem map_wireTerms (row : Row) :
    row.map (ex.wireTerms prime) =
      (row.residue prime).map fun l => l.terms.map fun t => ⟨t.coeff, ex.wire t.var⟩ := by
  apply Triple.ext_get
  intro m
  simp [Row.residue, LinearCombination.residue, wireTerms, wireTerm, Term.residue]

theorem map_rows_wireTerms :
    ex.rows.map (Triple.map (ex.wireTerms prime)) =
      (ex.rows.map (Row.residue prime)).map
        (Triple.map fun l => l.terms.map fun t => ⟨t.coeff, ex.wire t.var⟩) := by
  rw [List.map_map]
  exact List.map_congr_left fun row _ => map_wireTerms row

theorem forall₂_rows_iff {ex ex' : Export} :
    List.Forall₂ (Row.CongruentMod prime) ex.rows ex'.rows ↔
      ex.rows.map (Row.residue prime) = ex'.rows.map (Row.residue prime) :=
  forall₂_iff_map_eq fun _ _ => Row.residue_eq_iff

/-- Congruent exports have one document. -/
theorem CongruentMod.document_eq {ex ex' : Export} (h : CongruentMod prime ex ex')
    (hscope : ex.InScope) (hscope' : ex'.InScope) : ex.document prime = ex'.document prime := by
  have hrows := forall₂_rows_iff.mp h.rows
  have hnumber : ex.numConstraints = ex'.numConstraints := by
    rw [← hscope.length_rows, ← hscope'.length_rows]
    exact h.rows.length_eq
  have hvars : ex.numVars = ex'.numVars := by rw [numVars, numVars, h.numInputs, h.numAux]
  have hwire : ex.wire = ex'.wire := by
    funext v
    rw [wire, wire, h.numInputs]
  have hconstraints : ex.rows.map (Triple.map (ex.wireTerms prime)) =
      ex'.rows.map (Triple.map (ex'.wireTerms prime)) := by
    rw [map_rows_wireTerms, map_rows_wireTerms, hrows, hwire]
  simp only [document, hnumber, hvars, h.numInputs, h.numAux, hconstraints]

end Export

/-- Two exports whose variables are all counted have one document exactly when their counts agree
and their rows are congruent. The document of an export with reduced coefficients is read back as
its counts and rows. -/
theorem document_json_eq_iff {prime : Int} (hprime : 2 ≤ prime) {ex ex' : Export}
    (h : ex.InScope) (h' : ex'.InScope) :
    (ex.numVars < wordLimit → ∃ d, ex.document prime = .ok d ∧
      ((∃ d', ex'.document prime = .ok d' ∧ d'.json = d.json) ↔
        Export.CongruentMod prime ex ex') ∧
      ((∀ row ∈ ex.rows, row.Reduced prime) →
        Document.contents? d.json = some ⟨ex.numInputs, ex.numAux, ex.rows⟩)) ∧
    (wordLimit ≤ ex.numVars → ex.document prime = .error .tooManyWires) := by
  have hprime' : ¬ prime < 2 := by omega
  constructor
  · intro hvars
    obtain ⟨d, hd⟩ : ∃ d, ex.document prime = .ok d := by
      rw [Export.document, if_neg hprime', if_neg (by omega)]
      exact ⟨_, rfl⟩
    have hread := h.contents?_json hd
    refine ⟨d, hd, ⟨?_, fun hcongruent => ?_⟩, fun hreduced => ?_⟩
    · rintro ⟨d', hd', hjson⟩
      have hread' := h'.contents?_json hd'
      rw [hjson, hread] at hread'
      simp only [Option.some.injEq, Document.Contents.mk.injEq] at hread'
      exact ⟨hread'.1, hread'.2.1, Export.forall₂_rows_iff.mpr hread'.2.2⟩
    · exact ⟨d, (hcongruent.document_eq h h').symm.trans hd, rfl⟩
    · rw [hread, List.map_congr_left fun row hrow => (hreduced row hrow).residue_eq, List.map_id']
  · intro hvars
    rw [Export.document, if_neg hprime', if_pos hvars]

/-- Two inputs and a private variable. The first row repeats the private variable and has
coefficients outside of the residues modulo seven. -/
def Export.unreduced : Export :=
  { combinations :=
      ⟨[⟨[⟨9, ⟨.aux, 0⟩⟩, ⟨-1, ⟨.input, 1⟩⟩, ⟨2, ⟨.aux, 0⟩⟩]⟩, .zero], [⟨[⟨7, .one⟩]⟩, .zero],
        [.zero, ⟨[⟨1, .one⟩]⟩]⟩
    numInputs := 2
    numAux := 1
    ledgers := .empty }

def Export.reduced : Export :=
  { Export.unreduced with
    combinations :=
      ⟨[⟨[⟨2, ⟨.aux, 0⟩⟩, ⟨6, ⟨.input, 1⟩⟩, ⟨2, ⟨.aux, 0⟩⟩]⟩, .zero], [⟨[⟨0, .one⟩]⟩, .zero],
        [.zero, ⟨[⟨1, .one⟩]⟩]⟩ }

/-- The two exports have one document modulo seven, and it is read back as the reduced one. -/
theorem document_json_of_unreduced :
    2 ≤ (7 : Int) ∧ Export.reduced.InScope ∧ Export.unreduced.InScope ∧
      ∃ d d', Export.reduced.document 7 = .ok d ∧ Export.unreduced.document 7 = .ok d' ∧
        d'.json = d.json ∧
        Document.contents? d'.json = some ⟨2, 1, Export.reduced.rows⟩ := by
  have hprime : 2 ≤ (7 : Int) := by decide
  have hreduced : Export.reduced.InScope := by
    constructor <;> intro m <;> cases m <;> decide
  have hunreduced : Export.unreduced.InScope := by
    constructor <;> intro m <;> cases m <;> decide
  obtain ⟨d, hd, hiff, hread⟩ := (document_json_eq_iff hprime hreduced hunreduced).1 (by decide)
  have hcongruent : Export.CongruentMod 7 Export.reduced Export.unreduced :=
    ⟨rfl, rfl, Export.forall₂_rows_iff.mpr (by decide)⟩
  obtain ⟨d', hd', hjson⟩ := hiff.mpr hcongruent
  refine ⟨hprime, hreduced, hunreduced, d, d', hd, hd', hjson, ?_⟩
  rw [hjson]
  exact hread (by decide)

end RankOne
