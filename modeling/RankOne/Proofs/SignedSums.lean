import Mathlib.Algebra.BigOperators.Group.List.Basic
import Mathlib.Algebra.GroupWithZero.Nat
import RankOne.Value

/-! A sign between a combination and an addend makes a signed concatenation. Signs multiply, so a
sum that is itself taken away is taken away part by part, and what was taken away in it comes
back. -/
namespace RankOne

namespace Sign

/-- The sign of a part whose sum stands under another sign. -/
def times : Sign → Sign → Sign
  | .plus, s => s
  | .minus, .plus => .minus
  | .minus, .minus => .plus

theorem factor_times (s t : Sign) : (s.times t).factor = s.factor * t.factor := by
  cases s <;> cases t <;> rfl

end Sign

theorem Term.scale_scale (j k : Int) (t : Term) : (t.scale k).scale j = t.scale (j * k) := by
  simp [Term.scale, mul_assoc]

theorem Term.map_scale_one (ts : List Term) : ts.map (Term.scale 1) = ts :=
  List.map_id'' (fun t => by simp [Term.scale]) ts

namespace Addend

/-- A variable and a term count for one. -/
def length : Addend → Nat
  | .variable _ | .term _ => 1
  | .combination l => l.length

def value (w : Variable → Int) : Addend → Int
  | .variable v => w v
  | .term t => t.coeff * w t.var
  | .combination l => l.value w

/-- The terms of an addend under a sign. -/
def signedTerms (s : Sign) (o : Addend) : List Term := o.terms.map (Term.scale s.factor)

theorem length_signedTerms (s : Sign) (o : Addend) : (o.signedTerms s).length = o.length := by
  cases o <;> simp [signedTerms, terms, length, LinearCombination.length]

theorem value_signedTerms (w : Variable → Int) (s : Sign) (o : Addend) :
    LinearCombination.value w ⟨o.signedTerms s⟩ = s.factor * o.value w := by
  rw [signedTerms, LinearCombination.value_map_scale]
  cases o <;> simp [terms, value, LinearCombination.value, Term.value]

/-- Signs in front of signed terms multiply. -/
theorem map_scale_signedTerms (s t : Sign) (o : Addend) :
    (o.signedTerms t).map (Term.scale s.factor) = o.signedTerms (s.times t) := by
  rw [signedTerms, signedTerms, List.map_map, Sign.factor_times]
  exact List.map_congr_left fun term _ => Term.scale_scale _ _ term

end Addend

namespace LinearCombination
variable (l m : LinearCombination) (s t : Sign) (o : Addend)

theorem ext_terms {l m : LinearCombination} (h : l.terms = m.terms) : l = m := congrArg mk h

theorem terms_signed : (l.signed s o).terms = l.terms ++ o.signedTerms s := by
  cases s <;> rfl

theorem length_signed : (l.signed s o).length = l.length + o.length := by
  rw [length, terms_signed, List.length_append, Addend.length_signedTerms]
  rfl

theorem value_signed (w : Variable → Int) :
    (l.signed s o).value w = l.value w + s.factor * o.value w := by
  have hsigned : l.signed s o = ⟨l.terms ++ o.signedTerms s⟩ := ext_terms (l.terms_signed s o)
  rw [hsigned, value_append, Addend.value_signedTerms]

theorem signedTerms_signed :
    (Addend.combination (m.signed t o)).signedTerms s =
      (Addend.combination m).signedTerms s ++ o.signedTerms (s.times t) := by
  rw [Addend.signedTerms, Addend.terms, terms_signed, List.map_append,
    Addend.map_scale_signedTerms]
  rfl

/-- A sum under a sign is put beside a combination part by part. -/
theorem signed_signed :
    l.signed s (m.signed t o) = (l.signed s m).signed (s.times t) o := by
  apply ext_terms
  rw [terms_signed, terms_signed, terms_signed, signedTerms_signed, List.append_assoc]

/-- What was taken away in a difference comes back with its own coefficient. -/
example : zero.minus (zero.minus (Term.mk 3 .one)) = ⟨[⟨3, .one⟩]⟩ := by decide

theorem signed_zero : l.signed s zero = l := by
  apply ext_terms
  rw [terms_signed]
  exact List.append_nil _

theorem zero_plus : zero.plus l = l := by
  apply ext_terms
  rw [terms_plus]
  rfl

end LinearCombination

namespace Value

/-- An addend as a value beside a sign. -/
def ofAddend : Addend → Value
  | .variable v => .variable v
  | .term t => .term t
  | .combination l => .combination l

theorem addend?_ofAddend (o : Addend) : (ofAddend o).addend? = some o := by
  cases o <;> rfl

/-- A sign between a combination and an addend always has a meaning. -/
theorem combine_ofAddend (s : Sign) (l : LinearCombination) (o : Addend) :
    combine s (.combination l) (ofAddend o) = .ok (.combination (l.signed s o)) := by
  rw [combine, LinearCombination.combine_of_addend (addend?_ofAddend o)]
  rfl

end Value

/-- A sum as it is written down. It begins with a combination, and behind each sign stands an addend
or another sum. -/
inductive SignedSum
  | start (l : LinearCombination)
  | extend (s : Sign) (left : SignedSum) (o : Addend)
  | join (s : Sign) (left right : SignedSum)
  deriving DecidableEq, Repr

namespace SignedSum

/-- Works a sum out, one sign after the other. -/
def eval : SignedSum → Except Fault Value
  | .start l => .ok (.combination l)
  | .extend s left o => do
    let left ← left.eval
    Value.combine s left (.ofAddend o)
  | .join s left right => do
    let left ← left.eval
    let right ← right.eval
    Value.combine s left right

/-- The sum of the values of the parts. -/
def value (w : Variable → Int) : SignedSum → Int
  | .start l => l.value w
  | .extend s left o => left.value w + s.factor * o.value w
  | .join s left right => left.value w + s.factor * right.value w

/-- The parts of a sum in the order of writing, each under the product of the signs before it, when
the whole sum stands under a sign. -/
def parts (outer : Sign) : SignedSum → List (Sign × Addend)
  | .start l => [(outer, .combination l)]
  | .extend s left o => left.parts outer ++ [(outer.times s, o)]
  | .join s left right => left.parts outer ++ right.parts (outer.times s)

def combination : SignedSum → LinearCombination
  | .start l => l
  | .extend s left o => left.combination.signed s o
  | .join s left right => left.combination.signed s right.combination

theorem eval_eq (e : SignedSum) : e.eval = .ok (.combination e.combination) := by
  induction e with
  | start l => rfl
  | extend s left o ih =>
    rw [eval, ih]
    exact Value.combine_ofAddend s left.combination o
  | join s left right ihl ihr =>
    rw [eval, ihl, ihr]
    exact Value.combine_ofAddend s left.combination right.combination

theorem value_combination (w : Variable → Int) (e : SignedSum) :
    e.combination.value w = e.value w := by
  induction e with
  | start l => rfl
  | extend s left o ih => rw [combination, LinearCombination.value_signed, ih, value]
  | join s left right ihl ihr =>
    rw [combination, LinearCombination.value_signed, ihl, value, Addend.value, ihr]

/-- Under a sign, the combination of a sum has the terms of the parts, one part after the other. -/
theorem signedTerms_combination (outer : Sign) (e : SignedSum) :
    (Addend.combination e.combination).signedTerms outer =
      (e.parts outer).flatMap fun part => part.2.signedTerms part.1 := by
  induction e generalizing outer with
  | start l => simp [parts, combination]
  | extend s left o ih =>
    rw [combination, LinearCombination.signedTerms_signed, ih, parts, List.flatMap_append,
      List.flatMap_singleton]
  | join s left right ihl ihr =>
    rw [combination, LinearCombination.signedTerms_signed, ihl, ihr, parts, List.flatMap_append]

theorem terms_combination (e : SignedSum) :
    e.combination.terms = (e.parts .plus).flatMap fun part => part.2.signedTerms part.1 := by
  rw [← signedTerms_combination]
  exact (Term.map_scale_one _).symm

theorem length_combination (e : SignedSum) :
    e.combination.length = ((e.parts .plus).map fun part => part.2.length).sum := by
  simp only [LinearCombination.length, terms_combination, List.length_flatMap,
    Addend.length_signedTerms]

end SignedSum

/-- Addition of combinations is associative and has the empty one as its unit, and a difference is
taken away part by part. A sign puts the terms of any addend behind those of the combination, so
lengths add up, and values add up under the sign. Every sum of such sums can be worked out: it has
the terms of its parts, as many as these have together, and the value of the signed sum. -/
theorem sums_concatenate :
    (∀ l m k : LinearCombination,
      (l.plus m).plus k = l.plus (m.plus k) ∧
      LinearCombination.zero.plus l = l ∧ l.plus LinearCombination.zero = l ∧
      l.minus LinearCombination.zero = l ∧
      l.minus (m.plus k) = (l.minus m).minus k ∧ l.minus (m.minus k) = (l.minus m).plus k) ∧
    (∀ (s : Sign) (l : LinearCombination) (o : Addend),
      Value.combine s (.combination l) (.ofAddend o) = .ok (.combination (l.signed s o)) ∧
      (l.signed s o).terms = l.terms ++ o.terms.map (Term.scale s.factor) ∧
      (l.signed s o).length = l.length + o.length ∧
      ∀ w, (l.signed s o).value w = l.value w + s.factor * o.value w) ∧
    ∀ e : SignedSum, ∃ l, e.eval = .ok (.combination l) ∧
      (l.terms = (e.parts .plus).flatMap fun part =>
        part.2.terms.map (Term.scale part.1.factor)) ∧
      l.length = ((e.parts .plus).map fun part => part.2.length).sum ∧
      ∀ w, l.value w = e.value w := by
  refine ⟨fun l m k => ?_, fun s l o => ?_, fun e => ?_⟩
  · have hparts := fun s t => LinearCombination.signed_signed l m s t k
    exact ⟨(hparts .plus .plus).symm, l.zero_plus, l.signed_zero .plus, l.signed_zero .minus,
      hparts .minus .plus, hparts .minus .minus⟩
  · exact ⟨Value.combine_ofAddend s l o, l.terms_signed s o, l.length_signed s o,
      l.value_signed s o⟩
  · exact ⟨e.combination, e.eval_eq, e.terms_combination, e.length_combination,
      fun w => e.value_combination w⟩

end RankOne
