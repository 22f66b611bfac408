import RankOne.Export
import RankOne.Json

/-! The document of an export names every variable by its wire and reduces every coefficient to the
least residue of a prime. A variable that occurs twice stays twice. -/
namespace RankOne

/-- The order of the scalar field of the curve BN254. -/
def bn254Prime : Int :=
  21888242871839275222246405745257275088548364400416034343698204186575808495617

structure WireTerm where
  coeff : Int
  wire : Int
  deriving DecidableEq, Repr

namespace WireTerm

def json (t : WireTerm) : Json :=
  .object [("coeff", .text (toString t.coeff)), ("var", .int t.wire)]

/-- What a wire term is worth under an assignment to the wires. -/
def value (w : Int → Int) (t : WireTerm) : Int := t.coeff * w t.wire

end WireTerm

structure Document where
  prime : Int
  numConstraints : Nat
  numVars : Int
  /-- The inputs but the constant. -/
  numPublic : Int
  numAux : Int
  constraints : List (Triple (List WireTerm))
  map : List Int
  deriving DecidableEq, Repr

namespace Document

def constraintJson (constraint : Triple (List WireTerm)) : Json :=
  .list ((constraint.map fun terms => Json.list (terms.map WireTerm.json)).toList)

def json (d : Document) : Json :=
  .object
    [("prime", .text (toString d.prime)),
      ("nConstraints", .int d.numConstraints),
      ("nVars", .int d.numVars),
      ("nInputs", .int d.numPublic),
      ("nPubInputs", .int d.numPublic),
      ("nOutputs", .int 0),
      ("nAux", .int d.numAux),
      ("constraints", .list (d.constraints.map constraintJson)),
      ("map", .list (d.map.map Json.int))]

def sum (w : Int → Int) (terms : List WireTerm) : Int :=
  terms.foldr (fun t rest => t.value w + rest) 0

/-- An assignment satisfies a constraint when the product of the first two sums and the third
leave the same residue. -/
def Satisfies (prime : Int) (w : Int → Int) (constraint : Triple (List WireTerm)) : Prop :=
  (sum w constraint.a * sum w constraint.b) % prime = sum w constraint.c % prime

end Document

namespace Export

def wireTerm (ex : Export) (prime : Int) (t : Term) : WireTerm :=
  ⟨t.coeff % prime, ex.wire t.var⟩

def wireTerms (ex : Export) (prime : Int) (l : LinearCombination) : List WireTerm :=
  l.terms.map (ex.wireTerm prime)

/-- The document over a prime, which has to be at least two; the map lists every wire once, so
the wires must not be more than a list can hold. The prime and the residues are written out however
long they are: the limit that a runtime may set on the digits of a number is left out. -/
def document (ex : Export) (prime : Int) : Except RenderFault Document :=
  if prime < 2 then .error (.primeTooSmall prime)
  else if wordLimit ≤ ex.numVars then .error .tooManyWires
  else
    .ok
      { prime := prime
        numConstraints := ex.numConstraints
        numVars := ex.numVars
        numPublic := if 1 ≤ ex.numInputs then ex.numInputs - 1 else 0
        numAux := ex.numAux
        constraints := ex.rows.map (Triple.map (ex.wireTerms prime))
        map := (List.range ex.numVars.toNat).map Int.ofNat }

end Export

end RankOne
