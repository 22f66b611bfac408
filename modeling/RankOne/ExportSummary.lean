import RankOne.Decimal
import RankOne.ExportPattern
import RankOne.Json

/-! The counts that describe the shape of an export. A row is multiplicative when both its `A` and
its `B` pattern have an entry; its fan-in is the number of different variables in it. -/
namespace RankOne

structure Summary where
  numConstraints : Nat
  numInputs : Int
  numAux : Int
  numVars : Int
  paddingRows : Int
  multiplicativeRows : Nat
  linearRows : Nat
  entries : Triple Nat
  /-- The fan-ins of all rows together, and the number of rows they are taken over. -/
  totalFanIn : Nat
  fanInRows : Nat
  deriving DecidableEq, Repr

def Row.variables (row : Row) : List Variable :=
  (row.toList.flatMap fun l => l.terms.map Term.var).eraseDups

def Row.fanIn (row : Row) : Nat := row.variables.length

namespace Export

def countBoth (a b : Pattern) : Nat :=
  ((a.rowSizes.zip b.rowSizes).filter fun (m, n) => 0 < m && 0 < n).length

def summary (ex : Export) : Except RenderFault Summary := do
  let patterns ← ex.patterns
  let multiplicative := countBoth patterns.a patterns.b
  return {
    numConstraints := ex.numConstraints
    numInputs := ex.numInputs
    numAux := ex.numAux
    numVars := ex.numVars
    paddingRows := ex.numInputs
    multiplicativeRows := multiplicative
    linearRows := ex.numConstraints - multiplicative
    entries := patterns.map Pattern.size
    totalFanIn := (ex.rows.map Row.fanIn).foldr (· + ·) 0
    fanInRows := ex.rows.length }

end Export

namespace Summary

/-- The mean fan-in of a row, and zero when there is no row. -/
def averageText (s : Summary) : String := Decimal.quotientText s.totalFanIn s.fanInRows

def fields (s : Summary) : List (String × Json) :=
  [("n_constraints", .int s.numConstraints),
    ("n_inputs", .int s.numInputs),
    ("n_aux", .int s.numAux),
    ("n_vars", .int s.numVars),
    ("padding_rows", .int s.paddingRows),
    ("multiplicative_rows", .int s.multiplicativeRows),
    ("linear_rows", .int s.linearRows),
    ("nnz_a", .int s.entries.a),
    ("nnz_b", .int s.entries.b),
    ("nnz_c", .int s.entries.c),
    ("avg_fanin", .decimal s.averageText)]

end Summary

end RankOne
