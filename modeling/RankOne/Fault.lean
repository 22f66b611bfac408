import RankOne.TextQuoted

/-! The causes for which building, recording or submitting a circuit stops, and the one wording of
each. A shape names a value in a message by what it is, not by its content. -/
namespace RankOne

inductive Shape
  | variable
  | combination
  | tuple
  | list
  | text
  | mapping
  | number
  | truth
  | absent
  deriving DecidableEq, Repr

namespace Shape

def name : Shape → String
  | .variable => "Variable"
  | .combination => "LinearCombination"
  | .tuple => "tuple"
  | .list => "list"
  | .text => "str"
  | .mapping => "dict"
  | .number => "int"
  | .truth => "bool"
  | .absent => "NoneType"

/-- A plus sign behind one of these asks for joining, not for adding. -/
def isSequence : Shape → Bool
  | .tuple | .list | .text => true
  | _ => false

end Shape

inductive Operator
  | plus
  | minus
  | times
  | power
  | shiftRight
  deriving DecidableEq, Repr

def Operator.symbol : Operator → String
  | .plus => "+"
  | .minus => "-"
  | .times => "*"
  | .power => "** or pow()"
  | .shiftRight => ">>"

inductive Fault
  /-- A circuit gave up, in its own words. -/
  | synthesis (text : String)
  /-- An operator stands between two values it has no meaning for. -/
  | unsupported (op : Operator) (left right : Shape)
  /-- Something that is no sequence was to be joined to one. -/
  | unjoinable (left right : Shape)
  | frozen (field : String)
  | noSuchMatrix (label : String)
  /-- An index names no column. -/
  | outOfRange
  /-- An index is wider than a machine word. -/
  | indexTooWide
  | noMember (typeName member : String)
  | notCallable (typeName : String)
  | bareClass (name : String)
  /-- A routine has no use for what it was handed, and says so in its own words. -/
  | refused (text : String)
  deriving DecidableEq, Repr

namespace Fault
open TextQuoted

def message : Fault → String
  | .synthesis text => text
  | .unsupported op left right =>
    "unsupported operand type(s) for " ++ op.symbol ++ ": '" ++ left.name ++ "' and '" ++
      right.name ++ "'"
  | .unjoinable left right =>
    "can only concatenate " ++ left.name ++ " (not \"" ++ right.name ++ "\") to " ++ left.name
  | .frozen field => "cannot assign to field " ++ quoted field
  | .noSuchMatrix label => quoted label
  | .outOfRange => "list index out of range"
  | .indexTooWide => "cannot fit 'int' into an index-sized integer"
  | .noMember typeName member => "'" ++ typeName ++ "' object has no attribute '" ++ member ++ "'"
  | .notCallable typeName => "'" ++ typeName ++ "' object is not callable"
  | .bareClass name => "expected a circuit instance or callable, got class " ++ name
  | .refused text => text

end Fault

end RankOne
