import RankOne.Submission
import RankOne.TextQuoted

/-! A resource can be named and handed over for export. Of a circuit all is known; of anything else
its type, its text, and what comes of calling it with a recorder. -/
namespace RankOne

inductive Resource
  | circuit (c : Circuit)
  | value (typeName text : String)
  /-- Something to call, and the fault that a call with a recorder ends with, if any. -/
  | routine (typeName text : String) (fault? : Option Fault)
  | recorder
  /-- A routine that takes what it is handed for a circuit, and makes a recorder for it. -/
  | exporter (name : String)
  deriving DecidableEq, Repr

namespace Resource

def recorderType : String := "RawCircuit"

def routineText (name : String) : String := "<function " ++ name ++ ">"

def typeName : Resource → String
  | .circuit c => c.className
  | .value typeName _ | .routine typeName _ _ => typeName
  | .recorder => recorderType
  | .exporter _ => "function"

def text : Resource → String
  | .circuit c => c.text
  | .value _ text | .routine _ text _ => text
  | .recorder => "<" ++ recorderType ++ " object>"
  | .exporter name => routineText name

/-- A recorder can be called no more than another value can, also not by an exporter. -/
def submission : Resource → Submission
  | .circuit c => .circuit c
  | .value typeName _ => .other typeName
  | .routine _ _ fault? => .routine fault?
  | .recorder | .exporter _ => .other recorderType

/-- How many recorders there are besides the one that an export makes. -/
def extraRecorders : Resource → Nat
  | .recorder | .exporter _ => 1
  | _ => 0

def ofString (s : String) : Resource := .value "str" (TextQuoted.quoted s)

def ofInt (n : Int) : Resource := .value "int" (toString n)

def ofVariable (v : Variable) : Resource := .value "Variable" v.text

def ofCombination (l : LinearCombination) : Resource := .value "LinearCombination" l.text

def ofStrings (ss : List String) : Resource :=
  .value "tuple" ("(" ++ String.intercalate ", " (ss.map TextQuoted.quoted) ++ ")")

def ofModule (name : String) : Resource :=
  .value "module" ("<module " ++ TextQuoted.quoted name ++ ">")

def function (name : String) (fault? : Option Fault) : Resource :=
  .routine "function" (routineText name) fault?

/-- A routine that reads a member that no recorder has. -/
def reader (name member : String) : Resource :=
  function name (some (.noMember recorderType member))

/-- Something that refuses a call in its own words. -/
def refusing (typeName text refusal : String) : Resource :=
  .routine typeName text (some (.refused refusal))

end Resource

end RankOne
