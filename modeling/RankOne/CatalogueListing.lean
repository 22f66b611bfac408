import RankOne.ExportDocument
import RankOne.Resource
import RankOne.TextQuoted
import RankOne.TextSplit

/-! The bundled circuits with their short names, and the modules with what each holds: constants,
classes, routines, commands, forms of annotations, and the modules they use. -/
namespace RankOne

/-- A class that makes no instance without arguments. -/
inductive Barren
  | needsArguments (className : String) (arguments : List String)
  /-- The class leaves operations open. -/
  | leavesOpen (className : String) (operations : List String)
  /-- The class asks for the first of its arguments only. -/
  | lacksArgument (className argument : String)
  | sealed (className : String)
  deriving DecidableEq, Repr

namespace Barren

def enumeration : List String → String
  | [] => ""
  | [a] => "'" ++ a ++ "'"
  | [a, b] => "'" ++ a ++ "' and '" ++ b ++ "'"
  | names =>
    String.intercalate ", " (names.dropLast.map fun a => "'" ++ a ++ "'") ++
      (match names.getLast? with
        | some a => ", and '" ++ a ++ "'"
        | none => "")

def plural (word : String) (items : List String) : String :=
  if items.length = 1 then word else word ++ "s"

def message : Barren → String
  | .needsArguments className arguments =>
    className ++ ".__init__() missing " ++ toString arguments.length ++ " required positional " ++
      plural "argument" arguments ++ ": " ++ enumeration arguments
  | .leavesOpen className operations =>
    "Can't instantiate abstract class " ++ className ++ " with abstract " ++
      plural "method" operations ++ " " ++ String.intercalate ", " operations
  | .lacksArgument className argument =>
    className ++ "() missing required argument '" ++ argument ++ "' (pos 1)"
  | .sealed className => className ++ " cannot be instantiated"

end Barren

namespace Catalogue
open TextQuoted

inductive Member
  | resource (r : Resource)
  | barren (b : Barren)
  deriving DecidableEq, Repr

structure Module where
  name : String
  isPackage : Bool
  members : List (String × Member)
  deriving DecidableEq, Repr

namespace Module

def path (m : Module) : List String := TextSplit.split '.' m.name

/-- The package that a module is or stands in. -/
def package (m : Module) : String :=
  if m.isPackage then m.name else String.intercalate "." m.path.dropLast

end Module

namespace Member

def ofString (s : String) : Member := .resource (.ofString s)

def value (typeName text : String) : Member := .resource (.value typeName text)

def ofModule (name : String) : Member := .resource (.ofModule name)

end Member

/-- The bundled circuits in the order of their registration, each without an assignment. -/
def bundled : List (String × Circuit) :=
  [("empty", .empty), ("multiply", .multiply none none), ("cubic", .cubic none),
    ("bits", .bits 8 none), ("failing", .failing "cannot synthesize circuit")]

def names : List String := (bundled.map Prod.fst).mergeSort

def circuitModule : String := "rawr1cs.circuits.examples"

def registration : Resource :=
  let entry (name : String) (c : Circuit) :=
    quoted name ++ ": <class '" ++ circuitModule ++ "." ++ c.className ++ "'>"
  .value "dict"
    ("\x7b" ++ String.intercalate ", " (bundled.map fun (name, c) => entry name c) ++ "\x7d")

def circuitClasses : List (String × Member) :=
  bundled.map fun (_, c) => (c.className, .resource (.circuit c))

def allCircuits : String × Member := ("CIRCUITS", .resource registration)

/-- The registration is the one constant with a declared type. -/
def declaredTypes : String × Member :=
  ("__annotations__",
    .value "dict" "\x7b'CIRCUITS': 'Dict[str, Callable[[], Circuit]]'\x7d")

def inputKind : String × Member := ("INPUT", .ofString Kind.input.label)

def auxKind : String × Member := ("AUX", .ofString Kind.aux.label)

def oneWire : String × Member := ("ONE", .resource (.ofVariable .one))

def matrixLabels : String × Member :=
  ("MATRICES", .resource (.ofStrings (Matrix.all.map Matrix.label)))

def primeNumber : String × Member := ("BN254_PRIME", .resource (.ofInt bn254Prime))

def variableClass : String × Member :=
  ("Variable", .barren (.needsArguments "Variable" ["kind", "index"]))

def combinationClass : String × Member :=
  ("LinearCombination", .resource (.ofCombination .zero))

def circuitClass : String × Member :=
  ("Circuit", .barren (.leavesOpen "Circuit" ["synthesize"]))

def systemClass : String × Member :=
  ("ConstraintSystem", .barren (.leavesOpen "ConstraintSystem"
    ["allocate_auxiliary", "allocate_input", "enforce", "pop_namespace", "push_namespace", "root"]))

def recorderClass : String × Member := ("RawCircuit", .resource .recorder)

def exportClass : String × Member :=
  ("R1CSExport", .barren (.needsArguments "R1CSExport"
    ["a", "b", "c", "num_inputs", "num_aux", "input_columns", "aux_columns"]))

def errorClass : String × Member := ("SynthesisError", .value "SynthesisError" "SynthesisError()")

def logger (home : String) : String × Member :=
  ("logger", .value "Logger" ("<Logger " ++ home ++ " (WARNING)>"))

def exporters : List (String × Member) :=
  ["record_circuit", "export_circuit"].map fun name => (name, .resource (.exporter name))

/-- The renderings read members that an export has and a recorder has not. -/
def renderings : List (String × Member) :=
  [("dump_matrices", "a"), ("to_r1cs_json", "a"), ("pattern_matrices", "num_vars"),
    ("summarize_export", "num_vars")].map fun (name, member) =>
      (name, .resource (.reader name member))

def lookups : List (String × Member) :=
  ["resolve_circuit", "_export"].map fun name =>
    (name, .resource (.function name
      (some (.refused ("argument of type '" ++ Resource.recorderType ++ "' is not iterable")))))

/-- A command takes what it is called with for a list of arguments. -/
def command (typeName name : String) : Member :=
  .resource (.refusing typeName ("<" ++ typeName ++ " " ++ name ++ ">")
    ("'" ++ Resource.recorderType ++ "' object is not iterable"))

def commands : List (String × Member) :=
  [("cli", command "Group" "cli"), ("export_cmd", command "Command" "export"),
    ("summary_cmd", command "Command" "summary"), ("circuits_cmd", command "Command" "circuits")]

def entryPoint : String × Member :=
  ("main", .resource (.function "main"
    (some (.refused "main() takes 0 positional arguments but 1 was given"))))

def uses (names : List (String × String)) : List (String × Member) :=
  names.map fun (name, home) => (name, .ofModule home)

/-- A form of annotations refuses to be called. -/
def form (typeName text refusal : String) : Member := .resource (.refusing typeName text refusal)

def collectionRefusal (name base : String) : String :=
  "Type " ++ name ++ " cannot be instantiated; use " ++ base ++ "() instead"

def unionRefusal : String := "Cannot instantiate typing.Union"

def callableRefusal : String := "Callable() takes no arguments"

def forms : List (String × Member) :=
  [("Any", .barren (.sealed "Any")),
    ("Callable", form "_CallableType" "typing.Callable" callableRefusal),
    ("Dict", form "_SpecialGenericAlias" "typing.Dict" (collectionRefusal "Dict" "dict")),
    ("Iterator", form "_SpecialGenericAlias" "typing.Iterator" "Iterator() takes no arguments"),
    ("List", form "_SpecialGenericAlias" "typing.List" (collectionRefusal "List" "list")),
    ("Optional", form "_SpecialForm" "typing.Optional" "Cannot instantiate typing.Optional"),
    ("Tuple", form "_TupleType" "typing.Tuple" (collectionRefusal "Tuple" "tuple")),
    ("Union", form "_SpecialForm" "typing.Union" unionRefusal)]

def formsOf (names : List String) : List (String × Member) :=
  forms.filter fun entry => entry.1 ∈ names

def termForm : String × Member :=
  ("Term", form "_GenericAlias" "typing.Tuple[int, rawr1cs.core.variables.Variable]"
    (collectionRefusal "Tuple" "tuple"))

def columnForm : String × Member :=
  ("Column", form "_GenericAlias" "typing.List[typing.Tuple[int, int]]"
    (collectionRefusal "List" "list"))

def deferredForm : String × Member :=
  ("Thunk", form "_UnionGenericAlias" "typing.Optional[typing.Callable[[], typing.Any]]"
    unionRefusal)

def builderForm : String × Member :=
  let combination := "rawr1cs.core.variables.LinearCombination"
  ("LCBuilder", form "_CallableGenericAlias"
    ("typing.Callable[[" ++ combination ++ "], " ++ combination ++ "]") callableRefusal)

def submissionForm : String × Member :=
  let home := "rawr1cs.core.constraint_system."
  ("CircuitLike", form "_UnionGenericAlias"
    ("typing.Union[" ++ home ++ "Circuit, typing.Callable[[" ++ home ++
      "ConstraintSystem], typing.Any]]") unionRefusal)

def lateAnnotations : String × Member :=
  ("annotations", .value "_Feature" "_Feature((3, 7, 0, 'beta', 1), None, 16777216)")

/-- Makes records of classes, so it asks for what only a class has. -/
def recordMaker : String × Member := ("dataclass", .resource (.reader "dataclass" "__mro__"))

def pathClass : String × Member := ("Path", .value "PosixPath" "PosixPath('.')")

/-- The means of leaving operations open and of opening blocks; two of them take anything. -/
def abstractions : List (String × Member) :=
  [("ABC", .value "ABC" "<abc.ABC object>"),
    ("abstractmethod", .resource (.function "abstractmethod" none)),
    ("contextmanager", .resource (.function "contextmanager" none))]

def sparseClass : String × Member :=
  ("csr_matrix", .barren (.needsArguments "_cs_matrix" ["arg1"]))

def modules : List Module :=
  [⟨"rawr1cs", true, []⟩,
    ⟨"rawr1cs.circuits", true, []⟩,
    ⟨circuitModule, false,
      circuitClasses ++
        [allCircuits, declaredTypes, circuitClass, systemClass, errorClass, lateAnnotations,
          recordMaker] ++
        formsOf ["Callable", "Dict", "Optional"]⟩,
    ⟨"rawr1cs.core", true, []⟩,
    ⟨"rawr1cs.core.variables", false,
      [inputKind, auxKind, oneWire, variableClass, combinationClass, termForm, lateAnnotations,
        recordMaker] ++ formsOf ["Iterator", "Tuple", "Union"]⟩,
    ⟨"rawr1cs.core.constraint_system", false,
      [oneWire, variableClass, combinationClass, circuitClass, systemClass, errorClass,
        deferredForm, builderForm, lateAnnotations] ++ abstractions ++
        formsOf ["Any", "Callable", "Optional"]⟩,
    ⟨"rawr1cs.core.raw_circuit", false,
      [inputKind, auxKind, variableClass, combinationClass, systemClass, recorderClass,
        matrixLabels, columnForm, deferredForm, builderForm, logger "rawr1cs.core.raw_circuit",
        lateAnnotations] ++ uses [("logging", "logging")] ++ formsOf ["Dict", "List", "Tuple"]⟩,
    ⟨"rawr1cs.core.export", false,
      [inputKind, variableClass, combinationClass, circuitClass, systemClass, recorderClass,
        primeNumber, exportClass, columnForm, submissionForm, logger "rawr1cs.core.export",
        lateAnnotations, recordMaker, sparseClass] ++ exporters ++ renderings ++
        uses [("logging", "logging"), ("click", "click"), ("np", "numpy")] ++
        formsOf ["Any", "Callable", "Dict", "List", "Union"]⟩,
    ⟨"rawr1cs.cli", false,
      [allCircuits, primeNumber, errorClass, entryPoint, pathClass] ++ commands ++ lookups ++
        (exporters ++ renderings).filter
          (fun entry => entry.1 ∉ ["record_circuit", "pattern_matrices"]) ++
        uses [("json", "json"), ("logging", "logging"), ("importlib", "importlib"),
          ("click", "click")]⟩]

end Catalogue

end RankOne
