import RankOne.CatalogueListing
import RankOne.TextQuoted

/-! What a module holds by being a module: its name and place, how it was loaded, its class, and the
operations of every value, most of which refuse a recorder in their own words. -/
namespace RankOne.Catalogue
open TextQuoted

/-- An operation that a module carries. -/
def carried (name : String) (refusal? : Option String) : String × Member :=
  (name, .resource (.routine "method-wrapper"
    ("<method-wrapper '" ++ name ++ "' of module object>") (refusal?.map .refused)))

def builtIn (name refusal : String) : String × Member :=
  (name, .resource (.refusing "builtin_function_or_method" ("<built-in function " ++ name ++ ">")
    refusal))

def ofModuleClass (name : String) (refusal? : Option String) : String × Member :=
  (name, .resource (.routine "builtin_function_or_method"
    ("<built-in method " ++ name ++ " of type object>") (refusal?.map .refused)))

/-- A module compares with anything. -/
def comparisons : List (String × Member) :=
  ["__eq__", "__ge__", "__gt__", "__le__", "__lt__", "__ne__"].map fun name => carried name none

/-- A member is reached by a text; a new value for it is one argument more. -/
def memberAccess : List (String × Member) :=
  let refusal := "attribute name must be string, not '" ++ Resource.recorderType ++ "'"
  [carried "__delattr__" (some refusal), carried "__getattribute__" (some refusal),
    carried "__setattr__" (some " expected 2 arguments, got 1")]

def textsAndHash : List (String × Member) :=
  ["__hash__", "__repr__", "__str__"].map fun name =>
    carried name (some "expected 0 arguments, got 1")

def withoutArguments : List (String × Member) :=
  ["__dir__", "__getstate__", "__reduce__", "__sizeof__"].map fun name =>
    builtIn name (name ++ "() takes no arguments (1 given)")

/-- The operations that take one argument, of a type that a recorder has not. -/
def withArgument : List (String × Member) :=
  let recorder := Resource.recorderType
  [carried "__init__" (some ("module() argument 'name' must be str, not " ++ recorder)),
    builtIn "__format__" ("__format__() argument must be str, not " ++ recorder),
    builtIn "__reduce_ex__" ("'" ++ recorder ++ "' object cannot be interpreted as an integer")]

def classOperations : List (String × Member) :=
  [ofModuleClass "__init_subclass__"
      (some "module.__init_subclass__() takes no arguments (1 given)"),
    ofModuleClass "__new__"
      (some ("module.__new__(X): X is not a type object (" ++ Resource.recorderType ++ ")")),
    ofModuleClass "__subclasshook__" none]

def operations : List (String × Member) :=
  comparisons ++ memberAccess ++ textsAndHash ++ withoutArguments ++ withArgument ++
    classOperations

def moduleClass : String × Member := ("__class__", .barren (.lacksArgument "module" "name"))

def table (name : String) : String × Member := (name, .value "dict" "\x7b...\x7d")

def loader (typeName : String) : String × Member :=
  ("__loader__", .value typeName ("<" ++ typeName ++ " object>"))

/-- A module that can hold further modules has no file; any other has one, and a compiled one. -/
def Module.place (m : Module) : List (String × Member) :=
  if m.isPackage then
    [("__file__", .value "NoneType" "None"), ("__path__", .value "_NamespacePath" "[...]"),
      loader "NamespaceLoader"]
  else
    [("__file__", .ofString ""), ("__cached__", .ofString ""), table "__builtins__",
      loader "SourceFileLoader"]

/-- Nothing is documented, and no constant has a declared type unless the module itself says so. -/
def Module.notes (m : Module) : List (String × Member) :=
  [("__name__", .ofString m.name), ("__package__", .ofString m.package),
    ("__doc__", .value "NoneType" "None"), ("__annotations__", .value "dict" "\x7b\x7d"),
    ("__spec__", .value "ModuleSpec" ("ModuleSpec(name=" ++ quoted m.name ++ ")")),
    table "__dict__"]

def Module.inherent (m : Module) : List (String × Member) :=
  moduleClass :: m.notes ++ m.place ++ operations

end RankOne.Catalogue
