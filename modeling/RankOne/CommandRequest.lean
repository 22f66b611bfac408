import RankOne.CommandOptions
import RankOne.FileTree
import RankOne.TextInteger

/-! A request is a command line that has been understood. Options are looked at in the order in
which they stand on the line, those that do not stand there last. -/
namespace RankOne

inductive Format
  | dump
  | json
  deriving DecidableEq, Repr

namespace Format

def all : List Format := [.dump, .json]

def name : Format → String
  | .dump => "dump"
  | .json => "json"

def ofName? (name : String) : Option Format := all.find? fun f => f.name = name

end Format

structure ExportRequest where
  reference : String
  format : Format
  prime : Int
  /-- The path of the file to write; without one, or with an empty one, the export is printed. -/
  out : Option String
  deriving DecidableEq, Repr

inductive Request
  | circuits
  | export (r : ExportRequest)
  | summary (reference : String)
  deriving DecidableEq, Repr

structure Invocation where
  verbose : Bool
  request : Request
  deriving DecidableEq, Repr

/-- Why a command line is not carried out. Without a command, the program itself is meant. -/
inductive Stop
  | help (command : Option Command)
  /-- There was nothing on the line. -/
  | nothingAsked
  | usage (command : Option Command) (fault : UsageFault)
  | file (fault : FileFault)
  deriving DecidableEq, Repr

def OptionTable.program : OptionTable := ⟨[.verbose, .help], false⟩

def Command.table : Command → OptionTable
  | .circuits => ⟨[.help], true⟩
  | .export => ⟨[.circuit, .format, .prime, .out, .help], true⟩
  | .summary => ⟨[.circuit, .help], true⟩

namespace Request

def readReference (s : Scan) : Except UsageFault String :=
  match s.last? .circuit with
  | some text => .ok text
  | none => .error (.missingOption Flag.circuit.longName)

def readFormat (s : Scan) : Except UsageFault Format :=
  match s.last? .format with
  | none => .ok .dump
  | some text =>
    match Format.ofName? text with
    | some format => .ok format
    | none => .error (.notAChoice Flag.format.longName text (Format.all.map Format.name))

def leastPrime : Int := 2

def readPrime (s : Scan) : Except UsageFault Int :=
  match s.last? .prime with
  | none => .ok bn254Prime
  | some text =>
    match TextInteger.read? text with
    | none => .error (.notAnInteger Flag.prime.longName text)
    | some n =>
      if n < leastPrime then .error (.outOfRange Flag.prime.longName n leastPrime) else .ok n

/-- What is wrong with the value of an option. Which paths lead to a directory is told from
outside. -/
def stopAt (command : Command) (isDirectory : String → Bool) (s : Scan) : Flag → Option Stop
  | .circuit => blame (readReference s)
  | .format => blame (readFormat s)
  | .prime => blame (readPrime s)
  | .out =>
    match s.last? .out with
    | none => none
    | some path =>
      if '\x00' ∈ path.toList then some (.file .zeroInPath)
      else if isDirectory path then
        some (.usage command (.isDirectory Flag.out.longName path))
      else none
  | .verbose | .help => none
where
  blame {α : Type} : Except UsageFault α → Option Stop
    | .ok _ => none
    | .error fault => some (.usage command fault)

def build (s : Scan) : Command → Except UsageFault Request
  | .circuits => return .circuits
  | .summary => return .summary (← readReference s)
  | .export =>
    return .export ⟨← readReference s, ← readFormat s, ← readPrime s, s.last? .out⟩

def read (isDirectory : String → Bool) (command : Command) (arguments : List String) :
    Except Stop Request :=
  match command.table.scan arguments with
  | .error fault => .error (.usage command fault)
  | .ok s =>
    if s.has .help then .error (.help command)
    else
      match (s.order command.table).findSome? (stopAt command isDirectory s) with
      | some stop => .error stop
      | none =>
        if s.arguments.isEmpty then (build s command).mapError (.usage command)
        else .error (.usage command (.extraArguments s.arguments))

end Request

namespace Invocation

/-- What stands in the place of the command and is none may still be meant as options, which are
then looked at as such. -/
def stopAtNoCommand (name : String) (rest : List String) : Stop :=
  match OptionTable.program.scan (name :: rest) with
  | .error fault => .usage none fault
  | .ok s => if s.has .help then .help none else .usage none (.noSuchCommand name)

/-- A whole command line. -/
def read (isDirectory : String → Bool) (arguments : List String) : Except Stop Invocation :=
  if arguments.isEmpty then .error .nothingAsked
  else
    match OptionTable.program.scan arguments with
    | .error fault => .error (.usage none fault)
    | .ok s =>
      if s.has .help then .error (.help none)
      else
        match s.arguments with
        | [] => .error (.usage none .missingCommand)
        | name :: rest =>
          match Command.ofName? name with
          | none => .error (stopAtNoCommand name rest)
          | some command =>
            (Request.read isDirectory command rest).map (Invocation.mk (s.has .verbose))

end Invocation

end RankOne
