import RankOne.CommandRequest
import RankOne.ExportDocument
import RankOne.ExportDump
import RankOne.ExportSummary
import RankOne.Library
import RankOne.TextControl

/-! `CommandLine.run` takes a directory and the arguments of one call, and gives what the call
prints, its exit code and the directory it leaves. A response holds the whole text before it is
settled where the text goes. -/
namespace RankOne

/-- A fault that the program does not report as its own; the caller sees it. -/
inductive Escape
  | circuit (fault : Fault)
  | reference (fault : ReferenceFault)
  | render (fault : RenderFault)
  | file (fault : FileFault)
  deriving DecidableEq, Repr

def Escape.message : Escape → String
  | .circuit fault => fault.message
  | .reference fault => fault.message
  | .render fault => fault.message
  | .file fault => fault.message

structure Completion where
  exit : Nat
  stdout : String
  stderr : String
  escaped : Option Escape
  deriving DecidableEq, Repr

/-- How a call ends once the file it wants written, if any, is written. -/
structure Response extends Completion where
  delivery : Option (Path × String)
  deriving DecidableEq, Repr

namespace CommandLine

def lines (ls : List String) : String := String.join (ls.map (· ++ "\n"))

def programName : String := "rawr1cs"

def callName : Option Command → String
  | none => programName
  | some command => programName ++ " " ++ command.name

def usageLine (command : Option Command) : String :=
  "Usage: " ++ callName command ++
    (match command with
      | none => " [OPTIONS] COMMAND [ARGS]..."
      | some _ => " [OPTIONS]")

def helpHint (command : Option Command) : String :=
  "Try '" ++ callName command ++ " --help' for help."

def helpPage : Option Command → List String
  | none =>
    [usageLine none, "",
      "  rawr1cs command line interface", "",
      "Options:",
      "  -v, --verbose  Debug logging on stderr",
      "  --help         Show this message and exit.", "",
      "Commands:",
      "  circuits  List bundled circuits.",
      "  export    Export a circuit's A/B/C matrices.",
      "  summary   Structural summary of an exported circuit."]
  | some .export =>
    [usageLine (some .export), "",
      "  Export a circuit's A/B/C matrices.", "",
      "Options:",
      "  --circuit TEXT         Bundled circuit name or module:attr  [required]",
      "  --format [dump|json]   [default: dump]",
      "  --prime INTEGER RANGE  Field modulus used to write JSON coefficients",
      "                         [default: 2188824287183927522224640574525727508854836",
      "                         4400416034343698204186575808495617; x>=2]",
      "  --out FILE",
      "  --help                 Show this message and exit."]
  | some .summary =>
    [usageLine (some .summary), "",
      "  Structural summary of an exported circuit.", "",
      "Options:",
      "  --circuit TEXT  Bundled circuit name or module:attr  [required]",
      "  --help          Show this message and exit."]
  | some .circuits =>
    [usageLine (some .circuits), "",
      "  List bundled circuits.", "",
      "Options:",
      "  --help  Show this message and exit."]

/-- A fault as it is shown. Text of the user that stands in it gives no orders to a terminal. -/
def errorLine (text : String) : String := "Error: " ++ TextControl.plain text

def usageLines (command : Option Command) (fault : UsageFault) : List String :=
  if fault.isBare then [errorLine fault.message]
  else [usageLine command, helpHint command, "", errorLine fault.message]

def printed (logged : List String) (text : String) : Response :=
  ⟨⟨0, text, lines logged, none⟩, none⟩

def failed (exit : Nat) (shown : List String) : Response :=
  ⟨⟨exit, "", lines shown, none⟩, none⟩

def escaping (logged : List String) (escape : Escape) : Response :=
  ⟨⟨1, "", lines logged, some escape⟩, none⟩

/-- What a call gives that stops before it begins. -/
def stopped : Stop → Response
  | .help command => printed [] (lines (helpPage command))
  | .nothingAsked => failed 2 (helpPage none)
  | .usage command fault => failed 2 (usageLines command fault)
  | .file fault => escaping [] (.file fault)

inductive Refusal
  | reference (fault : ReferenceFault)
  | circuit (fault : Fault)
  deriving DecidableEq, Repr

section
variable (library : Library)

def exportOf (reference : String) : Except Refusal Export :=
  match library.find reference with
  | .error fault => .error (.reference fault)
  | .ok candidate => candidate.export?.mapError .circuit

/-- The progress of an export, for the log: the recorder, the circuit, the padding. -/
def progress (reference : String) : List String :=
  match library.find reference with
  | .error _ => []
  | .ok candidate =>
    let o := candidate.record.run .primed
    let r := o.recorder
    List.replicate (candidate.extraRecorders + 1)
        "DEBUG rawr1cs.core.raw_circuit: created empty recorder" ++
      match o.result with
      | .error _ => []
      | .ok _ =>
        ["DEBUG rawr1cs.core.export: synthesized " ++ toString r.numConstraints ++
            " constraints over " ++ toString r.numInputs ++ " inputs / " ++ toString r.numAux ++
            " aux",
          "DEBUG rawr1cs.core.export: appended " ++ toString r.numInputs ++
            " padding constraints"]

end

/-- What a refusal gives, behind the lines logged before it. -/
def refused (command : Command) (logged : List String) : Refusal → Response
  | .reference fault =>
    if fault.isRejection then failed 2 (logged ++ usageLines (some command) (.reference fault))
    else escaping logged (.reference fault)
  | .circuit (.synthesis text) =>
    failed 1 (logged ++ [errorLine ("circuit synthesis failed: " ++ text)])
  | .circuit fault => escaping logged (.circuit fault)

def rendering (format : Format) (prime : Int) (ex : Export) : Except RenderFault String :=
  match format with
  | .dump => .ok ex.dumpText
  | .json => (fun d : Document => d.json.indented) <$> ex.document prime

/-- Prints a text, or wants it written if there is a path that is not empty. -/
def delivered (logged : List String) (out : Option String) (text : String) : Response :=
  match out with
  | none => printed logged text
  | some path =>
    if path.isEmpty then printed logged text
    else { printed logged "" with delivery := some (.ofText path, text) }

section
variable (library : Library)

def respondExport (logged : List String) (r : ExportRequest) : Response :=
  match exportOf library r.reference with
  | .error refusal => refused .export logged refusal
  | .ok ex =>
    match rendering r.format r.prime ex with
    | .error fault => escaping logged (.render fault)
    | .ok text => delivered logged r.out (text ++ "\n")

def respondSummary (logged : List String) (reference : String) : Response :=
  match exportOf library reference with
  | .error refusal => refused .summary logged refusal
  | .ok ex =>
    match ex.summary with
    | .error fault => escaping logged (.render fault)
    | .ok summary =>
      let json := Json.object (summary.fields ++ [("circuit_id", .text reference)])
      printed logged (json.indented ++ "\n")

def logOf (verbose : Bool) (reference : String) : List String :=
  if verbose then progress library reference else []

def respond (verbose : Bool) : Request → Response
  | .circuits => printed [] (lines Catalogue.names)
  | .export r => respondExport library (logOf library verbose r.reference) r
  | .summary reference => respondSummary library (logOf library verbose reference) reference

/-- The response to a command line, given which paths lead to a directory. -/
def respondTo (isDirectory : String → Bool) (arguments : List String) : Response :=
  match Invocation.read isDirectory arguments with
  | .error stop => stopped stop
  | .ok invocation => respond library invocation.verbose invocation.request

end

def settle (tree : FileTree) (r : Response) : Completion × FileTree :=
  match r.delivery with
  | none => (r.toCompletion, tree)
  | some (path, text) =>
    match tree.deliver path text with
    | (tree', none) => (r.toCompletion, tree')
    | (tree', some fault) =>
      ({ r.toCompletion with exit := 1, escaped := some (.file fault) }, tree')

def runWith (library : Library) (tree : FileTree) (arguments : List String) :
    Completion × FileTree :=
  settle tree (respondTo library tree.isDirectory arguments)

def run : FileTree → List String → Completion × FileTree := runWith Catalogue.library

def runAll (tree : FileTree) : List (List String) → List Completion × FileTree
  | [] => ([], tree)
  | arguments :: calls =>
    let (completion, tree') := run tree arguments
    let (completions, final) := runAll tree' calls
    (completion :: completions, final)

end CommandLine

end RankOne
