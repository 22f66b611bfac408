import RankOne.Catalogue
import RankOne.TextQuoted
import RankOne.TextSplit

/-! Scanning takes the options out of a list of arguments. Long options carry a value behind an
equals sign or in the next argument, short ones may stand together, and two dashes alone end the
options. -/
namespace RankOne

inductive Command
  | circuits
  | export
  | summary
  deriving DecidableEq, Repr

namespace Command

def all : List Command := [.circuits, .export, .summary]

def name : Command → String
  | .circuits => "circuits"
  | .export => "export"
  | .summary => "summary"

def ofName? (name : String) : Option Command := all.find? fun c => c.name = name

end Command

inductive Flag
  | verbose
  | circuit
  | format
  | prime
  | out
  | help
  deriving DecidableEq, Repr

namespace Flag

def longName : Flag → String
  | .verbose => "--verbose"
  | .circuit => "--circuit"
  | .format => "--format"
  | .prime => "--prime"
  | .out => "--out"
  | .help => "--help"

def shortName? : Flag → Option Char
  | .verbose => some 'v'
  | _ => none

def takesValue : Flag → Bool
  | .verbose | .help => false
  | _ => true

end Flag

inductive UsageFault
  | noSuchOption (name : String)
  | needsArgument (name : String)
  | takesNoValue (name : String)
  | missingOption (name : String)
  | missingCommand
  | noSuchCommand (name : String)
  | extraArguments (arguments : List String)
  | notAChoice (option text : String) (choices : List String)
  | notAnInteger (option text : String)
  | outOfRange (option : String) (number least : Int)
  | isDirectory (option path : String)
  | reference (fault : ReferenceFault)
  deriving DecidableEq, Repr

namespace UsageFault
open TextQuoted

/-- Found while scanning a known option, a fault is shown without the usage lines. -/
def isBare : UsageFault → Bool
  | .needsArgument _ | .takesNoValue _ => true
  | _ => false

def invalid (option text : String) : String := "Invalid value for '" ++ option ++ "': " ++ text

def message : UsageFault → String
  | .noSuchOption name => "No such option " ++ quoted name ++ "."
  | .needsArgument name => "Option " ++ quoted name ++ " requires an argument."
  | .takesNoValue name => "Option " ++ quoted name ++ " does not take a value."
  | .missingOption name => "Missing option " ++ quoted name ++ "."
  | .missingCommand => "Missing command."
  | .noSuchCommand name => "No such command " ++ quoted name ++ "."
  | .extraArguments arguments =>
    (if arguments.length = 1 then "Got unexpected extra argument ("
      else "Got unexpected extra arguments (") ++ String.intercalate " " arguments ++ ")"
  | .notAChoice option text choices =>
    invalid option
      (quoted text ++ " is not one of " ++ String.intercalate ", " (choices.map quoted) ++ ".")
  | .notAnInteger option text => invalid option (quoted text ++ " is not a valid integer range.")
  | .outOfRange option number least =>
    invalid option (toString number ++ " is not in the range x>=" ++ toString least ++ ".")
  | .isDirectory option path => invalid option ("File " ++ quoted path ++ " is a directory.")
  | .reference fault => fault.message

end UsageFault

structure Mention where
  flag : Flag
  value : String
  deriving DecidableEq, Repr

/-- The options a scan knows, in the order of their declaration. -/
structure OptionTable where
  flags : List Flag
  /-- Whether options may follow an argument that is none. -/
  isMixed : Bool
  deriving DecidableEq, Repr

structure Scan where
  mentions : List Mention
  arguments : List String
  deriving DecidableEq, Repr

namespace Scan

def mention (m : Mention) (s : Scan) : Scan := { s with mentions := m :: s.mentions }

def argument (text : String) (s : Scan) : Scan := { s with arguments := text :: s.arguments }

def mentionAll (ms : List Mention) (s : Scan) : Scan := { s with mentions := ms ++ s.mentions }

end Scan

namespace OptionTable

def long? (t : OptionTable) (name : String) : Option Flag :=
  t.flags.find? fun f => f.longName = name

def short? (t : OptionTable) (c : Char) : Option Flag :=
  t.flags.find? fun f => f.shortName? = some c

/-- Short options behind one dash. None of them takes a value. -/
def cluster (t : OptionTable) : List Char → Except UsageFault (List Mention)
  | [] => .ok []
  | c :: cs =>
    match t.short? c with
    | none => .error (.noSuchOption (String.ofList ['-', c]))
    | some f => (⟨f, ""⟩ :: ·) <$> t.cluster cs

/-- A dash with something behind it begins an option. -/
def isOption (text : String) : Bool :=
  match text.toList with
  | '-' :: _ :: _ => true
  | _ => false

/-- The name before the first equals sign, and the value behind it if there is a sign. -/
def splitValue (text : String) : String × Option String :=
  match TextSplit.cut? '=' text with
  | some (name, value) => (name, some value)
  | none => (text, none)

def scan (t : OptionTable) : List String → Except UsageFault Scan
  | [] => .ok ⟨[], []⟩
  | text :: rest =>
    if text = "--" then .ok ⟨[], rest⟩
    else if isOption text then
      let (name, value?) := splitValue text
      match t.long? name with
      | some f =>
        if f.takesValue then
          match value? with
          | some value => .mention ⟨f, value⟩ <$> t.scan rest
          | none =>
            match rest with
            | [] => .error (.needsArgument name)
            | value :: rest' => .mention ⟨f, value⟩ <$> t.scan rest'
        else if value?.isSome then .error (.takesNoValue name)
        else .mention ⟨f, ""⟩ <$> t.scan rest
      | none =>
        if text.startsWith "--" then .error (.noSuchOption name)
        else do
          let ms ← t.cluster (text.toList.drop 1)
          let s ← t.scan rest
          return s.mentionAll ms
    else if t.isMixed then .argument text <$> t.scan rest
    else .ok ⟨[], text :: rest⟩

end OptionTable

namespace Scan

def has (s : Scan) (f : Flag) : Bool := s.mentions.any fun m => m.flag = f

/-- Of several values the last counts. -/
def last? (s : Scan) (f : Flag) : Option String :=
  (s.mentions.filter fun m => m.flag = f).getLast?.map Mention.value

/-- The options in the order in which they are looked at: first those on the line, by their first
mention, and then the others. -/
def order (s : Scan) (t : OptionTable) : List Flag :=
  (s.mentions.map Mention.flag ++ t.flags).eraseDups

end Scan

end RankOne
