import RankOne.TextQuoted
import RankOne.TextSplit

/-! A working directory and its surroundings as a value: places, each a directory or a file with its
text. Above the working directory there are only directories; some devices of a machine are
there from the beginning. -/
namespace RankOne

inductive FileFault
  | noEntry (path : String)
  | occupied (path : String)
  | notDirectory (path : String)
  | isDirectory (path : String)
  | tooLong (path : String)
  /-- A device takes nothing in. -/
  | noSpace
  /-- The path holds a character of code zero. -/
  | zeroInPath
  deriving DecidableEq, Repr

def FileFault.message : FileFault → String
  | .noEntry path => "[Errno 2] No such file or directory: " ++ TextQuoted.quoted path
  | .occupied path => "[Errno 17] File exists: " ++ TextQuoted.quoted path
  | .notDirectory path => "[Errno 20] Not a directory: " ++ TextQuoted.quoted path
  | .isDirectory path => "[Errno 21] Is a directory: " ++ TextQuoted.quoted path
  | .tooLong path => "[Errno 36] File name too long: " ++ TextQuoted.quoted path
  | .noSpace => "[Errno 28] No space left on device"
  | .zeroInPath => "embedded null byte"

/-- A path without empty components and single dots. -/
structure Path where
  /-- The slashes in front: none for a relative path, else one, or two if there were just two. -/
  slashes : Nat
  parts : List String
  deriving DecidableEq, Repr

namespace Path

def leadingSlashes (text : String) : Nat :=
  match (text.toList.takeWhile (· = '/')).length with
  | 0 => 0
  | 2 => 2
  | _ => 1

def ofText (text : String) : Path :=
  ⟨leadingSlashes text, (TextSplit.split '/' text).filter fun part => part ≠ "" ∧ part ≠ "."⟩

def joined (p : Path) : String :=
  String.ofList (List.replicate p.slashes '/') ++ String.intercalate "/" p.parts

def text (p : Path) : String := if p.joined.isEmpty then "." else p.joined

def parent (p : Path) : Path := { p with parts := p.parts.dropLast }

/-- The most bytes that a component can have. -/
def longestPart : Nat := 255

def longest : Nat := 4095

end Path

/-- Where a path starts from. -/
inductive Base
  /-- So many directories above the working directory. -/
  | working (up : Nat)
  | top
  deriving DecidableEq, Repr

/-- A base and the components below it, none of them a dot or two. -/
structure Place where
  base : Base
  path : List String
  deriving DecidableEq, Repr

namespace Place

/-- The working directory, or for a path with leading slashes the top of the machine. -/
def start (slashes : Nat) : Place := ⟨if slashes = 0 then .working 0 else .top, []⟩

def child (p : Place) (name : String) : Place := ⟨p.base, p.path ++ [name]⟩

def parent : Place → Place
  | ⟨.working up, []⟩ => ⟨.working (up + 1), []⟩
  | ⟨base, path⟩ => ⟨base, path.dropLast⟩

end Place

/-- A file that keeps nothing. -/
inductive Device
  /-- Takes in whatever is written. -/
  | sink
  /-- Takes in nothing. -/
  | full
  deriving DecidableEq, Repr

def topDirectories : List String :=
  ["bin", "boot", "dev", "etc", "home", "lib", "media", "mnt", "opt", "proc", "root", "run", "sbin",
    "srv", "sys", "tmp", "usr", "var"]

def devices : List (String × Device) :=
  [("null", .sink), ("zero", .sink), ("random", .sink), ("urandom", .sink), ("full", .full)]

inductive Node
  | directory
  | file
  | device (d : Device)
  deriving DecidableEq, Repr

/-- What is there from the beginning. -/
def Place.landmark? (p : Place) : Option Node :=
  match p with
  | ⟨_, []⟩ => some .directory
  | ⟨.top, [name]⟩ => if name ∈ topDirectories then some .directory else none
  | ⟨.top, ["dev", name]⟩ => (devices.lookup name).map .device
  | _ => none

inductive Sight
  | directory
  | file (place : Place)
  | device (d : Device)
  /-- Only the last component is missing. -/
  | vacant (place : Place)
  | missing
  /-- A component that others follow is a file. -/
  | blocked
  /-- The path or a component that was come to is too long. -/
  | tooLong
  deriving DecidableEq, Repr

def Node.sight (place : Place) : Node → Sight
  | .directory => .directory
  | .file => .file place
  | .device d => .device d

/-- What was made at which place; a directory has no text. -/
structure FileTree where
  entries : List (Place × Option String)
  deriving DecidableEq, Repr

namespace FileTree

def empty : FileTree := ⟨[]⟩

def node? (t : FileTree) (place : Place) : Option Node :=
  match t.entries.lookup place with
  | some none => some .directory
  | some (some _) => some .file
  | none => place.landmark?

def put (t : FileTree) (place : Place) (content : Option String) : FileTree :=
  ⟨t.entries.filter (fun entry => entry.1 ≠ place) ++ [(place, content)]⟩

def walk (t : FileTree) (place : Place) : List String → Sight
  | [] => .directory
  | name :: rest =>
    if name = "" ∨ name = "." then t.walk place rest
    else if name = ".." then t.walk place.parent rest
    else if Path.longestPart < name.utf8ByteSize then .tooLong
    else
      match t.node? (place.child name) with
      | some .directory => t.walk (place.child name) rest
      | some node => if rest.isEmpty then node.sight (place.child name) else .blocked
      | none => if rest.isEmpty then .vacant (place.child name) else .missing

def see (t : FileTree) (p : Path) : Sight :=
  if Path.longest < p.text.utf8ByteSize then .tooLong else t.walk (.start p.slashes) p.parts

/-- Whether a path as typed leads to a directory. The empty path leads nowhere. -/
def isDirectory (t : FileTree) (text : String) : Bool :=
  if text.isEmpty ∨ Path.longest < text.utf8ByteSize then false
  else t.walk (.start (Path.leadingSlashes text)) (TextSplit.split '/' text) = .directory

def makeDirectory (t : FileTree) (p : Path) : Except FileFault FileTree :=
  match t.see p with
  | .vacant place => .ok (t.put place none)
  | .missing => .error (.noEntry p.text)
  | .blocked => .error (.notDirectory p.text)
  | .tooLong => .error (.tooLong p.text)
  | .directory | .file _ | .device _ => .error (.occupied p.text)

def ensureDirectory (t : FileTree) (p : Path) : Except FileFault FileTree :=
  match t.makeDirectory p, t.see p with
  | .ok t', _ => .ok t'
  | .error _, .directory => .ok t
  | .error fault, _ => .error fault

/-- Makes a directory and before it every parent that is missing, along the components from the
last to the first. Directories made before a fault stay. -/
def ensureParents (t : FileTree) (slashes : Nat) : List String → FileTree × Option FileFault
  | [] => (t, none)
  | name :: above =>
    let p : Path := ⟨slashes, (name :: above).reverse⟩
    match t.ensureDirectory p with
    | .ok t' => (t', none)
    | .error (.noEntry _) =>
      match ensureParents t slashes above with
      | (t', some fault) => (t', some fault)
      | (t', none) =>
        match t'.ensureDirectory p with
        | .ok t'' => (t'', none)
        | .error fault => (t', some fault)
    | .error fault => (t, some fault)

/-- Writes a file into a directory that is there, over a file of the same path. -/
def writeFile (t : FileTree) (p : Path) (content : String) : FileTree × Option FileFault :=
  match t.see p with
  | .vacant place | .file place => (t.put place (some content), none)
  | .device .sink => (t, none)
  | .device .full => (t, some .noSpace)
  | .directory => (t, some (.isDirectory p.text))
  | .tooLong => (t, some (.tooLong p.text))
  | .missing => (t, some (.noEntry p.text))
  | .blocked => (t, some (.notDirectory p.text))

def deliver (t : FileTree) (p : Path) (content : String) : FileTree × Option FileFault :=
  match t.ensureParents p.slashes p.parent.parts.reverse with
  | (t', none) => t'.writeFile p content
  | (t', some fault) => (t', some fault)

/-- All paths below the working directory with what they hold, in the order of their texts. -/
def listing (t : FileTree) : List (String × Option String) :=
  let inside := t.entries.filter fun entry => entry.1.base = .working 0
  (inside.map fun (place, content) => (String.intercalate "/" place.path, content)).mergeSort
    fun a b => decide (a.1 ≤ b.1)

end FileTree

end RankOne
