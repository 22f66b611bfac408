import RankOne.CommandRun

namespace RankOne

/-- A directory can be opened, but nothing can be read from it. -/
def isDirectory (path : String) : IO Bool := do
  let handle ← try IO.FS.Handle.mk path .read catch _ => return false
  try
    let _ ← handle.read 1
    return false
  catch _ => return true

def possibleValues (argument : String) : List String :=
  argument :: (OptionTable.splitValue argument).2.toList

end RankOne

open RankOne in
def main (arguments : List String) : IO UInt32 := do
  let directories ← (arguments.flatMap possibleValues).filterM isDirectory
  let response := CommandLine.respondTo Catalogue.library directories.contains arguments
  IO.eprint response.stderr
  if let some (path, text) := response.delivery then
    IO.FS.createDirAll path.parent.text
    IO.FS.writeFile path.text text
  IO.print response.stdout
  if let some escape := response.escaped then
    IO.eprintln escape.message
  return response.exit.toUInt32
