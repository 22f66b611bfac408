import RankOne.Circuit
import RankOne.Export

namespace RankOne

inductive Submission
  | circuit (c : Circuit)
  | bareClass (name : String)
  /-- A routine that leaves the recorder as it is, and the fault it ends with, if any. -/
  | routine (fault? : Option Fault)
  /-- A value of another type. -/
  | other (typeName : String)
  deriving DecidableEq, Repr

namespace Submission

def record : Submission → Recording Unit
  | .circuit c => c.synthesize Recorder.system
  | .bareClass name => throw (.bareClass name)
  | .routine none => return ()
  | .routine (some fault) => throw fault
  | .other typeName => throw (.notCallable typeName)

def export? (s : Submission) : Except Fault Export := (exportCircuit s.record).result

end Submission

end RankOne
