import RankOne.Recording
import RankOne.Value

/-! A program is a circuit written out as data. The combinations of a constraint are built by edits,
and an edit may itself run steps, so allocation and enforcement can happen in the middle of
building a row. -/
namespace RankOne

mutual

inductive Step
  | allocate (s : Side)
  | one
  | root
  | push
  | pop
  | enforce (a b c : List Edit)
  | inside (body : List Step)
  | column (v : Variable) (label : String)
  | raise (text : String)
  /-- Runs the body and swallows its fault. -/
  | attempt (body : List Step)

inductive Edit
  | combine (s : Sign) (o : Value)
  | fresh (s : Side)
  | replace (l : LinearCombination)
  | run (steps : List Step)
  | raise (text : String)

end

instance : Inhabited Step := ⟨.one⟩

instance : Inhabited Edit := ⟨.run []⟩

/-- The name under which a step is logged. -/
def Step.name : Step → String
  | .allocate .input => "input"
  | .allocate .aux => "aux"
  | .one => "one"
  | .root => "root"
  | .push => "push"
  | .pop => "pop"
  | .enforce .. => "enforce"
  | .inside _ => "ns"
  | .column .. => "column"
  | .raise _ => "raise"
  | .attempt _ => "try"

def Recording.lastRow : Recording Answer := do
  match (← recorder).rows.getLast? with
  | some row => return .row row
  | none => return .nothing

mutual

def Step.run : Step → Recording Answer
  | .allocate s => .variable <$> Recorder.system.allocate s none none
  | .one => return .variable .one
  | .root => do
    let _ ← Recorder.system.root
    return .done
  | .push => do
    Recorder.system.push none
    return .nothing
  | .pop => do
    Recorder.system.pop
    return .nothing
  | .enforce a b c => do
    Recorder.system.enforce none (fun l => Edit.applyAll a l) (fun l => Edit.applyAll b l)
      (fun l => Edit.applyAll c l)
    Recording.lastRow
  | .inside body => do
    Recorder.system.inside none fun _ => Step.runAll body
    return .done
  | .column v label => do
    return .column (← resume ((← Recording.recorder).column v label))
  | .raise text => throw (.synthesis text)
  | .attempt body => do
    match ← observe (Step.runAll body) with
    | .ok _ => return .nothing
    | .error fault => return .fault fault

/-- Runs steps in order up to the first fault. -/
def Step.runAll : List Step → Recording Unit
  | [] => return ()
  | s :: steps => do
    Recording.logged s.name s.run
    Step.runAll steps

def Edit.apply : Edit → Builder Recording
  | .combine s o, l => resume (l.combine s o)
  | .fresh s, l => do
    let v ← Recorder.system.allocate s none none
    return l.plus v
  | .replace l, _ => return l
  | .run steps, l => do
    Step.runAll steps
    return l
  | .raise text, _ => throw (.synthesis text)

/-- Applies edits in order, each to the combination that the one before it left. -/
def Edit.applyAll : List Edit → Builder Recording
  | [], l => return l
  | e :: edits, l => do
    let next ← e.apply l
    Edit.applyAll edits next

end

/-- Runs every step of the list, whatever became of the steps before it. -/
def Step.runContinuing : List Step → Recording Unit
  | [] => return ()
  | s :: steps => do
    let _ ← observe (Recording.logged s.name s.run)
    Step.runContinuing steps

end RankOne
