import RankOne.Proofs.Accounting
import RankOne.Proofs.Rendering

/-! A program is in scope when every term that it hands over names a variable by an index below the
count of its side at that time. The counts only grow, so the term is also in scope of the
export. -/
namespace RankOne

mutual

/-- Outside of attempts, something in the step raises the fault: it gives up in these words, it
reads a column that the recorder does not have, or it puts an operand beside a combination that
cannot stand there. -/
def Step.Raises (r : Recorder) (fault : Fault) : Step → Prop
  | .enforce a b c =>
    Edit.AnyRaises r fault a ∨ Edit.AnyRaises r fault b ∨ Edit.AnyRaises r fault c
  | .inside body => Step.AnyRaises r fault body
  | .column v label => r.column v label = .error fault
  | .raise text => fault = .synthesis text
  | .allocate _ | .one | .root | .push | .pop | .attempt _ => False

def Step.AnyRaises (r : Recorder) (fault : Fault) : List Step → Prop
  | [] => False
  | s :: steps => s.Raises r fault ∨ Step.AnyRaises r fault steps

def Edit.Raises (r : Recorder) (fault : Fault) : Edit → Prop
  | .combine s o => ∃ l : LinearCombination, l.combine s o = .error fault
  | .run steps => Step.AnyRaises r fault steps
  | .raise text => fault = .synthesis text
  | .fresh _ | .replace _ => False

def Edit.AnyRaises (r : Recorder) (fault : Fault) : List Edit → Prop
  | [] => False
  | e :: edits => e.Raises r fault ∨ Edit.AnyRaises r fault edits

end

namespace Recording
variable {α β : Type} {raises raises' : Recorder → Fault → Prop}

/-- As long as no posting fails, the recording ends only with faults that are raised on the
recorder it leaves. -/
def EndsBy (raises : Recorder → Fault → Prop) (x : Recording α) : Prop :=
  ∀ r, Posted (x.run r).journal → ∀ fault, (x.run r).result = .error fault →
    raises (x.run r).recorder fault

theorem EndsBy.of_ok {x : Recording α} (h : ∀ r, ∃ a, (x.run r).result = .ok a) :
    x.EndsBy raises := by
  intro r _ fault hfault
  obtain ⟨a, ha⟩ := h r
  rw [ha] at hfault
  cases hfault

theorem EndsBy.bind {x : Recording α} {f : α → Recording β} (hx : x.EndsBy raises)
    (hf : ∀ a, (f a).EndsBy raises') :
    (x >>= f).EndsBy fun r fault => raises r fault ∨ raises' r fault := by
  intro r hkept fault hfault
  cases h : (x.run r).result with
  | error first =>
    rw [run_bind_of_error h] at hkept hfault ⊢
    obtain rfl : first = fault := Except.error.inj hfault
    exact .inl (hx r hkept first h)
  | ok a =>
    rw [run_bind_of_ok h] at hkept hfault ⊢
    exact .inr (hf a _ (posted_append.mp hkept).2 fault hfault)

theorem EndsBy.bind_of_ok {x : Recording α} {f : α → Recording β} (hx : x.EndsBy raises)
    (hf : ∀ a r, ∃ b, ((f a).run r).result = .ok b) : (x >>= f).EndsBy raises := by
  have hnever : ∀ a, (f a).EndsBy fun _ _ => False := fun a => .of_ok (hf a)
  intro r hkept fault hfault
  simpa using hx.bind hnever r hkept fault hfault

theorem EndsBy.logged (step : String) {x : Recording Answer} (hx : x.EndsBy raises) :
    (logged step x).EndsBy raises := by
  intro r hkept fault hfault
  refine hx r hkept fault ?_
  cases h : (x.run r).result with
  | error first => simpa [Recording.logged, h, Except.map] using hfault
  | ok a => simp [Recording.logged, h, Except.map] at hfault

/-- Enforcement fails while its row is being built, or else in the posting of the row. -/
theorem EndsBy.enforce {a b c : Builder Recording} (hbuild : (build a b c).EndsBy raises) :
    (enforce a b c).EndsBy raises := by
  intro r hkept fault hfault
  cases h : ((build a b c).run r).result with
  | error first =>
    rw [run_enforce_of_error h] at hkept hfault ⊢
    obtain rfl : first = fault := Except.error.inj hfault
    exact hbuild r (fun w hw => hkept w (by simp [hw])) first h
  | ok row =>
    rw [run_enforce_of_ok h] at hkept hfault
    have hposted := hkept ⟨r, row, ((build a b c).run r).recorder⟩ (by simp)
    dsimp only at hfault
    rw [Writing.fault?, Writing.number] at hposted
    rw [hposted] at hfault
    cases hfault

theorem run_resume (e : Except Fault α) (r : Recorder) :
    (resume e : Recording α).run r = ⟨r, [], [], e⟩ := by
  cases e <;> rfl

theorem lastRow_isOk (r : Recorder) : ∃ answer, (lastRow.run r).result = .ok answer := by
  obtain ⟨answer, hrun⟩ := run_lastRow r
  exact ⟨answer, by rw [hrun]⟩

end Recording

open Recording in
mutual

theorem Step.run_endsBy : ∀ s : Step, s.run.EndsBy fun r fault => s.Raises r fault
  | .allocate s => .of_ok fun _ => ⟨_, rfl⟩
  | .one => .of_ok fun _ => ⟨_, rfl⟩
  | .root => .of_ok fun _ => ⟨_, rfl⟩
  | .push => .of_ok fun _ => ⟨_, rfl⟩
  | .pop => .of_ok fun _ => ⟨_, rfl⟩
  | .enforce a b c =>
    have hbuild := (Edit.applyAll_endsBy a .zero).bind fun _ =>
      (Edit.applyAll_endsBy b .zero).bind fun _ =>
        (Edit.applyAll_endsBy c .zero).bind_of_ok fun _ _ => ⟨_, rfl⟩
    (EndsBy.enforce hbuild).bind_of_ok fun _ => lastRow_isOk
  | .inside body => by
    rw [Step.run, Recorder.system_inside]
    exact (Step.runAll_endsBy body).bind_of_ok fun _ _ => ⟨_, rfl⟩
  | .column v label => by
    intro r _ fault hfault
    have hrun : (Step.run (.column v label)).run r =
        ⟨r, [], [], (r.column v label).map .column⟩ := by
      show (resume (r.column v label) >>= fun c => pure (Answer.column c)).run r = _
      cases r.column v label <;> rfl
    rw [hrun] at hfault ⊢
    cases h : r.column v label with
    | ok c => simp [h, Except.map] at hfault
    | error first => simpa [Step.Raises, h, Except.map] using hfault
  | .raise text => by
    intro r _ fault hfault
    exact (Except.error.inj hfault).symm
  | .attempt body => by
    refine .of_ok fun r => ?_
    rw [Step.run, run_bind_of_ok (by rw [run_observe])]
    cases ((Step.runAll body).run r).result <;> exact ⟨_, rfl⟩

theorem Step.runAll_endsBy : ∀ steps : List Step,
    (Step.runAll steps).EndsBy fun r fault => Step.AnyRaises r fault steps
  | [] => .of_ok fun _ => ⟨_, rfl⟩
  | s :: steps => ((Step.run_endsBy s).logged s.name).bind fun _ => Step.runAll_endsBy steps

theorem Edit.apply_endsBy : ∀ (e : Edit) (l : LinearCombination),
    (e.apply l).EndsBy fun r fault => e.Raises r fault
  | .combine s o, l => by
    intro r _ fault hfault
    rw [Edit.apply, run_resume] at hfault
    exact ⟨l, hfault⟩
  | .fresh s, _ => .of_ok fun _ => ⟨_, rfl⟩
  | .replace _, _ => .of_ok fun _ => ⟨_, rfl⟩
  | .run steps, _ => (Step.runAll_endsBy steps).bind_of_ok fun _ _ => ⟨_, rfl⟩
  | .raise _, _ => by
    intro r _ fault hfault
    exact (Except.error.inj hfault).symm

theorem Edit.applyAll_endsBy : ∀ (edits : List Edit) (l : LinearCombination),
    (Edit.applyAll edits l).EndsBy fun r fault => Edit.AnyRaises r fault edits
  | [], _ => .of_ok fun _ => ⟨_, rfl⟩
  | e :: edits, l => (Edit.apply_endsBy e l).bind fun next => Edit.applyAll_endsBy edits next

end

theorem Step.runContinuing_isOk (steps : List Step) (r : Recorder) :
    ((Step.runContinuing steps).run r).result = .ok () := by
  induction steps generalizing r with
  | nil => rfl
  | cons s steps ih =>
    rw [Step.runContinuing, Recording.run_bind_of_ok (by rw [Recording.run_observe])]
    exact ih _

theorem Step.circuit_endsBy (continuing : Bool) (steps : List Step) :
    (Step.circuit continuing steps).EndsBy fun r fault => Step.AnyRaises r fault steps := by
  cases continuing with
  | true => exact .of_ok fun r => ⟨(), Step.runContinuing_isOk steps r⟩
  | false => exact Step.runAll_endsBy steps

theorem Chronicle.fault?_of_within {r r' : Recorder} {acts : List Act} (h : Chronicle r acts r')
    (hr : r.Aligned) {w : Writing} (hw : w ∈ Act.writings acts) (hin : w.row.Within w.before) :
    w.fault? = none :=
  Writing.fault?_of_within (h.aligned_before hr hw) hin

/-- What was in scope when it was written is in scope of the recorder that is left. -/
theorem Chronicle.rows_within {r r' : Recorder} {acts : List Act} (h : Chronicle r acts r')
    (hr : r.rows = []) (hin : ∀ w ∈ Act.writings acts, w.row.Within w.before) :
    ∀ row ∈ r'.rows, row.Within r' := by
  intro row hrow
  rw [← h.replay_eq, Recorder.rows_replay, hr, List.nil_append] at hrow
  obtain ⟨w, hw, rfl⟩ := List.mem_map.mp hrow
  obtain ⟨earlier, later, -, hafter⟩ := h.exists_before hw
  refine (hin w hw).mono fun s => ?_
  rw [hafter]
  exact w.before.count_le_replay later s

theorem Recorder.rows_padded_within {r : Recorder} (h : ∀ row ∈ r.rows, row.Within r) :
    ∀ row ∈ (r.padded r.numInputs).rows, row.Within (r.padded r.numInputs) := by
  intro row hrow
  have hle : ∀ s, r.count s ≤ (r.padded r.numInputs).count s := fun s =>
    (r.count_padded r.numInputs s).ge
  rcases List.mem_append.mp hrow with hown | hpadding
  · exact (h row hown).mono hle
  · obtain ⟨i, hi, rfl⟩ := List.mem_map.mp hpadding
    exact (Row.within_padding (List.mem_range.mp hi)).mono hle

theorem Recording.Locates.counts_eq {α : Type} {x : Recording α} (hx : x.Locates)
    {start : Recorder} (hstart : start.Blank)
    (hkept : Posted (x.run start).journal) :
    ∀ e ∈ (x.run start).log, e.after.numConstraints = e.after.rows.length := by
  intro e he
  obtain ⟨s, earlier, during, later, hjournal, -, -, -, haccounted⟩ := hx.accounted hstart e he
  have hdone : Posted (earlier ++ during) := by
    rw [hjournal, ← List.append_assoc] at hkept
    exact (posted_append.mp hkept).1
  rw [haccounted.length_rows, Writing.countP_fault_eq_zero hdone, Nat.add_zero]

/-- A program in scope keeps rows and count together, fails by itself or not at all, and what is
exported can be rendered. -/
theorem export_of_scoped (continuing : Bool) (steps : List Step)
    (inScope : ∀ w ∈ Act.writings ((Step.circuit continuing steps).run .primed).journal,
      w.row.Within w.before) :
    let o := exportCircuit (Step.circuit continuing steps)
    (∀ w ∈ Act.writings o.journal, w.fault? = none) ∧
    (∀ e ∈ o.log, e.after.numConstraints = e.after.rows.length) ∧
    (∀ fault, o.result = .error fault → Step.AnyRaises o.recorder fault steps) ∧
    ∀ ex, o.result = .ok ex → ex.numVars < wordLimit →
      (∀ m, (ex.combinations.get m).length = ex.numConstraints) ∧
      (∀ prime, 2 ≤ prime → ∃ d, ex.document prime = .ok d ∧
        d.numVars = ex.numVars ∧ d.numConstraints = ex.numConstraints ∧
        d.map = (List.range ex.numVars.toNat).map Int.ofNat ∧
        d.numConstraints = d.constraints.length ∧
        (∀ constraint ∈ d.constraints, ∀ m, ∀ t ∈ constraint.get m,
          0 ≤ t.wire ∧ t.wire < d.numVars ∧ t.wire ∈ d.map) ∧
        d.map.Nodup ∧ ∀ w, w ∈ d.map ↔ 0 ≤ w ∧ w < d.numVars) ∧
      (∃ patterns, ex.patterns = .ok patterns) ∧ ∃ summary, ex.summary = .ok summary := by
  intro o
  have hcircuit := Recording.Locates.closed.circuit continuing steps
  have hchronicle := hcircuit.1 .primed
  have hkept : Posted ((Step.circuit continuing steps).run .primed).journal := fun w hw =>
    hchronicle.fault?_of_within Recorder.aligned_primed hw (inScope w hw)
  have hsteps := hcircuit.counts_eq Recorder.blank_primed hkept
  have hrows := hchronicle.rows_within rfl inScope
  have haligned := hcircuit.1.aligned Recorder.aligned_primed
  cases h : ((Step.circuit continuing steps).run .primed).result with
  | error first =>
    have hrun : o = _ := Recording.run_exported_of_error h
    rw [hrun]
    refine ⟨hkept, hsteps, fun fault hfault => ?_, fun ex hex => by cases hex⟩
    obtain rfl : first = fault := Except.error.inj hfault
    exact Step.circuit_endsBy continuing steps .primed hkept first h
  | ok returned =>
    have hrun : o = _ := Recording.run_exported_of_ok h haligned
    rw [hrun]
    refine ⟨posted_append.mpr ⟨hkept, haligned.posted_paddingActs⟩, hsteps,
      fun fault hfault => (by cases hfault), fun ex hex hvars => ?_⟩
    obtain rfl := Except.ok.inj hex
    have hwithin := Recorder.rows_padded_within hrows
    refine ⟨fun m => ?_, fun prime hprime => Recorder.exists_document hwithin hvars hprime,
      Recorder.exists_patterns hwithin hvars, Recorder.exists_summary hwithin hvars⟩
    rw [Recorder.get_combinations_toExport, Recorder.length_combinations]
    exact (Recorder.length_combinations _ .a).symm

/-- A row whose builder enforces a row on a variable that a failed attempt has allocated. -/
def Step.scopedProgram : List Step :=
  [.attempt [.enforce [.fresh .aux, .raise "stop"] [] []],
    .enforce
      [.run [.enforce [.fresh .input] [.combine .plus (.variable ⟨.aux, 0⟩)] []],
        .combine .minus (.term ⟨2, ⟨.input, 1⟩⟩)]
      [.combine .plus (.variable .one)] []]

theorem export_of_scoped_program :
    let circuit := Step.circuit false Step.scopedProgram
    (∀ w ∈ Act.writings (circuit.run .primed).journal, w.row.Within w.before) ∧
      ∃ ex d, (exportCircuit circuit).result = .ok ex ∧ ex.numVars = 3 ∧ ex.numVars < wordLimit ∧
        2 ≤ (7 : Int) ∧ ex.document 7 = .ok d ∧ d.numVars = 3 ∧ d.map = [0, 1, 2] ∧
        d.numConstraints = d.constraints.length ∧
        (∀ constraint ∈ d.constraints, ∀ m, ∀ t ∈ constraint.get m, t.wire ∈ d.map) ∧
        ∃ summary, ex.summary = .ok summary := by
  intro circuit
  have inScope : ∀ w ∈ Act.writings (circuit.run .primed).journal, w.row.Within w.before := by
    decide
  have completed : (exportCircuit circuit).result = .ok _ := rfl
  have hprime : 2 ≤ (7 : Int) := by decide
  obtain ⟨-, -, -, hrender⟩ := export_of_scoped false Step.scopedProgram inScope
  obtain ⟨-, hdocument, -, hsummary⟩ := hrender _ completed (by decide)
  obtain ⟨d, hd, hvars, -, hmap, hcount, hwires, -, -⟩ := hdocument 7 hprime
  exact ⟨inScope, _, d, completed, rfl, by decide, hprime, hd, hvars, hmap, hcount,
    fun constraint hmem m t ht => (hwires constraint hmem m t ht).2.2, hsummary⟩

end RankOne
