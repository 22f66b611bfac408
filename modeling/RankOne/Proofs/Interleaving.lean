import RankOne.Proofs.Clean
import RankOne.Proofs.Interruption
import RankOne.Proofs.SupportOfColumns

/-! In a flat program the building of a row has no effects. When no step fails and no index counts
from the end, columns are the transpose of the rows, and it does not show when a column was
opened. -/
namespace RankOne

theorem Recorder.Aligned.columns_eq {r : Recorder} (h : r.Aligned) (s : Side) (m : Matrix) :
    r.ledgers.columns s m = (List.range (r.count s)).map (r.ledgers.slot s m) := by
  apply List.ext_getElem
  · rw [h s m, List.length_map, List.length_range]
  · intro k hk _
    simp [Ledgers.slot, hk]

namespace Session

theorem slot_of_unnested {session : Session} {steps : List Step}
    (kept : ∀ w ∈ session.writings steps, w.Kept)
    (unnested : Act.unnested false (session.run steps).journal = true) (s : Side) (m : Matrix)
    {k : Nat} (hk : k < (session.run steps).recorder.count s) :
    (session.run steps).recorder.ledgers.slot s m k =
      (session.run steps).recorder.rows.zipIdx.flatMap fun p =>
        p.1.postings m ⟨s.kind, k⟩ p.2 := by
  let v : Variable := ⟨s.kind, k⟩
  have hside : v.side = s := s.side_kind
  have hcolumn := session.column_run steps m (v := v) (k := k) rfl (by rwa [hside])
  rw [(session.aligned_run steps).column_eq m (v := v) rfl (by rwa [hside]), hside] at hcolumn
  rw [Except.ok.inj hcolumn]
  -- without nesting, a row is posted under its position
  have hstarts := session.starts_of_unnested steps unnested fun w hw => (kept w hw).1
  have hshare : ∀ w ∈ session.writings steps, w.share s m k = w.row.postings m v w.number := by
    intro w hw
    have hw := (kept w hw).share_eq m (v := v) rfl
    rwa [hside] at hw
  rw [List.flatMap_congr hshare, session.rows_run steps, List.zipIdx_eq_zip_range',
    ← List.range_eq_range', List.length_map, ← hstarts, starts, List.zip_map', List.flatMap_map]

theorem numConstraints_of_kept {session : Session} {steps : List Step}
    (kept : ∀ w ∈ session.writings steps, w.Kept) :
    (session.run steps).recorder.numConstraints = (session.run steps).recorder.rows.length := by
  have h := session.chronicle steps
  have hcount := Recorder.numConstraints_replay h.admits
  have hposted : ∀ w ∈ Act.writings (session.run steps).journal, w.fault? = none :=
    fun w hw => (kept w hw).1
  rw [h.replay_eq, Writing.countP_fault_eq_zero hposted, numConstraints_start, Nat.add_zero,
    Nat.zero_add] at hcount
  rw [hcount, session.rows_run steps, List.length_map, writings]

/-- Runs that kept their rows and nested none leave the same recorder when they leave the same rows
and as many variables. -/
theorem recorder_eq_of_rows {session session' : Session} {steps steps' : List Step}
    (kept : ∀ w ∈ session.writings steps, w.Kept)
    (kept' : ∀ w ∈ session'.writings steps', w.Kept)
    (unnested : Act.unnested false (session.run steps).journal = true)
    (unnested' : Act.unnested false (session'.run steps').journal = true)
    (rows : (session.run steps).recorder.rows = (session'.run steps').recorder.rows)
    (count : ∀ s, (session.run steps).recorder.count s = (session'.run steps').recorder.count s) :
    (session.run steps).recorder = (session'.run steps').recorder := by
  have hconstraints : (session.run steps).recorder.numConstraints =
      (session'.run steps').recorder.numConstraints := by
    rw [numConstraints_of_kept kept, numConstraints_of_kept kept', rows]
  have hledgers : (session.run steps).recorder.ledgers =
      (session'.run steps').recorder.ledgers := by
    apply Ledgers.ext_columns
    intro s m
    rw [(session.aligned_run steps).columns_eq, (session'.aligned_run steps').columns_eq, count]
    apply List.map_congr_left
    intro k hk
    have hlt := List.mem_range.mp hk
    rw [slot_of_unnested kept unnested s m (by rwa [count]),
      slot_of_unnested kept' unnested' s m hlt, rows]
  exact Recorder.mk.injEq .. ▸ ⟨count .input, count .aux, hconstraints, rows, hledgers⟩

end Session

/-- The edit only adds terms, takes terms away or sets them. -/
def Edit.isPlain : Edit → Bool
  | .combine .. | .replace _ => true
  | .fresh _ | .run _ | .raise _ => false

namespace Step

/-- The step allocates a variable, or it enforces a row that plain edits build. -/
def isFlat : Step → Bool
  | .allocate _ => true
  | .enforce a b c => (a ++ (b ++ c)).all Edit.isPlain
  | _ => false

def isEnforcement : Step → Bool
  | .enforce .. => true
  | _ => false

def allocates (s : Side) : Step → Bool
  | .allocate s' => s = s'
  | _ => false

/-- What the building of the row of an enforcement ends with, on a new recorder. -/
def built? : Step → Option (Except Fault Row)
  | .enforce a b c => some ((Edit.buildRow a b c).run .empty).result
  | _ => none

end Step

namespace Recording
variable {α β : Type}

/-- The recording has no effects, and its result does not depend on the recorder. -/
def Inert (x : Recording α) : Prop := ∃ result, ∀ r, x.run r = ⟨r, [], [], result⟩

theorem Inert.pure (a : α) : Inert (Pure.pure a : Recording α) := ⟨.ok a, fun _ => rfl⟩

theorem Inert.bind {x : Recording α} {f : α → Recording β} (hx : x.Inert)
    (hf : ∀ a, (f a).Inert) : (x >>= f).Inert := by
  obtain ⟨result, hrun⟩ := hx
  cases result with
  | error fault =>
    exact ⟨.error fault, fun r => by rw [run_bind_of_error (by rw [hrun]), hrun]⟩
  | ok a =>
    obtain ⟨result, hrest⟩ := hf a
    refine ⟨result, fun r => ?_⟩
    rw [run_bind_of_ok (by rw [hrun]), hrun, hrest]
    rfl

end Recording

theorem Edit.inert_applyAll {edits : List Edit} (plain : edits.all Edit.isPlain = true)
    (l : LinearCombination) : (Edit.applyAll edits l).Inert := by
  induction edits generalizing l with
  | nil => exact .pure l
  | cons e edits ih =>
    rw [List.all_cons, Bool.and_eq_true] at plain
    obtain ⟨hplain, hrest⟩ := plain
    refine Recording.Inert.bind ?_ fun next => ih hrest next
    cases e with
    | combine s o => exact ⟨_, Recording.run_resume (l.combine s o)⟩
    | replace k => exact .pure k
    | fresh s => cases hplain
    | run steps => cases hplain
    | raise text => cases hplain

theorem Edit.inert_buildRow {a b c : List Edit}
    (plain : (a ++ (b ++ c)).all Edit.isPlain = true) : (Edit.buildRow a b c).Inert := by
  simp only [List.all_append, Bool.and_eq_true] at plain
  obtain ⟨ha, hb, hc⟩ := plain
  exact .bind (inert_applyAll ha _) fun _ => .bind (inert_applyAll hb _) fun _ =>
    .bind (inert_applyAll hc _) fun _ => .pure _

theorem Recording.isOk_of_logged {step : String} {x : Recording Answer} {r : Recorder} {u : Unit}
    (h : ((logged step x).run r).result = .ok u) : ∃ answer, (x.run r).result = .ok answer := by
  cases hx : (x.run r).result with
  | ok answer => exact ⟨answer, rfl⟩
  | error fault => simp [logged, hx, Except.map] at h

namespace Step

/-- A flat enforcement that succeeds writes the row that its edits build on any recorder. -/
theorem run_enforce_of_plain {a b c : List Edit}
    (plain : (a ++ (b ++ c)).all Edit.isPlain = true) {r : Recorder} {answer : Answer}
    (h : ((Step.run (.enforce a b c)).run r).result = .ok answer) :
    ∃ row, (Step.enforce a b c).built? = some (.ok row) ∧
      ((Step.run (.enforce a b c)).run r).recorder = (r.write r.numConstraints row).1 ∧
      ((Step.run (.enforce a b c)).run r).journal = [.opened, .wrote ⟨r, row, r⟩] := by
  rw [Step.run_enforce] at h ⊢
  obtain ⟨built, hinert⟩ := Edit.inert_buildRow plain
  have hbuild : (Recording.build (Edit.applyAll a) (Edit.applyAll b) (Edit.applyAll c)).run r =
    ⟨r, [], [], built⟩ := hinert r
  have hbuilt := congrArg Outcome.result hbuild
  cases built with
  | error fault =>
    have hfailed : ((Edit.enforceRow a b c).run r).result = .error fault :=
      congrArg Outcome.result (Recording.run_enforce_of_error hbuilt)
    rw [Recording.run_bind_of_error hfailed] at h
    cases h
  | ok row =>
    have hrun : (Edit.enforceRow a b c).run r = _ := Recording.run_enforce_of_ok hbuilt
    rw [hbuild] at hrun
    obtain ⟨_, henforced, -, -⟩ := Recording.of_bind_eq_ok h
    obtain ⟨last, hlast⟩ := Recording.run_lastRow ((Edit.enforceRow a b c).run r).recorder
    rw [Recording.run_bind_of_ok henforced, hlast, hrun]
    exact ⟨row, congrArg some (congrArg Outcome.result (hinert .empty)), rfl, rfl⟩

/-- What a flat step that succeeds does: it writes the row that it builds, if it builds one, counts
the variable that it allocates, if it allocates one, and leaves no building open. -/
theorem run_of_flat {s : Step} (flat : s.isFlat = true) {r : Recorder} {answer : Answer}
    (h : (s.run.run r).result = .ok answer) :
    let o := s.run.run r
    s.built?.toList = (Act.writings o.journal).map (fun w => .ok w.row) ∧
      (∀ side, o.recorder.count side = r.count side + if s.allocates side then 1 else 0) ∧
      ∀ rest, Act.unnested false rest = true → Act.unnested false (o.journal ++ rest) = true := by
  intro o
  cases s with
  | allocate side =>
    refine ⟨rfl, fun side' => ?_, fun rest hrest => hrest⟩
    have hallocated : o.recorder = r.allocate side := rfl
    rw [hallocated, Recorder.count_allocate]
    by_cases hside : side' = side <;> simp [allocates, hside]
  | enforce a b c =>
    obtain ⟨row, hbuilt, hrecorder, hjournal⟩ := run_enforce_of_plain flat h
    refine ⟨?_, fun side => ?_, fun rest hrest => ?_⟩
    · rw [hbuilt, hjournal]
      rfl
    · rw [hrecorder, Recorder.count_write]
      rfl
    · rw [hjournal]
      exact hrest
  | one | root | push | pop | inside _ | column _ _ | raise _ | attempt _ => cases flat

/-- A flat program that returns has written the rows that its enforcements build, one after the
other and none inside another, and has counted its allocations. -/
theorem runAll_of_flat {steps : List Step} (flat : ∀ s ∈ steps, s.isFlat = true) {r : Recorder}
    (returned : ((Step.runAll steps).run r).result = .ok ()) :
    let o := (Step.runAll steps).run r
    steps.filterMap Step.built? = (Act.writings o.journal).map (fun w => .ok w.row) ∧
      (∀ side, o.recorder.count side = r.count side + steps.countP (Step.allocates side)) ∧
      Act.unnested false o.journal = true := by
  induction steps generalizing r with
  | nil => exact ⟨rfl, fun _ => rfl, rfl⟩
  | cons s steps ih =>
    obtain ⟨hflat, hrest⟩ := List.forall_mem_cons.mp flat
    rw [Step.runAll] at returned ⊢
    obtain ⟨_, hfirst, -, hreturned⟩ := Recording.of_bind_eq_ok returned
    obtain ⟨answer, hanswer⟩ := Recording.isOk_of_logged hfirst
    obtain ⟨hbuilt, hcount, hunnested⟩ := run_of_flat hflat hanswer
    obtain ⟨hrows, hcounts, hrestUnnested⟩ := ih hrest hreturned
    rw [Recording.run_bind_of_ok hfirst]
    refine ⟨?_, fun side => ?_, hunnested _ hrestUnnested⟩
    · rw [List.filterMap_eq_flatMap_toList, List.flatMap_cons,
        ← List.filterMap_eq_flatMap_toList, hrows, hbuilt, ← List.map_append,
        ← Act.writings_append]
      rfl
    · have hbefore : ((Recording.logged s.name s.run).run r).recorder.count side =
          r.count side + if s.allocates side then 1 else 0 := hcount side
      rw [hcounts, hbefore, List.countP_cons]
      omega

theorem runContinuing_of_clean {steps : List Step} {r : Recorder}
    (clean : Clean ((Step.runContinuing steps).run r).log) :
    (Step.runContinuing steps).run r = (Step.runAll steps).run r := by
  induction steps generalizing r with
  | nil => rfl
  | cons s steps ih =>
    have hobserved := Recording.run_observe (Recording.logged s.name s.run) r
    have hrun := Recording.run_bind_of_ok (congrArg Outcome.result hobserved)
      fun _ => Step.runContinuing steps
    rw [hobserved] at hrun
    rw [Step.runContinuing, hrun] at clean ⊢
    obtain ⟨hfirst, hrest⟩ := clean_append.mp clean
    obtain ⟨answer, hanswer⟩ := Recording.isOk_of_clean hfirst
    rw [ih hrest, Step.runAll, Recording.run_bind_of_ok (Recording.logged_isOk hanswer)]

/-- Without failed steps, it makes no difference whether a program would have gone on. -/
theorem circuit_of_clean {continuing : Bool} {steps : List Step} {r : Recorder}
    (clean : Clean ((Step.circuit continuing steps).run r).log) :
    (Step.circuit continuing steps).run r = (Step.runAll steps).run r := by
  cases continuing with
  | true => exact runContinuing_of_clean clean
  | false => rfl

end Step

/-- What is built depends on the enforcements alone. -/
theorem Step.filterMap_built? (steps : List Step) :
    (steps.filter Step.isEnforcement).filterMap Step.built? = steps.filterMap Step.built? := by
  rw [List.filterMap_filter]
  apply List.filterMap_congr
  intro s _
  cases s <;> rfl

namespace Session

theorem kept_of_posted {session : Session} {steps : List Step}
    (posted : Posted (session.run steps).journal)
    (nonneg : ∀ row ∈ (session.run steps).recorder.rows, ∀ e ∈ row.entries, 0 ≤ e.2.var.index) :
    ∀ w ∈ session.writings steps, w.Kept := by
  intro w hw
  refine ⟨posted w hw, nonneg w.row ?_⟩
  rw [session.rows_run steps]
  exact List.mem_map_of_mem hw

/-- What a flat program without failed steps is exported as: the rows that its enforcements build,
the padding, and the variables that it allocates behind the constant. -/
theorem exported_of_flat {continuing : Bool} {steps : List Step}
    (flat : ∀ s ∈ steps, s.isFlat = true)
    (clean : Clean (exportCircuit (Step.circuit continuing steps)).log) :
    let o := exportCircuit (Step.circuit continuing steps)
    Act.unnested false o.journal = true ∧
      (∀ side, o.recorder.count side =
        Recorder.primed.count side + steps.countP (Step.allocates side)) ∧
      ∃ rows, steps.filterMap Step.built? = rows.map .ok ∧
        o.recorder.rows = rows ++ (List.range o.recorder.numInputs).map Row.padding := by
  intro o
  have hfaithful := Step.circuit_faithful continuing steps
  obtain ⟨_, returned, -, -⟩ := Recording.of_bind_eq_ok (Step.export_of_clean clean).1
  have hrun : o = _ :=
    Recording.run_exported_of_ok returned (hfaithful.aligned Recorder.aligned_primed)
  have hlog : o.log = ((Step.circuit continuing steps).run .primed).log :=
    congrArg Outcome.log hrun
  have hcircuit := Step.circuit_of_clean (hlog ▸ clean)
  obtain ⟨hbuilt, hcount, hunnested⟩ := Step.runAll_of_flat flat (hcircuit ▸ returned)
  rw [← hcircuit] at hbuilt hcount hunnested
  have hrows := Recorder.primed.rows_replay ((Step.circuit continuing steps).run .primed).journal
  rw [(hfaithful .primed).replay_eq] at hrows
  rw [hrun]
  refine ⟨(hfaithful .primed).unnested_append hunnested (Recorder.unnested_paddingActs _ _),
    fun side => ?_, _, hbuilt.trans List.map_map.symm, ?_⟩
  · rw [Recorder.count_padded, hcount]
  · exact congrArg (· ++ _) hrows

end Session

/-- Two flat programs with the same enforcements in the same order and with as many allocations of
each kind, all of whose steps succeed, leave the same recorder and are exported alike. -/
theorem export_of_interleaved {continuing continuing' : Bool} {steps steps' : List Step}
    (flat : ∀ s ∈ steps, s.isFlat = true) (flat' : ∀ s ∈ steps', s.isFlat = true)
    (clean : Clean (exportCircuit (Step.circuit continuing steps)).log)
    (clean' : Clean (exportCircuit (Step.circuit continuing' steps')).log)
    (nonneg : ∀ row ∈ (exportCircuit (Step.circuit continuing steps)).recorder.rows,
      ∀ e ∈ row.entries, 0 ≤ e.2.var.index)
    (enforcements : steps.filter Step.isEnforcement = steps'.filter Step.isEnforcement)
    (allocations : ∀ side,
      steps.countP (Step.allocates side) = steps'.countP (Step.allocates side)) :
    let o := exportCircuit (Step.circuit continuing steps)
    let o' := exportCircuit (Step.circuit continuing' steps')
    o.recorder = o'.recorder ∧ ∃ ex, o.result = .ok ex ∧ o'.result = .ok ex := by
  intro o o'
  obtain ⟨hunnested, hcount, rows, hbuilt, hrows⟩ := Session.exported_of_flat flat clean
  obtain ⟨hunnested', hcount', rows', hbuilt', hrows'⟩ := Session.exported_of_flat flat' clean'
  obtain ⟨hresult, hposted⟩ := Step.export_of_clean clean
  obtain ⟨hresult', hposted'⟩ := Step.export_of_clean clean'
  have hsame : ∀ side, o.recorder.count side = o'.recorder.count side := by
    intro side
    rw [hcount, hcount', allocations]
  have hwritten : rows = rows' := by
    rw [← Step.filterMap_built?, enforcements, Step.filterMap_built?, hbuilt'] at hbuilt
    exact (List.map_injective_iff.mpr (fun _ _ => Except.ok.inj) hbuilt).symm
  have hinputs : o.recorder.numInputs = o'.recorder.numInputs := hsame .input
  have hall : o.recorder.rows = o'.recorder.rows := by
    rw [hrows, hrows', hwritten, hinputs]
  have hkept : ∀ w ∈ (Session.exported continuing).writings steps, w.Kept :=
    Session.kept_of_posted hposted nonneg
  have hkept' : ∀ w ∈ (Session.exported continuing').writings steps', w.Kept :=
    Session.kept_of_posted hposted' (hall ▸ nonneg)
  have hrecorder : o.recorder = o'.recorder :=
    Session.recorder_eq_of_rows hkept hkept' hunnested hunnested' hall hsame
  exact ⟨hrecorder, _, hresult, hrecorder ▸ hresult'⟩

def Step.productRow : Step :=
  .enforce [.combine .plus (.variable ⟨.aux, 0⟩)] [.replace ⟨[⟨2, ⟨.aux, 0⟩⟩]⟩]
    [.combine .minus (.variable ⟨.input, 0⟩)]

def Step.inputRow : Step :=
  .enforce [.combine .plus (.variable ⟨.input, 1⟩)] [] [.combine .plus (.variable ⟨.aux, 1⟩)]

/-- Every variable is allocated just before the first row that has a term on it. -/
def Step.lateProgram : List Step :=
  [.allocate .aux, productRow, .allocate .input, .allocate .aux, inputRow]

def Step.earlyProgram : List Step :=
  [.allocate .aux, .allocate .aux, .allocate .input, productRow, inputRow]

theorem export_of_late_program :
    let o := exportCircuit (Step.circuit false Step.lateProgram)
    let o' := exportCircuit (Step.circuit true Step.earlyProgram)
    o.recorder = o'.recorder ∧ ∃ ex, o.result = .ok ex ∧ o'.result = .ok ex :=
  export_of_interleaved (by decide) (by decide) (by decide) (by decide) (by decide) rfl
    (fun side => by cases side <;> rfl)

end RankOne
