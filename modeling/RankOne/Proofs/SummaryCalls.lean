import RankOne.Proofs.Decoding
import RankOne.Proofs.ExportCalls

/-! A call for a summary prints one object and leaves every file as it was. The object gives each
count under a name of its own, so it can be told from the object of any other counts. -/
namespace RankOne

/-- In an object without repeated keys, every field is found under its key, and nothing else. -/
theorem Json.field?_eq_some_iff {fields : List (String × Json)}
    (h : (fields.map Prod.fst).Nodup) {key : String} {value : Json} :
    (Json.object fields).field? key = some value ↔ (key, value) ∈ fields := by
  simp only [Json.field?]
  induction fields with
  | nil => simp
  | cons first fields ih =>
    obtain ⟨name, content⟩ := first
    rw [List.map_cons, List.nodup_cons] at h
    rw [List.lookup_cons, List.mem_cons, Prod.mk.injEq]
    by_cases hkey : key = name
    · subst hkey
      have habsent : (key, value) ∉ fields := fun hmem => h.1 (List.mem_map.mpr ⟨_, hmem, rfl⟩)
      simp [habsent, eq_comm]
    · have hne : (key == name) = false := beq_false_of_ne hkey
      simp only [hne, ih h.2, hkey, false_and, false_or]

namespace Summary

/-- What is printed of a summary. -/
def report (s : Summary) (reference : String) : Json :=
  .object (s.fields ++ [("circuit_id", .text reference)])

theorem field?_report_eq_some_iff (s : Summary) (reference : String) {key : String}
    {value : Json} :
    (s.report reference).field? key = some value ↔
      (key, value) ∈ s.fields ∨ key = "circuit_id" ∧ value = .text reference := by
  have hdistinct : ((s.fields ++ [("circuit_id", Json.text reference)]).map Prod.fst).Nodup := by
    simp [fields]
  rw [report, Json.field?_eq_some_iff hdistinct]
  simp

/-- Of the fan-ins, only their mean is printed. -/
theorem report_eq_iff {s s' : Summary} {reference reference' : String} :
    s.report reference = s'.report reference' ↔
      reference = reference' ∧ s.averageText = s'.averageText ∧
        { s with totalFanIn := s'.totalFanIn, fanInRows := s'.fanInRows } = s' := by
  obtain ⟨_, _, _, _, _, _, _, ⟨_, _, _⟩, _, _⟩ := s
  obtain ⟨_, _, _, _, _, _, _, ⟨_, _, _⟩, _, _⟩ := s'
  simp only [report, fields, List.cons_append, List.nil_append, Json.object.injEq, List.cons.injEq,
    Prod.mk.injEq, Json.int.injEq, Json.decimal.injEq, Json.text.injEq, mk.injEq, Triple.mk.injEq,
    Int.ofNat_inj]
  tauto

end Summary

namespace CommandLine
variable {library : Library} {tree : FileTree} {arguments : List String} {verbose : Bool}
  {reference : String} {candidate : Candidate} {ex : Export}

theorem runWith_of_read_summary
    (read : Invocation.read tree.isDirectory arguments = .ok ⟨verbose, .summary reference⟩)
    (found : library.find reference = .ok candidate) (exported : candidate.export? = .ok ex) :
    ∃ logged, runWith library tree arguments = settle tree
      (match ex.summary with
        | .error fault => escaping logged (.render fault)
        | .ok s => printed logged ((s.report reference).indented ++ "\n")) := by
  have hexport : exportOf library reference = .ok ex := by
    rw [exportOf_of_found found, exported]
    rfl
  refine ⟨logOf library verbose reference, ?_⟩
  rw [runWith, respondTo, read]
  simp only [respond, respondSummary, hexport]
  rfl

/-- Whatever is on the line besides, a call for the summary of a circuit that can be exported prints
the report of its summary, from which all counts can be read, or nothing when there is none. -/
theorem summary_printed
    (read : Invocation.read tree.isDirectory arguments = .ok ⟨verbose, .summary reference⟩)
    (found : library.find reference = .ok candidate) (exported : candidate.export? = .ok ex) :
    let outcome := runWith library tree arguments
    (∀ s, ex.summary = .ok s →
      Prints outcome tree 0 ((s.report reference).indented ++ "\n") ∧
      (∀ key value, (s.report reference).field? key = some value ↔
        (key, value) ∈ s.fields ∨ key = "circuit_id" ∧ value = .text reference) ∧
      ∀ (s' : Summary) (reference' : String), s.report reference = s'.report reference' ↔
        reference = reference' ∧ s.averageText = s'.averageText ∧
          { s with totalFanIn := s'.totalFanIn, fanInRows := s'.fanInRows } = s') ∧
    ∀ fault, ex.summary = .error fault → outcome.1.exit = 1 ∧ outcome.1.stdout = "" ∧
      outcome.1.escaped = some (.render fault) ∧ outcome.2 = tree := by
  intro outcome
  obtain ⟨logged, hrun⟩ := runWith_of_read_summary read found exported
  have houtcome : outcome = _ := hrun
  refine ⟨fun s hs => ?_, fun fault hfault => ?_⟩
  · rw [houtcome, hs]
    exact ⟨⟨rfl, rfl, rfl, rfl⟩, fun _ _ => s.field?_report_eq_some_iff reference,
      fun _ _ => Summary.report_eq_iff⟩
  · rw [houtcome, hfault]
    exact ⟨rfl, rfl, rfl, rfl⟩

/-- Such a line, whatever the reference. -/
theorem read_summary_line (isDirectory : String → Bool) (reference : String) :
    Invocation.read isDirectory [Command.summary.name, Flag.circuit.longName, reference] =
      .ok ⟨false, .summary reference⟩ := rfl

example : (run .empty [Command.summary.name, Flag.circuit.longName, "cubic"]).1.exit = 0 := rfl

end CommandLine

end RankOne
