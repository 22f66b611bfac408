import RankOne.CommandRun

/-! Where a reference names nothing, the fault is mostly reported as the user's choice of reference.
Three kinds of references break the lookup instead, and their fault gets out of the program. -/
namespace RankOne

namespace Catalogue

/-- The reference has a colon, with this name before the first one and this member behind it. -/
structure Names (reference name member : String) : Prop where
  no_colon : ':' ∉ name.toList
  joined : reference = name ++ ":" ++ member

theorem names_iff {reference name member : String} :
    Names reference name member ↔ TextSplit.cut? ':' reference = some (name, member) := by
  rw [TextSplit.cut?_eq_some_iff]
  exact ⟨fun h => ⟨h.no_colon, h.joined⟩, fun h => ⟨h.1, h.2⟩⟩

/-- What breaks the lookup of a reference, and with which fault. -/
inductive Breaks (held : Holdings) (reference : String) : ReferenceFault → Prop
  | empty {member : String} (names : Names reference "" member) : Breaks held reference .emptyModule
  | relative {name member : String} (names : Names reference ("." ++ name) member) :
    Breaks held reference (.relativeModule ("." ++ name))
  | barren {name member : String} {m : Module} {b : Barren} (names : Names reference name member)
    (found : held.module? name = some m) (barren : held.member? m member = some (.barren b)) :
    Breaks held reference (.barren b)

theorem startsWith_dot_iff {name : String} :
    name.startsWith "." = true ↔ ∃ rest, name = "." ++ rest := by
  rw [String.startsWith_string_iff]
  constructor
  · rintro ⟨rest, hrest⟩
    exact ⟨String.ofList rest, by rw [← String.toList_inj]; simp [← hrest]⟩
  · rintro ⟨rest, rfl⟩
    simp

/-- No bundled name has a colon. -/
theorem lookup_bundled_of_colon {reference : String} (h : ':' ∈ reference.toList) :
    bundled.lookup reference = none := by
  have hbare : ∀ entry ∈ bundled, ':' ∉ entry.1.toList := by decide +kernel
  rw [List.lookup_eq_none_iff]
  intro entry hentry
  simp only [bne_iff_ne, ne_eq]
  rintro rfl
  exact hbare entry hentry h

section
open Holdings
variable {held : Holdings} {reference name member : String} {fault : ReferenceFault}

theorem resolve_of_names (held : Holdings) (h : Names reference name member) :
    held.resolve reference = held.lookUp reference name member := by
  have hcolon : ':' ∈ reference.toList := by simp [h.joined]
  rw [Holdings.resolve, lookup_bundled_of_colon hcolon, names_iff.mp h]

theorem module?_relative (held : Holdings) (name : String) : held.module? ("." ++ name) = none := by
  rw [Option.eq_none_iff_forall_ne_some]
  intro m hm
  obtain ⟨hmem, hname⟩ := module?_eq_some hm
  exact (held.absolute m hmem).1 (startsWith_dot_iff.mpr ⟨name, hname⟩)

theorem Breaks.resolve_eq (h : Breaks held reference fault) :
    held.resolve reference = .error fault ∧ fault.isRejection = false := by
  cases h with
  | empty names => exact ⟨by rw [resolve_of_names held names]; rfl, rfl⟩
  | relative names =>
    obtain ⟨missing, parent, hfault⟩ :=
      lookUp_of_no_module reference _ (module?_relative held _)
    rw [resolve_of_names held names, hfault, if_pos (startsWith_dot_iff.mpr ⟨_, rfl⟩)]
    exact ⟨rfl, rfl⟩
  | barren names found barren =>
    rw [resolve_of_names held names, lookUp_of_module? found, barren]
    exact ⟨rfl, rfl⟩

theorem breaks_of_lookUp (names : Names reference name member)
    (h : held.lookUp reference name member = .error fault) (hbreak : fault.isRejection = false) :
    Breaks held reference fault := by
  cases hm : held.module? name with
  | some m =>
    rw [lookUp_of_module? hm] at h
    split at h
    · cases h
    · next b hb =>
      cases h
      exact .barren names hm hb
    · cases h
      cases hbreak
  | none =>
    obtain ⟨missing, parent, hfault⟩ := lookUp_of_no_module reference member hm
    rw [hfault] at h
    split at h
    · next hdot =>
      obtain ⟨rest, rfl⟩ := startsWith_dot_iff.mp hdot
      cases h
      exact .relative names
    · split at h
      · next hempty =>
        obtain rfl := String.isEmpty_iff.mp hempty
        cases h
        exact .empty names
      · cases h
        cases hbreak

theorem breaks_iff : Breaks held reference fault ↔
    held.resolve reference = .error fault ∧ fault.isRejection = false := by
  refine ⟨Breaks.resolve_eq, fun ⟨h, hbreak⟩ => ?_⟩
  unfold Holdings.resolve at h
  split at h
  · cases h
  · cases h
    cases hbreak
  · next hcut => exact breaks_of_lookUp (names_iff.mpr hcut) h hbreak

end

end Catalogue

/-- What is reported as the user's choice says so. -/
theorem ReferenceFault.message_of_isRejection {fault : ReferenceFault}
    (h : fault.isRejection = true) :
    ∃ text, fault.message = rejecting text := by
  cases fault with
  | unknownCircuit | noModule | noMember => exact ⟨_, rfl⟩
  | emptyModule | relativeModule | barren => cases h

def Request.command : Request → Command
  | .circuits => .circuits
  | .export _ => .export
  | .summary _ => .summary

def Request.reference? : Request → Option String
  | .circuits => none
  | .export r => some r.reference
  | .summary reference => some reference

namespace CommandLine

theorem exportOf_of_error {library : Library} {reference : String} {fault : ReferenceFault}
    (h : library.find reference = .error fault) :
    exportOf library reference = .error (.reference fault) := by
  rw [exportOf, h]

theorem logOf_of_error {library : Library} {reference : String} {fault : ReferenceFault}
    (h : library.find reference = .error fault) (verbose : Bool) :
    logOf library verbose reference = [] := by
  rw [logOf, progress, h]
  cases verbose <;> rfl

/-- What becomes of a call whose reference names nothing. -/
def unresolved (command : Command) (fault : ReferenceFault) : Completion :=
  if fault.isRejection then ⟨2, "", lines (usageLines (some command) (.reference fault)), none⟩
  else ⟨1, "", "", some (.reference fault)⟩

theorem runWith_of_error {library : Library} {tree : FileTree} {arguments : List String}
    {invocation : Invocation} {reference : String} {fault : ReferenceFault}
    (hread : Invocation.read tree.isDirectory arguments = .ok invocation)
    (hreference : invocation.request.reference? = some reference)
    (h : library.find reference = .error fault) :
    runWith library tree arguments = (unresolved invocation.request.command fault, tree) := by
  have hrefused (command : Command) :
      settle tree (refused command [] (.reference fault)) = (unresolved command fault, tree) := by
    rw [refused, unresolved]
    split <;> rfl
  rw [runWith, respondTo, hread]
  obtain ⟨verbose, request⟩ := invocation
  cases request with
  | circuits => cases hreference
  | «export» r =>
    cases hreference
    simp only [respond, respondExport, exportOf_of_error h, logOf_of_error h]
    exact hrefused .export
  | summary reference =>
    cases hreference
    simp only [respond, respondSummary, exportOf_of_error h, logOf_of_error h]
    exact hrefused .summary

end CommandLine

section
open Catalogue CommandLine

/-- A reference that names nothing is reported as a bad choice unless it breaks the lookup. -/
theorem reference_reported_iff (held : Holdings) (reference : String) :
    (((∃ r, held.resolve reference = .ok r) ∨
        ∃ fault text, held.resolve reference = .error fault ∧ fault.isRejection = true ∧
          fault.message = ReferenceFault.rejecting text) ↔
      ¬ ∃ fault, Breaks held reference fault) ∧
    (∀ fault, Breaks held reference fault ↔
      held.resolve reference = .error fault ∧ fault.isRejection = false) ∧
    ∀ library : Library, library.find reference = (held.resolve reference).map Resource.candidate →
      ∀ tree arguments invocation, Invocation.read tree.isDirectory arguments = .ok invocation →
        invocation.request.reference? = some reference →
        ∀ fault, held.resolve reference = .error fault →
          runWith library tree arguments = (unresolved invocation.request.command fault, tree) := by
  refine ⟨?_, fun fault => breaks_iff, ?_⟩
  · simp only [breaks_iff]
    cases h : held.resolve reference with
    | ok r => simp
    | error fault =>
      cases hrejection : fault.isRejection with
      | false => simp [hrejection]
      | true => simp [hrejection, ReferenceFault.message_of_isRejection hrejection]
  · intro library hfind tree arguments invocation hread hreference fault h
    refine runWith_of_error hread hreference ?_
    simp [hfind, h, Except.map]

theorem reference_reported_of_class :
    let reference := "rawr1cs.core.variables:Variable"
    let fault := ReferenceFault.barren (.needsArguments "Variable" ["kind", "index"])
    let line := ["summary", "--circuit", reference]
    Invocation.read FileTree.empty.isDirectory line = .ok ⟨false, .summary reference⟩ ∧
      Breaks holdings reference fault ∧
      run .empty line = (⟨1, "", "", some (.reference fault)⟩, .empty) := by
  intro reference fault line
  have hread : Invocation.read FileTree.empty.isDirectory line = .ok ⟨false, .summary reference⟩ :=
    rfl
  have hmember : (holdings.module? "rawr1cs.core.variables").bind (holdings.member? · "Variable") =
      some (.barren (.needsArguments "Variable" ["kind", "index"])) := by
    decide +kernel
  obtain ⟨m, hm, hbarren⟩ := Option.bind_eq_some_iff.mp hmember
  have hbreaks : Breaks holdings reference fault := .barren ⟨by decide, rfl⟩ hm hbarren
  obtain ⟨-, hiff, hrun⟩ := reference_reported_iff holdings reference
  have hresolve := ((hiff fault).mp hbreaks).1
  exact ⟨hread, hbreaks, hrun library rfl .empty line _ hread rfl fault hresolve⟩

/-- With nothing before the colon a reference names nothing, and yet is not reported so. -/
theorem empty_module_name_unreported :
    ¬ ((∃ r, resolve ":x" = .ok r) ∨
      ∃ fault, resolve ":x" = .error fault ∧ fault.isRejection = true) ∧
    ∀ command ∈ [Command.export, Command.summary],
      run .empty [command.name, "--circuit", ":x"] =
        (⟨1, "", "", some (.reference .emptyModule)⟩, .empty) := by
  have hresolve : resolve ":x" = .error .emptyModule := rfl
  refine ⟨by simp [hresolve, ReferenceFault.isRejection], ?_⟩
  simp only [List.mem_cons, List.not_mem_nil, or_false]
  rintro command (rfl | rfl) <;> rfl

end

end RankOne
