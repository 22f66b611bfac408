import RankOne.CommandRun
import RankOne.Proofs.ExportRequests
import RankOne.Proofs.FileWriting
import RankOne.Proofs.Refusals

/-! A call for an export writes all or nothing. Whatever ends it early ends it before a word is
printed and before a file or directory is made, and the text is the same whether it is printed
or written. -/
namespace RankOne

theorem Export.exists_document {ex : Export} {prime : Int} (hprime : 2 ≤ prime)
    (hvars : ex.numVars < wordLimit) : ∃ d, ex.document prime = .ok d := by
  rw [Export.document, if_neg (by omega), if_neg (by omega)]
  exact ⟨_, rfl⟩

theorem Export.prime_lt_of_document {ex : Export} {prime p : Int}
    (h : ex.document prime = .error (.primeTooSmall p)) : prime < 2 := by
  rw [Export.document] at h
  split at h
  · assumption
  · split at h <;> cases h

namespace CommandLine

theorem exists_rendering {ex : Export} {prime : Int} (format : Format) (hprime : 2 ≤ prime)
    (hvars : ex.numVars < wordLimit) : ∃ text, rendering format prime ex = .ok text := by
  cases format with
  | dump => exact ⟨_, rfl⟩
  | json =>
    obtain ⟨d, hd⟩ := Export.exists_document hprime hvars
    exact ⟨_, by rw [rendering, hd]; rfl⟩

/-- The call ends with this exit code, has printed this text and leaves all as it was. -/
structure Prints (outcome : Completion × FileTree) (tree : FileTree) (exit : Nat) (text : String) :
    Prop where
  exit : outcome.1.exit = exit
  stdout : outcome.1.stdout = text
  escaped : outcome.1.escaped = none
  tree : outcome.2 = tree

/-- The call ends well, has printed nothing and leaves this text in a file. All that was there
before is kept, and all that is new lies on the way to the file. -/
structure Writes (outcome : Completion × FileTree) (tree : FileTree) (p : Path) (text : String) :
    Prop where
  exit : outcome.1.exit = 0
  stdout : outcome.1.stdout = ""
  escaped : outcome.1.escaped = none
  file : outcome.2.read? p = some text
  directories : ∀ q ∈ p.directories, outcome.2.node? q = some .directory
  kept : ∀ q, q ≠ p.target → q ∉ p.directories ∨ tree.node? q ≠ none →
    outcome.2.entries.lookup q = tree.entries.lookup q

section
variable {library : Library} {tree : FileTree} {arguments : List String} {r : ExportRequest}
  {candidate : Candidate}

theorem prints_of_lt (h : CallsExport arguments r) (hout : Presentable tree.isDirectory r.out)
    (hprime : r.prime < 2) : Prints (runWith library tree arguments) tree 2 "" := by
  rw [runWith, respondTo, h.read_of_lt hout hprime]
  exact ⟨rfl, rfl, rfl, rfl⟩

theorem runWith_of_le (h : CallsExport arguments r) (hout : Presentable tree.isDirectory r.out)
    (hprime : 2 ≤ r.prime) (library : Library) : ∃ logged,
      runWith library tree arguments = settle tree (respondExport library logged r) := by
  obtain ⟨verbose, hread⟩ := h.read_of_le hout hprime
  exact ⟨_, by rw [runWith, respondTo, hread]; rfl⟩

theorem exportOf_of_found {reference : String} (found : library.find reference = .ok candidate) :
    exportOf library reference = candidate.export?.mapError .circuit := by
  rw [exportOf, found]

theorem prints_of_synthesis (h : CallsExport arguments r)
    (hout : Presentable tree.isDirectory r.out) (hprime : 2 ≤ r.prime)
    (found : library.find r.reference = .ok candidate) {text : String}
    (hfault : candidate.export? = .error (.synthesis text)) :
    Prints (runWith library tree arguments) tree 1 "" := by
  obtain ⟨logged, hrun⟩ := runWith_of_le h hout hprime library
  have hexport : exportOf library r.reference = .error (.circuit (.synthesis text)) := by
    rw [exportOf_of_found found, hfault]
    rfl
  rw [hrun, respondExport, hexport]
  exact ⟨rfl, rfl, rfl, rfl⟩

theorem runWith_of_rendering (h : CallsExport arguments r)
    (hout : Presentable tree.isDirectory r.out) (hprime : 2 ≤ r.prime)
    (found : library.find r.reference = .ok candidate) {ex : Export}
    (hexport : candidate.export? = .ok ex) {text : String}
    (htext : rendering r.format r.prime ex = .ok text) : ∃ logged,
      runWith library tree arguments = settle tree (delivered logged r.out (text ++ "\n")) := by
  obtain ⟨logged, hrun⟩ := runWith_of_le h hout hprime library
  have hexport : exportOf library r.reference = .ok ex := by
    rw [exportOf_of_found found, hexport]
    rfl
  refine ⟨logged, ?_⟩
  rw [hrun, respondExport, hexport]
  simp only [htext]

theorem writes_of_admits {path : String} (h : tree.Admits (.ofText path)) (logged : List String)
    (text : String) :
    Writes (settle tree (delivered logged (some path) text)) tree (.ofText path) text := by
  obtain ⟨tree', hdeliver, hfile, hdirectories, hkept⟩ := FileTree.deliver_of_admits h text
  have hsettle : settle tree (delivered logged (some path) text) =
      ((printed logged "").toCompletion, tree') := by
    simp only [delivered, h.isEmpty_eq_false, Bool.false_eq_true, if_false, settle, hdeliver]
  rw [hsettle]
  exact ⟨rfl, rfl, rfl, hfile, hdirectories, hkept⟩

end

theorem refused_escaped_ne (command : Command) (logged : List String) (refusal : Refusal)
    (fault : RenderFault) : (refused command logged refusal).escaped ≠ some (.render fault) := by
  cases refusal with
  | reference fault' =>
    rw [refused]
    split <;> simp [failed, escaping]
  | circuit fault' => cases fault' <;> simp [refused, failed, escaping]

theorem settle_escaped_ne {response : Response} {fault : RenderFault}
    (h : response.escaped ≠ some (.render fault)) (tree : FileTree) :
    (settle tree response).1.escaped ≠ some (.render fault) := by
  rw [settle]
  split
  · exact h
  · split
    · exact h
    · simp

theorem delivered_escaped (logged : List String) (out : Option String) (text : String) :
    (delivered logged out text).escaped = none := by
  unfold delivered
  split
  · rfl
  · split <;> rfl

theorem prime_lt_of_rendering {format : Format} {prime p : Int} {ex : Export}
    (h : rendering format prime ex = .error (.primeTooSmall p)) : prime < 2 := by
  cases format with
  | dump => cases h
  | json =>
    cases hdocument : ex.document prime with
    | ok d => simp [rendering, hdocument] at h
    | error fault =>
      obtain rfl : fault = .primeTooSmall p := by simpa [rendering, hdocument] using h
      exact Export.prime_lt_of_document hdocument

theorem summary_ne_primeTooSmall (ex : Export) (p : Int) :
    ex.summary ≠ .error (.primeTooSmall p) := by
  intro h
  obtain ⟨-, m, -, -, -, hm⟩ := Export.patterns_eq_error_iff.mp (Export.summary_eq_error_iff.mp h)
  cases Export.misfit_of_pattern_eq_error hm

/-- The prime of an export is judged on reading the line, so that no document is refused for it. -/
theorem escaped_ne_primeTooSmall (library : Library) (tree : FileTree) (arguments : List String)
    (p : Int) : (runWith library tree arguments).1.escaped ≠ some (.render (.primeTooSmall p)) := by
  refine settle_escaped_ne ?_ tree
  cases hread : Invocation.read tree.isDirectory arguments with
  | error stop =>
    rw [respondTo, hread]
    cases stop <;> simp [stopped, printed, failed, escaping]
  | ok invocation =>
    obtain ⟨verbose, request⟩ := invocation
    rw [respondTo, hread]
    cases request with
    | circuits => simp [respond, printed]
    | «export» r =>
      have hprime := Invocation.leastPrime_le_of_read hread
      simp only [respond, respondExport]
      split
      · apply refused_escaped_ne
      split
      · next fault hfault =>
        simp only [escaping, ne_eq, Option.some.injEq, Escape.render.injEq]
        rintro rfl
        exact Int.not_lt.mpr hprime (prime_lt_of_rendering hfault)
      · simp [delivered_escaped]
    | summary reference =>
      simp only [respond, respondSummary]
      split
      · apply refused_escaped_ne
      split
      · next fault hfault =>
        simp only [escaping, ne_eq, Option.some.injEq, Escape.render.injEq]
        rintro rfl
        exact summary_ne_primeTooSmall _ p hfault
      · simp [printed]

end CommandLine

section
open CommandLine

/-- A call for an export writes all or nothing, and the same text to a file as to the output. -/
theorem export_all_or_nothing {library : Library} {tree : FileTree} {reference path : String}
    {candidate : Candidate} {format : Format} {prime : Int} {printing writing : List String}
    (found : library.find reference = .ok candidate)
    (prints : CallsExport printing ⟨reference, format, prime, none⟩)
    (writes : CallsExport writing ⟨reference, format, prime, some path⟩)
    (nonzero : '\x00' ∉ path.toList) (admits : tree.Admits (.ofText path)) :
    let printed := runWith library tree printing
    let written := runWith library tree writing
    (prime < 2 → Prints printed tree 2 "" ∧ Prints written tree 2 "") ∧
    (2 ≤ prime → ∀ text, candidate.export? = .error (.synthesis text) →
      Prints printed tree 1 "" ∧ Prints written tree 1 "") ∧
    (2 ≤ prime → ∀ ex, candidate.export? = .ok ex → ∃ text, rendering format prime ex = .ok text ∧
      Prints printed tree 0 (text ++ "\n") ∧ Writes written tree (.ofText path) printed.1.stdout) ∧
    ∀ arguments p,
      (runWith library tree arguments).1.escaped ≠ some (.render (.primeTooSmall p)) := by
  intro printed written
  have hprints : Presentable tree.isDirectory none := nofun
  have hwrites : Presentable tree.isDirectory (some path) := by
    intro _ hpath
    cases hpath
    exact ⟨nonzero, FileTree.isDirectory_of_admits admits⟩
  refine ⟨fun hprime => ⟨prints_of_lt prints hprints hprime, prints_of_lt writes hwrites hprime⟩,
    fun hprime text hfault => ⟨prints_of_synthesis prints hprints hprime found hfault,
      prints_of_synthesis writes hwrites hprime found hfault⟩,
    fun hprime ex hexport => ?_, escaped_ne_primeTooSmall library tree⟩
  obtain ⟨text, htext⟩ := exists_rendering format hprime (library.listable found ex hexport)
  obtain ⟨logged, hprinted : printed = _⟩ :=
    runWith_of_rendering prints hprints hprime found hexport htext
  obtain ⟨logged', hwritten : written = _⟩ :=
    runWith_of_rendering writes hwrites hprime found hexport htext
  have hfull : Prints printed tree 0 (text ++ "\n") := hprinted ▸ ⟨rfl, rfl, rfl, rfl⟩
  refine ⟨text, htext, hfull, ?_⟩
  rw [hfull.stdout, hwritten]
  exact writes_of_admits admits logged' (text ++ "\n")

theorem export_all_or_nothing_of_multiply :
    let tree := FileTree.empty.put ⟨.working 0, ["kept"]⟩ (some "text")
    let path := "made/../out/multiply.json"
    let printed := run tree (exportLine "multiply" .json "7" none)
    let written := run tree (exportLine "multiply" .json "7" (some path))
    TextInteger.read? "7" = some 7 ∧ tree.Admits (.ofText path) ∧
      printed.1.exit = 0 ∧ printed.2 = tree ∧ written.1.exit = 0 ∧ written.1.stdout = "" ∧
      written.2.read? (.ofText path) = some printed.1.stdout ∧
      written.2.entries.lookup ⟨.working 0, ["kept"]⟩ = some (some "text") := by
  intro tree path printed written
  have hprime : TextInteger.read? "7" = some 7 := by decide
  have hadmits : tree.Admits (.ofText path) := by decide
  let candidate := (Resource.circuit (.multiply none none)).candidate
  have hfound : Catalogue.library.find "multiply" = .ok candidate := rfl
  obtain ⟨ex, hexport⟩ : ∃ ex, candidate.export? = .ok ex := ⟨_, rfl⟩
  obtain ⟨-, -, hall, -⟩ := export_all_or_nothing hfound
    (callsExport_exportLine "multiply" .json none hprime)
    (callsExport_exportLine "multiply" .json (some path) hprime) (by decide) hadmits
  obtain ⟨text, -, hprints, hwrites⟩ := hall (by decide) ex hexport
  have hkept := hwrites.kept ⟨.working 0, ["kept"]⟩ (by decide) (Or.inl (by decide))
  exact ⟨hprime, hadmits, hprints.exit, hprints.tree, hwrites.exit, hwrites.stdout, hwrites.file,
    hkept.trans rfl⟩

end

end RankOne
