import RankOne.CommandRequest

namespace RankOne

section
variable {α β ε ε' : Type} {x : Except ε α}

theorem mapError_eq_ok_iff {f : ε → ε'} {a : α} : x.mapError f = .ok a ↔ x = .ok a := by
  cases x with
  | error => exact ⟨nofun, nofun⟩
  | ok =>
    constructor <;>
    · intro h
      cases h
      rfl

theorem map_eq_ok_iff {f : α → β} {b : β} : x.map f = .ok b ↔ ∃ a, x = .ok a ∧ f a = b := by
  cases x <;> simp [Except.map]

theorem bind_eq_ok_iff {f : α → Except ε β} {b : β} :
    x >>= f = .ok b ↔ ∃ a, x = .ok a ∧ f a = .ok b := by
  cases x <;> simp [bind, Except.bind]

end

/-- The options of an export as they stand on a line, the last of several counting. The prime may be
any integer, since it is judged later. -/
structure Scan.Asks (s : Scan) (r : ExportRequest) : Prop where
  no_help : s.has .help = false
  no_arguments : s.arguments = []
  reference : s.last? .circuit = some r.reference
  format : s.last? .format = none ∧ r.format = .dump ∨ s.last? .format = some r.format.name
  prime : s.last? .prime = none ∧ r.prime = bn254Prime ∨
    ∃ text, s.last? .prime = some text ∧ TextInteger.read? text = some r.prime
  out : s.last? .out = r.out

/-- The line calls for an export with these options. -/
def CallsExport (arguments : List String) (r : ExportRequest) : Prop :=
  ∃ outer rest inner, OptionTable.program.scan arguments = .ok outer ∧ outer.has .help = false ∧
    outer.arguments = Command.export.name :: rest ∧
    Command.export.table.scan rest = .ok inner ∧ inner.Asks r

/-- No fault is found in the path to write to. -/
def Presentable (isDirectory : String → Bool) (out : Option String) : Prop :=
  ∀ path ∈ out, '\x00' ∉ path.toList ∧ isDirectory path = false

/-- How a call is stopped whose prime is too small. -/
def ExportRequest.primeStop (r : ExportRequest) : Stop :=
  .usage (some .export) (.outOfRange Flag.prime.longName r.prime Request.leastPrime)

theorem Format.ofName?_name (f : Format) : Format.ofName? f.name = some f := by
  cases f <;> rfl

namespace Scan.Asks
open Request
variable {s : Scan} {r : ExportRequest} {isDirectory : String → Bool}

theorem readReference_eq (h : s.Asks r) : readReference s = .ok r.reference := by
  rw [readReference, h.reference]

theorem readFormat_eq (h : s.Asks r) : readFormat s = .ok r.format := by
  rcases h.format with ⟨hnone, hdump⟩ | hname
  · rw [readFormat, hnone, hdump]
  · simp only [readFormat, hname, Format.ofName?_name]

theorem readPrime_eq (h : s.Asks r) :
    readPrime s =
      if r.prime < leastPrime then .error (.outOfRange Flag.prime.longName r.prime leastPrime)
      else .ok r.prime := by
  rcases h.prime with ⟨hnone, hdefault⟩ | ⟨text, htext, hread⟩
  · rw [readPrime, hnone, hdefault]
    rfl
  · simp only [readPrime, htext, hread]

/-- Nothing but the prime can be found fault with. -/
theorem stopAt_eq_none (h : s.Asks r) (hout : Presentable isDirectory r.out) {f : Flag}
    (hprime : f = .prime → leastPrime ≤ r.prime) : stopAt .export isDirectory s f = none := by
  cases f with
  | circuit => rw [stopAt, h.readReference_eq]; rfl
  | format => rw [stopAt, h.readFormat_eq]; rfl
  | prime => rw [stopAt, h.readPrime_eq, if_neg (Int.not_lt.mpr (hprime rfl))]; rfl
  | out =>
    rw [stopAt, h.out]
    cases hpath : r.out with
    | none => rfl
    | some path =>
      obtain ⟨hzero, hdirectory⟩ := hout path hpath
      simp [hzero, hdirectory]
  | verbose | help => rfl

theorem read_of_le {rest : List String} (h : s.Asks r) (hout : Presentable isDirectory r.out)
    (hscan : Command.export.table.scan rest = .ok s) (hprime : leastPrime ≤ r.prime) :
    Request.read isDirectory .export rest = .ok (.export r) := by
  have hstop : (s.order Command.export.table).findSome? (stopAt .export isDirectory s) = none :=
    List.findSome?_eq_none_iff.mpr fun f _ => h.stopAt_eq_none hout fun _ => hprime
  have hbuild : build s .export = .ok (.export r) := by
    simp only [build, h.readReference_eq, h.readFormat_eq, h.readPrime_eq,
      if_neg (Int.not_lt.mpr hprime), h.out]
    rfl
  have hend : (build s .export).mapError (Stop.usage (some .export)) = .ok (.export r) :=
    mapError_eq_ok_iff.mpr hbuild
  simp [Request.read, hscan, h.no_help, hstop, h.no_arguments, hend]

theorem read_of_lt {rest : List String} (h : s.Asks r) (hout : Presentable isDirectory r.out)
    (hscan : Command.export.table.scan rest = .ok s) (hprime : r.prime < leastPrime) :
    Request.read isDirectory .export rest = .error r.primeStop := by
  have hfault : stopAt .export isDirectory s .prime = some r.primeStop := by
    rw [stopAt, h.readPrime_eq, if_pos hprime]
    rfl
  have hmem : Flag.prime ∈ s.order Command.export.table := by
    simp [Scan.order, Command.table, List.mem_eraseDups]
  have hstop : (s.order Command.export.table).findSome? (stopAt .export isDirectory s) =
      some r.primeStop := by
    cases hfound : (s.order Command.export.table).findSome? (stopAt .export isDirectory s) with
    | none =>
      rw [List.findSome?_eq_none_iff.mp hfound _ hmem] at hfault
      cases hfault
    | some stop =>
      obtain ⟨f, -, hf⟩ := List.exists_of_findSome?_eq_some hfound
      by_cases hflag : f = .prime
      · rw [← hf, hflag, hfault]
      · rw [h.stopAt_eq_none hout fun heq => absurd heq hflag] at hf
        cases hf
  simp [Request.read, hscan, h.no_help, hstop]

end Scan.Asks

namespace CallsExport
variable {arguments : List String} {r : ExportRequest} {isDirectory : String → Bool}

theorem exists_read_eq (h : CallsExport arguments r) : ∃ verbose rest inner,
    Command.export.table.scan rest = .ok inner ∧ inner.Asks r ∧
    ∀ isDirectory, Invocation.read isDirectory arguments =
      (Request.read isDirectory .export rest).map (Invocation.mk verbose) := by
  obtain ⟨outer, rest, inner, houter, hhelp, harguments, hinner, hasks⟩ := h
  have hsome : arguments.isEmpty = false := by
    cases arguments with
    | nil =>
      cases houter
      cases harguments
    | cons => rfl
  have hcommand : Command.ofName? Command.export.name = some .export := rfl
  refine ⟨outer.has .verbose, rest, inner, hinner, hasks, fun isDirectory => ?_⟩
  simp [Invocation.read, hsome, houter, hhelp, harguments, hcommand]

theorem read_of_le (h : CallsExport arguments r) (hout : Presentable isDirectory r.out)
    (hprime : Request.leastPrime ≤ r.prime) :
    ∃ verbose, Invocation.read isDirectory arguments = .ok ⟨verbose, .export r⟩ := by
  obtain ⟨verbose, rest, inner, hinner, hasks, hread⟩ := h.exists_read_eq
  exact ⟨verbose, by rw [hread, hasks.read_of_le hout hinner hprime]; rfl⟩

theorem read_of_lt (h : CallsExport arguments r) (hout : Presentable isDirectory r.out)
    (hprime : r.prime < Request.leastPrime) :
    Invocation.read isDirectory arguments = .error r.primeStop := by
  obtain ⟨verbose, rest, inner, hinner, hasks, hread⟩ := h.exists_read_eq
  rw [hread, hasks.read_of_lt hout hinner hprime]
  rfl

end CallsExport

/-- A line that calls for an export with its options in one order. -/
def exportLine (reference : String) (format : Format) (prime : String) (out : Option String) :
    List String :=
  [Command.export.name, Flag.circuit.longName, reference, Flag.format.longName, format.name,
    Flag.prime.longName, prime] ++ out.toList.flatMap fun path => [Flag.out.longName, path]

theorem callsExport_exportLine (reference : String) (format : Format) (out : Option String)
    {text : String} {prime : Int} (h : TextInteger.read? text = some prime) :
    CallsExport (exportLine reference format text out) ⟨reference, format, prime, out⟩ := by
  have hasks : (Scan.mk ([⟨.circuit, reference⟩, ⟨.format, format.name⟩, ⟨.prime, text⟩] ++
      out.toList.map (Mention.mk .out)) []).Asks ⟨reference, format, prime, out⟩ := by
    cases out <;> exact ⟨rfl, rfl, rfl, Or.inr rfl, Or.inr ⟨text, rfl, h⟩, rfl⟩
  cases out with
  | none => exact ⟨_, _, _, rfl, rfl, rfl, rfl, hasks⟩
  | some path => exact ⟨_, _, _, rfl, rfl, rfl, rfl, hasks⟩

namespace Request
variable {isDirectory : String → Bool} {command : Command} {rest : List String} {s : Scan}
  {r : ExportRequest} {request : Request}

theorem leastPrime_le_of_readPrime {prime : Int} (h : readPrime s = .ok prime) :
    leastPrime ≤ prime := by
  unfold readPrime at h
  split at h
  · cases h
    decide
  · split at h
    · cases h
    · split at h
      · cases h
      · next hle =>
        cases h
        exact Int.not_lt.mp hle

theorem readPrime_of_build (h : build s command = .ok (.export r)) :
    readPrime s = .ok r.prime := by
  cases command with
  | circuits => cases h
  | summary =>
    obtain ⟨reference, -, h⟩ := bind_eq_ok_iff.mp h
    cases h
  | «export» =>
    obtain ⟨reference, -, h⟩ := bind_eq_ok_iff.mp h
    obtain ⟨format, -, h⟩ := bind_eq_ok_iff.mp h
    obtain ⟨prime, hprime, h⟩ := bind_eq_ok_iff.mp h
    cases h
    exact hprime

theorem exists_build_of_read (h : read isDirectory command rest = .ok request) :
    ∃ s, build s command = .ok request := by
  unfold read at h
  split at h
  · cases h
  split at h
  · cases h
  split at h
  · cases h
  split at h
  · exact ⟨_, mapError_eq_ok_iff.mp h⟩
  · cases h

end Request

namespace Invocation
variable {isDirectory : String → Bool} {arguments : List String} {invocation : Invocation}

theorem exists_request_of_read (h : read isDirectory arguments = .ok invocation) :
    ∃ command rest, Request.read isDirectory command rest = .ok invocation.request := by
  unfold read at h
  split at h
  · cases h
  split at h
  · cases h
  split at h
  · cases h
  split at h
  · cases h
  split at h
  · cases h
  · next command _ =>
    obtain ⟨request, hrequest, rfl⟩ := map_eq_ok_iff.mp h
    exact ⟨command, _, hrequest⟩

/-- The prime of an export that is carried out is not too small. -/
theorem leastPrime_le_of_read {verbose : Bool} {r : ExportRequest}
    (h : read isDirectory arguments = .ok ⟨verbose, .export r⟩) : Request.leastPrime ≤ r.prime := by
  obtain ⟨command, rest, hrequest⟩ := exists_request_of_read h
  obtain ⟨s, hbuild⟩ := Request.exists_build_of_read hrequest
  exact Request.leastPrime_le_of_readPrime (Request.readPrime_of_build hbuild)

end Invocation

end RankOne
