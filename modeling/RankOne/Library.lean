import RankOne.Catalogue

/-! A library is where references are looked up. Of what it finds only two things matter to an
export: what it does to a recorder, and how many recorders it makes of its own. -/
namespace RankOne

/-- Something to be exported. -/
structure Candidate where
  record : Recording Unit
  /-- How many recorders there are besides the one that an export makes. -/
  extraRecorders : Nat

namespace Candidate

def export? (c : Candidate) : Except Fault Export := (exportCircuit c.record).result

/-- The wires of an export can be listed. -/
def Listable (c : Candidate) : Prop := ∀ ex, c.export? = .ok ex → ex.numVars < wordLimit

instance : DecidablePred Listable := fun c =>
  match h : c.export? with
  | .ok ex => decidable_of_iff (ex.numVars < wordLimit) (by simp [Listable, h])
  | .error _ => .isTrue (by simp [Listable, h])

theorem listable_of_error {c : Candidate} {fault : Fault} (h : c.export? = .error fault) :
    c.Listable := by
  simp [Listable, h]

end Candidate

structure Library where
  find : String → Except ReferenceFault Candidate
  /-- The columns of a recorder stand in lists, and no list has `wordLimit` items or more. -/
  listable {reference : String} {c : Candidate} (found : find reference = .ok c) : c.Listable

def Resource.candidate (r : Resource) : Candidate := ⟨r.submission.record, r.extraRecorders⟩

namespace Catalogue

def circuits : List Circuit := bundled.map Prod.snd

def Member.circuit? : Member → Option Circuit
  | .resource (.circuit c) => some c
  | _ => none

theorem listable_of_mem_circuits :
    ∀ c ∈ circuits, (Resource.circuit c).candidate.Listable := by
  decide +kernel

theorem circuit?_mem_circuits : ∀ m ∈ modules, ∀ entry ∈ m.members ++ m.inherent,
    ∀ c ∈ entry.2.circuit?, c ∈ circuits := by
  decide +kernel

theorem mem_circuits_of_member? {m : Module} (hm : m ∈ modules) {member : String} {c : Circuit}
    (h : holdings.member? m member = some (.resource (.circuit c))) : c ∈ circuits := by
  rw [Holdings.member?] at h
  split at h
  · next found hfound =>
    obtain ⟨before, behind, hentries, -⟩ := List.lookup_eq_some_iff.mp hfound
    refine circuit?_mem_circuits m hm (member, found) ?_ c ?_
    · simp [hentries]
    · rw [Option.some.inj h]
      rfl
  · obtain ⟨inner, -, hinner⟩ := Option.map_eq_some_iff.mp h
    cases hinner

theorem mem_circuits_of_resolve {reference : String} {c : Circuit}
    (h : resolve reference = .ok (.circuit c)) : c ∈ circuits := by
  unfold resolve Holdings.resolve at h
  split at h
  · next found _ hfound =>
    obtain ⟨before, behind, hentries, -⟩ := List.lookup_eq_some_iff.mp hfound
    cases h
    simp [circuits, hentries]
  · cases h
  · obtain ⟨m, hm, hmember⟩ := Holdings.lookUp_eq_ok_iff.mp h
    exact mem_circuits_of_member? (Holdings.module?_eq_some hm).1 hmember

/-- Whatever is no circuit leaves a recorder as it is. -/
theorem Resource.listable {r : Resource} (h : ∀ c, r = .circuit c → c ∈ circuits) :
    r.candidate.Listable := by
  cases r with
  | circuit c => exact listable_of_mem_circuits c (h c rfl)
  | value | recorder | exporter => exact Candidate.listable_of_error rfl
  | routine typeName text fault? =>
    cases fault? with
    | none =>
      show Candidate.Listable ⟨(Submission.routine none).record, 0⟩
      decide
    | some fault => exact Candidate.listable_of_error rfl

def library : Library where
  find reference := (resolve reference).map Resource.candidate
  listable {reference c} found := by
    cases h : resolve reference with
    | error fault => simp [h, Except.map] at found
    | ok r =>
      obtain rfl : r.candidate = c := by simpa [h, Except.map] using found
      exact Resource.listable fun c hc => mem_circuits_of_resolve (hc ▸ h)

end Catalogue

end RankOne
