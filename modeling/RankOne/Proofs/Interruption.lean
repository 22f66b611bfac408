import RankOne.Proofs.Transpose

/-! Enforcement of a row with a variable that the recorder has no column for fails only after the
row was appended. Nothing makes up for it: from then on the recorder holds more rows than it
counts. -/
namespace RankOne

namespace Ledgers

/-- Posting that meets a missing column stops at the first one. -/
theorem post_of_missing (number : Nat) {entries : List (Matrix × Term)} {l : Ledgers}
    (h : ∃ e ∈ entries, l.place? e.2.var e.1 = none) :
    ∃ entry rest, entries = l.posted entries ++ entry :: rest ∧
      l.place? entry.2.var entry.1 = none ∧ ∃ fault, (post number entries l).2 = some fault := by
  have hfault : (post number entries l).2 ≠ none := by
    intro hn
    obtain ⟨e, he, hnone⟩ := h
    have hsome := (post_eq_none_iff number entries l).mp hn e he
    simp [hnone] at hsome
  have hrest : entries.dropWhile (fun e => (l.place? e.2.var e.1).isSome) ≠ [] := by
    rw [Ne, List.dropWhile_eq_nil_iff]
    intro hall
    exact hfault ((post_eq_none_iff number entries l).mpr hall)
  obtain ⟨entry, rest, hdrop⟩ := List.exists_cons_of_ne_nil hrest
  refine ⟨entry, rest, ?_, ?_, Option.ne_none_iff_exists'.mp hfault⟩
  · rw [posted, ← hdrop, List.takeWhile_append_dropWhile]
  · have hhead := List.head_dropWhile_not (fun e : Matrix × Term =>
      (l.place? e.2.var e.1).isSome) hrest
    simpa [hdrop] using hhead

/-- Posting leaves the ledgers as they were exactly when the first term has no column. -/
theorem post_eq_self_iff (number : Nat) (entries : List (Matrix × Term)) (l : Ledgers) :
    (post number entries l).1 = l ↔ l.posted entries = [] := by
  constructor
  · intro h
    by_contra hne
    obtain ⟨e, rest, hposted⟩ := List.exists_cons_of_ne_nil hne
    have hmem : e ∈ l.posted entries := by simp [hposted]
    obtain ⟨k, hk⟩ := Option.isSome_iff_exists.mp (isSome_of_mem_posted hmem)
    have hslot := slot_post number entries l e.2.var.side e.1 k
    rw [h, List.self_eq_append_right] at hslot
    simp [share, hposted, hk] at hslot
  · intro h
    cases entries with
    | nil => rfl
    | cons e entries =>
      obtain ⟨m, t⟩ := e
      simp only [post]
      split
      · next k hk =>
        rw [find_eq_ok_iff] at hk
        simp [posted, hk] at h
      · rfl

end Ledgers

namespace Recorder

/-- Some sequence of operations leads to the recorder from a new one. -/
def Reachable (r : Recorder) : Prop := ∃ acts, Chronicle .empty acts r

theorem Reachable.aligned {r : Recorder} (h : r.Reachable) : r.Aligned := by
  obtain ⟨acts, hacts⟩ := h
  rw [← hacts.replay_eq]
  exact aligned_empty.replay acts

theorem Reachable.append {r r' : Recorder} {acts : List Act} (h : r.Reachable)
    (hacts : Chronicle r acts r') : r'.Reachable := by
  obtain ⟨earlier, hearlier⟩ := h
  exact ⟨earlier ++ acts, hearlier.append hacts⟩

theorem Reachable.numConstraints_le {r : Recorder} (h : r.Reachable) :
    r.numConstraints ≤ r.rows.length := by
  obtain ⟨acts, hacts⟩ := h
  have hle := rows_sub_numConstraints_le hacts.admits
  rw [hacts.replay_eq] at hle
  simpa [empty] using hle

theorem Aligned.write_of_missing {r : Recorder} (h : r.Aligned) (number : Nat) {row : Row}
    (missing : ∃ e ∈ row.entries, ¬ r.Has e.2.var) :
    ∃ entry rest fault, row.entries = r.ledgers.posted row.entries ++ entry :: rest ∧
      (∀ e ∈ r.ledgers.posted row.entries, r.Has e.2.var) ∧ ¬ r.Has entry.2.var ∧
      (r.write number row).2 = some fault := by
  have hhas := fun e : Matrix × Term => h.place?_isSome_iff e.2.var e.1
  have hmissing : ∃ e ∈ row.entries, r.ledgers.place? e.2.var e.1 = none := by
    obtain ⟨e, he, hnot⟩ := missing
    refine ⟨e, he, ?_⟩
    rwa [← hhas, Option.not_isSome_iff_eq_none] at hnot
  obtain ⟨entry, rest, hsplit, hentry, fault, hfault⟩ := Ledgers.post_of_missing number hmissing
  refine ⟨entry, rest, fault, hsplit, fun e he => ?_, ?_, hfault⟩
  · exact (hhas e).mp (Ledgers.isSome_of_mem_posted he)
  · rw [← hhas, hentry]
    exact Bool.false_ne_true

end Recorder

namespace Chronicle

theorem gap_remains {r r' : Recorder} {acts : List Act} (h : Chronicle r acts r')
    (hgap : r.numConstraints < r.rows.length) : r'.numConstraints < r'.rows.length := by
  have hle := Recorder.rows_sub_numConstraints_le h.admits
  rw [h.replay_eq] at hle
  omega

/-- A recorder with a row that it does not count numbers every later row below its position. -/
theorem number_lt {r r' : Recorder} {acts : List Act} (h : Chronicle r acts r')
    (hgap : r.numConstraints < r.rows.length) {w : Writing} (hw : w ∈ Act.writings acts) :
    w.number < w.before.rows.length := by
  obtain ⟨earlier, inner, later, hacts, hbegun, hinner, -⟩ := h.exists_building hw
  have hle := Recorder.rows_sub_numConstraints_le (h.admits.of_eq_append hacts)
  have hrows := congrArg List.length (w.begun.rows_replay inner)
  rw [← hbegun] at hle
  rw [hinner.replay_eq, List.length_append] at hrows
  show w.begun.numConstraints < w.before.rows.length
  omega

end Chronicle

/-- A row with a term whose variable is missing stays in the row list, with the postings before
the missing one, and is never counted. -/
theorem enforce_of_missing_variable {r : Recorder} (reachable : r.Reachable) (a b c : List Edit)
    {row : Row} (built : ((Edit.buildRow a b c).run r).result = .ok row)
    (missing : ∃ e ∈ row.entries, ¬ ((Edit.buildRow a b c).run r).recorder.Has e.2.var) :
    let mid := ((Edit.buildRow a b c).run r).recorder
    let o := (Edit.enforceRow a b c).run r
    let posted := mid.ledgers.posted row.entries
    (∃ entry rest fault, row.entries = posted ++ entry :: rest ∧
      (∀ e ∈ posted, mid.Has e.2.var) ∧ ¬ mid.Has entry.2.var ∧ o.result = .error fault) ∧
    o.recorder.rows = mid.rows ++ [row] ∧
    o.recorder.numConstraints = mid.numConstraints ∧
    (∀ s, o.recorder.count s = mid.count s) ∧
    (∀ s m k, o.recorder.ledgers.slot s m k =
      mid.ledgers.slot s m k ++ mid.ledgers.share r.numConstraints s m k posted) ∧
    (o.recorder.ledgers = mid.ledgers ↔ posted = []) ∧
    ∀ acts r', Chronicle o.recorder acts r' →
      r'.numConstraints < r'.rows.length ∧
        ∀ w ∈ Act.writings acts, w.number < w.before.rows.length := by
  intro mid o posted
  have hmid : mid.Reachable := reachable.append (Edit.buildRow_faithful a b c r)
  obtain ⟨entry, rest, fault, hsplit, hposted, hentry, hwrite⟩ :=
    hmid.aligned.write_of_missing r.numConstraints missing
  have hrun := Recording.run_enforce_of_ok built
  have hrecorder : o.recorder = (mid.write r.numConstraints row).1 := congrArg Outcome.recorder hrun
  have hresult : o.result = .error fault := by
    refine (congrArg Outcome.result hrun).trans ?_
    show Recording.ended (mid.write r.numConstraints row).2 = _
    rw [hwrite]
    rfl
  have hcount : o.recorder.numConstraints = mid.numConstraints := by
    rw [hrecorder, Recorder.numConstraints_write, hwrite]
    rfl
  -- the row and the count part here, and no continuation brings them together again
  have hgap : o.recorder.numConstraints < o.recorder.rows.length := by
    rw [hcount, hrecorder, Recorder.rows_write, List.length_append, List.length_singleton]
    exact Nat.lt_succ_of_le hmid.numConstraints_le
  refine ⟨⟨entry, rest, fault, hsplit, hposted, hentry, hresult⟩, ?_, hcount, fun s => ?_,
    fun s m k => ?_, ?_, fun acts r' h => ⟨h.gap_remains hgap, fun w hw => h.number_lt hgap hw⟩⟩
  · rw [hrecorder, Recorder.rows_write]
  · rw [hrecorder, Recorder.count_write]
  · rw [hrecorder, Recorder.ledgers_write, Ledgers.slot_post]
  · rw [hrecorder, Recorder.ledgers_write, Ledgers.post_eq_self_iff]

def Edit.halfKnown : List Edit :=
  [.combine .plus (.variable ⟨.aux, 0⟩), .combine .plus (.variable ⟨.aux, 1⟩)]

theorem enforce_of_half_known_row :
    let r := Recorder.empty.allocate .aux
    let mid := ((Edit.buildRow Edit.halfKnown [] []).run r).recorder
    let o := (Edit.enforceRow Edit.halfKnown [] []).run r
    let row : Row := ⟨⟨[⟨1, ⟨.aux, 0⟩⟩, ⟨1, ⟨.aux, 1⟩⟩]⟩, .zero, .zero⟩
    r.Reachable ∧ ((Edit.buildRow Edit.halfKnown [] []).run r).result = .ok row ∧
      (∃ e ∈ row.entries, ¬ mid.Has e.2.var) ∧ o.recorder.rows = mid.rows ++ [row] ∧
      o.recorder.numConstraints = mid.numConstraints ∧
      o.recorder.ledgers.slot .aux .a 0 = [⟨1, 0⟩] := by
  intro r mid o row
  have reachable : r.Reachable := ⟨_, .allocated .aux (.nil _)⟩
  have built : ((Edit.buildRow Edit.halfKnown [] []).run r).result = .ok row := rfl
  have missing : ∃ e ∈ row.entries, ¬ mid.Has e.2.var := by decide
  obtain ⟨-, hrows, hcount, -, hslot, -⟩ :=
    enforce_of_missing_variable reachable Edit.halfKnown [] [] built missing
  exact ⟨reachable, built, missing, hrows, hcount, hslot .aux .a 0⟩

/-- The recorder is not as the builders left it: it keeps the row, also when the fault is
swallowed, and does not count it. -/
theorem row_kept_after_missing_variable :
    let edits : List Edit := [.combine .plus (.variable ⟨.aux, 0⟩)]
    let mid := ((Edit.buildRow edits [] []).run .empty).recorder
    let o := (Edit.enforceRow edits [] []).run .empty
    let swallowed := (Session.bare.run [.attempt [.enforce edits [] []]]).recorder
    Recorder.empty.Reachable ∧
      ((Edit.buildRow edits [] []).run .empty).result = .ok ⟨⟨[⟨1, ⟨.aux, 0⟩⟩]⟩, .zero, .zero⟩ ∧
      ¬ mid.Has ⟨.aux, 0⟩ ∧ o.result = .error .outOfRange ∧ o.recorder.rows ≠ mid.rows ∧
      swallowed = o.recorder ∧ swallowed.numConstraints ≠ swallowed.rows.length := by
  intro edits mid o swallowed
  exact ⟨⟨[], .nil _⟩, rfl, by decide, rfl, by decide, rfl, by decide⟩

end RankOne
