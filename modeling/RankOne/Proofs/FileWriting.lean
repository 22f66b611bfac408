import RankOne.Proofs.FileWalks

/-! A regular file can be written under a path exactly when the places on the way are directories or
free, and the last place is free or a file. All else in the tree is then as it was. -/
namespace RankOne

namespace FileTree
variable {t t' t'' : FileTree} {q free : Place}

/-- What was there stays. -/
def Keeps (t t' : FileTree) : Prop :=
  ∀ q, t.node? q ≠ none → t'.entries.lookup q = t.entries.lookup q

namespace Keeps

theorem refl : Keeps t t := fun _ _ => rfl

theorem trans (h : Keeps t t') (h' : Keeps t' t'') : Keeps t t'' := by
  intro q hq
  have hq' : t'.node? q ≠ none := by rwa [node?_congr (h q hq)]
  rw [h' q hq', h q hq]

theorem put (h : t.node? free = none) (content : Option String) :
    Keeps t (t.put free content) := by
  intro q hq
  have hne : q ≠ free := by
    rintro rfl
    exact hq h
  rw [lookup_put, if_neg hne]

end Keeps

/-- The second tree is the first with directories at all the places. -/
structure Furnished (t t' : FileTree) (places : List Place) : Prop where
  directory : ∀ q ∈ places, t'.node? q = some .directory
  keeps : Keeps t t'
  elsewhere : ∀ q ∉ places, t'.entries.lookup q = t.entries.lookup q

namespace Furnished
variable {places more : List Place}

theorem refl (h : ∀ q ∈ places, t.node? q = some .directory) : Furnished t t places :=
  ⟨h, .refl, fun _ _ => rfl⟩

theorem node?_eq (h : Furnished t t' places) (hq : q ∉ places) : t'.node? q = t.node? q :=
  node?_congr (h.elsewhere q hq)

theorem trans (h : Furnished t t' places) (h' : Furnished t' t'' (places ++ more)) :
    Furnished t t'' (places ++ more) where
  directory := h'.directory
  keeps := h.keeps.trans h'.keeps
  elsewhere q hq := by
    have hplaces : q ∉ places := fun hmem => hq (List.mem_append_left _ hmem)
    rw [h'.elsewhere q hq, h.elsewhere q hplaces]

theorem of_put (hmem : free ∈ places) (hfree : t.node? free = none)
    (h : ∀ q ∈ places, q = free ∨ t.node? q = some .directory) :
    Furnished t (t.put free none) places where
  directory q hq := by
    by_cases hqf : q = free
    · rw [hqf, node?_put]
    · rw [node?_put_of_ne hqf]
      exact (h q hq).resolve_left hqf
  keeps := .put hfree none
  elsewhere q hq := by
    have hqf : q ≠ free := fun heq => hq (heq ▸ hmem)
    rw [lookup_put, if_neg hqf]

end Furnished

theorem ensureDirectory_of_see {p : Path} :
    t.ensureDirectory p =
      match t.see p with
      | .directory => .ok t
      | .vacant free => .ok (t.put free none)
      | .missing => .error (.noEntry p.text)
      | .blocked => .error (.notDirectory p.text)
      | .tooLong => .error (.tooLong p.text)
      | .file _ | .device _ => .error (.occupied p.text) := by
  rw [ensureDirectory, makeDirectory]
  cases t.see p <;> rfl

end FileTree

namespace Path

theorem size_text (p : Path) : p.text.utf8ByteSize = max 1 p.joined.utf8ByteSize := by
  rw [text]
  split
  · next hempty =>
    rw [String.isEmpty_iff.mp hempty]
    rfl
  · next hne =>
    rw [String.isEmpty_iff, ← String.utf8ByteSize_eq_zero_iff] at hne
    omega

/-- The path of a directory on the way is no longer than the whole path. -/
theorem size_text_append_le (slashes : Nat) (parts rest : List String) :
    (Path.mk slashes parts).text.utf8ByteSize ≤
      (Path.mk slashes (parts ++ rest)).text.utf8ByteSize := by
  have hjoined : (String.intercalate "/" parts).utf8ByteSize ≤
      (String.intercalate "/" (parts ++ rest)).utf8ByteSize := by
    by_cases hparts : parts = []
    · simp [hparts]
    by_cases hrest : rest = []
    · simp [hrest]
    · rw [String.intercalate_append_of_ne_nil hparts hrest, String.utf8ByteSize_append,
        String.utf8ByteSize_append]
      omega
  simp only [size_text, joined, String.utf8ByteSize_append]
  omega

theorem target_eq {p : Path} {name : String} (hparts : p.parts = p.parts.dropLast ++ [name])
    (hup : name ≠ "..") :
    p.target = ((Place.start p.slashes).follow p.parts.dropLast).child name := by
  rw [target, hparts, Place.follow_append, List.dropLast_concat]
  simp [Place.follow, Place.enter, hup]

end Path

namespace FileTree
variable {t t' t'' : FileTree} {p : Path} {slashes : Nat} {parts : List String} {name : String}

/-- Making one directory. It fails only for want of a parent. -/
theorem ensureDirectory_of_passable (hsound : ∀ part ∈ parts, Path.Sound part)
    (hshort : (Path.mk slashes parts).text.utf8ByteSize ≤ Path.longest)
    (h : ∀ q ∈ (Place.start slashes).visited parts,
      t.node? q = some .directory ∨ t.node? q = none) :
    (∃ t', t.ensureDirectory ⟨slashes, parts⟩ = .ok t' ∧
      Furnished t t' ((Place.start slashes).visited parts)) ∨
    (t.walk (.start slashes) parts = .missing ∧
      ∃ path, t.ensureDirectory ⟨slashes, parts⟩ = .error (.noEntry path)) := by
  rw [ensureDirectory_of_see, see, if_neg (Nat.not_lt.mpr hshort)]
  rcases walk_of_passable hsound h with ⟨hwalk, hall⟩ | ⟨free, hmem, hwalk, hfree, hall⟩ | hwalk
  · rw [hwalk]
    exact Or.inl ⟨t, rfl, .refl hall⟩
  · rw [hwalk]
    exact Or.inl ⟨_, rfl, .of_put hmem hfree hall⟩
  · rw [hwalk]
    exact Or.inr ⟨rfl, _, rfl⟩

/-- Where only directories and free places are on the way, all directories are made. -/
theorem ensureParents_of_passable (hsound : ∀ part ∈ parts, Path.Sound part)
    (hshort : (Path.mk slashes parts).text.utf8ByteSize ≤ Path.longest)
    (h : ∀ q ∈ (Place.start slashes).visited parts,
      t.node? q = some .directory ∨ t.node? q = none) :
    ∃ t', t.ensureParents slashes parts.reverse = (t', none) ∧
      Furnished t t' ((Place.start slashes).visited parts) := by
  obtain ⟨above, rfl⟩ : ∃ above, parts = above.reverse := ⟨parts.reverse, by simp⟩
  rw [List.reverse_reverse]
  induction above with
  | nil => exact ⟨t, rfl, .refl (by simp [Place.visited])⟩
  | cons name above ih =>
    rw [List.reverse_cons] at hsound hshort h ⊢
    rcases ensureDirectory_of_passable hsound hshort h with ⟨t', hmade, ht'⟩ | ⟨-, path, hfault⟩
    · exact ⟨t', by rw [ensureParents, List.reverse_cons, hmade], ht'⟩
    rw [Place.visited_append] at h ⊢
    obtain ⟨t', hmade, ht'⟩ := ih
      (fun part hpart => hsound part (List.mem_append_left _ hpart))
      (Nat.le_trans (Path.size_text_append_le slashes _ _) hshort)
      (fun q hq => h q (List.mem_append_left _ hq))
    have hpassable (q : Place) (hq : q ∈ (Place.start slashes).visited (above.reverse ++ [name])) :
        t'.node? q = some .directory ∨ t'.node? q = none := by
      rw [Place.visited_append] at hq
      by_cases habove : q ∈ (Place.start slashes).visited above.reverse
      · exact Or.inl (ht'.directory q habove)
      · rw [ht'.node?_eq habove]
        exact h q hq
    -- the parents are there now, so nothing is missing any more
    rcases ensureDirectory_of_passable hsound hshort hpassable with
      ⟨t'', hmade', ht''⟩ | ⟨hmissing, -⟩
    · rw [Place.visited_append] at ht''
      exact ⟨t'', by simp only [ensureParents, List.reverse_cons, hfault, hmade, hmade'],
        ht'.trans ht''⟩
    · rw [walk_append (fun part hpart => hsound part (List.mem_append_left _ hpart))
        ht'.directory] at hmissing
      exact absurd hmissing (walk_singleton_ne_missing _ _)

theorem node?_of_see_eq_vacant {free : Place} (h : t.see p = .vacant free) :
    t.node? free = none := by
  unfold see at h
  split at h
  · cases h
  · exact node?_of_walk_eq_vacant h

theorem keeps_of_ensureDirectory (h : t.ensureDirectory p = .ok t') : Keeps t t' := by
  rw [ensureDirectory_of_see] at h
  cases hsee : t.see p with
  | directory =>
    rw [hsee] at h
    cases h
    exact .refl
  | vacant free =>
    rw [hsee] at h
    cases h
    exact .put (node?_of_see_eq_vacant hsee) none
  | missing | blocked | tooLong | file | device =>
    rw [hsee] at h
    cases h

theorem keeps_of_ensureParents {slashes : Nat} {above : List String}
    (h : t.ensureParents slashes above = (t', none)) : Keeps t t' := by
  induction above generalizing t' with
  | nil =>
    cases h
    exact .refl
  | cons name above ih =>
    simp only [ensureParents] at h
    split at h
    · next hmade =>
      cases h
      exact keeps_of_ensureDirectory hmade
    · split at h
      · cases h
      · next hmade =>
        split at h
        · next hmade' =>
          cases h
          exact (ih hmade).trans (keeps_of_ensureDirectory hmade')
        · cases h
    · cases h

/-- The text of the file that a path leads to. -/
def read? (t : FileTree) (p : Path) : Option String :=
  match t.see p with
  | .file place => (t.entries.lookup place).join
  | _ => none

/-- A regular file can be written under the path: what stands on the way is a directory or can
become one, and what stands at the end is a file or can become one. -/
structure Admits (t : FileTree) (p : Path) : Prop where
  named : ∃ name ∈ p.parts.getLast?, name ≠ ".."
  sound : ∀ part ∈ p.parts, Path.Sound part
  short : p.text.utf8ByteSize ≤ Path.longest
  passable : ∀ q ∈ p.directories, t.node? q = some .directory ∨ t.node? q = none
  vacant : t.node? p.target = some .file ∨ t.node? p.target = none
  /-- The path does not come through the place where it ends. -/
  apart : p.target ∉ p.directories

instance : Decidable (t.Admits p) :=
  decidable_of_iff
    ((∃ name ∈ p.parts.getLast?, name ≠ "..") ∧ (∀ part ∈ p.parts, Path.Sound part) ∧
      p.text.utf8ByteSize ≤ Path.longest ∧
      (∀ q ∈ p.directories, t.node? q = some .directory ∨ t.node? q = none) ∧
      (t.node? p.target = some .file ∨ t.node? p.target = none) ∧ p.target ∉ p.directories)
    ⟨fun ⟨h₁, h₂, h₃, h₄, h₅, h₆⟩ => ⟨h₁, h₂, h₃, h₄, h₅, h₆⟩,
      fun h => ⟨h.named, h.sound, h.short, h.passable, h.vacant, h.apart⟩⟩

theorem Admits.exists_name (h : t.Admits p) :
    ∃ name, p.parts = p.parts.dropLast ++ [name] ∧ name ≠ ".." := by
  obtain ⟨name, hname, hup⟩ := h.named
  obtain ⟨above, habove⟩ := List.getLast?_eq_some_iff.mp hname
  exact ⟨name, by rw [habove, List.dropLast_concat], hup⟩

theorem Admits.see_eq (h : t.Admits p)
    (hdirectory : ∀ q ∈ p.directories, t'.node? q = some .directory) :
    t'.see p =
      match t'.node? p.target with
      | some node => node.sight p.target
      | none => .vacant p.target := by
  obtain ⟨name, hparts, hup⟩ := h.exists_name
  have hsound (part) (hpart : part ∈ p.parts.dropLast) : Path.Sound part :=
    h.sound part (List.dropLast_subset _ hpart)
  have hname : Path.Sound name := h.sound name (by rw [hparts]; simp)
  rw [see, if_neg (Nat.not_lt.mpr h.short), hparts, walk_append hsound hdirectory,
    walk_down hname hup, ← Path.target_eq hparts hup]
  cases hnode : t'.node? p.target with
  | none => rfl
  | some node => cases node <;> rfl

theorem Admits.isEmpty_eq_false {text : String} (h : t.Admits (.ofText text)) :
    text.isEmpty = false := by
  refine Bool.eq_false_iff.mpr fun hempty => ?_
  obtain rfl := String.isEmpty_iff.mp hempty
  obtain ⟨name, hparts, -⟩ := h.exists_name
  simp [Path.ofText, TextSplit.split] at hparts

/-- What delivering a text leaves under a path that admits a file. -/
theorem deliver_of_admits (h : t.Admits p) (text : String) :
    ∃ t', t.deliver p text = (t', none) ∧ t'.read? p = some text ∧
      (∀ q ∈ p.directories, t'.node? q = some .directory) ∧
      ∀ q, q ≠ p.target → (q ∉ p.directories ∨ t.node? q ≠ none) →
        t'.entries.lookup q = t.entries.lookup q := by
  obtain ⟨name, hparts, -⟩ := h.exists_name
  have hshort : (Path.mk p.slashes p.parts.dropLast).text.utf8ByteSize ≤ Path.longest := by
    refine Nat.le_trans (Path.size_text_append_le p.slashes _ [name]) ?_
    rw [← hparts]
    exact h.short
  obtain ⟨made, hmade, hfurnished⟩ := ensureParents_of_passable
    (fun part hpart => h.sound part (List.dropLast_subset _ hpart)) hshort h.passable
  have hvacant : made.node? p.target = some .file ∨ made.node? p.target = none := by
    rw [hfurnished.node?_eq h.apart]
    exact h.vacant
  have hwrite : made.writeFile p text = (made.put p.target (some text), none) := by
    rw [writeFile, h.see_eq hfurnished.directory]
    rcases hvacant with hfile | hfree
    · rw [hfile]
      rfl
    · rw [hfree]
  have hdirectory : ∀ q ∈ p.directories,
      (made.put p.target (some text)).node? q = some .directory := by
    intro q hq
    have hne : q ≠ p.target := fun heq => h.apart (heq ▸ hq)
    rw [node?_put_of_ne hne]
    exact hfurnished.directory q hq
  refine ⟨made.put p.target (some text), ?_, ?_, hdirectory, fun q hne hq => ?_⟩
  · rw [deliver, Path.parent, hmade]
    exact hwrite
  · rw [read?, h.see_eq hdirectory, node?_put]
    simp [Node.sight, lookup_put]
  · rw [lookup_put, if_neg hne]
    exact hq.elim (hfurnished.elsewhere q) (hfurnished.keeps q)

/-- A path that admits a file does not lead to a directory as typed. -/
theorem isDirectory_of_admits {text : String} (h : t.Admits (.ofText text)) :
    t.isDirectory text = false := by
  rw [isDirectory]
  split
  · rfl
  refine decide_eq_false fun hwalk => ?_
  obtain ⟨name, hparts, hup⟩ := h.exists_name
  have hnode : t.node? (Path.ofText text).target = some .directory := by
    have hend := walk_filter hwalk
    rw [← Path.parts_ofText, hparts] at hend
    rw [Path.target_eq hparts hup]
    exact node?_of_walk_eq_directory (fun part hpart => h.sound part (List.dropLast_subset _ hpart))
      (h.sound name (by rw [hparts]; simp)) hup hend
  rcases h.vacant with hfile | hfree
  · rw [hfile] at hnode
    cases hnode
  · rw [hfree] at hnode
    cases hnode

/-- What is written and can be read again was put at a place. -/
theorem exists_place_of_writeFile {text : String} (h : t.writeFile p text = (t', none))
    (hread : t'.read? p = some text) : ∃ place, (t.see p).place? = some place := by
  rw [writeFile] at h
  cases hsee : t.see p with
  | vacant place | file place => exact ⟨place, rfl⟩
  | device d =>
    rw [hsee] at h
    cases d with
    | sink =>
      cases h
      rw [read?, hsee] at hread
      cases hread
    | full => cases h
  | directory | tooLong | missing | blocked =>
    rw [hsee] at h
    cases h

theorem exists_of_deliver {text : String} (h : t.deliver p text = (t', none)) :
    ∃ made, t.ensureParents p.slashes p.parts.dropLast.reverse = (made, none) ∧
      made.writeFile p text = (t', none) := by
  unfold deliver at h
  split at h
  · next made hmade => exact ⟨made, hmade, h⟩
  · cases h

/-- A path admits a file exactly when a text can be delivered there and read again. -/
theorem admits_iff {path : String} (text : String) :
    t.Admits (.ofText path) ↔
      ∃ t', t.deliver (.ofText path) text = (t', none) ∧ t'.read? (.ofText path) = some text := by
  have hblank := Path.not_blank_of_mem_ofText path
  generalize Path.ofText path = p at hblank ⊢
  constructor
  · intro h
    obtain ⟨t', hdeliver, hread, -⟩ := deliver_of_admits h text
    exact ⟨t', hdeliver, hread⟩
  · rintro ⟨t', hdeliver, hread⟩
    obtain ⟨made, hmade, hwrite⟩ := exists_of_deliver hdeliver
    obtain ⟨place, hplace⟩ := exists_place_of_writeFile hwrite hread
    have hshort : p.text.utf8ByteSize ≤ Path.longest := by
      refine Nat.not_lt.mp fun hlong => ?_
      rw [see, if_pos hlong] at hplace
      cases hplace
    rw [see, if_neg (Nat.not_lt.mpr hshort)] at hplace
    obtain ⟨above, name, hparts, hup, hsound, hvisited, rfl, hnode⟩ := exists_of_walk hblank hplace
    have habove : p.parts.dropLast = above := by rw [hparts, List.dropLast_concat]
    have hnamed : p.parts = p.parts.dropLast ++ [name] := by rw [habove, hparts]
    have htarget := Path.target_eq hnamed hup
    rw [← habove] at hvisited hnode
    rw [← htarget] at hnode
    -- what was on the way before the directories were made is there afterwards
    have hbefore (q : Place) : t.node? q = none ∨ t.node? q = made.node? q := by
      by_cases hq : t.node? q = none
      · exact Or.inl hq
      · exact Or.inr (node?_congr (keeps_of_ensureParents hmade q hq)).symm
    refine ⟨⟨name, by simp [hparts], hup⟩, hsound, hshort, fun q hq => ?_, ?_, fun hmem => ?_⟩
    · exact (hbefore q).symm.imp_left fun heq => heq.trans (hvisited q hq)
    · rcases hbefore p.target with hfree | heq
      · exact Or.inr hfree
      · rw [heq]
        exact hnode
    · have hdirectory := hvisited _ hmem
      simp [hdirectory] at hnode

end FileTree

end RankOne
