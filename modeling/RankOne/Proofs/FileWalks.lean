import RankOne.FileTree

/-! A path names one place after the other, and a walk along it goes on as long as there are
directories. A walk that ends where a text can be put has come by directories alone. -/
namespace RankOne

namespace Place

def enter (p : Place) (name : String) : Place := if name = ".." then p.parent else p.child name

/-- Where a walk along components leads if nothing is in its way. -/
def follow (p : Place) (parts : List String) : Place := parts.foldl enter p

/-- The places that components name one after the other. Two dots name none. -/
def visited (p : Place) : List String → List Place
  | [] => []
  | name :: rest =>
    if name = ".." then visited p.parent rest else p.child name :: visited (p.child name) rest

theorem follow_append (p : Place) (parts rest : List String) :
    p.follow (parts ++ rest) = (p.follow parts).follow rest := List.foldl_append

theorem visited_append (p : Place) (parts rest : List String) :
    p.visited (parts ++ rest) = p.visited parts ++ (p.follow parts).visited rest := by
  induction parts generalizing p with
  | nil => rfl
  | cons name parts ih =>
    by_cases hup : name = ".."
    · simp [visited, follow, enter, hup, ih]
    · simp [visited, follow, enter, hup, ih]

end Place

namespace Path

/-- What a component may be: it is not left out on reading, and not too long. -/
structure Sound (part : String) : Prop where
  not_blank : ¬(part = "" ∨ part = ".")
  short : part.utf8ByteSize ≤ longestPart

instance : DecidablePred Sound := fun part =>
  decidable_of_iff (¬(part = "" ∨ part = ".") ∧ part.utf8ByteSize ≤ longestPart)
    ⟨fun h => ⟨h.1, h.2⟩, fun h => ⟨h.not_blank, h.short⟩⟩

/-- The directories that have to be there, in the order in which they are come to. -/
def directories (p : Path) : List Place := (Place.start p.slashes).visited p.parts.dropLast

def target (p : Path) : Place := (Place.start p.slashes).follow p.parts

theorem parts_ofText (text : String) : (ofText text).parts =
    (TextSplit.split '/' text).filter fun part => part ≠ "" ∧ part ≠ "." := rfl

theorem not_blank_of_mem_ofText (text : String) :
    ∀ part ∈ (ofText text).parts, ¬(part = "" ∨ part = ".") := by
  intro part hpart
  simpa using (List.mem_filter.mp hpart).2

end Path

/-- Where a text is put that is to be written there. -/
def Sight.place? : Sight → Option Place
  | .file place | .vacant place => some place
  | _ => none

namespace FileTree
variable {t t' : FileTree} {place q free : Place} {name : String} {parts rest : List String}

theorem lookup_cons (entry : Place × Option String) (entries : List (Place × Option String))
    (q : Place) :
    (entry :: entries).lookup q = if q = entry.1 then some entry.2 else entries.lookup q := by
  rw [List.lookup_cons]
  by_cases hq : q = entry.1
  · rw [if_pos hq, hq, beq_self_eq_true]
  · rw [if_neg hq, beq_false_of_ne hq]

theorem lookup_filter_ne (entries : List (Place × Option String)) (place q : Place) :
    (entries.filter fun entry => entry.1 ≠ place).lookup q =
      if q = place then none else entries.lookup q := by
  induction entries with
  | nil => simp
  | cons entry entries ih =>
    by_cases hplace : entry.1 = place
    · rw [List.filter_cons_of_neg (by simp [hplace]), ih, lookup_cons, hplace]
      by_cases hq : q = place <;> simp only [hq, if_true, if_false]
    · rw [List.filter_cons_of_pos (by simp [hplace]), lookup_cons, lookup_cons, ih]
      by_cases hq : q = entry.1
      · simp only [hq, hplace, if_true, if_false]
      · simp only [hq, if_false]

theorem lookup_put (t : FileTree) (place q : Place) (content : Option String) :
    (t.put place content).entries.lookup q =
      if q = place then some content else t.entries.lookup q := by
  rw [put, List.lookup_append, lookup_filter_ne, lookup_cons, List.lookup_nil]
  by_cases hq : q = place
  · simp only [hq, if_true, Option.none_or]
  · simp only [hq, if_false, Option.or_none]

/-- What is at a place depends on the entry of the place alone. -/
theorem node?_congr (h : t'.entries.lookup q = t.entries.lookup q) : t'.node? q = t.node? q := by
  rw [node?, node?, h]

theorem node?_put (t : FileTree) (place : Place) (content : Option String) :
    (t.put place content).node? place =
      some (match content with | none => .directory | some _ => .file) := by
  rw [node?, lookup_put, if_pos rfl]
  cases content <;> rfl

theorem node?_put_of_ne (h : q ≠ place) (content : Option String) :
    (t.put place content).node? q = t.node? q :=
  node?_congr (by rw [lookup_put, if_neg h])

theorem walk_up : t.walk place (".." :: rest) = t.walk place.parent rest := by
  simp [walk]

theorem walk_down (hsound : Path.Sound name) (hup : name ≠ "..") :
    t.walk place (name :: rest) =
      match t.node? (place.child name) with
      | some .directory => t.walk (place.child name) rest
      | some node => if rest.isEmpty then node.sight (place.child name) else .blocked
      | none => if rest.isEmpty then .vacant (place.child name) else .missing := by
  have hshort := Nat.not_lt.mpr hsound.short
  cases hnode : t.node? (place.child name) with
  | none => rw [walk, if_neg hsound.not_blank, if_neg hup, if_neg hshort, hnode]
  | some node =>
    cases node <;> rw [walk, if_neg hsound.not_blank, if_neg hup, if_neg hshort, hnode]

/-- The walk goes on behind components that name directories. -/
theorem walk_append (hsound : ∀ part ∈ parts, Path.Sound part)
    (h : ∀ q ∈ place.visited parts, t.node? q = some .directory) :
    t.walk place (parts ++ rest) = t.walk (place.follow parts) rest := by
  induction parts generalizing place with
  | nil => rfl
  | cons name parts ih =>
    have hparts := fun part hpart => hsound part (List.mem_cons_of_mem _ hpart)
    by_cases hup : name = ".."
    · subst hup
      simp only [Place.visited, if_true] at h
      rw [List.cons_append, walk_up, ih hparts h]
      rfl
    · simp only [Place.visited, if_neg hup, List.mem_cons, forall_eq_or_imp] at h
      rw [List.cons_append, walk_down (hsound name List.mem_cons_self) hup, h.1]
      simp only [ih hparts h.2, Place.follow, List.foldl_cons, Place.enter, if_neg hup]

/-- A walk that meets only directories and free places ends in a directory, at a free place that
is the only one, or where the way breaks off. -/
theorem walk_of_passable (hsound : ∀ part ∈ parts, Path.Sound part)
    (h : ∀ q ∈ place.visited parts, t.node? q = some .directory ∨ t.node? q = none) :
    (t.walk place parts = .directory ∧ ∀ q ∈ place.visited parts, t.node? q = some .directory) ∨
    (∃ free ∈ place.visited parts, t.walk place parts = .vacant free ∧ t.node? free = none ∧
      ∀ q ∈ place.visited parts, q = free ∨ t.node? q = some .directory) ∨
    t.walk place parts = .missing := by
  induction parts generalizing place with
  | nil => exact Or.inl ⟨rfl, by simp [Place.visited]⟩
  | cons name parts ih =>
    have hparts := fun part hpart => hsound part (List.mem_cons_of_mem _ hpart)
    by_cases hup : name = ".."
    · subst hup
      simp only [Place.visited, if_true] at h ⊢
      simpa only [walk_up] using ih hparts h
    · simp only [Place.visited, if_neg hup, List.mem_cons, forall_eq_or_imp] at h ⊢
      rw [walk_down (hsound name List.mem_cons_self) hup]
      rcases h.1 with hdir | hfree
      · rw [hdir]
        rcases ih hparts h.2 with ⟨hwalk, hall⟩ | ⟨free, hmem, hwalk, hfree, hall⟩ | hwalk
        · exact Or.inl ⟨hwalk, rfl, hall⟩
        · exact Or.inr (Or.inl ⟨free, Or.inr hmem, hwalk, hfree, Or.inr rfl, hall⟩)
        · exact Or.inr (Or.inr hwalk)
      · rw [hfree]
        cases parts with
        | nil =>
          exact Or.inr (Or.inl ⟨_, Or.inl rfl, rfl, hfree, Or.inl rfl, by simp [Place.visited]⟩)
        | cons => exact Or.inr (Or.inr rfl)

theorem walk_singleton_ne_missing (place : Place) (name : String) :
    t.walk place [name] ≠ .missing := by
  rw [walk]
  split
  · simp [walk]
  split
  · simp [walk]
  split
  · simp
  split
  · simp [walk]
  · next node _ _ => cases node <;> simp [Node.sight]
  · simp

theorem walk_eq_directory_iff (hblank : ¬(name = "" ∨ name = ".")) (hup : name ≠ "..") :
    t.walk place (name :: rest) = .directory ↔
      name.utf8ByteSize ≤ Path.longestPart ∧ t.node? (place.child name) = some .directory ∧
        t.walk (place.child name) rest = .directory := by
  rw [walk, if_neg hblank, if_neg hup]
  by_cases hlong : Path.longestPart < name.utf8ByteSize
  · rw [if_pos hlong]
    exact ⟨nofun, fun h => absurd h.1 (Nat.not_le.mpr hlong)⟩
  rw [if_neg hlong]
  have hshort := Nat.not_lt.mp hlong
  cases hnode : t.node? (place.child name) with
  | none => cases rest <;> simp
  | some node =>
    cases node with
    | directory => simp [hshort]
    | file | device => cases rest <;> simp [Node.sight]

/-- A walk to a directory by a name comes to a directory of this name. -/
theorem node?_of_walk_eq_directory (hsound : ∀ part ∈ parts, Path.Sound part)
    (hname : Path.Sound name) (hup : name ≠ "..")
    (h : t.walk place (parts ++ [name]) = .directory) :
    t.node? ((place.follow parts).child name) = some .directory := by
  induction parts generalizing place with
  | nil => exact ((walk_eq_directory_iff hname.not_blank hup).mp h).2.1
  | cons first parts ih =>
    have hparts := fun part hpart => hsound part (List.mem_cons_of_mem _ hpart)
    by_cases hfirst : first = ".."
    · subst hfirst
      rw [List.cons_append, walk_up] at h
      exact ih hparts h
    · have hfollow : place.follow (first :: parts) = (place.child first).follow parts := by
        simp [Place.follow, Place.enter, hfirst]
      have hblank := (hsound first List.mem_cons_self).not_blank
      rw [hfollow]
      exact ih hparts ((walk_eq_directory_iff hblank hfirst).mp h).2.2

/-- Components that are left out on reading a path do not change where a walk ends. -/
theorem walk_filter (h : t.walk place parts = .directory) :
    t.walk place (parts.filter fun part => part ≠ "" ∧ part ≠ ".") = .directory := by
  induction parts generalizing place with
  | nil => exact h
  | cons name parts ih =>
    by_cases hblank : name = "" ∨ name = "."
    · rw [walk, if_pos hblank] at h
      rw [List.filter_cons_of_neg (by rcases hblank with rfl | rfl <;> simp)]
      exact ih h
    · rw [List.filter_cons_of_pos (by simpa using hblank)]
      by_cases hup : name = ".."
      · subst hup
        rw [walk_up] at h ⊢
        exact ih h
      · obtain ⟨hshort, hnode, hwalk⟩ := (walk_eq_directory_iff hblank hup).mp h
        exact (walk_eq_directory_iff hblank hup).mpr ⟨hshort, hnode, ih hwalk⟩

theorem node?_of_walk_eq_vacant (h : t.walk place parts = .vacant free) : t.node? free = none := by
  fun_induction walk t place parts with
  | case1 => cases h
  | case2 _ _ _ _ ih => exact ih h
  | case3 _ _ _ ih => exact ih h
  | case4 => cases h
  | case5 _ _ _ _ _ _ _ ih => exact ih h
  | case6 place name rest _ _ _ node => cases node <;> cases h
  | case7 => cases h
  | case8 place name rest _ _ _ hnode =>
    cases h
    exact hnode
  | case9 => cases h

/-- A walk that ends where a text can be put has come by directories alone. -/
theorem exists_of_walk (hblank : ∀ part ∈ parts, ¬(part = "" ∨ part = "."))
    (h : (t.walk place parts).place? = some q) :
    ∃ above name, parts = above ++ [name] ∧ name ≠ ".." ∧ (∀ part ∈ parts, Path.Sound part) ∧
      (∀ q ∈ place.visited above, t.node? q = some .directory) ∧
      q = (place.follow above).child name ∧ (t.node? q = some .file ∨ t.node? q = none) := by
  induction parts generalizing place with
  | nil => cases h
  | cons first rest ih =>
    have hrest := fun part hpart => hblank part (List.mem_cons_of_mem _ hpart)
    by_cases hup : first = ".."
    · subst hup
      rw [walk_up] at h
      obtain ⟨above, name, rfl, hname, hsound, hvisited, hq, hnode⟩ := ih hrest h
      refine ⟨".." :: above, name, rfl, hname, ?_, ?_, hq, hnode⟩
      · exact List.forall_mem_cons.mpr ⟨⟨by decide, by decide⟩, hsound⟩
      · simpa [Place.visited] using hvisited
    by_cases hlong : Path.longestPart < first.utf8ByteSize
    · rw [walk, if_neg (hblank first List.mem_cons_self), if_neg hup, if_pos hlong] at h
      cases h
    have hfirst : Path.Sound first := ⟨hblank first List.mem_cons_self, Nat.not_lt.mp hlong⟩
    rw [walk_down hfirst hup] at h
    cases hnode : t.node? (place.child first) with
    | none =>
      rw [hnode] at h
      cases rest with
      | nil =>
        cases h
        exact ⟨[], first, rfl, hup, by simpa using hfirst, by simp [Place.visited], rfl,
          Or.inr hnode⟩
      | cons => cases h
    | some node =>
      rw [hnode] at h
      cases node with
      | directory =>
        obtain ⟨above, name, rfl, hname, hsound, hvisited, hq, hend⟩ := ih hrest h
        refine ⟨first :: above, name, rfl, hname, ?_, ?_, ?_, hend⟩
        · exact List.forall_mem_cons.mpr ⟨hfirst, hsound⟩
        · simpa [Place.visited, hup, hnode] using hvisited
        · simpa [Place.follow, Place.enter, hup] using hq
      | file =>
        cases rest with
        | nil =>
          cases h
          exact ⟨[], first, rfl, hup, by simpa using hfirst, by simp [Place.visited], rfl,
            Or.inl hnode⟩
        | cons => cases h
      | device => cases rest <;> cases h

end FileTree

end RankOne
