import RankOne.CatalogueInherent
import RankOne.CatalogueListing
import RankOne.TextQuoted
import RankOne.TextSplit

/-! A reference names a bundled circuit by its short name, or `module:attribute`, split at the first
colon. Modules are looked up in holdings, of which those of the listing are one case. A class
stands for the instance it makes without arguments. -/
namespace RankOne

/-- Why a reference names nothing. -/
inductive ReferenceFault
  | unknownCircuit (reference : String)
  /-- A module does not exist; its parent is given when it does and holds no modules. -/
  | noModule (reference name : String) (parent : Option String)
  | noMember (reference name member : String)
  | emptyModule
  /-- The name of the module begins with a dot. -/
  | relativeModule (name : String)
  /-- A class makes no instance without arguments. -/
  | barren (b : Barren)
  deriving DecidableEq, Repr

namespace Catalogue

/-- The dotted prefixes of a module name, shortest first. -/
def dottedPrefixes (name : String) : List String :=
  let parts := TextSplit.split '.' name
  (List.range parts.length).map fun k => String.intercalate "." (parts.take (k + 1))

/-- The modules that can be loaded. -/
structure Holdings where
  modules : List Module
  /-- The names of modules are neither empty nor relative. -/
  absolute : ∀ m ∈ modules, ¬ m.name.startsWith "." ∧ ¬ m.name.isEmpty
  /-- The packages of every module are modules. -/
  closed : ∀ m ∈ modules, ∀ name ∈ dottedPrefixes m.name, ∃ package ∈ modules, package.name = name

namespace Holdings
variable (held : Holdings)

def module? (name : String) : Option Module := held.modules.find? fun m => m.name = name

def inner? (m : Module) (name : String) : Option Module :=
  held.modules.find? fun inner => inner.path = m.path ++ [name]

/-- A member of a module: one of its own, an inherent one, or a module inside it. -/
def member? (m : Module) (name : String) : Option Member :=
  match (m.members ++ m.inherent).lookup name with
  | some member => some member
  | none => (held.inner? m name).map fun inner => .ofModule inner.name

/-- Looks the prefixes up one after the other; the first that is missing is reported. -/
def load (reference : String) (parent : Option Module) :
    List String → Except ReferenceFault Module
  | [] =>
    match parent with
    | some last => .ok last
    | none => .error .emptyModule
  | name :: rest =>
    match held.module? name with
    | some m => load reference (some m) rest
    | none =>
      .error (.noModule reference name
        (match parent with
          | some p => if p.isPackage then none else some p.name
          | none => none))

/-- Looks up what a reference with a colon names. -/
def lookUp (reference name member : String) : Except ReferenceFault Resource :=
  if name.startsWith "." then .error (.relativeModule name)
  else if name.isEmpty then .error .emptyModule
  else
    match held.load reference none (dottedPrefixes name) with
    | .error fault => .error fault
    | .ok m =>
      match held.member? m member with
      | some (.resource r) => .ok r
      | some (.barren b) => .error (.barren b)
      | none => .error (.noMember reference name member)

def resolve (reference : String) : Except ReferenceFault Resource :=
  match bundled.lookup reference, TextSplit.cut? ':' reference with
  | some c, _ => .ok (.circuit c)
  | none, none => .error (.unknownCircuit reference)
  | none, some (name, member) => held.lookUp reference name member

end Holdings

def holdings : Holdings where
  modules := modules
  absolute := by decide +kernel
  closed := by decide +kernel

def resolve : String → Except ReferenceFault Resource := holdings.resolve

theorem getLast?_dottedPrefixes (name : String) : (dottedPrefixes name).getLast? = some name := by
  have hjoin := TextSplit.intercalate_split '.' name
  obtain ⟨k, hk⟩ : ∃ k, (TextSplit.split '.' name).length = k + 1 :=
    Nat.exists_eq_add_one.mpr (List.length_pos_iff.mpr (TextSplit.split_ne_nil _ _))
  have hall : (TextSplit.split '.' name).take (k + 1) = TextSplit.split '.' name := by
    rw [← hk, List.take_length]
  simp only [dottedPrefixes, hk, List.range_succ, List.map_append, List.map_cons, List.map_nil,
    List.getLast?_concat, hall]
  exact congrArg some hjoin

namespace Holdings
variable {held : Holdings} {reference name : String} {m : Module} {prefixes : List String}

theorem module?_eq_some (h : held.module? name = some m) : m ∈ held.modules ∧ m.name = name := by
  rw [module?] at h
  exact ⟨List.mem_of_find?_eq_some h, by simpa using List.find?_some h⟩

theorem isSome_module?_of_mem_dottedPrefixes (h : held.module? name = some m) :
    ∀ n ∈ dottedPrefixes name, (held.module? n).isSome := by
  obtain ⟨hmem, rfl⟩ := module?_eq_some h
  intro n hn
  simpa [module?, List.find?_isSome] using held.closed m hmem n hn

theorem module?_of_load {parent : Option Module} (h : held.load reference parent prefixes = .ok m)
    (hlast : prefixes.getLast? = some name) : held.module? name = some m := by
  induction prefixes generalizing parent with
  | nil => cases hlast
  | cons first rest ih =>
    simp only [load] at h
    split at h
    · next found hfound =>
      cases rest with
      | nil =>
        obtain rfl : first = name := by simpa using hlast
        rwa [← Except.ok.inj h]
      | cons second rest => exact ih h (by simpa [List.getLast?_cons_cons] using hlast)
    · cases h

theorem load_of_isSome {parent : Option Module} (hall : ∀ n ∈ prefixes, (held.module? n).isSome)
    (hlast : prefixes.getLast? = some name) (h : held.module? name = some m) :
    held.load reference parent prefixes = .ok m := by
  induction prefixes generalizing parent with
  | nil => cases hlast
  | cons first rest ih =>
    obtain ⟨found, hfound⟩ := Option.isSome_iff_exists.mp (hall first List.mem_cons_self)
    simp only [load, hfound]
    cases rest with
    | nil =>
      obtain rfl : first = name := by simpa using hlast
      rw [h] at hfound
      exact congrArg Except.ok (Option.some.inj hfound.symm)
    | cons second rest =>
      exact ih (fun n hn => hall n (List.mem_cons_of_mem _ hn))
        (by simpa [List.getLast?_cons_cons] using hlast)

/-- A module is loaded exactly when it is in the holdings. -/
theorem load_eq_ok_iff : held.load reference none (dottedPrefixes name) = .ok m ↔
    held.module? name = some m := by
  constructor
  · intro h
    exact module?_of_load h (getLast?_dottedPrefixes name)
  · intro h
    exact load_of_isSome (isSome_module?_of_mem_dottedPrefixes h) (getLast?_dottedPrefixes _) h

/-- Loading fails for a module that is missing and for nothing else. -/
theorem load_error {parent : Option Module} {fault : ReferenceFault} (hne : prefixes ≠ [])
    (h : held.load reference parent prefixes = .error fault) :
    ∃ missing parent, fault = .noModule reference missing parent := by
  induction prefixes generalizing parent with
  | nil => exact absurd rfl hne
  | cons first rest ih =>
    simp only [load] at h
    split at h
    · cases rest with
      | nil => cases h
      | cons second rest => exact ih (List.cons_ne_nil _ _) h
    · cases h
      exact ⟨_, _, rfl⟩

theorem lookUp_of_module? {member : String} (h : held.module? name = some m) :
    held.lookUp reference name member =
      match held.member? m member with
      | some (.resource r) => .ok r
      | some (.barren b) => .error (.barren b)
      | none => .error (.noMember reference name member) := by
  obtain ⟨hmem, rfl⟩ := module?_eq_some h
  obtain ⟨hdot, hempty⟩ := held.absolute m hmem
  rw [lookUp, if_neg hdot, if_neg hempty, load_eq_ok_iff.mpr h]

/-- Without a module the lookup fails, and how depends on the name alone. -/
theorem lookUp_of_no_module (reference member : String) (h : held.module? name = none) :
    ∃ missing parent, held.lookUp reference name member = .error (
      if name.startsWith "." then .relativeModule name
      else if name.isEmpty then .emptyModule
      else .noModule reference missing parent) := by
  have hne : dottedPrefixes name ≠ [] := by
    intro hnil
    simpa [hnil] using getLast?_dottedPrefixes name
  cases hload : held.load reference none (dottedPrefixes name) with
  | ok m =>
    rw [load_eq_ok_iff, h] at hload
    cases hload
  | error fault =>
    obtain ⟨missing, parent, rfl⟩ := load_error hne hload
    refine ⟨missing, parent, ?_⟩
    rw [lookUp, hload]
    split
    · rfl
    · split <;> rfl

theorem lookUp_eq_ok_iff {member : String} {r : Resource} :
    held.lookUp reference name member = .ok r ↔
      ∃ m, held.module? name = some m ∧ held.member? m member = some (.resource r) := by
  constructor
  · intro h
    cases hm : held.module? name with
    | none =>
      obtain ⟨missing, parent, hfault⟩ := lookUp_of_no_module reference member hm
      rw [hfault] at h
      cases h
    | some m =>
      rw [lookUp_of_module? hm] at h
      split at h <;> cases h
      exact ⟨m, rfl, ‹_›⟩
  · rintro ⟨m, hm, hmember⟩
    rw [lookUp_of_module? hm, hmember]

end Holdings

end Catalogue

namespace ReferenceFault
open TextQuoted

/-- Whether the fault is the user's choice of reference, to be reported as such. -/
def isRejection : ReferenceFault → Bool
  | .unknownCircuit _ | .noModule .. | .noMember .. => true
  | _ => false

/-- How a rejection is worded. -/
def rejecting (text : String) : String := "Invalid value for --circuit: " ++ text

def unloadable (reference text : String) : String :=
  rejecting ("cannot load " ++ quoted reference ++ ": " ++ text)

def message : ReferenceFault → String
  | .unknownCircuit reference =>
    rejecting ("unknown circuit " ++ quoted reference ++ "; use one of " ++
      String.intercalate ", " Catalogue.names ++ " or module:attr")
  | .noModule reference name parent =>
    unloadable reference ("No module named " ++ quoted name ++
      (match parent with
        | some parent => "; " ++ quoted parent ++ " is not a package"
        | none => ""))
  | .noMember reference name member =>
    unloadable reference ("module '" ++ name ++ "' has no attribute '" ++ member ++ "'")
  | .emptyModule => "Empty module name"
  | .relativeModule name =>
    "the 'package' argument is required to perform a relative import for " ++ quoted name
  | .barren b => b.message

end ReferenceFault

end RankOne
