import RankOne.CircuitProbe
import RankOne.Proofs.CallTraces

/-! A namespace is opened on the root that the system names, and closed on this very root however
its block ends. What is written against a system therefore calls in balance, whatever the
machine does and at whatever call it fails. -/
namespace RankOne

variable {ω σ α β : Type}

/-- Where a run of calls stands: the root that was named and not called since, and the roots whose
namespaces are open, the innermost first. -/
structure Standing (ω : Type) where
  named : Option ω
  opened : List ω
  deriving DecidableEq, Repr

/-- Takes account of a call, if it may be made as things stand. -/
def Standing.next? [DecidableEq ω] (self : ω) : Standing ω → Call ω → Option (Standing ω)
  | ⟨none, opened⟩, .rooted o root => if o = self then some ⟨root, opened⟩ else none
  | ⟨none, opened⟩, .allocated o | ⟨none, opened⟩, .enforced o =>
    if o = self then some ⟨none, opened⟩ else none
  | ⟨some root, opened⟩, .pushed o returned =>
    if o = root then some ⟨none, if returned then root :: opened else opened⟩ else none
  | ⟨none, root :: opened⟩, .popped o _ => if o = root then some ⟨none, opened⟩ else none
  | _, _ => none

/-- The calls may be made one after the other, whatever is open before them, and leave open what
was open before them and nothing else. -/
def Balanced [DecidableEq ω] (self : ω) (calls : List (Call ω)) : Prop :=
  ∀ opened, calls.foldlM (Standing.next? self) ⟨none, opened⟩ = some ⟨none, opened⟩

namespace Balanced
variable [DecidableEq ω] {self : ω} {calls calls' : List (Call ω)}

theorem nil : Balanced self [] := fun _ => rfl

theorem append (h : Balanced self calls) (h' : Balanced self calls') :
    Balanced self (calls ++ calls') := by
  intro opened
  rw [List.foldlM_append, h opened]
  exact h' opened

theorem allocated : Balanced self [.allocated self] := fun _ => by simp [Standing.next?]

theorem enforced : Balanced self [.enforced self] := fun _ => by simp [Standing.next?]

theorem rootless : Balanced self [.rooted self none] := fun _ => by simp [Standing.next?]

theorem refused (root : ω) : Balanced self [.rooted self (some root), .pushed root false] :=
  fun _ => by simp [Standing.next?]

theorem block (h : Balanced self calls) (root : ω) (returned : Bool) :
    Balanced self (.rooted self (some root) :: .pushed root true ::
      (calls ++ [.popped root returned])) := by
  intro opened
  simp [Standing.next?, List.foldlM_append, h (root :: opened)]

end Balanced

/-- What holds of no calls, and of calls one after the other when it holds of both. -/
structure Composes (P : List (Call ω) → Prop) : Prop where
  nil : P []
  append {calls calls' : List (Call ω)} (h : P calls) (h' : P calls') : P (calls ++ calls')

/-- Whatever the state, the calls that are made have the property. -/
def Tracing.Calls (P : List (Call ω) → Prop) (x : Tracing ω σ α) : Prop := ∀ s, P (x.run s).calls

theorem Tracing.Calls.observe {P : List (Call ω) → Prop} {x : Tracing ω σ α} (hx : x.Calls P) :
    (observe x).Calls P := by
  intro s
  rw [Tracing.run_observe]
  exact hx s

theorem Tracing.Calls.allocate {P : List (Call ω) → Prop} {I : Machine ω σ} {self : ω}
    (hself : P [.allocated self]) (side : Side) (remark : Option (Deferred String))
    (value : Option (Deferred (Option Int))) :
    ((I.system self).allocate side remark value).Calls P := by
  intro s
  have hcalls : (((I.system self).allocate side remark value).run s).calls = [.allocated self] :=
    Tracing.calls_acted (fun _ => [.allocated self]) (I.allocate self side remark value) s
  rwa [hcalls]

namespace Composes
variable {P : List (Call ω) → Prop}

theorem own (h : Composes P) (x : EStateM Fault σ α) : (Tracing.own x).Calls P := by
  intro s
  rw [Tracing.own, Tracing.calls_acted]
  exact h.nil

theorem bind (h : Composes P) {x : Tracing ω σ α} {f : α → Tracing ω σ β} (hx : x.Calls P)
    (hf : ∀ a, (f a).Calls P) : (x >>= f).Calls P := by
  intro s
  cases hresult : (x.run s).result with
  | ok a =>
    rw [Tracing.run_bind_of_ok hresult]
    exact h.append (hx s) (hf a _)
  | error fault =>
    rw [Tracing.run_bind_of_error hresult]
    exact hx s

/-- The calls of an enforcement are those of the builders, as often as they are called. -/
theorem follow (h : Composes P) {builders : Triple (Builder (Tracing ω σ))}
    (hbuild : ∀ m l, (builders.get m l).Calls P) (plan : Plan σ) :
    P (plan.follow builders).calls := by
  induction plan with
  | ends result s => exact h.nil
  | calls m l s next ih => exact h.append (hbuild m l s) (ih _ _)

theorem building (h : Composes P) (f : LinearCombination → LinearCombination)
    (l : LinearCombination) : (Circuit.building f l : Tracing ω σ LinearCombination).Calls P :=
  h.own (pure (f l))

theorem enforce (h : Composes P) {I : Machine ω σ} {self : ω} (hself : P [.enforced self])
    (remark : Option (Deferred String)) {a b c : Builder (Tracing ω σ)}
    (ha : ∀ l, (a l).Calls P) (hb : ∀ l, (b l).Calls P) (hc : ∀ l, (c l).Calls P) :
    ((I.system self).enforce remark a b c).Calls P := by
  refine fun s => h.append hself (h.follow ?_ (I.enforce self remark s))
  intro m
  cases m with
  | a => exact ha
  | b => exact hb
  | c => exact hc

end Composes

theorem Balanced.composes [DecidableEq ω] (self : ω) : Composes (Balanced self) := ⟨.nil, .append⟩

namespace Machine
variable {I : Machine ω σ} {self : ω}

/-- What a block calls and how it ends. -/
inductive Block (self : ω) (body : Tracing ω σ α) : List (Call ω) → Except Fault α → Prop
  /-- The system names no root. -/
  | rootless (fault : Fault) : Block self body [.rooted self none] (.error fault)
  /-- The root refuses the namespace. -/
  | refused (root : ω) (fault : Fault) :
    Block self body [.rooted self (some root), .pushed root false] (.error fault)
  /-- The body runs, but closing the namespace fails, whatever became of the body. -/
  | unclosed (root : ω) (begun : σ) (fault : Fault) :
    Block self body
      (.rooted self (some root) :: .pushed root true ::
        ((body.run begun).calls ++ [.popped root false]))
      (.error fault)
  /-- The body runs, the namespace is closed, and the block ends as the body did. -/
  | closed (root : ω) (begun : σ) :
    Block self body
      (.rooted self (some root) :: .pushed root true ::
        ((body.run begun).calls ++ [.popped root true]))
      (body.run begun).result

theorem block (I : Machine ω σ) (self : ω) (name : Option (Deferred String))
    (body : ConstraintSystem (Tracing ω σ) → Tracing ω σ α) (s : σ) :
    let t := ((I.system self).inside name body).run s
    Block self (body (I.system self)) t.calls t.result := by
  intro t
  have ht : t = ((I.system self).root >>= fun root => root.push name >>= fun _ =>
    observe (body (I.system self)) >>= fun ended => root.pop >>= fun _ => resume ended).run s := rfl
  rw [ht]
  cases hroot : (I.root self).run s with
  | error fault s' =>
    have hnamed := run_root_of_error hroot
    rw [Tracing.run_bind_of_error (by rw [hnamed]), hnamed]
    exact .rootless fault
  | ok root s' =>
    have hnamed := run_root_of_ok hroot
    rw [Tracing.run_bind_of_ok (by rw [hnamed]), hnamed]
    cases hpush : (I.push root name).run s' with
    | error fault refused =>
      have hrefused := run_push_of_error hpush
      rw [Tracing.run_bind_of_error (by rw [hrefused]), hrefused]
      exact .refused root fault
    | ok u begun =>
      have hopened := run_push_of_ok hpush
      have hbody := Tracing.run_observe (body (I.system self)) begun
      rw [Tracing.run_bind_of_ok (by rw [hopened]), hopened,
        Tracing.run_bind_of_ok (by rw [hbody]), hbody]
      cases hpop : (I.pop root).run ((body (I.system self)).run begun).state with
      | error fault left =>
        have hunclosed := run_pop_of_error hpop
        rw [Tracing.run_bind_of_error (by rw [hunclosed]), hunclosed]
        exact .unclosed root begun fault
      | ok u' left =>
        have hclosed := run_pop_of_ok hpop
        rw [Tracing.run_bind_of_ok (by rw [hclosed]), hclosed, Tracing.run_resume]
        exact .closed root begun

theorem Block.balanced [DecidableEq ω] {body : Tracing ω σ α} {calls : List (Call ω)}
    {result : Except Fault α} (h : Block self body calls result)
    (hbody : body.Calls (Balanced self)) : Balanced self calls := by
  cases h with
  | rootless fault => exact .rootless
  | refused root fault => exact .refused root
  | unclosed root begun fault => exact (hbody begun).block root false
  | closed root begun => exact (hbody begun).block root true

/-- What is written against a system calls it in balance. -/
theorem Written.balanced [DecidableEq ω] {x : Tracing ω σ α} (h : I.Written self x) :
    x.Calls (Balanced self) := by
  have composes : Composes (Balanced self) := Balanced.composes self
  -- over the way the computation is put together: only its blocks push and pop
  induction h with
  | own x => exact composes.own x
  | bind _ _ hx hf => exact composes.bind hx hf
  | observe _ hx => exact hx.observe
  | allocate side remark value => exact .allocate .allocated side remark value
  | enforce remark _ _ _ ha hb hc => exact composes.enforce .enforced remark ha hb hc
  | inside name _ hbody => exact fun s => (I.block self name _ s).balanced hbody

end Machine

def Call.opened? : Call ω → Option ω
  | .pushed o true => some o
  | _ => none

def Call.closed? : Call ω → Option ω
  | .popped o true => some o
  | _ => none

/-- The objects of the pushes that returned. -/
def openings (calls : List (Call ω)) : List ω := calls.filterMap Call.opened?

/-- The objects of the pops that returned. -/
def closings (calls : List (Call ω)) : List ω := calls.filterMap Call.closed?

@[simp] theorem openings_append (calls calls' : List (Call ω)) :
    openings (calls ++ calls') = openings calls ++ openings calls' :=
  List.filterMap_append

@[simp] theorem closings_append (calls calls' : List (Call ω)) :
    closings (calls ++ calls') = closings calls ++ closings calls' :=
  List.filterMap_append

theorem openings_block (self root : ω) (calls : List (Call ω)) (returned : Bool) :
    openings (.rooted self (some root) :: .pushed root true :: (calls ++ [.popped root returned])) =
      root :: openings calls := by
  have hrest : openings [Call.popped root returned] = [] := rfl
  show root :: openings (calls ++ [.popped root returned]) = _
  rw [openings_append, hrest, List.append_nil]

theorem closings_block (self root : ω) (calls : List (Call ω)) (returned : Bool) :
    closings (.rooted self (some root) :: .pushed root true :: (calls ++ [.popped root returned])) =
      closings calls ++ if returned then [root] else [] := by
  show closings (calls ++ [.popped root returned]) = _
  rw [closings_append]
  cases returned <;> rfl

section
variable [DecidableEq ω] {self : ω}

/-- A call opens on an object and closes on it what it adds to the open namespaces of the object. -/
theorem Standing.count_next? {st st' : Standing ω} {call : Call ω}
    (h : st.next? self call = some st') (hpop : ∀ o, call ≠ .popped o false) (o : ω) :
    st'.opened.count o + (closings [call]).count o =
      st.opened.count o + (openings [call]).count o := by
  have hcons : ∀ (root : ω) (opened : List ω),
      (root :: opened).count o = opened.count o + [root].count o := by
    intro root opened
    rw [← List.singleton_append, List.count_append, Nat.add_comm]
  unfold next? at h
  split at h
  all_goals try split at h
  all_goals cases h
  case h_4 root opened o' returned ho =>
    subst ho
    cases returned with
    | false => rfl
    | true => exact hcons o' opened
  case h_5 root opened o' returned ho =>
    subst ho
    cases returned with
    | false => exact absurd rfl (hpop o')
    | true => exact (hcons o' opened).symm
  -- the other calls neither open nor close
  all_goals rfl

theorem Standing.count_foldlM {calls : List (Call ω)} {st st' : Standing ω}
    (h : calls.foldlM (next? self) st = some st') (hpop : ∀ o, .popped o false ∉ calls) (o : ω) :
    st'.opened.count o + (closings calls).count o =
      st.opened.count o + (openings calls).count o := by
  induction calls generalizing st with
  | nil =>
    cases h
    rfl
  | cons call calls ih =>
    rw [List.foldlM_cons] at h
    obtain ⟨mid, hnext, hrest⟩ := Option.bind_eq_some_iff.mp h
    have hcall := count_next? hnext (fun o' ho' => hpop o' (ho' ▸ List.mem_cons_self)) o
    have hcalls := ih hrest fun o' ho' => hpop o' (List.mem_cons_of_mem _ ho')
    rw [← List.singleton_append, openings_append, closings_append, List.count_append,
      List.count_append]
    omega

/-- If no pop fails, each object closes as many namespaces as it opened. -/
theorem Balanced.count_openings {calls : List (Call ω)} (h : Balanced self calls)
    (hpop : ∀ o, .popped o false ∉ calls) (o : ω) :
    (openings calls).count o = (closings calls).count o := by
  have hcount := Standing.count_foldlM (h []) hpop o
  simpa using hcount.symm

end

/-- No namespace is opened or closed. -/
def Quiet (calls : List (Call ω)) : Prop := openings calls = [] ∧ closings calls = []

theorem Quiet.composes : Composes (@Quiet ω) where
  nil := ⟨rfl, rfl⟩
  append h h' := ⟨by simp [h.1, h'.1], by simp [h.2, h'.2]⟩

theorem Quiet.allocated (o : ω) : Quiet [.allocated o] := ⟨rfl, rfl⟩

theorem Quiet.enforced (o : ω) : Quiet [.enforced o] := ⟨rfl, rfl⟩

/-- At no time more than one namespace is open, and when the computation returns, none is. -/
def Traced.Shallow (t : Traced ω σ α) : Prop :=
  (∀ before after, t.calls = before ++ after →
    (openings before).length ≤ (closings before).length + 1) ∧
  ∀ a, t.result = .ok a → (openings t.calls).length = (closings t.calls).length

namespace Traced.Shallow

/-- What opens at most one namespace in all never has two open. -/
theorem of_openings {t : Traced ω σ α} (hopen : (openings t.calls).length ≤ 1)
    (hend : ∀ a, t.result = .ok a → (openings t.calls).length = (closings t.calls).length) :
    t.Shallow := by
  refine ⟨fun before after hcalls => ?_, hend⟩
  rw [hcalls, openings_append, List.length_append] at hopen
  omega

theorem of_quiet {t : Traced ω σ α} (h : Quiet t.calls) : t.Shallow :=
  of_openings (by simp [h.1]) fun _ _ => by simp [h.1, h.2]

theorem bind {x : Tracing ω σ α} {f : α → Tracing ω σ β} (hx : ∀ s, (x.run s).Shallow)
    (hf : ∀ a s, ((f a).run s).Shallow) (s : σ) : ((x >>= f).run s).Shallow := by
  cases hresult : (x.run s).result with
  | error fault =>
    rw [Tracing.run_bind_of_error hresult]
    exact ⟨(hx s).1, fun _ h => by cases h⟩
  | ok a =>
    obtain ⟨hfirst, hreturned⟩ := hx s
    obtain ⟨hsecond, hend⟩ := hf a (x.run s).state
    have hlevel := hreturned a hresult
    rw [Tracing.run_bind_of_ok hresult]
    refine ⟨fun before after hcalls => ?_, fun b hb => ?_⟩
    -- in the second part, the first one has left nothing open
    · obtain ⟨later, rfl, hlater⟩ | ⟨earlier, hearlier, rfl⟩ :=
        List.append_eq_append_iff.mp hcalls
      · have h := hsecond later after hlater
        simp only [openings_append, closings_append, List.length_append]
        omega
      · exact hfirst before earlier hearlier
    · have h := hend b hb
      simp only [openings_append, closings_append, List.length_append]
      omega

/-- A block is shallow when its body opens nothing. -/
theorem inside {I : Machine ω σ} {self : ω}
    {body : ConstraintSystem (Tracing ω σ) → Tracing ω σ α}
    (hbody : (body (I.system self)).Calls Quiet) (name : Option (Deferred String)) (s : σ) :
    (((I.system self).inside name body).run s).Shallow := by
  have h := I.block self name body s
  generalize ((I.system self).inside name body).run s = t at h
  obtain ⟨left, calls, result⟩ := t
  cases h with
  | rootless fault => exact of_quiet ⟨rfl, rfl⟩
  | refused root fault => exact of_quiet ⟨rfl, rfl⟩
  | unclosed root begun fault =>
    exact of_openings (by simp [openings_block, (hbody begun).1]) fun _ h => by cases h
  | closed root begun =>
    obtain ⟨hopen, hclose⟩ := hbody begun
    exact of_openings (by simp [openings_block, hopen]) fun _ _ => by
      simp [openings_block, closings_block, hopen, hclose]

end Traced.Shallow

namespace Circuit
variable (I : Machine ω σ) (self : ω)

theorem written_building (f : LinearCombination → LinearCombination) (l : LinearCombination) :
    I.Written self (building f l) := .own (pure (f l))

theorem written_bitsFrom (value : Option Int) (i n : Nat) :
    I.Written self (bitsFrom (I.system self) value i n) := by
  induction n generalizing i with
  | zero => exact .own (pure [])
  | succ n ih =>
    have hbuild := written_building I self
    have hbit : I.Written self (bit (I.system self) value i) :=
      .bind (.allocate ..) fun b =>
        .bind (.enforce _ (hbuild _) (hbuild _) (hbuild _)) fun _ => .own (pure b)
    exact .bind (.inside _ hbit) fun b => .bind (ih (i + 1)) fun bs => .own (pure (b :: bs))

/-- Every circuit reaches its system through allocations, enforcements and blocks only. -/
theorem written (c : Circuit) : I.Written self (c.synthesize (I.system self)) := by
  have hbuild := written_building I self
  cases c with
  | empty => exact .own (pure ())
  | multiply x y =>
    exact .bind (.allocate ..) fun _ => .bind (.allocate ..) fun _ => .bind (.allocate ..) fun _ =>
      .enforce _ (hbuild _) (hbuild _) (hbuild _)
  | cubic x =>
    exact .bind (.allocate ..) fun _ => .bind (.allocate ..) fun _ => .bind (.allocate ..) fun _ =>
      .bind (.allocate ..) fun _ => .bind (.enforce _ (hbuild _) (hbuild _) (hbuild _)) fun _ =>
        .bind (.enforce _ (hbuild _) (hbuild _) (hbuild _)) fun _ =>
          .enforce _ (hbuild _) (hbuild _) (hbuild _)
  | bits width value =>
    exact .bind (.allocate ..) fun _ => .bind (written_bitsFrom I self value 0 _) fun _ =>
      .enforce _ (hbuild _) (hbuild _) (hbuild _)
  | failing message =>
    exact .bind (.allocate ..) fun _ => .own (throw (.synthesis message))

variable {I self}

theorem quiet_bit (value : Option Int) (i : Nat) :
    (bit (I.system self) value i).Calls Quiet := by
  have hbuild : ∀ f l, (building f l : Tracing ω σ LinearCombination).Calls Quiet :=
    Quiet.composes.building
  exact Quiet.composes.bind (Tracing.Calls.allocate (Quiet.allocated self) _ _ _) fun b =>
    Quiet.composes.bind (Quiet.composes.enforce (Quiet.enforced self) _ (hbuild _) (hbuild _)
      (hbuild _)) fun _ => Quiet.composes.own (pure b)

theorem shallow_bitsFrom (value : Option Int) (i n : Nat) (s : σ) :
    ((bitsFrom (I.system self) value i n).run s).Shallow := by
  induction n generalizing i s with
  | zero => exact .of_quiet ⟨rfl, rfl⟩
  | succ n ih =>
    exact .bind (.inside (quiet_bit value i) _)
      (fun b => .bind (ih (i + 1)) fun bs _ => .of_quiet ⟨rfl, rfl⟩) s

theorem shallow_synthesizeBits (width : Int) (value : Option Int) (s : σ) :
    ((synthesizeBits (I.system self) width value).run s).Shallow := by
  have hbuild : ∀ f l, (building f l : Tracing ω σ LinearCombination).Calls Quiet :=
    Quiet.composes.building
  exact .bind (fun s => .of_quiet (Tracing.Calls.allocate (Quiet.allocated self) _ _ _ s))
    (fun _ => .bind (shallow_bitsFrom value 0 _) fun _ s => .of_quiet
      (Quiet.composes.enforce (Quiet.enforced self) _ (hbuild _) (hbuild _) (hbuild _) s)) s

end Circuit

/-- Whatever the machine does and wherever it fails, a block opens one namespace on the root that
its system names and closes it there, however its body ends, or opens none; what is written against
a system, blocks in blocks or not, calls it in balance; and the decomposition into bits never has
more than one namespace open, and leaves no object with one unless a pop failed. -/
theorem namespaces_balanced [DecidableEq ω] (I : Machine ω σ) (self : ω) (s : σ) :
    (∀ {α : Type} (name : Option (Deferred String))
      (body : ConstraintSystem (Tracing ω σ) → Tracing ω σ α),
      let t := ((I.system self).inside name body).run s
      Machine.Block self (body (I.system self)) t.calls t.result) ∧
    (∀ {α : Type} {x : Tracing ω σ α}, I.Written self x → Balanced self (x.run s).calls) ∧
    ∀ (width : Int) (value : Option Int),
      let calls := (((Circuit.bits width value).synthesize (I.system self)).run s).calls
      ((∀ o, .popped o false ∉ calls) →
        ∀ o, (openings calls).count o = (closings calls).count o) ∧
      ∀ before after, calls = before ++ after →
        (openings before).length ≤ (closings before).length + 1 := by
  refine ⟨fun name body => I.block self name body s, fun h => h.balanced s, fun width value => ?_⟩
  have hbalanced := (Circuit.written I self (.bits width value)).balanced s
  exact ⟨hbalanced.count_openings, (Circuit.shallow_synthesizeBits width value s).1⟩

/-- The probe as a machine. A builder that fails ends the enforcement. -/
def Probe.machine (o : Options) : Machine Receiver State where
  root _ := pure .root
  push r := (scopes o r).push
  pop r := (scopes o r).pop
  allocate r := (system o r).allocate
  enforce r remark s :=
    match (do tick o; ask o.remarks remark : Probing (Option String)).run s with
    | .error fault s => .ends (.error fault) s
    | .ok remark s =>
      .calls .a .zero s fun
        | .error fault, s => .ends (.error fault) s
        | .ok a, s => .calls .b .zero s fun
          | .error fault, s => .ends (.error fault) s
          | .ok b, s => .calls .c .zero s fun
            | .error fault, s => .ends (.error fault) s
            | .ok c, s =>
              .ends (.ok ()) { s with events := s.events ++ [.enforced r remark ⟨a, b, c⟩] }

/-- The decomposition of two bits on a child of the probe that fails at the second bit: both
namespaces of the root are closed. -/
theorem namespaces_of_stopped_probe :
    let I := Probe.machine ⟨true, true, true, some 5⟩
    let calls := (((Circuit.bits 2 (some 2)).synthesize (I.system .child)).run .initial).calls
    calls = [.allocated .child,
      .rooted .child (some .root), .pushed .root true, .allocated .child, .enforced .child,
      .popped .root true,
      .rooted .child (some .root), .pushed .root true, .allocated .child, .popped .root true] ∧
    Balanced .child calls ∧ ∀ o, (openings calls).count o = (closings calls).count o := by
  intro I calls
  have h := namespaces_balanced I .child .initial
  have hpop : ∀ o, .popped o false ∉ calls := fun o => by cases o <;> decide
  exact ⟨rfl, h.2.1 (Circuit.written I .child _), (h.2.2 2 (some 2)).1 hpop⟩

end RankOne
