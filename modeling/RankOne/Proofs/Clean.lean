import RankOne.Proofs.Padding

/-! Whatever fails shows in the log: a fault that is swallowed has come out of a step before. A run
whose log has no failed step has therefore posted every row to the end, and it returns. -/
namespace RankOne

/-- No step that was logged failed, and none swallowed a fault. -/
def Clean (log : List LogEntry) : Prop := ∀ e ∈ log, ∀ fault, e.answer ≠ .fault fault

def Answer.isFault : Answer → Bool
  | .fault _ => true
  | _ => false

theorem Answer.isFault_eq_false_iff {answer : Answer} :
    answer.isFault = false ↔ ∀ fault, answer ≠ .fault fault := by
  cases answer <;> simp [isFault]

instance : DecidablePred Clean := fun log =>
  decidable_of_iff (∀ e ∈ log, e.answer.isFault = false) (by
    simp only [Answer.isFault_eq_false_iff, Clean])

theorem clean_append {xs ys : List LogEntry} : Clean (xs ++ ys) ↔ Clean xs ∧ Clean ys :=
  List.forall_mem_append

namespace Recording
variable {α β : Type}

/-- Without failed steps, every row is posted if the recording returns. -/
def PostsIfReturned (x : Recording α) : Prop :=
  ∀ r, Clean (x.run r).log → ∀ a, (x.run r).result = .ok a → Posted (x.run r).journal

/-- Without failed steps, the recording returns, and every row is posted. -/
def PostsAndReturns (x : Recording α) : Prop :=
  ∀ r, Clean (x.run r).log → (∃ a, (x.run r).result = .ok a) ∧ Posted (x.run r).journal

theorem PostsAndReturns.of_quiet {x : Recording α}
    (h : ∀ r, ∃ a, (x.run r).result = .ok a ∧ Act.writings (x.run r).journal = []) :
    x.PostsAndReturns := by
  intro r _
  obtain ⟨a, hresult, hjournal⟩ := h r
  refine ⟨⟨a, hresult⟩, fun w hw => ?_⟩
  rw [hjournal] at hw
  cases hw

theorem PostsIfReturned.bind {x : Recording α} {f : α → Recording β} (hx : x.PostsIfReturned)
    (hf : ∀ a, (f a).PostsIfReturned) : (x >>= f).PostsIfReturned := by
  intro r hclean b hb
  cases h : (x.run r).result with
  | error fault =>
    rw [run_bind_of_error h] at hb
    cases hb
  | ok a =>
    rw [run_bind_of_ok h] at hclean hb ⊢
    obtain ⟨hfirst, hsecond⟩ := clean_append.mp hclean
    exact posted_append.mpr ⟨hx r hfirst a h, hf a _ hsecond b hb⟩

theorem PostsAndReturns.bind {x : Recording α} {f : α → Recording β} (hx : x.PostsAndReturns)
    (hf : ∀ a, (f a).PostsAndReturns) : (x >>= f).PostsAndReturns := by
  intro r hclean
  cases h : (x.run r).result with
  | error fault =>
    rw [run_bind_of_error h] at hclean
    obtain ⟨⟨a, ha⟩, -⟩ := hx r hclean
    rw [h] at ha
    cases ha
  | ok a =>
    rw [run_bind_of_ok h] at hclean ⊢
    obtain ⟨hfirst, hsecond⟩ := clean_append.mp hclean
    obtain ⟨hreturns, hposted⟩ := hf a _ hsecond
    exact ⟨hreturns, posted_append.mpr ⟨(hx r hfirst).2, hposted⟩⟩

theorem PostsAndReturns.observe {x : Recording α} (hx : x.PostsAndReturns) :
    (observe x).PostsAndReturns := by
  intro r hclean
  rw [run_observe] at hclean ⊢
  exact ⟨⟨_, rfl⟩, (hx r hclean).2⟩

theorem isOk_of_clean {step : String} {x : Recording Answer} {r : Recorder}
    (clean : Clean ((logged step x).run r).log) : ∃ answer, (x.run r).result = .ok answer := by
  cases h : (x.run r).result with
  | ok answer => exact ⟨answer, rfl⟩
  | error fault =>
    have hentry := clean ⟨step, .fault fault, (x.run r).recorder⟩
      (by simp [Recording.logged, Recording.answered, h])
    exact absurd rfl (hentry fault)

theorem logged_isOk {step : String} {x : Recording Answer} {r : Recorder} {answer : Answer}
    (h : (x.run r).result = .ok answer) : ((logged step x).run r).result = .ok () := by
  simp [Recording.logged, h, Except.map]

theorem PostsIfReturned.logged (step : String) {x : Recording Answer} (hx : x.PostsIfReturned) :
    (logged step x).PostsAndReturns := by
  intro r hclean
  obtain ⟨answer, h⟩ := isOk_of_clean hclean
  have hrest : Clean (x.run r).log := fun e he => hclean e (List.mem_cons_of_mem _ he)
  exact ⟨⟨(), logged_isOk h⟩, hx r hrest answer h⟩

theorem PostsIfReturned.enforce {a b c : Builder Recording}
    (hbuild : (build a b c).PostsIfReturned) : (enforce a b c).PostsIfReturned := by
  intro r hclean u hu
  cases h : ((build a b c).run r).result with
  | error fault =>
    rw [run_enforce_of_error h] at hu
    cases hu
  | ok row =>
    rw [run_enforce_of_ok h] at hclean hu ⊢
    have hinner : Posted ((build a b c).run r).journal := hbuild r hclean row h
    intro w hw
    simp only [Act.writings_opened, Act.writings_append, Act.writings_wrote, Act.writings_nil,
      List.mem_append, List.mem_singleton] at hw
    rcases hw with hw | rfl
    · exact hinner w hw
    · rw [Writing.fault?, Writing.number]
      cases hfault : (((build a b c).run r).recorder.write r.numConstraints row).2 with
      | none => rfl
      | some fault => simp [ended, hfault] at hu

theorem PostsAndReturns.closed :
    Closed (fun _ x => PostsIfReturned x) (fun _ x => PostsAndReturns x) where
  pure a := .of_quiet fun r => ⟨a, rfl, rfl⟩
  recorder := .of_quiet fun r => ⟨r, rfl, rfl⟩
  allocate s := .of_quiet fun r => ⟨r.next s, rfl, rfl⟩
  throw fault := fun r _ a ha => by cases ha
  bind := PostsIfReturned.bind
  bind_whole := PostsAndReturns.bind
  enforce := PostsIfReturned.enforce
  observe := PostsAndReturns.observe
  logged s := PostsIfReturned.logged s.name
  part_of_whole hx := fun r hclean _ _ => (hx r hclean).2

end Recording

/-- A program none of whose steps fails is exported, and has posted every row to the end. -/
theorem Step.export_of_clean {continuing : Bool} {steps : List Step}
    (clean : Clean (exportCircuit (Step.circuit continuing steps)).log) :
    let o := exportCircuit (Step.circuit continuing steps)
    o.result = .ok o.recorder.toExport ∧ Posted o.journal := by
  intro o
  have hposts := Recording.PostsAndReturns.closed.circuit continuing steps .primed
  have haligned : ((Step.circuit continuing steps).run .primed).recorder.Aligned :=
    (Step.circuit_faithful continuing steps).aligned Recorder.aligned_primed
  cases h : ((Step.circuit continuing steps).run .primed).result with
  | error fault =>
    have hrun : o = _ := Recording.run_exported_of_error h
    have hlog : o.log = _ := congrArg Outcome.log hrun
    obtain ⟨⟨u, hu⟩, -⟩ := hposts (hlog ▸ clean)
    rw [h] at hu
    cases hu
  | ok returned =>
    have hrun : o = _ := Recording.run_exported_of_ok h haligned
    have hlog : o.log = _ := congrArg Outcome.log hrun
    have hposted := (hposts (hlog ▸ clean)).2
    rw [hrun]
    exact ⟨rfl, posted_append.mpr ⟨hposted, haligned.posted_paddingActs⟩⟩

end RankOne
