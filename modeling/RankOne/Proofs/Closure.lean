import RankOne.Export
import RankOne.Program

/-! A property of recordings that every operation keeps holds of every program. Two properties go
hand in hand, one of what happens inside a step and a stronger one of steps that were run one
after the other and logged. -/
namespace RankOne

/-- The operations keep `part` inside a step, and `whole` from one logged step to the next. -/
structure Recording.Closed (part whole : ∀ ⦃α : Type⦄, Recording α → Prop) : Prop where
  pure {α : Type} (a : α) : whole (Pure.pure a)
  recorder : whole recorder
  allocate (s : Side) : whole (allocate s)
  throw {α : Type} (fault : Fault) : part (throwThe Fault fault : Recording α)
  bind {α β : Type} {x : Recording α} {f : α → Recording β} (hx : part x)
    (hf : ∀ a, part (f a)) : part (x >>= f)
  bind_whole {α β : Type} {x : Recording α} {f : α → Recording β} (hx : whole x)
    (hf : ∀ a, whole (f a)) : whole (x >>= f)
  enforce {a b c : Builder Recording} (hbuild : part (build a b c)) : part (enforce a b c)
  observe {α : Type} {x : Recording α} (hx : whole x) : whole (observe x)
  logged (s : Step) (hs : part s.run) : whole (logged s.name s.run)
  part_of_whole {α : Type} {x : Recording α} (hx : whole x) : part x

namespace Recording.Closed
variable {part whole : ∀ ⦃α : Type⦄, Recording α → Prop} {α β : Type}

theorem pure_part (h : Closed part whole) (a : α) : part (Pure.pure a : Recording α) :=
  h.part_of_whole (h.pure a)

theorem map (h : Closed part whole) {x : Recording α} (f : α → β) (hx : part x) :
    part (f <$> x) := by
  rw [map_eq_pure_bind]
  exact h.bind hx fun a => h.pure_part (f a)

theorem resume (h : Closed part whole) (e : Except Fault α) :
    part (RankOne.resume e : Recording α) := by
  cases e with
  | ok a => exact h.pure_part a
  | error fault => exact h.throw fault

theorem build (h : Closed part whole) {a b c : Builder Recording} (ha : ∀ l, part (a l))
    (hb : ∀ l, part (b l)) (hc : ∀ l, part (c l)) : part (build a b c) :=
  h.bind (ha _) fun _ => h.bind (hb _) fun _ => h.bind (hc _) fun _ => h.pure_part _

theorem lastRow (h : Closed part whole) : part lastRow := by
  refine h.bind (h.part_of_whole h.recorder) fun r => ?_
  cases r.rows.getLast? with
  | none => exact h.pure_part _
  | some row => exact h.pure_part _

mutual

theorem step (h : Closed part whole) : ∀ s : Step, part s.run
  | .allocate s => h.map _ (h.part_of_whole (h.allocate s))
  | .one => h.pure_part _
  | .root => h.bind (h.pure_part _) fun _ => h.pure_part _
  | .push => h.bind (h.pure_part _) fun _ => h.pure_part _
  | .pop => h.bind (h.pure_part _) fun _ => h.pure_part _
  | .enforce a b c =>
    h.bind (h.enforce (h.build (h.edits a) (h.edits b) (h.edits c))) fun _ => h.lastRow
  | .inside body => by
    rw [Step.run, Recorder.system_inside]
    exact h.bind (h.part_of_whole (h.steps body)) fun _ => h.pure_part _
  | .column .. =>
    h.bind (h.part_of_whole h.recorder) fun _ => h.bind (h.resume _) fun _ => h.pure_part _
  | .raise _ => h.throw _
  | .attempt body => by
    refine h.bind (h.part_of_whole (h.observe (h.steps body))) fun ended => ?_
    cases ended with
    | ok _ => exact h.pure_part _
    | error fault => exact h.pure_part _

theorem steps (h : Closed part whole) : ∀ steps : List Step, whole (Step.runAll steps)
  | [] => h.pure _
  | s :: steps => h.bind_whole (h.logged s (h.step s)) fun _ => h.steps steps

theorem edit (h : Closed part whole) : ∀ (e : Edit) (l : LinearCombination), part (e.apply l)
  | .combine .., _ => h.resume _
  | .fresh s, _ => h.bind (h.part_of_whole (h.allocate s)) fun _ => h.pure_part _
  | .replace _, _ => h.pure_part _
  | .run steps, _ => h.bind (h.part_of_whole (h.steps steps)) fun _ => h.pure_part _
  | .raise _, _ => h.throw _

theorem edits (h : Closed part whole) :
    ∀ (edits : List Edit) (l : LinearCombination), part (Edit.applyAll edits l)
  | [], _ => h.pure_part _
  | e :: edits, l => h.bind (h.edit e l) fun next => h.edits edits next

end

theorem stepsContinuing (h : Closed part whole) :
    ∀ steps : List Step, whole (Step.runContinuing steps)
  | [] => h.pure _
  | s :: steps =>
    h.bind_whole (h.observe (h.logged s (h.step s))) fun _ => h.stepsContinuing steps

theorem forM (h : Closed part whole) (xs : List α) {f : α → Recording PUnit}
    (hf : ∀ a, part (f a)) : part (xs.forM f) := by
  induction xs with
  | nil => exact h.pure_part _
  | cons a xs ih => exact h.bind (hf a) fun _ => ih

theorem pad (h : Closed part whole) : part pad :=
  h.bind (h.part_of_whole h.recorder) fun _ => h.forM _ fun _ =>
    h.enforce (h.build (fun _ => h.pure_part _) (fun _ => h.pure_part _) fun _ => h.pure_part _)

theorem exported (h : Closed part whole) {circuit : Recording Unit} (hcircuit : part circuit) :
    part (exported circuit) :=
  h.bind hcircuit fun _ => h.bind h.pad fun _ =>
    h.bind (h.part_of_whole h.recorder) fun _ => h.pure_part _

end Recording.Closed

end RankOne
