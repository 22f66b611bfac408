import RankOne.Proofs.Chronicle

/-! Padding appends a row for each input that holds the input alone in `A`, and enters it in the
column of the input. It never fails, since a recorder that circuits were run on has a column for
every input. -/
namespace RankOne

/-- The row that pads an input. -/
def Row.padding (index : Nat) : Row :=
  ⟨LinearCombination.zero.plus (Variable.mk .input index), .zero, .zero⟩

namespace Recording
variable {α β : Type}

/-- A recording that returned was run part by part. -/
theorem of_bind_eq_ok {x : Recording α} {f : α → Recording β} {r : Recorder} {b : β}
    (h : ((x >>= f).run r).result = .ok b) :
    ∃ a, (x.run r).result = .ok a ∧
      ((x >>= f).run r).recorder = ((f a).run (x.run r).recorder).recorder ∧
      ((f a).run (x.run r).recorder).result = .ok b := by
  cases hx : (x.run r).result with
  | error fault =>
    rw [run_bind_of_error hx] at h
    cases h
  | ok a =>
    rw [run_bind_of_ok hx] at h ⊢
    exact ⟨a, rfl, rfl, h⟩

/-- The padding row of an input is appended to the rows, whatever becomes of its posting. -/
theorem rows_padInput (index : Nat) (r : Recorder) :
    ((padInput index).run r).recorder.rows = r.rows ++ [.padding index] := rfl

theorem count_padInput (index : Nat) (r : Recorder) (s : Side) :
    ((padInput index).run r).recorder.count s = r.count s := by
  cases s <;> rfl

theorem run_forM_padInput (indices : List Nat) {r : Recorder}
    (h : ((indices.forM padInput).run r).result = .ok ()) :
    ((indices.forM padInput).run r).recorder.rows = r.rows ++ indices.map Row.padding ∧
      ∀ s, ((indices.forM padInput).run r).recorder.count s = r.count s := by
  induction indices generalizing r with
  | nil => exact ⟨(List.append_nil _).symm, fun _ => rfl⟩
  | cons index indices ih =>
    have hcons : (index :: indices).forM padInput =
        padInput index >>= fun _ => indices.forM padInput := rfl
    rw [hcons] at h ⊢
    obtain ⟨_, -, hrecorder, hrest⟩ := of_bind_eq_ok h
    obtain ⟨hrows, hcount⟩ := ih hrest
    rw [hrecorder]
    constructor
    · rw [hrows, rows_padInput, List.append_assoc]
      rfl
    · intro s
      rw [hcount, count_padInput]

/-- An export that was made holds the rows of the circuit and the padding of its inputs. -/
theorem of_exported {circuit : Recording Unit} {r : Recorder} {ex : Export}
    (h : ((exported circuit).run r).result = .ok ex) :
    let recorded := (circuit.run r).recorder
    ∃ final : Recorder, ex = final.toExport ∧
      final.rows = recorded.rows ++ (List.range recorded.numInputs).map Row.padding ∧
      ∀ s, final.count s = recorded.count s := by
  intro recorded
  obtain ⟨_, -, -, hpad⟩ := of_bind_eq_ok h
  obtain ⟨_, hpadded, -, hmade⟩ := of_bind_eq_ok hpad
  exact ⟨(pad.run recorded).recorder, (Except.ok.inj hmade).symm, run_forM_padInput _ hpadded⟩

end Recording

theorem Row.entries_padding (index : Nat) :
    (padding index).entries = [(.a, ⟨1, ⟨.input, index⟩⟩)] := rfl

namespace Recorder

/-- The recorder when its first `n` inputs are padded. -/
def padded (r : Recorder) (n : Nat) : Recorder :=
  { r with
    rows := r.rows ++ (List.range n).map Row.padding
    numConstraints := r.numConstraints + n
    ledgers := r.ledgers.modify .input .a fun columns => columns.mapIdx fun i column =>
      if i < n then column ++ [⟨1, r.numConstraints + i⟩] else column }

/-- What padding the first `n` inputs leaves in the journal. -/
def paddingActs (r : Recorder) (n : Nat) : List Act :=
  (List.range n).flatMap fun i => [.opened, .wrote ⟨r.padded i, .padding i, r.padded i⟩]

@[simp] theorem count_padded (r : Recorder) (n : Nat) (s : Side) :
    (r.padded n).count s = r.count s := by
  cases s <;> rfl

theorem columns_padded (r : Recorder) (n : Nat) (s : Side) (m : Matrix) :
    (r.padded n).ledgers.columns s m =
      if s = .input ∧ m = .a then
        (r.ledgers.columns s m).mapIdx fun i column =>
          if i < n then column ++ [⟨1, r.numConstraints + i⟩] else column
      else r.ledgers.columns s m :=
  Ledgers.columns_modify _ _ _ _ _ _

theorem combinations_padded (r : Recorder) (n : Nat) (m : Matrix) :
    (r.padded n).combinations m =
      r.combinations m ++ (List.range n).map fun i => (Row.padding i).get m := by
  simp [combinations, padded]

theorem Aligned.padded {r : Recorder} (h : r.Aligned) (n : Nat) : (r.padded n).Aligned := by
  intro s m
  rw [columns_padded, count_padded]
  split <;> simp [h s m]

theorem padded_zero (r : Recorder) : r.padded 0 = r := by
  have hledgers : (r.padded 0).ledgers = r.ledgers := by
    apply Ledgers.ext_columns
    intro s m
    rw [columns_padded]
    split
    · apply List.ext_getElem?
      intro i
      simp [List.getElem?_mapIdx]
    · rfl
  have hrows : (r.padded 0).rows = r.rows := List.append_nil r.rows
  cases r
  simp_all [padded]

/-- Padding one input more enters one posting in its column. -/
theorem ledgers_padded_succ (r : Recorder) (n : Nat) :
    (r.padded (n + 1)).ledgers =
      (r.padded n).ledgers.enter .input .a n ⟨1, r.numConstraints + n⟩ := by
  apply Ledgers.ext_columns
  intro s m
  rw [Ledgers.columns_enter, columns_padded, columns_padded]
  split
  · apply List.ext_getElem?
    intro i
    simp only [List.getElem?_modify, List.getElem?_mapIdx]
    cases (r.ledgers.columns s m)[i]? with
    | none => rfl
    | some column =>
      simp only [Option.map_some, Option.map_eq_map]
      rcases Nat.lt_trichotomy i n with hlt | rfl | hlt
      · simp [hlt, Nat.lt_succ_of_lt hlt, Nat.ne_of_gt hlt]
      · simp
      · simp [Nat.not_lt_of_gt hlt, Nat.not_lt.mpr hlt, Nat.ne_of_lt hlt]
  · rfl

/-- The recorder has a column for the input, so its padding row is posted to the end. -/
theorem Aligned.write_padding {r : Recorder} (h : r.Aligned) {i : Nat} (hi : i < r.numInputs)
    (number : Nat) :
    r.write number (.padding i) =
      ({ r with
          rows := r.rows ++ [.padding i]
          numConstraints := r.numConstraints + 1
          ledgers := r.ledgers.enter .input .a i ⟨1, number⟩ }, none) := by
  have hplace : r.ledgers.place? ⟨.input, i⟩ .a = some i := by
    rw [Ledgers.place?, h]
    exact position?_natCast hi
  have hpost : r.ledgers.post number (Row.padding i).entries =
      (r.ledgers.enter .input .a i ⟨1, number⟩, none) := by
    rw [Row.entries_padding]
    simp only [Ledgers.post, Ledgers.find_eq_ok_iff.mpr hplace]
    rfl
  simp only [Recorder.write, hpost]
  rfl

theorem Aligned.write_padded {r : Recorder} (h : r.Aligned) {n : Nat} (hn : n < r.numInputs) :
    (r.padded n).write (r.numConstraints + n) (.padding n) = (r.padded (n + 1), none) := by
  rw [(h.padded n).write_padding hn, ← ledgers_padded_succ]
  simp [Recorder.padded, List.range_succ, Nat.add_assoc]

theorem writings_paddingActs (r : Recorder) (n : Nat) :
    Act.writings (r.paddingActs n) =
      (List.range n).map fun i => ⟨r.padded i, .padding i, r.padded i⟩ := by
  rw [paddingActs, Act.writings, List.filterMap_flatMap, List.map_eq_flatMap]
  rfl

theorem Aligned.posted_paddingActs {r : Recorder} (h : r.Aligned) :
    Posted (r.paddingActs r.numInputs) := by
  intro w hw
  rw [writings_paddingActs] at hw
  obtain ⟨i, hi, rfl⟩ := List.mem_map.mp hw
  exact congrArg Prod.snd (h.write_padded (List.mem_range.mp hi))

end Recorder

namespace Recording

theorem run_padInput {r : Recorder} (h : r.Aligned) {n : Nat} (hn : n < r.numInputs) :
    (padInput n).run (r.padded n) =
      ⟨r.padded (n + 1), [], [.opened, .wrote ⟨r.padded n, .padding n, r.padded n⟩], .ok ()⟩ := by
  have hwrite := h.write_padded hn
  have hbuilt : ((build (fun l => return l.plus (Variable.mk .input n)) (fun l => return l)
      (fun l => return l)).run (r.padded n)).result = .ok (.padding n) := rfl
  refine (run_enforce_of_ok hbuilt).trans ?_
  show Outcome.mk ((r.padded n).write (r.numConstraints + n) (.padding n)).1 _ _
    (ended ((r.padded n).write (r.numConstraints + n) (.padding n)).2) = _
  rw [hwrite]
  rfl

/-- Padding the first inputs of a recorder never fails. -/
theorem run_padInputs {r : Recorder} (h : r.Aligned) {n : Nat} (hn : n ≤ r.numInputs) :
    ((List.range n).forM padInput).run r = ⟨r.padded n, [], r.paddingActs n, .ok ()⟩ := by
  induction n with
  | zero =>
    rw [r.padded_zero]
    rfl
  | succ n ih =>
    have hlast := run_padInput h hn
    have hfirst := ih (by omega)
    have hsplit : (List.range (n + 1)).forM padInput =
        (List.range n).forM padInput >>= fun _ => padInput n := by
      rw [List.range_succ, ← bind_pure (padInput n)]
      exact List.forM_append
    rw [hsplit, run_bind_of_ok (by rw [hfirst]), hfirst, hlast]
    simp [Recorder.paddingActs, List.range_succ]

theorem Faithful.aligned {x : Recording α} (hx : x.Faithful) {r : Recorder} (h : r.Aligned) :
    (x.run r).recorder.Aligned := by
  rw [← (hx r).replay_eq]
  exact h.replay _

/-- A circuit that returns is exported, with the padding of the inputs that it leaves. -/
theorem run_exported_of_ok {circuit : Recording Unit} {r : Recorder}
    (returned : (circuit.run r).result = .ok ()) (h : (circuit.run r).recorder.Aligned) :
    let s := (circuit.run r).recorder
    let final := s.padded s.numInputs
    (exported circuit).run r =
      ⟨final, (circuit.run r).log, (circuit.run r).journal ++ s.paddingActs s.numInputs,
        .ok final.toExport⟩ := by
  intro s final
  have hpad : pad.run s = ⟨final, [], s.paddingActs s.numInputs, .ok ()⟩ :=
    run_padInputs h (Nat.le_refl _)
  have hmade : (do return (← recorder).toExport : Recording Export).run final =
      ⟨final, [], [], .ok final.toExport⟩ := rfl
  rw [exported, run_bind_of_ok returned, run_bind_of_ok (by rw [hpad]), hpad, hmade]
  simp [s]

/-- What was exported of a circuit is its recorder, padded. -/
theorem Faithful.export_eq {circuit : Recording Unit} (hc : circuit.Faithful) {ex : Export}
    (completed : (exportCircuit circuit).result = .ok ex) :
    let recorded := (circuit.run .primed).recorder
    ex = (recorded.padded recorded.numInputs).toExport ∧ 1 ≤ recorded.numInputs := by
  obtain ⟨_, returned, -, -⟩ := of_bind_eq_ok completed
  have hrun := run_exported_of_ok returned (hc.aligned Recorder.aligned_primed)
  rw [exportCircuit, hrun] at completed
  have hle := Recorder.primed.count_le_replay (circuit.run .primed).journal .input
  rw [(hc .primed).replay_eq] at hle
  exact ⟨(Except.ok.inj completed).symm, hle⟩

theorem run_exported_of_error {circuit : Recording Unit} {r : Recorder} {fault : Fault}
    (failed : (circuit.run r).result = .error fault) :
    (exported circuit).run r =
      ⟨(circuit.run r).recorder, (circuit.run r).log, (circuit.run r).journal, .error fault⟩ :=
  run_bind_of_error failed _

end Recording

@[simp] theorem Recorder.rows_toExport (r : Recorder) : r.toExport.rows = r.rows := by
  rw [toExport, Export.rows]
  simp only [combinations, List.zip_map', List.map_map]
  exact List.map_id'' (fun _ => rfl) r.rows

/-- The program returns, so it is exported with one more row for each input. The padding enters one
posting in the `A` column of each input, numbered from the count that the circuit left, and leaves
all other columns as they are. -/
theorem export_of_returned (continuing : Bool) (steps : List Step)
    (returned : ((Step.circuit continuing steps).run .primed).result = .ok ()) :
    let s := ((Step.circuit continuing steps).run .primed).recorder
    let n := s.numInputs
    1 ≤ n ∧ ∃ ex, (exportCircuit (Step.circuit continuing steps)).result = .ok ex ∧
      ex.combinations.a = s.combinations .a ++ (List.range n).map (fun i => ⟨[⟨1, ⟨.input, i⟩⟩]⟩) ∧
      ex.combinations.b = s.combinations .b ++ List.replicate n .zero ∧
      ex.combinations.c = s.combinations .c ++ List.replicate n .zero ∧
      ex.numInputs = n ∧ ex.numAux = s.numAux ∧
      ex.ledgers.aux = s.ledgers.aux ∧
      ex.ledgers.input.b = s.ledgers.input.b ∧ ex.ledgers.input.c = s.ledgers.input.c ∧
      s.ledgers.input.a.length = n ∧
      ex.ledgers.input.a =
        s.ledgers.input.a.mapIdx fun i column => column ++ [⟨1, s.numConstraints + i⟩] := by
  intro s n
  have hfaithful := Step.circuit_faithful continuing steps
  have haligned : s.Aligned := hfaithful.aligned Recorder.aligned_primed
  have hcount : 1 ≤ n := by
    have hle := Recorder.primed.count_le_replay
      ((Step.circuit continuing steps).run .primed).journal .input
    rwa [(hfaithful .primed).replay_eq] at hle
  have hlength : s.ledgers.input.a.length = n := haligned .input .a
  have hrun := Recording.run_exported_of_ok returned haligned
  have hempty : (List.range n).map (fun _ => LinearCombination.zero) = List.replicate n .zero := by
    rw [List.map_const', List.length_range]
  refine ⟨hcount, (s.padded n).toExport, congrArg Outcome.result hrun, s.combinations_padded n .a,
    ?_, ?_, rfl, rfl, rfl, rfl, rfl, hlength, ?_⟩
  · rw [← hempty]
    exact s.combinations_padded n .b
  · rw [← hempty]
    exact s.combinations_padded n .c
  · show s.ledgers.input.a.mapIdx (fun i column =>
      if i < n then column ++ [⟨1, s.numConstraints + i⟩] else column) = _
    apply List.ext_getElem (by simp)
    intro i hi _
    have hlt : i < n := by simpa [hlength] using hi
    simp [hlt]

/-- Two attempts that fail: one has posted its first term when the second has no column, the other
has allocated a variable. -/
def Step.leakyProgram : List Step :=
  [.allocate .input,
    .attempt [.enforce [.combine .plus (.variable .one), .combine .plus (.variable ⟨.aux, 3⟩)] [] []],
    .attempt [.enforce [.fresh .aux, .raise "stop"] [] []]]

/-- One row is not counted, so the padding is numbered from zero behind it. -/
theorem export_of_leaky_program :
    let circuit := Step.circuit false Step.leakyProgram
    let s := (circuit.run .primed).recorder
    (circuit.run .primed).result = .ok () ∧ s.rows.length = 1 ∧ s.numConstraints = 0 ∧
      ∃ ex, (exportCircuit circuit).result = .ok ex ∧ ex.numAux = 1 ∧
        ex.ledgers.input.a = [[⟨1, 0⟩, ⟨1, 0⟩], [⟨1, 1⟩]] := by
  intro circuit s
  have returned : (circuit.run .primed).result = .ok () := rfl
  obtain ⟨-, ex, hex, -, -, -, -, haux, -, -, -, -, hinput⟩ :=
    export_of_returned false Step.leakyProgram returned
  exact ⟨returned, rfl, rfl, ex, hex, haux, hinput⟩

end RankOne
