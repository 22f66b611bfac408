import RankOne.ExportDump
import RankOne.Proofs.Decoding

/-! A dump tells every row of an export: line breaks tell the lines apart, and in a row every number
ends before a character that no number has. Only the label of an auxiliary variable is lost. -/
namespace RankOne

/-- The variable as its text shows it. -/
def Variable.shown (v : Variable) : Variable := ⟨v.side.kind, v.index⟩

def Term.shown (t : Term) : Term := ⟨t.coeff, t.var.shown⟩

def LinearCombination.shown (l : LinearCombination) : LinearCombination :=
  ⟨l.terms.map Term.shown⟩

theorem Variable.shown_eq_self {v : Variable} (h : v.kind = .input ∨ v.kind = .aux) :
    v.shown = v := by
  obtain ⟨kind, index⟩ := v
  rcases h with rfl | rfl <;> simp [shown, side, Side.kind]

namespace Dump

def isNumeral (c : Char) : Bool := c.isDigit || c == '-'

/-- Reads a number from the front of a text. What stands behind it is given back, here and by the
readers below. -/
def readNumber? (text : List Char) : Option (Int × List Char) := do
  let number ← (String.ofList (text.takeWhile isNumeral)).toInt?
  return (number, text.dropWhile isNumeral)

def readSide? : List Char → Option (Side × List Char)
  | 'I' :: 'n' :: 'p' :: 'u' :: 't' :: '(' :: rest => some (.input, rest)
  | 'A' :: 'u' :: 'x' :: '(' :: rest => some (.aux, rest)
  | _ => none

def readVariable? (text : List Char) : Option (Variable × List Char) := do
  let (side, text) ← readSide? text
  match ← readNumber? text with
  | (index, ')' :: rest) => return (⟨side.kind, index⟩, rest)
  | _ => none

def readTerm? : List Char → Option (Term × List Char)
  | '(' :: text => do
    match ← readNumber? text with
    | (coeff, ',' :: ' ' :: text) =>
      match ← readVariable? text with
      | (v, ')' :: rest) => return (⟨coeff, v⟩, rest)
      | _ => none
    | _ => none
  | _ => none

/-- Reads terms up to the closing bracket, at most as many as the fuel allows. -/
def readTerms? : Nat → List Char → Option (List Term)
  | 0, _ => none
  | fuel + 1, text => do
    match ← readTerm? text with
    | (t, [']']) => return [t]
    | (t, ',' :: ' ' :: text) => return t :: (← readTerms? fuel text)
    | _ => none

/-- Every term takes some characters, so the length of the line is fuel enough. -/
def readCombination? (line : String) : Option LinearCombination :=
  match line.toList with
  | '[' :: text =>
    match readTerms? text.length text with
    | some terms => some ⟨terms⟩
    | none => if text = [']'] then some .zero else none
  | _ => none

def isRow (line : String) : Bool := line.toList.head? == some '['

/-- Reads the heading of a matrix and the rows below it. -/
def readRows? (m : Matrix) : List String → Option (List LinearCombination × List String)
  | [] => none
  | line :: lines =>
    if line = Export.heading m then do
      let rows ← (lines.takeWhile isRow).mapM readCombination?
      return (rows, lines.dropWhile isRow)
    else none

def readLines? (lines : List String) : Option (Triple (List LinearCombination)) := do
  let (a, lines) ← readRows? .a lines
  let (b, lines) ← readRows? .b lines
  let (c, lines) ← readRows? .c lines
  if lines.isEmpty then return ⟨a, b, c⟩ else none

def readText? (text : String) : Option (Triple (List LinearCombination)) :=
  readLines? ((text.toList.splitOn '\n').map String.ofList)

theorem isNumeral_of_mem_repr {n : Int} {c : Char} (h : c ∈ n.repr.toList) :
    isNumeral c = true := by
  have digits : ∀ k : Nat, ∀ c ∈ k.repr.toList, isNumeral c = true := by
    intro k c hc
    rw [Nat.toList_repr] at hc
    simp [isNumeral, Nat.isDigit_of_mem_toDigits (by decide) (by decide) hc]
  cases n with
  | ofNat k => exact digits k c h
  | negSucc k =>
    have hsign : (Int.negSucc k).repr.toList = '-' :: k.succ.repr.toList := by simp [Int.repr]
    rw [hsign] at h
    rcases List.mem_cons.mp h with rfl | h
    · rfl
    · exact digits _ c h

/-- A number is read up to the first character that belongs to none. -/
theorem readNumber?_append (n : Int) {c : Char} (hc : isNumeral c = false) (rest : List Char) :
    readNumber? (n.repr.toList ++ c :: rest) = some (n, c :: rest) := by
  have hall : ∀ c ∈ n.repr.toList, isNumeral c = true := fun c h => isNumeral_of_mem_repr h
  have htake : (n.repr.toList ++ c :: rest).takeWhile isNumeral = n.repr.toList := by
    simp [List.takeWhile_append_of_pos hall, hc]
  have hdrop : (n.repr.toList ++ c :: rest).dropWhile isNumeral = c :: rest := by
    simp [List.dropWhile_append_of_pos hall, hc]
  rw [readNumber?, htake, hdrop]
  simp

theorem readVariable?_append (v : Variable) (rest : List Char) :
    readVariable? (v.text.toList ++ rest) = some (v.shown, rest) := by
  have hnumber : readNumber? (v.index.repr.toList ++ ')' :: rest) = _ :=
    readNumber?_append v.index rfl rest
  cases hside : v.side with
  | input => simp [Variable.text, hside, readVariable?, readSide?, hnumber, Variable.shown]
  | aux => simp [Variable.text, hside, readVariable?, readSide?, hnumber, Variable.shown]

theorem readTerm?_append (t : Term) (rest : List Char) :
    readTerm? (t.text.toList ++ rest) = some (t.shown, rest) := by
  have hcoeff : ∀ text, readNumber? (t.coeff.repr.toList ++ ',' :: text) =
      some (t.coeff, ',' :: text) := readNumber?_append t.coeff rfl
  simp [Term.text, readTerm?, hcoeff, readVariable?_append, Term.shown]

/-- Terms with separators between them, as they stand between the brackets. -/
def joined (ts : List Term) : List Char := (String.intercalate ", " (ts.map Term.text)).toList

theorem joined_singleton (t : Term) : joined [t] = t.text.toList := by simp [joined]

theorem joined_cons_cons (t t' : Term) (ts : List Term) :
    joined (t :: t' :: ts) = t.text.toList ++ ',' :: ' ' :: joined (t' :: ts) := by
  simp only [joined, List.map_cons]
  rw [String.intercalate_cons_cons, String.toList_append, String.toList_append]
  simp only [List.append_assoc]
  rfl

theorem toList_text (l : LinearCombination) : l.text.toList = '[' :: (joined l.terms ++ [']']) := by
  simp [LinearCombination.text, joined]

theorem readTerms?_joined (t : Term) (ts : List Term) {fuel : Nat} (hfuel : ts.length < fuel) :
    readTerms? fuel (joined (t :: ts) ++ [']']) = some ((t :: ts).map Term.shown) := by
  induction ts generalizing t fuel with
  | nil =>
    obtain ⟨fuel, rfl⟩ := Nat.exists_eq_add_one_of_ne_zero (Nat.ne_zero_of_lt hfuel)
    simp [readTerms?, joined_singleton, readTerm?_append]
  | cons t' ts ih =>
    obtain ⟨fuel, rfl⟩ := Nat.exists_eq_add_one_of_ne_zero (Nat.ne_zero_of_lt hfuel)
    have hrest := ih t' (Nat.lt_of_succ_lt_succ hfuel)
    have htext : joined (t :: t' :: ts) ++ [']'] =
        t.text.toList ++ ',' :: ' ' :: (joined (t' :: ts) ++ [']']) := by
      simp [joined_cons_cons]
    rw [htext, readTerms?, readTerm?_append]
    simp only [Option.bind_eq_bind, Option.bind_some, hrest]
    rfl

theorem length_le_length_joined (t : Term) (ts : List Term) :
    ts.length ≤ (joined (t :: ts)).length := by
  induction ts generalizing t with
  | nil => exact Nat.zero_le _
  | cons t' ts ih =>
    have hrest := ih t'
    simp only [joined_cons_cons, List.length_append, List.length_cons]
    omega

/-- The terms of a combination stand in brackets, with a separator between two of them. -/
theorem readCombination?_text (l : LinearCombination) :
    readCombination? l.text = some l.shown := by
  obtain ⟨terms⟩ := l
  cases terms with
  | nil => rfl
  | cons t ts =>
    have hfuel : ts.length < (joined (t :: ts) ++ [']']).length := by
      rw [List.length_append]
      exact Nat.lt_succ_of_le (length_le_length_joined t ts)
    simp only [readCombination?, toList_text, readTerms?_joined t ts hfuel]
    rfl

theorem newline_not_mem_repr (n : Int) : '\n' ∉ n.repr.toList := fun h => by
  have hnumeral := isNumeral_of_mem_repr h
  contradiction

theorem newline_not_mem_term (t : Term) : '\n' ∉ t.text.toList := by
  have hvariable : '\n' ∉ t.var.text.toList := by
    cases hside : t.var.side <;> simp [Variable.text, hside, newline_not_mem_repr]
  simp [Term.text, newline_not_mem_repr, hvariable]

theorem newline_not_mem_joined (t : Term) (ts : List Term) : '\n' ∉ joined (t :: ts) := by
  induction ts generalizing t with
  | nil =>
    rw [joined_singleton]
    exact newline_not_mem_term t
  | cons t' ts ih => simp [joined_cons_cons, newline_not_mem_term, ih]

theorem newline_not_mem_text (l : LinearCombination) : '\n' ∉ l.text.toList := by
  obtain ⟨terms⟩ := l
  cases terms with
  | nil => decide
  | cons t ts => simp [toList_text, newline_not_mem_joined]

theorem isRow_text (l : LinearCombination) : isRow l.text = true := by
  simp [isRow, LinearCombination.text]

/-- The rows of a matrix end before a line that is no row. -/
theorem readRows?_append (ex : Export) (m : Matrix) {lines : List String}
    (h : ∀ line ∈ lines.head?, isRow line = false) :
    readRows? m (ex.dumpOf m ++ lines) =
      some ((ex.combinations.get m).map LinearCombination.shown, lines) := by
  have hall : ∀ line ∈ (ex.combinations.get m).map LinearCombination.text, isRow line = true := by
    intro line hline
    obtain ⟨l, -, rfl⟩ := List.mem_map.mp hline
    exact isRow_text l
  have hread : ((ex.combinations.get m).map LinearCombination.text).mapM readCombination? =
      some ((ex.combinations.get m).map LinearCombination.shown) := by
    rw [List.mapM_map]
    exact mapM_eq_some_map fun l _ => readCombination?_text l
  have htake : lines.takeWhile isRow = [] := by
    cases lines with
    | nil => rfl
    | cons line lines => simp [h line rfl]
  have hdrop : lines.dropWhile isRow = lines := by
    cases lines with
    | nil => rfl
    | cons line lines => simp [h line rfl]
  simp [readRows?, Export.dumpOf, List.takeWhile_append_of_pos hall,
    List.dropWhile_append_of_pos hall, htake, hdrop, hread]

theorem readLines?_dump (ex : Export) :
    readLines? ex.dump = some (ex.combinations.map (List.map LinearCombination.shown)) := by
  have hdump : ex.dump = ex.dumpOf .a ++ (ex.dumpOf .b ++ (ex.dumpOf .c ++ [])) := by
    simp [Export.dump, Matrix.all]
  have hb : isRow (Export.heading .b) = false := by decide
  have hc : isRow (Export.heading .c) = false := by decide
  have hfirst : readRows? .a (ex.dumpOf .a ++ (ex.dumpOf .b ++ (ex.dumpOf .c ++ []))) = _ :=
    readRows?_append ex .a (by simp [Export.dumpOf, hb])
  have hsecond : readRows? .b (ex.dumpOf .b ++ (ex.dumpOf .c ++ [])) = _ :=
    readRows?_append ex .b (by simp [Export.dumpOf, hc])
  have hthird : readRows? .c (ex.dumpOf .c ++ []) = _ := readRows?_append ex .c (by simp)
  rw [hdump, readLines?, hfirst]
  simp only [Option.bind_eq_bind, Option.bind_some, hsecond, hthird]
  rfl

theorem lines_dumpText (ex : Export) :
    (ex.dumpText.toList.splitOn '\n').map String.ofList = ex.dump := by
  have hlines : ∀ line ∈ ex.dump.map String.toList, '\n' ∉ line := by
    intro line hline
    obtain ⟨s, hs, rfl⟩ := List.mem_map.mp hline
    obtain ⟨m, -, hs⟩ := List.mem_flatMap.mp hs
    rcases List.mem_cons.mp hs with rfl | hs
    · cases m <;> decide
    · obtain ⟨l, -, rfl⟩ := List.mem_map.mp hs
      exact newline_not_mem_text l
  have hne : ex.dump.map String.toList ≠ [] := by
    simp [Export.dump, Matrix.all, Export.dumpOf]
  have hnewline : "\n".toList = ['\n'] := rfl
  rw [Export.dumpText, String.toList_intercalate, hnewline, List.splitOn_intercalate _ hlines hne]
  simp

theorem readText?_dumpText (ex : Export) :
    readText? ex.dumpText = some (ex.combinations.map (List.map LinearCombination.shown)) := by
  rw [readText?, lines_dumpText, readLines?_dump]

end Dump

namespace Export

/-- Every variable of the export has one of the two common labels. -/
def CommonlyLabelled (ex : Export) : Prop :=
  ∀ m, ∀ l ∈ ex.combinations.get m, ∀ t ∈ l.terms, t.var.kind = .input ∨ t.var.kind = .aux

theorem CommonlyLabelled.shown_eq {ex : Export} (h : ex.CommonlyLabelled) :
    ex.combinations.map (List.map LinearCombination.shown) = ex.combinations := by
  have hterm : ∀ t : Term, t.var.kind = .input ∨ t.var.kind = .aux → t.shown = t := fun t ht => by
    rw [Term.shown, Variable.shown_eq_self ht]
  apply Triple.ext_get
  intro m
  rw [Triple.get_map]
  refine (List.map_congr_left fun l hl => ?_).trans (List.map_id _)
  have hterms := List.map_congr_left fun t ht => hterm t (h m l hl t ht)
  rw [LinearCombination.shown, hterms, List.map_id']
  rfl

end Export

/-- The lines of a dump, and also the one text that they make, are read back as the rows of the
export. So two exports have equal dumps exactly when their combinations are equal. -/
theorem combinations_of_dump {ex ex' : Export} (h : ex.CommonlyLabelled)
    (h' : ex'.CommonlyLabelled) :
    (Dump.readLines? ex.dump = some ex.combinations ∧
      Dump.readText? ex.dumpText = some ex.combinations) ∧
    (ex.dump = ex'.dump ↔ ex.combinations = ex'.combinations) ∧
    (ex.dumpText = ex'.dumpText ↔ ex.combinations = ex'.combinations) := by
  have hlines : ∀ {ex : Export}, ex.CommonlyLabelled →
      Dump.readLines? ex.dump = some ex.combinations := fun {ex} h => by
    rw [Dump.readLines?_dump, h.shown_eq]
  have htext : ∀ {ex : Export}, ex.CommonlyLabelled →
      Dump.readText? ex.dumpText = some ex.combinations := fun {ex} h => by
    rw [Dump.readText?_dumpText, h.shown_eq]
  have hdump : ex.combinations = ex'.combinations → ex.dump = ex'.dump := fun hsame => by
    have hdumpOf : ex.dumpOf = ex'.dumpOf := by
      funext m
      rw [Export.dumpOf, Export.dumpOf, hsame]
    rw [Export.dump, Export.dump, hdumpOf]
  refine ⟨⟨hlines h, htext h⟩, ⟨fun hsame => ?_, hdump⟩, fun hsame => ?_, fun hsame => ?_⟩
  · have hread := congrArg Dump.readLines? hsame
    rw [hlines h, hlines h'] at hread
    exact Option.some.inj hread
  · have hread := congrArg Dump.readText? hsame
    rw [htext h, htext h'] at hread
    exact Option.some.inj hread
  · rw [Export.dumpText, Export.dumpText, hdump hsame]

/-- Rows with signs before coefficients and indices. No row of `B` stands beside those of `A`. -/
def Export.signed : Export :=
  { combinations :=
      ⟨[⟨[⟨-12, ⟨.aux, -3⟩⟩, ⟨1, .one⟩]⟩, .zero], [], [⟨[⟨5, ⟨.input, 10⟩⟩]⟩]⟩
    numInputs := 1
    numAux := 0
    ledgers := .empty }

/-- The empty row stands in `B` instead of `A`. -/
def Export.moved : Export :=
  { Export.signed with
    combinations :=
      ⟨[⟨[⟨-12, ⟨.aux, -3⟩⟩, ⟨1, .one⟩]⟩], [.zero], [⟨[⟨5, ⟨.input, 10⟩⟩]⟩]⟩ }

theorem combinations_of_signed_dump :
    Export.signed.CommonlyLabelled ∧ Export.moved.CommonlyLabelled ∧
      Dump.readText?
          "A matrix\n[(-12, Aux(-3)), (1, Input(0))]\n[]\nB matrix\nC matrix\n[(5, Input(10))]" =
        some Export.signed.combinations ∧
      Export.signed.dump ≠ Export.moved.dump ∧ Export.signed.dumpText ≠ Export.moved.dumpText := by
  have hsigned : Export.signed.CommonlyLabelled := by
    intro m
    cases m <;> decide
  have hmoved : Export.moved.CommonlyLabelled := by
    intro m
    cases m <;> decide
  have hdiffer : Export.signed.combinations ≠ Export.moved.combinations := by decide
  obtain ⟨⟨-, hread⟩, hlines, htext⟩ := combinations_of_dump hsigned hmoved
  exact ⟨hsigned, hmoved, hread, mt hlines.mp hdiffer, mt htext.mp hdiffer⟩

end RankOne
