namespace RankOne.TextSplit

/-- The pieces between the separators. There is always one, if only an empty one. -/
def split (separator : Char) (text : String) : List String :=
  (text.toList.splitOn separator).map String.ofList

def cutChars? (separator : Char) : List Char → Option (List Char × List Char)
  | [] => none
  | c :: text =>
    if c = separator then some ([], text)
    else (cutChars? separator text).map fun (before, behind) => (c :: before, behind)

/-- The text before the first separator and the text behind it. -/
def cut? (separator : Char) (text : String) : Option (String × String) :=
  (cutChars? separator text.toList).map fun (before, behind) =>
    (String.ofList before, String.ofList behind)

theorem split_ne_nil (separator : Char) (text : String) : split separator text ≠ [] := by
  simp [split, List.splitOn_ne_nil]

theorem intercalate_split (separator : Char) (text : String) :
    String.intercalate (String.singleton separator) (split separator text) = text := by
  rw [← String.toList_inj, String.toList_intercalate]
  simp [split, List.map_map, Function.comp_def, List.intercalate_splitOn]

theorem cutChars?_eq_some_iff {separator : Char} {text before behind : List Char} :
    cutChars? separator text = some (before, behind) ↔
      separator ∉ before ∧ text = before ++ separator :: behind := by
  induction text generalizing before with
  | nil => simp [cutChars?]
  | cons c text ih =>
    by_cases hc : c = separator
    · cases before with
      | nil => simp [cutChars?, hc]
      | cons b before => simp +contextual [cutChars?, hc]
    · cases before with
      | nil => simp [cutChars?, hc]
      | cons b before =>
        have hcons : cutChars? separator (c :: text) = some (b :: before, behind) ↔
            c = b ∧ cutChars? separator text = some (before, behind) := by
          simp [cutChars?, hc, Prod.ext_iff]
          grind
        rw [hcons, ih]
        grind

theorem cut?_eq_some_iff {separator : Char} {text before behind : String} :
    cut? separator text = some (before, behind) ↔
      separator ∉ before.toList ∧ text = before ++ String.singleton separator ++ behind := by
  have hchars : cut? separator text = some (before, behind) ↔
      cutChars? separator text.toList = some (before.toList, behind.toList) := by
    rw [cut?, Option.map_eq_some_iff]
    constructor
    · rintro ⟨⟨a, b⟩, h, hjoin⟩
      cases hjoin
      simpa using h
    · intro h
      exact ⟨_, h, by simp⟩
  rw [hchars, cutChars?_eq_some_iff, ← String.toList_inj]
  simp

end RankOne.TextSplit
