/-! A control sequence begins with the escape character and an opening bracket, goes on with
parameters and intermediates, and ends with one final character. A terminal takes it for an
order; a beginning without an end stays. -/
namespace RankOne.TextControl

/-- The character that announces a sequence. -/
def escape : Char := '\x1b'

/-- Digits, separators and marks of private use. -/
def isParameter (c : Char) : Bool := 0x30 ≤ c.toNat && c.toNat ≤ 0x3F

/-- The space and the punctuation below the digits. -/
def isIntermediate (c : Char) : Bool := 0x20 ≤ c.toNat && c.toNat ≤ 0x2F

/-- The letters, with the brackets and marks around them. -/
def isFinal (c : Char) : Bool := 0x40 ≤ c.toNat && c.toNat ≤ 0x7E

/-- What is left behind the sequence of which the escape character has been read. -/
def afterSequence? : List Char → Option (List Char)
  | '[' :: text =>
    match (text.dropWhile isParameter).dropWhile isIntermediate with
    | c :: rest => if isFinal c then some rest else none
    | [] => none
  | _ => none

theorem length_afterSequence? {text rest : List Char} (h : afterSequence? text = some rest) :
    rest.length < text.length := by
  have shorter (p : Char → Bool) (l : List Char) : (l.dropWhile p).length ≤ l.length :=
    (List.dropWhile_suffix p).length_le
  unfold afterSequence? at h
  split at h
  · rename_i inner
    have inner_le : ((inner.dropWhile isParameter).dropWhile isIntermediate).length ≤
        inner.length := Nat.le_trans (shorter ..) (shorter ..)
    split at h
    · rename_i c left found
      rw [found] at inner_le
      split at h
      · obtain rfl := Option.some.inj h
        simp only [List.length_cons] at inner_le ⊢
        omega
      · contradiction
    · contradiction
  · contradiction

/-- What a terminal shows of a text. -/
def strip (text : List Char) : List Char :=
  match text with
  | [] => []
  | c :: text =>
    if c = escape then
      match _h : afterSequence? text with
      | some rest => strip rest
      | none => c :: strip text
    else c :: strip text
termination_by text.length
decreasing_by
  · have := length_afterSequence? _h
    simp only [List.length_cons]
    omega
  · simp
  · simp

def plain (text : String) : String := String.ofList (strip text.toList)

end RankOne.TextControl
