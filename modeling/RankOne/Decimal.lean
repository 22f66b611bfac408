/-! A quotient of two counts is rounded to a significand of 53 bits, ties to the even one, and
written with the fewest digits that round back to it. Exponents are not bounded, since no
quotient of two counts comes near the ends of a machine's range. -/
namespace RankOne.Decimal

/-- The quotient to the nearest whole number, a half to the even one. -/
def roundHalfEven (num den : Nat) : Nat :=
  let quotient := num / den
  let rest := 2 * (num % den)
  if rest < den then quotient
  else if den < rest then quotient + 1
  else if quotient % 2 = 0 then quotient else quotient + 1

/-- The least significand, `2 ^ 52`; one more bit is out of reach. -/
def leastSignificand : Nat := 4503599627370496

structure Binary where
  significand : Nat
  exponent : Int
  deriving DecidableEq, Repr

/-- A fraction times a power of a base, as a fraction. -/
def scaled (num den base : Nat) (exponent : Int) : Nat × Nat :=
  if 0 ≤ exponent then (num * Nat.pow base exponent.toNat, den)
  else (num, den * Nat.pow base (-exponent).toNat)

/-- The significand of 53 bits nearest to a positive fraction. The exponent is guessed from the
lengths of its two parts and corrected by one when the guess is off. -/
def binaryOf (num den : Nat) : Binary :=
  let guess : Int := (num.log2 : Int) - den.log2 - 52
  let rounded (exponent : Int) : Nat :=
    let (n, d) := scaled num den 2 (-exponent)
    roundHalfEven n d
  let exact (exponent : Int) : Bool :=
    let (n, d) := scaled num den 2 (-exponent)
    decide (leastSignificand * d ≤ n)
  let exponent := if exact guess then guess else guess - 1
  let significand := rounded exponent
  if significand = 2 * leastSignificand then ⟨leastSignificand, exponent + 1⟩
  else ⟨significand, exponent⟩

/-- The fractions between which everything rounds to a binary number, in quarters of its last
place: below, the number itself, and above. -/
def quarters (b : Binary) : Nat × Nat × Nat :=
  (4 * b.significand - (if b.significand = leastSignificand then 1 else 2), 4 * b.significand,
    4 * b.significand + 2)

structure Digits where
  digits : Nat
  exponent : Int
  deriving DecidableEq, Repr

/-- The point of the grid of multiples of `10 ^ exponent` that is nearest to a binary number, if it
rounds back to it. -/
def onGrid? (b : Binary) (exponent : Int) : Option Digits :=
  let (below, middle, above) := quarters b
  let (unit, den) := scaled 1 4 2 b.exponent
  let (step, scale) := scaled 1 1 10 exponent
  let lower := middle * unit * scale / (den * step)
  let inside (candidate : Nat) : Bool :=
    let place := candidate * den * step
    if b.significand % 2 = 0 then
      decide (below * unit * scale ≤ place) && decide (place ≤ above * unit * scale)
    else
      decide (below * unit * scale < place) && decide (place < above * unit * scale)
  let nearest := roundHalfEven (middle * unit * scale) (den * step)
  let other := if nearest = lower then lower + 1 else lower
  if inside nearest then some ⟨nearest, exponent⟩
  else if inside other then some ⟨other, exponent⟩
  else none

def search (b : Binary) : Nat → Int → Digits
  | 0, exponent => ⟨0, exponent⟩
  | fuel + 1, exponent =>
    match onGrid? b exponent with
    | some digits => digits
    | none => search b fuel (exponent - 1)

/-- The fewest digits that round back to a binary number. The search begins above its leading
digit and ends at the latest seventeen digits below. -/
def shortest (b : Binary) : Digits :=
  let (n, d) := scaled b.significand 1 2 b.exponent
  let top := (Nat.toDigits 10 (n / d)).length
  search b (top + (Nat.toDigits 10 d).length + 20) top

/-- Digits as text. The point stands among the digits when the first of them counts at least
`10 ^ -4` and less than `10 ^ 16`; otherwise it follows the first and an exponent the last. -/
def Digits.text (d : Digits) : String :=
  let digits := Nat.toDigits 10 d.digits
  let point : Int := digits.length + d.exponent
  if -4 < point ∧ point ≤ 16 then
    if point ≤ 0 then
      String.ofList (['0', '.'] ++ List.replicate (-point).toNat '0' ++ digits)
    else if point.toNat < digits.length then
      String.ofList (digits.take point.toNat ++ '.' :: digits.drop point.toNat)
    else
      String.ofList
        (digits ++ List.replicate (point.toNat - digits.length) '0' ++ ['.', '0'])
  else
    let mantissa := match digits with
      | [] => []
      | [digit] => [digit]
      | digit :: rest => digit :: '.' :: rest
    let power := point - 1
    let size := Nat.toDigits 10 power.natAbs
    let sign := if power < 0 then '-' else '+'
    String.ofList (mantissa ++ ['e', sign] ++ List.replicate (2 - size.length) '0' ++ size)

/-- The text of a quotient; without a divisor, and of zero, the text of zero. -/
def quotientText (num den : Nat) : String :=
  if num = 0 ∨ den = 0 then "0.0" else (shortest (binaryOf num den)).text

end RankOne.Decimal
