import EcmaSyntax.Number.Rounding
import EcmaSyntax.Text.Digit

/-!
Decimal numbers, and the binary64 number nearest to the decimal number that a text writes.
-/

namespace EcmaSyntax

/-- The number `digits * 10 ^ exponent`. -/
structure Decimal where
  digits : Nat
  exponent : Int
  deriving DecidableEq, Repr, Inhabited

namespace Decimal

/-- The magnitude nearest to a decimal number. Numbers of `10 ^ 310` and more are infinite; the second
test finds the numbers below half a unit without computing the power of ten. -/
def toMagnitude (decimal : Decimal) : Magnitude :=
  if decimal.digits = 0 then
    Magnitude.zero
  else if 310 ≤ decimal.exponent then
    Magnitude.infinity
  else if (decimal.digits.log2 : Int) + 1076 ≤ 3 * -decimal.exponent then
    Magnitude.zero
  else
    Magnitude.nearest (decimal.digits * Nat.pow 10 decimal.exponent.toNat * unitsPerOne)
      (Nat.pow 10 (-decimal.exponent).toNat)

/-- Reads a sign, plus or minus, that may be missing: whether it is minus, and the text after it. -/
def readSign : List Char → Bool × List Char
  | '+' :: rest => (false, rest)
  | '-' :: rest => (true, rest)
  | text => (false, text)

/-- Reads an exponent that takes up the whole text; the empty text is the exponent zero. -/
def readExponent? : List Char → Option Int
  | [] => some 0
  | c :: rest =>
      if c = 'e' || c = 'E' then
        let (negative, digits) := readSign rest
        (Text.digitsValue? 10 digits).map fun value => if negative then -(value : Int) else value
      else
        none

/-- Reads digits, with a point before, between or after them, and an exponent. -/
def ofUnsignedText? (text : List Char) : Option Decimal :=
  let whole := text.takeWhile Text.isDigit
  let afterWhole := text.dropWhile Text.isDigit
  let (fraction, afterFraction) :=
    match afterWhole with
    | '.' :: rest => (rest.takeWhile Text.isDigit, rest.dropWhile Text.isDigit)
    | rest => ([], rest)
  (Text.digitsValue? 10 (whole ++ fraction)).bind fun digits =>
    (readExponent? afterFraction).map fun exponent =>
      {
        digits
        exponent := exponent - fraction.length
      }

end Decimal

namespace Number

/-- The word of a number without digits, in lower case. -/
def ofWord? (negative : Bool) (word : String) : Option Number :=
  if word = "inf" || word = "infinity" then some (infinity negative)
  else if word = "nan" then some nan
  else none

/-- Reads a number with or without a sign: a decimal number, or one of the words `inf`, `infinity` and
`nan` in any case. -/
def ofText? (text : List Char) : Option Number :=
  let (negative, rest) := Decimal.readSign text
  match Decimal.ofUnsignedText? rest with
  | some decimal => some (signed negative decimal.toMagnitude)
  | none => ofWord? negative (String.ofList (rest.map Char.toLower))

end Number

end EcmaSyntax
