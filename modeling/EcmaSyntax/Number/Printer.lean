import EcmaSyntax.Number.Shortest

/-!
The written form of numbers. Whole numbers below `10 ^ 21` have all their digits, other numbers the
fewest digits that read back; an exponent is never written.
-/

namespace EcmaSyntax

/-- Writes a decimal number in positional notation. -/
def Decimal.positional (decimal : Decimal) : List Char :=
  let digits := Nat.toDigits 10 decimal.digits
  if 0 ≤ decimal.exponent then
    digits ++ List.replicate decimal.exponent.toNat '0'
  else
    let places := (-decimal.exponent).toNat
    if places < digits.length then
      digits.take (digits.length - places) ++ '.' :: digits.drop (digits.length - places)
    else
      '0' :: '.' :: (List.replicate (places - digits.length) '0' ++ digits)

/-- Whole numbers from this limit on are written with their shortest digits. -/
def wholeNumberLimit : Nat := Nat.pow 10 21

/-- Writes a magnitude. -/
def Magnitude.text (magnitude : Magnitude) : List Char :=
  if magnitude.isInfinite then
    "Infinity".toList
  else
    match magnitude.toNat? with
    | some value =>
        if value < wholeNumberLimit then Nat.toDigits 10 value else magnitude.shortest.positional
    | none => magnitude.shortest.positional

/-- Writes a number. Both zeros are written without a sign. -/
def Number.text : Number → List Char
  | nan => "NaN".toList
  | signed negative magnitude =>
      if negative && magnitude.val != 0 then '-' :: magnitude.text else magnitude.text

end EcmaSyntax
