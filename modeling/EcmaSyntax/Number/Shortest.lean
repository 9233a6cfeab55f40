import EcmaSyntax.Number.Decimal

/-!
The shortest decimal number that reads back as a given magnitude. For one digit, two digits and so
on, the two neighbours of the magnitude among the decimal numbers with that many digits are tried;
of two that read back the nearer is taken, and the greater if both are equally near.
-/

namespace EcmaSyntax.Magnitude

/-- The number of decimal digits of a positive whole number. -/
def digitCount (value : Nat) : Nat :=
  (Nat.toDigits 10 value).length

/-- The least power of ten above a positive magnitude, given by its exponent. -/
def decimalExponent (magnitude : Magnitude) : Int :=
  if unitsPerOne ≤ magnitude.units then
    digitCount (magnitude.units / unitsPerOne)
  else
    1 - (digitCount ((unitsPerOne - 1) / magnitude.units) : Int)

/-- The magnitude times `10 ^ shift`, as a quotient of whole numbers. -/
def scaled (magnitude : Magnitude) (shift : Int) : Nat × Nat :=
  (magnitude.units * Nat.pow 10 shift.toNat, unitsPerOne * Nat.pow 10 (-shift).toNat)

/-- The two neighbours of the magnitude among the decimal numbers with at most `count` digits, the nearer
one first, or the greater one if both are equally near. -/
def neighbours (magnitude : Magnitude) (count : Nat) : List Decimal :=
  let exponent := magnitude.decimalExponent - count
  let quotient := magnitude.scaled (-exponent)
  let low := quotient.1 / quotient.2
  let below : Decimal :=
    {
      digits := low
      exponent
    }
  let above : Decimal :=
    if low + 1 = Nat.pow 10 count then
      {
        digits := 1
        exponent := exponent + count
      }
    else
      {
        digits := low + 1
        exponent
      }
  if 2 * quotient.1 < (2 * low + 1) * quotient.2 then [below, above] else [above, below]

/-- The neighbour of the magnitude with at most `count` digits that reads back, if there is one. -/
def shortestWith? (magnitude : Magnitude) (count : Nat) : Option Decimal :=
  (magnitude.neighbours count).find? fun decimal => decimal.toMagnitude = magnitude

/-- The magnitude as a decimal number without rounding. -/
def exactDecimal (magnitude : Magnitude) : Decimal :=
  {
    digits := magnitude.units * Nat.pow 5 1074
    exponent := -1074
  }

/-- The shortest decimal number that reads back as the magnitude; seventeen digits are always
enough. -/
def shortest (magnitude : Magnitude) : Decimal :=
  ((List.range' 1 17).findSome? magnitude.shortestWith?).getD magnitude.exactDecimal

end EcmaSyntax.Magnitude
