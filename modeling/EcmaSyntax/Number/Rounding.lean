import EcmaSyntax.Number.Basic

/-!
Rounding to the nearest magnitude, a tie going to the even rank. Every finite magnitude is a whole
number of units, a unit being the least positive magnitude, `2 ^ (-1074)`; so rounding is exact
integer arithmetic. Infinity takes part as if it were `2 ^ 1024`, which is where rounding starts to
overflow.
-/

namespace EcmaSyntax

/-- The number of units in the number one. -/
def unitsPerOne : Nat := Nat.pow 2 1074

/-- The units of the magnitude with the rank. The rank holds the binary exponent above its low 52
bits, and exponents 0 and 1 have the same spacing. -/
def unitsOfRank (rank : Nat) : Nat :=
  let shift := rank / Nat.pow 2 52 - 1
  (rank - shift * Nat.pow 2 52) * Nat.pow 2 shift

/-- The greatest rank with at most so many units. -/
def rankBelow (units : Nat) : Nat :=
  let shift := units.log2 - 52
  shift * Nat.pow 2 52 + units / Nat.pow 2 shift

namespace Magnitude

/-- The magnitude in units. -/
def units (magnitude : Magnitude) : Nat :=
  unitsOfRank magnitude.val

/-- The magnitude nearest to `num / den` units, where `den` is positive. -/
def nearest (num den : Nat) : Magnitude :=
  let rank := rankBelow (num / den)
  let below := unitsOfRank rank
  let gap := unitsOfRank (rank + 1) - below
  let excess := 2 * (num - below * den)
  if excess < gap * den then ofRank rank
  else if gap * den < excess then ofRank (rank + 1)
  else ofRank (rank + rank % 2)

/-- The magnitude nearest to a whole number. -/
def ofNat (value : Nat) : Magnitude :=
  nearest (value * unitsPerOne) 1

/-- The whole number that a magnitude is, if it is one. -/
def toNat? (magnitude : Magnitude) : Option Nat :=
  if magnitude.isInfinite || magnitude.units % unitsPerOne != 0 then
    none
  else
    some (magnitude.units / unitsPerOne)

end Magnitude

end EcmaSyntax
