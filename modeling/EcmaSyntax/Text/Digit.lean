/-! Digits in radix eight, ten and sixteen, and numbers folded from them. -/

namespace EcmaSyntax.Text

/-- The value of a digit in the radix, which is at most sixteen; letters of either case go on after 9. -/
def digitValue? (radix : Nat) (c : Char) : Option Nat :=
  let value? : Option Nat :=
    if '0' ≤ c ∧ c ≤ '9' then some (c.toNat - '0'.toNat)
    else if 'a' ≤ c ∧ c ≤ 'f' then some (c.toNat - 'a'.toNat + 10)
    else if 'A' ≤ c ∧ c ≤ 'F' then some (c.toNat - 'A'.toNat + 10)
    else none
  value?.filter (· < radix)

def isDigit (c : Char) : Bool :=
  (digitValue? 10 c).isSome

def isHexDigit (c : Char) : Bool :=
  (digitValue? 16 c).isSome

def isOctalDigit (c : Char) : Bool :=
  (digitValue? 8 c).isSome

/-- The number that the digits continue, most significant digit first. -/
def foldDigits? (radix : Nat) : Nat → List Char → Option Nat
  | value, [] => some value
  | value, c :: rest =>
      (digitValue? radix c).bind fun digit => foldDigits? radix (radix * value + digit) rest

/-- The number that the digits write; none without digits or with one that is not of the radix. -/
def digitsValue? (radix : Nat) (digits : List Char) : Option Nat :=
  if digits.isEmpty then none else foldDigits? radix 0 digits

/-- The number that hexadecimal digits write, with or without a plus sign in front. -/
def signedHexValue? : List Char → Option Nat
  | '+' :: digits => digitsValue? 16 digits
  | digits => digitsValue? 16 digits

end EcmaSyntax.Text
