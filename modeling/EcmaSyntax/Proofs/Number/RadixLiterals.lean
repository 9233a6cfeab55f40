import EcmaSyntax.Proofs.Number.LiteralForms
import EcmaSyntax.Proofs.Number.Radix
import Mathlib.Data.List.Basic

/-! The literals of a whole number. Its decimal literal stands for the magnitude nearest to it. Hexadecimal
and octal literals do as well, unless digits that are dropped in summing them up decide a tie.
-/

namespace EcmaSyntax

/-- The text is a literal of the number in the radix, which is not ten. -/
inductive Number.IsRadixLiteral : Nat → List Char → Nat → Prop
  | hexadecimal {marker : Char} {digits : List Char} {value : Nat} (marked : marker = 'x' ∨ marker = 'X')
    (writes : Text.Writes 16 digits value)
    : IsRadixLiteral 16 ('0' :: marker :: digits) value
  | octal {digits : List Char} {value : Nat} (writes : Text.Writes 8 digits value)
    : IsRadixLiteral 8 ('0' :: digits) value

-----------------------------------------------------------------------------------------
-- Decimal literals
-----------------------------------------------------------------------------------------

/-- The digits of a number begin with a zero only if it is zero. -/
theorem Text.head?_toDigits {value : Nat} (present : value ≠ 0)
    : (Nat.toDigits 10 value).head? ≠ some '0' := by
  induction value using Nat.strong_induction_on with
  | _ value ih =>
      rw [Nat.toDigits_eq_if (by decide)]
      split
      next small =>
        have digits : ∀ digit < 10, digit ≠ 0 → some (Nat.digitChar digit) ≠ some '0' := by decide
        exact digits value small present
      next large =>
        have front : value / 10 ≠ 0 := by omega
        rw [List.head?_append_of_ne_nil _ Nat.toDigits_ne_nil]
        exact ih (value / 10) (by omega) front

/-- A decimal number without an exponent is rounded as the natural number it is. -/
theorem Decimal.toMagnitude_ofNat (value : Nat)
    : toMagnitude { digits := value, exponent := 0 } = Magnitude.ofNat value := by
  by_cases none : value = 0
  · rw [toMagnitude, if_pos none, none, Magnitude.ofNat_zero]
  · rw [toMagnitude]
    dsimp only
    rw [if_neg none, if_neg (by decide), if_neg (by omega)]
    simp [Magnitude.ofNat]

namespace Number

/-- The decimal digits of a number are no old octal literal, as they have no zero in front. -/
theorem isLegacyOctal_toDigits (value : Nat) : isLegacyOctal (Nat.toDigits 10 value) = false := by
  by_cases none : value = 0
  · rw [none]
    rfl
  · have head := Text.head?_toDigits none
    unfold isLegacyOctal
    split
    next same =>
      rw [same] at head
      exact absurd rfl head
    next => rfl

/-- The decimal digits of a number are read as the magnitude nearest to it. -/
theorem ofText?_toDigits (value : Nat)
    : ofText? (Nat.toDigits 10 value) = some (signed false (Magnitude.ofNat value)) := by
  have digits : ∀ c ∈ Nat.toDigits 10 value, Text.isDigit c :=
    fun c member => Text.isDigit_of_mem_toDigits member
  have read := Decimal.ofUnsignedText?_whole digits
  rw [Decimal.digitsValue?_toDigits, Option.map_some] at read
  have sign : Decimal.readSign (Nat.toDigits 10 value) = (false, Nat.toDigits 10 value) := by
    obtain ⟨first, rest, text_eq⟩ := List.exists_cons_of_ne_nil (@Nat.toDigits_ne_nil value 10)
    rw [text_eq] at digits ⊢
    exact Decimal.readSign_of_isDigit (digits first List.mem_cons_self)
  simp only [ofText?, sign, read, Decimal.toMagnitude_ofNat]

/-- The decimal literal of a number stands for the nearest magnitude. -/
theorem ofLiteral?_toDigits (value : Nat)
    : ofLiteral? (Nat.toDigits 10 value) = some (signed false (Magnitude.ofNat value)) := by
  have characters : ∀ c ∈ Nat.toDigits 10 value, isLiteralChar c :=
    fun c member => isLiteralChar_of_isDigit (Text.isDigit_of_mem_toDigits member)
  rw [ofLiteral?_of_characters Nat.toDigits_ne_nil characters (isLegacyOctal_toDigits value)]
  exact ofText?_toDigits value

-----------------------------------------------------------------------------------------
-- Hexadecimal and octal literals
-----------------------------------------------------------------------------------------

variable {text digits : List Char} {value : Nat}

/-- Octal digits behind a zero are summed up, as digits that are written in that radix. -/
theorem ofLiteral?_octal (writes : Text.Writes 8 digits value)
    : ofLiteral? ('0' :: digits) = (Magnitude.ofDigits? 8 digits).map (signed false) := by
  have octal : ∀ c ∈ digits, Text.isOctalDigit c :=
    Text.digit_of_foldDigits? (writes.foldDigits? (by decide) (by decide))
  rw [ofLiteral?_of_octal (isLegacyOctal_iff.mpr ⟨digits, rfl, writes.ne_nil, octal⟩)]
  rfl

/-- A literal stands for what its digits sum up to, in a radix that is a power of two. -/
theorem IsRadixLiteral.exists_digits {radix : Nat} (literal : IsRadixLiteral radix text value)
    : ∃ bits digits,
        radix = Nat.pow 2 bits
        ∧ 2 ≤ radix
        ∧ radix ≤ 16
        ∧ Text.Writes radix digits value
        ∧ ofLiteral? text = (Magnitude.ofDigits? radix digits).map (signed false) := by
  cases literal with
  | hexadecimal marked writes =>
      exact ⟨4, _, rfl, by decide, by decide, writes, ofLiteral?_hexadecimal marked _⟩
  | octal writes => exact ⟨3, _, rfl, by decide, by decide, writes, ofLiteral?_octal writes⟩

/-- The decimal literal of a number stands for the magnitude nearest to it. A hexadecimal or octal literal
stands for the one nearest to the number with zeros for the digits that are dropped; this is the same one,
unless these digits decide a tie, and then the one in front of it.
-/
theorem ofLiteral?_of_radix {radix : Nat} (literal : IsRadixLiteral radix text value)
    : ∃ nearest summed count,
        Magnitude.IsNearest (value * unitsPerOne) nearest
        ∧ ofLiteral? (Nat.toDigits 10 value) = some (signed false nearest)
        ∧ ofLiteral? text = some (signed false summed)
        ∧ Magnitude.Drops radix value count
        ∧ Magnitude.IsNearest (Magnitude.kept radix value count * unitsPerOne) summed
        ∧ (summed = nearest ∧ ¬Magnitude.LosesTie radix value count
          ∨ nearest.val = summed.val + 1 ∧ Magnitude.LosesTie radix value count) := by
  obtain ⟨bits, digits, rfl, least, most, writes, summedUp⟩ := literal.exists_digits
  obtain ⟨count, drops, summed⟩ := Magnitude.ofDigits?_of_writes writes least most
  rw [summed, Option.map_some] at summedUp
  exact ⟨_, _, count, Magnitude.isNearest_nearest _, ofLiteral?_toDigits value, summedUp, drops,
    Magnitude.isNearest_nearest _, Magnitude.ofNat_kept drops⟩

/-- An octal literal in which the last digit decides a tie. -/
theorem ofLiteral?_of_radix_octal
    : IsRadixLiteral 8 "010000000000000000021".toList 144115188075855889
      ∧ ∃ nearest summed count,
          Magnitude.IsNearest (144115188075855889 * unitsPerOne) nearest
          ∧ ofLiteral? (Nat.toDigits 10 144115188075855889) = some (signed false nearest)
          ∧ ofLiteral? "010000000000000000021".toList = some (signed false summed)
          ∧ Magnitude.Drops 8 144115188075855889 count
          ∧ Magnitude.IsNearest (Magnitude.kept 8 144115188075855889 count * unitsPerOne) summed
          ∧ (summed = nearest ∧ ¬Magnitude.LosesTie 8 144115188075855889 count
            ∨ nearest.val = summed.val + 1 ∧ Magnitude.LosesTie 8 144115188075855889 count) := by
  have literal : IsRadixLiteral 8 "010000000000000000021".toList 144115188075855889 :=
    .octal ⟨0, by decide⟩
  exact ⟨literal, ofLiteral?_of_radix literal⟩

/-- A hexadecimal literal that does not stand for the nearest magnitude, and the decimal literal that does. -/
theorem ofLiteral?_rounds_twice
    : IsRadixLiteral 16 "0x200000000000011".toList 144115188075855889
      ∧ ofLiteral? "144115188075855889".toList
        = some (signed false (Magnitude.ofRank 0x4380000000000001))
      ∧ ofLiteral? "0x200000000000011".toList
        = some (signed false (Magnitude.ofRank 0x4380000000000000))
      ∧ Magnitude.IsNearest (144115188075855889 * unitsPerOne) (Magnitude.ofRank 0x4380000000000001)
      ∧ ¬Magnitude.IsNearest (144115188075855889 * unitsPerOne)
          (Magnitude.ofRank 0x4380000000000000) := by
  have nearest_eq
      : Magnitude.nearest (144115188075855889 * unitsPerOne) 1
        = Magnitude.ofRank 0x4380000000000001 := by
    decide +kernel
  have near := Magnitude.isNearest_nearest (144115188075855889 * unitsPerOne)
  rw [nearest_eq] at near
  refine ⟨.hexadecimal (.inl rfl) ⟨0, by decide⟩, by decide +kernel, by decide +kernel, near, ?_⟩
  exact fun nearToo => absurd (nearToo.unique near) (by decide +kernel)

end Number

end EcmaSyntax
