import EcmaSyntax.Proofs.Text.Digits

/-! Numerals: the texts that write a number in a radix, whatever the zeros in front and the case of the
letters. Reading a numeral gives the number back.
-/

namespace EcmaSyntax.Text

/-- The text writes the number in the radix, with any zeros in front and letters of either case. -/
def Writes (radix : Nat) (text : List Char) (value : Nat) : Prop :=
  ∃ zeros, text.map Char.toLower = List.replicate zeros '0' ++ Nat.toDigits radix value

variable {radix value : Nat} {text : List Char} {c : Char}

-----------------------------------------------------------------------------------------
-- Letters of either case
-----------------------------------------------------------------------------------------

/-- Lower case moves the letters from A to Z by 32, and nothing else. -/
theorem toNat_toLower (c : Char)
    : c.toLower.toNat = if 65 ≤ c.toNat ∧ c.toNat ≤ 90 then c.toNat + 32 else c.toNat := by
  unfold Char.toLower
  split
  next upper =>
    have range : 65 ≤ c.toNat ∧ c.toNat ≤ 90 := by
      simpa [UInt32.le_iff_toNat_le] using upper
    rw [if_pos range]
    refine (UInt32.toNat_add c.val _).trans (Nat.mod_eq_of_lt ?_)
    exact Nat.lt_of_le_of_lt (Nat.add_le_add_right range.2 32) (by decide)
  next other =>
    rw [if_neg]
    simpa [UInt32.le_iff_toNat_le] using other

/-- A letter is the digit that it is in lower case. -/
theorem digitValue?_toLower (radix : Nat) (c : Char)
    : digitValue? radix c.toLower = digitValue? radix c := by
  simp only [digitValue?, le_iff_toNat_le, toNat_toLower, Char.reduceToNat]
  congr 1
  grind

/-- The case of letters does not matter to the value of digits. -/
theorem foldDigits?_toLower (radix value : Nat) (text : List Char)
    : foldDigits? radix value (text.map Char.toLower) = foldDigits? radix value text := by
  induction text generalizing value with
  | nil => rfl
  | cons c text ih => simp only [List.map_cons, foldDigits?, digitValue?_toLower, ih]

-----------------------------------------------------------------------------------------
-- Numerals are read back
-----------------------------------------------------------------------------------------

theorem Writes.ne_nil (writes : Writes radix text value) : text ≠ [] := by
  rintro rfl
  obtain ⟨zeros, same⟩ := writes
  exact Nat.toDigits_ne_nil (List.append_eq_nil_iff.mp same.symm).2

/-- A numeral sums up to the number that it writes. -/
theorem Writes.foldDigits? (writes : Writes radix text value) (least : 2 ≤ radix)
    (most : radix ≤ 16)
    : foldDigits? radix 0 text = some value := by
  obtain ⟨zeros, same⟩ := writes
  rw [← foldDigits?_toLower, same, foldDigits?_zeros least, foldDigits?_toDigits least most]

/-- A numeral has the value of the number that it writes. -/
theorem Writes.digitsValue? (writes : Writes radix text value) (least : 2 ≤ radix)
    (most : radix ≤ 16)
    : digitsValue? radix text = some value := by
  rw [digitsValue?_of_ne_nil writes.ne_nil, writes.foldDigits? least most]

-----------------------------------------------------------------------------------------
-- Numerals with a number of digits
-----------------------------------------------------------------------------------------

theorem digitValue?_lt {digit : Nat} (valued : digitValue? radix c = some digit) : digit < radix :=
  of_decide_eq_true (Option.filter_eq_some_iff.mp valued).2

/-- Digits sum up to less than a one with as many zeros behind it. -/
theorem foldDigits?_lt {result : Nat} (folded : foldDigits? radix value text = some result)
    : result < (value + 1) * radix ^ text.length := by
  induction text generalizing value with
  | nil =>
      cases folded
      simp
  | cons c text ih =>
      obtain ⟨digit, valued, onward⟩ := Option.bind_eq_some_iff.mp folded
      have small := digitValue?_lt valued
      calc result
          < (radix * value + digit + 1) * radix ^ text.length := ih onward
        _ ≤ ((value + 1) * radix) * radix ^ text.length := by
            refine Nat.mul_le_mul_right _ ?_
            rw [Nat.add_mul, Nat.one_mul, Nat.mul_comm value]
            omega
        _ = (value + 1) * radix ^ (text.length + 1) := by ring

/-- A numeral writes less than a one with as many zeros behind it. -/
theorem Writes.lt (writes : Writes radix text value) (least : 2 ≤ radix) (most : radix ≤ 16)
    : value < radix ^ text.length := by
  have bound := foldDigits?_lt (writes.foldDigits? least most)
  rwa [Nat.zero_add, Nat.one_mul] at bound

end EcmaSyntax.Text
