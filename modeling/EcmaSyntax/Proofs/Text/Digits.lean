import EcmaSyntax.Proofs.Text.Classes
import Mathlib.Tactic.Ring

/-! The digits of a whole number, and the number that digits write: each undoes the other, also with zeros
in front.
-/

namespace EcmaSyntax.Text

/-- Digits are summed up front to back. -/
theorem foldDigits?_append (radix value : Nat) (front back : List Char)
    : foldDigits? radix value (front ++ back)
      = (foldDigits? radix value front).bind fun between => foldDigits? radix between back := by
  induction front generalizing value with
  | nil => rfl
  | cons c front ih =>
      simp only [List.cons_append, foldDigits?]
      cases digitValue? radix c with
      | none => rfl
      | some digit => exact ih _

/-- The character of a digit has the value of the digit. -/
theorem digitValue?_digitChar {radix digit : Nat} (most : radix ≤ 16) (small : digit < radix)
    : digitValue? radix (Nat.digitChar digit) = some digit := by
  have all
      : ∀ radix ≤ 16, ∀ digit < radix, digitValue? radix (Nat.digitChar digit) = some digit := by
    decide
  exact all radix most digit small

theorem isDigit_of_mem_toDigits {value : Nat} {c : Char} (member : c ∈ Nat.toDigits 10 value)
    : isDigit c = true := by
  have digit := Nat.isDigit_of_mem_toDigits (by decide) (Nat.le_refl 10) member
  simp only [Char.isDigit, Bool.and_eq_true, decide_eq_true_eq] at digit
  exact isDigit_iff.mpr digit

/-- The digits of a number write it. -/
theorem foldDigits?_toDigits {radix : Nat} (least : 2 ≤ radix) (most : radix ≤ 16) (value : Nat)
    : foldDigits? radix 0 (Nat.toDigits radix value) = some value := by
  induction value using Nat.strong_induction_on with
  | _ value ih =>
      rw [Nat.toDigits_eq_if least]
      split
      · rename_i small
        simp [foldDigits?, digitValue?_digitChar most small]
      · rename_i large
        have fewer : value / radix < value := Nat.div_lt_self (by omega) least
        have last := Nat.mod_lt value (Nat.zero_lt_of_lt least)
        rw [foldDigits?_append, ih (value / radix) fewer]
        simp only [Option.bind_some, foldDigits?, digitValue?_digitChar most last,
          Nat.div_add_mod]

/-- Zeros in front of digits change nothing. -/
theorem foldDigits?_zeros {radix : Nat} (least : 2 ≤ radix) (count : Nat) (digits : List Char)
    : foldDigits? radix 0 (List.replicate count '0' ++ digits) = foldDigits? radix 0 digits := by
  have zero : digitValue? radix '0' = some 0 := by
    have positive : 0 < radix := Nat.zero_lt_of_lt least
    simp [digitValue?, positive]
  induction count with
  | zero => rfl
  | succ count ih => simp [List.replicate_succ, foldDigits?, zero, ih]

/-- Each zero behind digits multiplies by ten. -/
theorem foldDigits?_shift (value count : Nat)
    : foldDigits? 10 value (List.replicate count '0') = some (value * Nat.pow 10 count) := by
  induction count generalizing value with
  | zero => simp [foldDigits?]
  | succ count ih =>
      have zero : digitValue? 10 '0' = some 0 := by decide
      simp only [List.replicate_succ, foldDigits?, zero, Option.bind_some, ih]
      rw [show Nat.pow 10 (count + 1) = Nat.pow 10 count * 10 from rfl]
      congr 1
      ring

/-- Only digits of the radix are summed up. -/
theorem digit_of_foldDigits? {radix value result : Nat} {text : List Char}
    (folded : foldDigits? radix value text = some result)
    : ∀ c ∈ text, (digitValue? radix c).isSome := by
  induction text generalizing value with
  | nil => simp
  | cons c text ih =>
      obtain ⟨digit, valued, folded⟩ := Option.bind_eq_some_iff.mp folded
      exact List.forall_mem_cons.mpr ⟨Option.isSome_of_eq_some valued, ih folded⟩

theorem digitsValue?_of_ne_nil {radix : Nat} {digits : List Char} (present : digits ≠ [])
    : digitsValue? radix digits = foldDigits? radix 0 digits := by
  simp [digitsValue?, present]

end EcmaSyntax.Text
