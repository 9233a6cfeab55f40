import EcmaSyntax.Number.Printer
import EcmaSyntax.Proofs.Number.Rounding
import EcmaSyntax.Proofs.Text.Digits
import Mathlib.Data.List.TakeWhile

/-! Reading a number undoes writing it. The positional notation of a decimal number is read as a decimal
number of the same magnitude, and what is written of a magnitude is a decimal number nearest to which it
is.
-/

namespace EcmaSyntax

namespace Decimal

-----------------------------------------------------------------------------------------
-- Digits with and without a point
-----------------------------------------------------------------------------------------

variable {whole fraction : List Char}

/-- Digits without a point are read as their value. -/
theorem ofUnsignedText?_whole (digits : ∀ c ∈ whole, Text.isDigit c)
    : ofUnsignedText? whole
      = (Text.digitsValue? 10 whole).map fun value => { digits := value, exponent := 0 } := by
  have taken : whole.takeWhile Text.isDigit = whole := List.takeWhile_eq_self_iff.mpr digits
  have dropped : whole.dropWhile Text.isDigit = [] := List.dropWhile_eq_nil_iff.mpr digits
  simp only [ofUnsignedText?, taken, dropped, List.append_nil, readExponent?, Option.map_some]
  cases Text.digitsValue? 10 whole <;> rfl

/-- Digits with a point are read as the value of all, with the places behind it. -/
theorem ofUnsignedText?_point (digits : ∀ c ∈ whole, Text.isDigit c)
    (places : ∀ c ∈ fraction, Text.isDigit c)
    : ofUnsignedText? (whole ++ '.' :: fraction)
      = (Text.digitsValue? 10 (whole ++ fraction)).map fun value =>
          { digits := value, exponent := -(fraction.length : Int) } := by
  have taken : (whole ++ '.' :: fraction).takeWhile Text.isDigit = whole := by
    rw [List.takeWhile_append_of_pos digits]
    simp [show Text.isDigit '.' = false by decide]
  have dropped : (whole ++ '.' :: fraction).dropWhile Text.isDigit = '.' :: fraction := by
    rw [List.dropWhile_append_of_pos digits]
    simp [show Text.isDigit '.' = false by decide]
  have takenFraction : fraction.takeWhile Text.isDigit = fraction :=
    List.takeWhile_eq_self_iff.mpr places
  have droppedFraction : fraction.dropWhile Text.isDigit = [] :=
    List.dropWhile_eq_nil_iff.mpr places
  simp only [ofUnsignedText?, taken, dropped, takenFraction, droppedFraction, readExponent?,
    Option.map_some, Int.zero_sub]
  cases Text.digitsValue? 10 (whole ++ fraction) <;> rfl

-----------------------------------------------------------------------------------------
-- Positional notation
-----------------------------------------------------------------------------------------

/-- Reading the digits of a number gives the number. -/
theorem digitsValue?_toDigits (value : Nat)
    : Text.digitsValue? 10 (Nat.toDigits 10 value) = some value := by
  rw [Text.digitsValue?_of_ne_nil Nat.toDigits_ne_nil,
    Text.foldDigits?_toDigits (by decide) (by decide)]

theorem isDigit_of_mem_replicate {count : Nat} {c : Char} (member : c ∈ List.replicate count '0')
    : Text.isDigit c = true := by
  rw [List.eq_of_mem_replicate member]
  rfl

/-- The positional notation is read as the number itself, or with the power of ten multiplied in. -/
theorem ofUnsignedText?_positional (decimal : Decimal)
    : ofUnsignedText? decimal.positional
      = some
          (if 0 ≤ decimal.exponent then
            {
              digits := decimal.digits * Nat.pow 10 decimal.exponent.toNat
              exponent := 0
            }
          else
            decimal) := by
  obtain ⟨value, exponent⟩ := decimal
  have digits : ∀ c ∈ Nat.toDigits 10 value, Text.isDigit c :=
    fun c member => Text.isDigit_of_mem_toDigits member
  simp only [positional]
  by_cases whole : 0 ≤ exponent
  · rw [if_pos whole, if_pos whole, ofUnsignedText?_whole, Text.digitsValue?_of_ne_nil,
      Text.foldDigits?_append, Text.foldDigits?_toDigits (by decide) (by decide)]
    · simp [Text.foldDigits?_shift]
    · simp [Nat.toDigits_ne_nil]
    · intro c member
      rcases List.mem_append.mp member with member | member
      · exact digits c member
      · exact isDigit_of_mem_replicate member
  · rw [if_neg whole, if_neg whole]
    by_cases inside : (-exponent).toNat < (Nat.toDigits 10 value).length
    · rw [if_pos inside, ofUnsignedText?_point, List.take_append_drop, digitsValue?_toDigits]
      · simp only [Option.map_some, List.length_drop, Option.some.injEq, mk.injEq, true_and]
        omega
      · exact fun c member => digits c (List.mem_of_mem_take member)
      · exact fun c member => digits c (List.mem_of_mem_drop member)
    · rw [if_neg inside]
      -- A zero stands before the point, and zeros fill the places behind it.
      have zero : ∀ c ∈ ['0'], Text.isDigit c := List.forall_mem_singleton.mpr (by decide)
      have places
          : ∀ c ∈ List.replicate ((-exponent).toNat - (Nat.toDigits 10 value).length) '0'
                ++ Nat.toDigits 10 value,
              Text.isDigit c := by
        intro c member
        rcases List.mem_append.mp member with member | member
        · exact isDigit_of_mem_replicate member
        · exact digits c member
      refine (ofUnsignedText?_point zero places).trans ?_
      rw [Text.digitsValue?_of_ne_nil (by simp)]
      refine (congrArg _ (Text.foldDigits?_zeros (by decide) 1 _)).trans ?_
      rw [Text.foldDigits?_zeros (by decide), Text.foldDigits?_toDigits (by decide) (by decide)]
      simp only [Option.map_some, List.length_append, List.length_replicate, Option.some.injEq,
        mk.injEq, true_and]
      omega

-----------------------------------------------------------------------------------------
-- Magnitudes
-----------------------------------------------------------------------------------------

/-- From the exponent 310 on, every decimal number but zero is rounded to infinity. -/
theorem toMagnitude_eq_infinity {decimal : Decimal} (large : 310 ≤ decimal.exponent)
    (present : decimal.digits ≠ 0)
    : decimal.toMagnitude = Magnitude.infinity := by
  rw [toMagnitude, if_neg present, if_pos large]

/-- A number written as a whole number has the same magnitude. -/
theorem toMagnitude_whole {decimal : Decimal} (whole : 0 ≤ decimal.exponent)
    (finite : decimal.toMagnitude ≠ Magnitude.infinity)
    : toMagnitude
          {
            digits := decimal.digits * Nat.pow 10 decimal.exponent.toNat
            exponent := 0
          }
        = decimal.toMagnitude := by
  have power : Nat.pow 10 decimal.exponent.toNat ≠ 0 :=
    Nat.ne_of_gt (Nat.pow_pos (by decide))
  by_cases none : decimal.digits = 0
  · simp [toMagnitude, none]
  · have bounded : ¬310 ≤ decimal.exponent :=
      fun large => finite (toMagnitude_eq_infinity large none)
    have present : decimal.digits * Nat.pow 10 decimal.exponent.toNat ≠ 0 :=
      Nat.mul_ne_zero none power
    simp only [toMagnitude]
    rw [if_neg present, if_neg none, if_neg (by decide), if_neg bounded, if_neg (by omega),
      if_neg (by omega)]
    have negated : (-decimal.exponent).toNat = 0 := by omega
    simp [negated]

end Decimal

namespace Magnitude

variable {magnitude : Magnitude}

/-- A quotient with a power of ten below that is the magnitude is read as the magnitude. -/
theorem toMagnitude_exact {decimal : Decimal} (positive : magnitude.units ≠ 0)
    (exponent : decimal.exponent ≤ 0)
    (enough : -decimal.exponent * 3 < decimal.digits.log2 + 1076)
    (value : decimal.digits * unitsPerOne
      = magnitude.units * Nat.pow 10 (-decimal.exponent).toNat)
    : decimal.toMagnitude = magnitude := by
  have power : 0 < Nat.pow 10 (-decimal.exponent).toNat := Nat.pow_pos (by decide)
  have present : decimal.digits ≠ 0 := by
    intro none
    rw [none, Nat.zero_mul] at value
    exact Nat.ne_of_gt (Nat.mul_pos (Nat.pos_of_ne_zero positive) power) value.symm
  have zero : decimal.exponent.toNat = 0 := by omega
  rw [Decimal.toMagnitude, if_neg present, if_neg (by omega), if_neg (by omega), zero]
  rw [show Nat.pow 10 0 = 1 from rfl, Nat.mul_one, value]
  exact magnitude.nearest_units power

/-- The number of units in one, without its digits. -/
theorem unitsPerOne_eq : unitsPerOne = Nat.pow 2 1074 := by
  delta unitsPerOne
  with_reducible rfl

theorem unitsPerOne_pos : 0 < unitsPerOne := by
  rw [unitsPerOne_eq]
  generalize 1074 = places
  exact Nat.two_pow_pos places

/-- Powers of five have more than two bits for each factor. -/
theorem le_log2_mul_pow_five {value : Nat} (positive : value ≠ 0) (exponent : Nat)
    : 2 * exponent ≤ (value * Nat.pow 5 exponent).log2 := by
  have present : value * Nat.pow 5 exponent ≠ 0 :=
    Nat.mul_ne_zero positive (Nat.ne_of_gt (Nat.pow_pos (by decide)))
  refine (Nat.le_log2 present).mpr ?_
  calc 2 ^ (2 * exponent) = 4 ^ exponent := Nat.pow_mul 2 2 exponent
    _ ≤ 5 ^ exponent := Nat.pow_le_pow_left (by decide) exponent
    _ ≤ value * Nat.pow 5 exponent := Nat.le_mul_of_pos_left _ (Nat.pos_of_ne_zero positive)

/-- Fives and twos make tens. -/
theorem mul_pow_five_mul_pow_two (value exponent : Nat)
    : value * Nat.pow 5 exponent * Nat.pow 2 exponent = value * Nat.pow 10 exponent := by
  rw [Nat.mul_assoc]
  exact congrArg _ (Nat.mul_pow 5 2 exponent).symm

/-- Units that are powers of one half are written exactly with powers of five. -/
theorem toMagnitude_halves {places : Nat} (positive : magnitude.units ≠ 0)
    (units_eq : unitsPerOne = Nat.pow 2 places) (few : places < 1076)
    : Decimal.toMagnitude
          {
            digits := magnitude.units * Nat.pow 5 places
            exponent := -(places : Int)
          }
        = magnitude := by
  refine toMagnitude_exact positive (Int.neg_nonpos_of_nonneg (Int.natCast_nonneg places)) ?_ ?_
  · have large := le_log2_mul_pow_five positive places
    simp only [Int.neg_neg]
    omega
  · simp only [units_eq, Int.neg_neg, Int.toNat_natCast, mul_pow_five_mul_pow_two]

/-- A magnitude without rounding is read as the magnitude. -/
theorem toMagnitude_exactDecimal (positive : magnitude.units ≠ 0)
    : magnitude.exactDecimal.toMagnitude = magnitude := by
  have halves := toMagnitude_halves positive unitsPerOne_eq (by decide)
  unfold exactDecimal
  rwa [Nat.cast_ofNat] at halves

/-- The shortest decimal number of a magnitude is read as the magnitude. -/
theorem toMagnitude_shortest (positive : magnitude.units ≠ 0)
    : magnitude.shortest.toMagnitude = magnitude := by
  unfold shortest
  cases found : (List.range' 1 17).findSome? magnitude.shortestWith? with
  | none => exact toMagnitude_exactDecimal positive
  | some decimal =>
      -- Whichever neighbour is taken was tested.
      obtain ⟨count, _, tried⟩ := List.exists_of_findSome?_eq_some found
      unfold shortestWith? at tried
      have tested := List.find?_some tried
      exact of_decide_eq_true tested

-----------------------------------------------------------------------------------------
-- Written magnitudes
-----------------------------------------------------------------------------------------

theorem ne_infinity (finite : magnitude.isInfinite = false) : magnitude ≠ infinity := by
  rintro rfl
  cases finite

/-- A magnitude that is a natural number has as many units as that many ones. -/
theorem units_of_toNat? {value : Nat} (whole : magnitude.toNat? = some value)
    : magnitude.units = value * unitsPerOne := by
  unfold toNat? at whole
  split at whole
  · cases whole
  · rename_i tests
    simp only [Bool.or_eq_true, bne_iff_ne, not_or, not_not] at tests
    obtain rfl := Option.some.inj whole
    exact (Nat.div_mul_cancel (Nat.dvd_of_mod_eq_zero tests.2)).symm

/-- A whole number is read as the magnitude that it is. -/
theorem toMagnitude_of_toNat? {value : Nat} (whole : magnitude.toNat? = some value)
    : Decimal.toMagnitude { digits := value, exponent := 0 } = magnitude := by
  have units_eq := units_of_toNat? whole
  by_cases none : value = 0
  · rw [none, Nat.zero_mul] at units_eq
    rw [none, units_eq_zero units_eq]
    rfl
  · have positive : magnitude.units ≠ 0 := by
      rw [units_eq]
      exact Nat.mul_ne_zero none (Nat.ne_of_gt unitsPerOne_pos)
    refine toMagnitude_exact positive (Int.le_refl 0) ?_ ?_
    · simp only [Int.neg_zero, Int.zero_mul]
      omega
    · rw [units_eq]
      exact (Nat.mul_one _).symm

/-- A finite magnitude that is no natural number is not zero. -/
theorem positive_of_toNat?_none (finite : magnitude.isInfinite = false)
    (fractional : magnitude.toNat? = none)
    : magnitude.units ≠ 0 := by
  intro none
  simp [toNat?, finite, none] at fractional

/-- The positional notation of the shortest decimal number is read as the magnitude. -/
theorem reads_positional (finite : magnitude.isInfinite = false) (positive : magnitude.units ≠ 0)
    : ∃ decimal,
        Decimal.ofUnsignedText? magnitude.shortest.positional = some decimal
        ∧ decimal.toMagnitude = magnitude := by
  refine ⟨_, magnitude.shortest.ofUnsignedText?_positional, ?_⟩
  have reads := toMagnitude_shortest positive
  split
  · rename_i whole
    rw [Decimal.toMagnitude_whole whole (reads.symm ▸ ne_infinity finite), reads]
  · exact reads

/-- What is written of a finite magnitude is read as the magnitude. -/
theorem reads_text (finite : magnitude.isInfinite = false)
    : ∃ decimal,
        Decimal.ofUnsignedText? magnitude.text = some decimal
        ∧ decimal.toMagnitude = magnitude := by
  rw [text, if_neg (by simp [finite])]
  cases whole : magnitude.toNat? with
  | none => exact reads_positional finite (positive_of_toNat?_none finite whole)
  | some value =>
      dsimp only
      split
      · refine ⟨_, ?_, toMagnitude_of_toNat? whole⟩
        rw [Decimal.ofUnsignedText?_whole fun c member => Text.isDigit_of_mem_toDigits member,
          Decimal.digitsValue?_toDigits]
        rfl
      · rename_i large
        refine reads_positional finite fun none => large ?_
        rw [units_of_toNat? whole] at none
        obtain rfl : value = 0 :=
          (Nat.mul_eq_zero.mp none).resolve_right (Nat.ne_of_gt unitsPerOne_pos)
        exact Nat.pow_pos (by decide)

end Magnitude

-----------------------------------------------------------------------------------------
-- The characters of numbers
-----------------------------------------------------------------------------------------

/-- The text begins with a digit and has only digits and points. -/
def Text.IsDigital (text : List Char) : Prop :=
  (∃ first rest, text = first :: rest ∧ Text.isDigit first)
  ∧ ∀ c ∈ text, Text.isDigit c ∨ c = '.'

theorem Text.isDigital_of_digits {text : List Char} (present : text ≠ [])
    (digits : ∀ c ∈ text, Text.isDigit c)
    : Text.IsDigital text := by
  obtain ⟨first, rest, rfl⟩ := List.exists_cons_of_ne_nil present
  exact ⟨⟨first, rest, rfl, digits first List.mem_cons_self⟩, fun c member => .inl (digits c member)⟩

theorem Text.isDigital_point {whole fraction : List Char} (present : whole ≠ [])
    (digits : ∀ c ∈ whole, Text.isDigit c) (places : ∀ c ∈ fraction, Text.isDigit c)
    : Text.IsDigital (whole ++ '.' :: fraction) := by
  obtain ⟨first, rest, rfl⟩ := List.exists_cons_of_ne_nil present
  refine ⟨⟨first, _, rfl, digits first List.mem_cons_self⟩, fun c member => ?_⟩
  rcases List.mem_append.mp member with member | member
  · exact .inl (digits c member)
  · rcases List.mem_cons.mp member with rfl | member
    · exact .inr rfl
    · exact .inl (places c member)

/-- Positional notation begins with a digit and has only digits and points. -/
theorem Decimal.isDigital_positional (decimal : Decimal) : Text.IsDigital decimal.positional := by
  have digits : ∀ c ∈ Nat.toDigits 10 decimal.digits, Text.isDigit c :=
    fun c member => Text.isDigit_of_mem_toDigits member
  have zeros (count : Nat) : ∀ c ∈ List.replicate count '0', Text.isDigit c :=
    fun c member => isDigit_of_mem_replicate member
  unfold positional
  dsimp only
  split_ifs with whole inside
  · exact Text.isDigital_of_digits (by simp [Nat.toDigits_ne_nil])
      (List.forall_mem_append.mpr ⟨digits, zeros _⟩)
  · refine Text.isDigital_point ?_ (fun c member => digits c (List.mem_of_mem_take member))
      fun c member => digits c (List.mem_of_mem_drop member)
    rw [← List.length_pos_iff, List.length_take]
    omega
  · exact @Text.isDigital_point ['0'] _ (by decide) (List.forall_mem_singleton.mpr (by decide))
      (List.forall_mem_append.mpr ⟨zeros _, digits⟩)

/-- A finite magnitude is written with digits and points. -/
theorem Magnitude.isDigital_text {magnitude : Magnitude} (finite : magnitude.isInfinite = false)
    : Text.IsDigital magnitude.text := by
  rw [text, if_neg (by simp [finite])]
  cases magnitude.toNat? with
  | none => exact Decimal.isDigital_positional _
  | some value =>
      dsimp only
      split
      · exact Text.isDigital_of_digits Nat.toDigits_ne_nil
          fun c member => Text.isDigit_of_mem_toDigits member
      · exact Decimal.isDigital_positional _

-----------------------------------------------------------------------------------------
-- Numbers with a sign
-----------------------------------------------------------------------------------------

/-- A digit is no sign. -/
theorem Decimal.readSign_of_isDigit {first : Char} {rest : List Char} (digit : Text.isDigit first)
    : readSign (first :: rest) = (false, first :: rest) := by
  unfold readSign
  split
  · rename_i same
    obtain ⟨rfl, _⟩ := List.cons.inj same
    cases digit
  · rename_i same
    obtain ⟨rfl, _⟩ := List.cons.inj same
    cases digit
  · rfl

namespace Number

/-- The number that the written form of a number is of: the sign of zero is not written. -/
def written : Number → Number
  | nan => nan
  | signed negative magnitude => signed (negative && magnitude.val != 0) magnitude

/-- A number equals what is written of it: only the sign of zero is lost. -/
theorem equals_written (value : Number) : value.written.equals value := by
  cases value with
  | nan => rfl
  | signed negative magnitude =>
      by_cases zero : magnitude.val = 0 <;> cases negative <;> simp [written, equals, order?, zero]

/-- A magnitude with or without a minus sign is read as the number with the sign. -/
theorem ofText?_signed {magnitude : Magnitude} (finite : magnitude.isInfinite = false)
    (minus : Bool)
    : ofText? (if minus then '-' :: magnitude.text else magnitude.text)
      = some (signed minus magnitude) := by
  obtain ⟨decimal, read, same⟩ := magnitude.reads_text finite
  obtain ⟨⟨first, rest, text_eq, digit⟩, _⟩ := magnitude.isDigital_text finite
  cases minus with
  | true => simp [ofText?, Decimal.readSign, read, same]
  | false =>
      have sign : Decimal.readSign magnitude.text = (false, magnitude.text) := by
        rw [text_eq, Decimal.readSign_of_isDigit digit]
      simp [ofText?, sign, read, same]

/-- What is written of a finite number is read as the number. -/
theorem ofText?_text {negative : Bool} {magnitude : Magnitude}
    (finite : magnitude.isInfinite = false)
    : ofText? (signed negative magnitude).text = some (signed negative magnitude).written :=
  ofText?_signed finite (negative && magnitude.val != 0)

end Number

end EcmaSyntax
