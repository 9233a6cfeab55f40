import EcmaSyntax.Number.Basic
import Mathlib.Data.Set.Defs

/-! Numbers compared in three ways: by equality, by order and by what they contribute to a hash. They agree
with each other up to NaN, which the order takes for equal to everything, and up to the two zeros, which are
equal and hash apart.
-/

namespace EcmaSyntax.Number

variable {first second third value : Number}

-----------------------------------------------------------------------------------------
-- Equality
-----------------------------------------------------------------------------------------

/-- Only NaN equals NaN. -/
theorem nan_equals_iff : nan.equals value ↔ value = nan := by
  cases value <;> simp [equals, order?]

/-- Equal numbers are the same number or the two zeros. -/
theorem eq_or_zeros_of_equals (equal : first.equals second)
    : first = second
      ∨ ∃ negative,
          first = signed negative Magnitude.zero ∧ second = signed (!negative) Magnitude.zero := by
  cases first with
  | nan => exact .inl (nan_equals_iff.mp equal).symm
  | signed negative magnitude =>
      cases second with
      | nan => simp [equals, order?] at equal
      | signed otherNegative otherMagnitude =>
          simp only [equals, order?, beq_iff_eq, Option.some.injEq] at equal
          by_cases sameSign : negative = otherNegative
          · subst sameSign
            have same : magnitude.val = otherMagnitude.val := by
              cases negative <;> simp only [Bool.false_eq_true, if_true, if_false] at equal <;> omega
            exact .inl (congrArg (signed negative) (Fin.ext same))
          · -- Numbers with different signs are equal only if they are opposite, which only zeros are.
            obtain rfl : otherNegative = !negative := by
              cases negative <;> cases otherNegative <;> simp_all
            have none : magnitude.val = 0 ∧ otherMagnitude.val = 0 := by
              cases negative <;>
                simp only [Bool.not_true, Bool.not_false, Bool.false_eq_true, if_true, if_false]
                  at equal <;>
                omega
            obtain rfl : magnitude = Magnitude.zero := Fin.ext none.1
            obtain rfl : otherMagnitude = Magnitude.zero := Fin.ext none.2
            exact .inr ⟨negative, rfl, rfl⟩

-----------------------------------------------------------------------------------------
-- Order
-----------------------------------------------------------------------------------------

/-- Numbers other than NaN have a place in the order. -/
theorem exists_place (number : value ≠ nan) : ∃ place, value.order? = some place := by
  cases value with
  | nan => exact absurd rfl number
  | signed => exact ⟨_, rfl⟩

/-- Numbers with places in the order are compared by these. -/
theorem compare_of_places {place other : Int} (placed : first.order? = some place)
    (otherPlaced : second.order? = some other)
    : first.compare second = Ord.compare place other := by
  rw [compare, placed, otherPlaced]

theorem nan_compare (value : Number) : nan.compare value = .eq := rfl

/-- Every number is level with NaN. -/
theorem compare_nan (value : Number) : value.compare nan = .eq := by
  cases value <;> rfl

/-- Comparing in the other direction reverses the result. -/
theorem compare_swap (first second : Number)
    : second.compare first = (first.compare second).swap := by
  cases first with
  | nan => rw [compare_nan, nan_compare, Ordering.swap]
  | signed =>
      cases second with
      | nan => rw [compare_nan, nan_compare, Ordering.swap]
      | signed => exact (Int.compare_swap _ _).symm

/-- Numbers are level if they are equal, and NaN with all others. -/
theorem compare_eq_iff
    : first.compare second = .eq ↔ first.equals second ∨ first.isNaN ≠ second.isNaN := by
  cases first <;> cases second <;> simp [compare, equals, order?, isNaN]

/-- Numbers are in order of their places, so their order is transitive around a number that has one. -/
theorem compare_trans (number : second ≠ nan) (ordered : first.compare second ≠ .gt)
    (onward : second.compare third ≠ .gt)
    : first.compare third ≠ .gt := by
  by_cases undefined : first = nan ∨ third = nan
  · rcases undefined with rfl | rfl
    · rw [nan_compare]
      exact Ordering.noConfusion
    · rw [compare_nan]
      exact Ordering.noConfusion
  · obtain ⟨left, right⟩ := not_or.mp undefined
    obtain ⟨place, placed⟩ := exists_place left
    obtain ⟨middle, between⟩ := exists_place number
    obtain ⟨last, lastPlaced⟩ := exists_place right
    rw [compare_of_places placed between, Int.compare_ne_gt] at ordered
    rw [compare_of_places between lastPlaced, Int.compare_ne_gt] at onward
    rw [compare_of_places placed lastPlaced, Int.compare_ne_gt]
    exact Int.le_trans ordered onward

/-- The order by value is a total order of the numbers in a set, in which exactly the equal numbers are
level.
-/
structure OrdersTotally (numbers : Set Number) : Prop where
  level_iff
    : ∀ first ∈ numbers, ∀ second ∈ numbers, first.compare second = .eq ↔ first.equals second
  reverses
    : ∀ first ∈ numbers,
        ∀ second ∈ numbers, second.compare first = (first.compare second).swap
  trans
    : ∀ first ∈ numbers,
        ∀ second ∈ numbers,
          ∀ third ∈ numbers,
            first.compare second ≠ .gt → second.compare third ≠ .gt → first.compare third ≠ .gt

/-- Numbers are totally ordered, and in agreement with their equality, if and only if NaN is not among
them or nothing else is.
-/
theorem ordersTotally_iff (numbers : Set Number)
    : OrdersTotally numbers ↔ (nan ∈ numbers → ∀ value ∈ numbers, value = nan) := by
  constructor
  · intro orders member value other
    exact nan_equals_iff.mp ((orders.level_iff nan member value other).mp (nan_compare value))
  · intro alone
    refine ⟨?_, fun first _ second _ => compare_swap first second, ?_⟩
    · intro first member second other
      rw [compare_eq_iff, or_iff_left_iff_imp]
      intro oneNaN
      -- If one of them is NaN, then it is in the set, and the other one is NaN as well.
      have both : first = nan ∧ second = nan := by
        cases first with
        | nan => exact ⟨rfl, alone member second other⟩
        | signed =>
            cases second with
            | nan => exact ⟨alone other _ member, rfl⟩
            | signed => exact absurd rfl oneNaN
      rw [both.1, both.2] at oneNaN
      exact absurd rfl oneNaN
    · intro first member second between third last ordered onward
      by_cases undefined : second = nan
      · rw [alone (undefined ▸ between) first member, nan_compare]
        exact Ordering.noConfusion
      · exact compare_trans undefined ordered onward

/-- NaN is level with one, which it does not equal; and two does not come after NaN nor NaN after one,
although two comes after one.
-/
theorem nan_level_with_numbers
    : let undefined := ofBits 0x7FF8000000000000
      let one := ofBits 0x3FF0000000000000
      let two := ofBits 0x4000000000000000
      undefined.compare one = .eq
      ∧ ¬undefined.equals one
      ∧ two.compare undefined ≠ .gt
      ∧ undefined.compare one ≠ .gt
      ∧ two.compare one = .gt := by
  decide

-----------------------------------------------------------------------------------------
-- Hashes
-----------------------------------------------------------------------------------------

/-- The bits of a number are those of its magnitude, below the bit of the sign. -/
theorem toNat_toBits (negative : Bool) (magnitude : Magnitude)
    : (signed negative magnitude).toBits.toNat
      = (if negative then Nat.pow 2 63 else 0) + magnitude.val := by
  have bound := magnitude.isLt
  cases negative <;> simp [toBits] <;> omega

/-- A number is told by its bit pattern. -/
theorem ofBits_toBits (value : Number) : ofBits value.toBits = value := by
  cases value with
  | nan => decide
  | signed negative magnitude =>
      have bound := magnitude.isLt
      have sign_eq : decide (Nat.pow 2 63 ≤ (signed negative magnitude).toBits.toNat) = negative := by
        rw [toNat_toBits]
        cases negative with
        | true => simp
        | false =>
            simp
            omega
      have rank_eq : (signed negative magnitude).toBits.toNat % Nat.pow 2 63 = magnitude.val := by
        rw [toNat_toBits]
        cases negative with
        | true =>
            simp
            omega
        | false =>
            simp
            omega
      simp only [ofBits, sign_eq, rank_eq, dif_pos bound]

/-- Bit patterns are hashed as they are, unless they are NaN. -/
theorem hashBits?_ofBits {bits : UInt64} (number : (ofBits bits).isNaN = false)
    : (ofBits bits).hashBits? = some bits := by
  by_cases inRange : bits.toNat % Nat.pow 2 63 < 0x7FF0000000000001
  · have bound := bits.toNat_lt
    rw [ofBits, dif_pos inRange]
    refine congrArg some (UInt64.toNat_inj.mp ?_)
    rw [toNat_toBits]
    simp only [Nat.pow_eq, Nat.reducePow, decide_eq_true_eq]
    split <;> omega
  · rw [ofBits, dif_neg inRange] at number
    cases number

/-- Only the same numbers are hashed alike. -/
theorem hashBits?_inj : first.hashBits? = second.hashBits? ↔ first = second := by
  refine ⟨fun same => ?_, congrArg hashBits?⟩
  cases first <;> cases second <;> simp only [hashBits?, reduceCtorEq, Option.some.injEq] at same
  case nan.nan => rfl
  case signed.signed => rw [← ofBits_toBits (signed _ _), same, ofBits_toBits]

end EcmaSyntax.Number
