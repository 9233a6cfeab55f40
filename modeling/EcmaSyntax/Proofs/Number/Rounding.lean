import EcmaSyntax.Number.Rounding
import Mathlib.Order.Monotone.Basic
import Mathlib.Tactic.Ring

/-! Rounding finds exact values. The ranks and the numbers of units that they stand for grow together, and
every number of units lies at a rank or between two neighbours. So a magnitude is the nearest one to its own
value, however the value is written as a quotient.
-/

namespace EcmaSyntax

variable {rank units : Nat}

-----------------------------------------------------------------------------------------
-- Ranks and units
-----------------------------------------------------------------------------------------

/-- As many ranks share an exponent. -/
theorem binade_eq : Nat.pow 2 52 = 4503599627370496 := rfl

/-- Below the second doubling of the spacing, ranks are numbers of units. -/
theorem unitsOfRank_of_lt (small : rank < 2 * Nat.pow 2 52) : unitsOfRank rank = rank := by
  have shift_eq : rank / Nat.pow 2 52 - 1 = 0 := by
    rw [binade_eq] at small ⊢
    omega
  simp [unitsOfRank, shift_eq]

/-- The units of a rank are its significand, shifted by its binade. -/
theorem unitsOfRank_eq {shift significand : Nat} (shift_eq : rank / Nat.pow 2 52 - 1 = shift)
    (rank_eq : rank = shift * Nat.pow 2 52 + significand)
    : unitsOfRank rank = significand * Nat.pow 2 shift := by
  simp only [unitsOfRank, shift_eq]
  rw [rank_eq, Nat.add_sub_cancel_left]

/-- An exponent and a significand of 53 bits, which may overflow into the exponent. -/
theorem unitsOfRank_add {shift significand : Nat} (least : Nat.pow 2 52 ≤ significand)
    (most : significand ≤ 2 * Nat.pow 2 52)
    : unitsOfRank (shift * Nat.pow 2 52 + significand) = significand * Nat.pow 2 shift := by
  rcases Nat.lt_or_eq_of_le most with below | rfl
  · exact unitsOfRank_eq (by rw [binade_eq] at *; omega) rfl
  · have rank_eq
        : shift * Nat.pow 2 52 + 2 * Nat.pow 2 52 = (shift + 1) * Nat.pow 2 52 + Nat.pow 2 52 := by
      ring
    rw [unitsOfRank_eq (by rw [binade_eq]; omega) rank_eq,
      show Nat.pow 2 (shift + 1) = Nat.pow 2 shift * 2 from rfl]
    ring

/-- The units of a rank beyond the numbers with the least exponent, and of the next rank. -/
theorem exists_binade (normal : Nat.pow 2 52 ≤ rank)
    : ∃ shift significand,
        rank = shift * Nat.pow 2 52 + significand
        ∧ Nat.pow 2 52 ≤ significand
        ∧ significand < 2 * Nat.pow 2 52
        ∧ unitsOfRank rank = significand * Nat.pow 2 shift
        ∧ unitsOfRank (rank + 1) = (significand + 1) * Nat.pow 2 shift := by
  obtain ⟨shift, significand, rfl, least, most⟩
      : ∃ shift significand,
          rank = shift * Nat.pow 2 52 + significand
          ∧ Nat.pow 2 52 ≤ significand
          ∧ significand < 2 * Nat.pow 2 52 := by
    refine ⟨rank / Nat.pow 2 52 - 1, rank - (rank / Nat.pow 2 52 - 1) * Nat.pow 2 52, ?_⟩
    rw [binade_eq] at normal ⊢
    omega
  refine ⟨shift, significand, rfl, least, most, unitsOfRank_add least (Nat.le_of_lt most), ?_⟩
  rw [Nat.add_assoc]
  exact unitsOfRank_add (Nat.le_succ_of_le least) most

/-- One rank more is more units. -/
theorem unitsOfRank_lt_succ (rank : Nat) : unitsOfRank rank < unitsOfRank (rank + 1) := by
  rcases Nat.lt_or_ge rank (Nat.pow 2 52) with small | normal
  · rw [binade_eq] at small
    rw [unitsOfRank_of_lt (by rw [binade_eq]; omega), unitsOfRank_of_lt (by rw [binade_eq]; omega)]
    exact Nat.lt_succ_self rank
  · obtain ⟨shift, significand, _, _, _, lower_eq, upper_eq⟩ := exists_binade normal
    rw [lower_eq, upper_eq]
    exact Nat.mul_lt_mul_of_pos_right (Nat.lt_succ_self significand) (Nat.two_pow_pos shift)

/-- A higher rank stands for more units. -/
theorem unitsOfRank_strictMono : StrictMono unitsOfRank :=
  strictMono_nat_of_lt_succ unitsOfRank_lt_succ

-----------------------------------------------------------------------------------------
-- Ranks below
-----------------------------------------------------------------------------------------

theorem rankBelow_of_lt (small : units < 2 * Nat.pow 2 52) : rankBelow units = units := by
  have log_le : units.log2 - 52 = 0 := by
    rcases Nat.eq_zero_or_pos units with rfl | positive
    · rfl
    · have few := (Nat.log2_lt (Nat.ne_of_gt positive)).mpr (show units < 2 ^ 53 from small)
      omega
  simp [rankBelow, log_le]

/-- The units lie at the greatest rank below them or between it and the next one. -/
theorem between_rankBelow (units : Nat)
    : unitsOfRank (rankBelow units) ≤ units ∧ units < unitsOfRank (rankBelow units + 1) := by
  rcases Nat.lt_or_ge units (2 * Nat.pow 2 52) with small | large
  · have grows := unitsOfRank_lt_succ units
    rw [unitsOfRank_of_lt small] at grows
    rw [rankBelow_of_lt small, unitsOfRank_of_lt small]
    exact ⟨Nat.le_refl units, grows⟩
  · have positive : units ≠ 0 := by
      rw [binade_eq] at large
      omega
    have power := Nat.two_pow_pos (units.log2 - 52)
    have log_least : 53 ≤ units.log2 := (Nat.le_log2 positive).mpr large
    have least : Nat.pow 2 52 ≤ units / Nat.pow 2 (units.log2 - 52) := by
      refine (Nat.le_div_iff_mul_le power).mpr ?_
      calc 2 ^ 52 * 2 ^ (units.log2 - 52) = 2 ^ units.log2 := by
            rw [← Nat.pow_add, Nat.add_sub_cancel' (by omega)]
        _ ≤ units := Nat.log2_self_le positive
    have most : units / Nat.pow 2 (units.log2 - 52) < 2 * Nat.pow 2 52 := by
      refine (Nat.div_lt_iff_lt_mul power).mpr ?_
      calc units < 2 ^ (units.log2 + 1) := Nat.lt_log2_self
        _ = 2 * 2 ^ 52 * 2 ^ (units.log2 - 52) := by
            rw [← Nat.pow_succ', ← Nat.pow_add]
            congr 1
            omega
    simp only [rankBelow]
    rw [Nat.add_assoc, unitsOfRank_add least (Nat.le_of_lt most),
      unitsOfRank_add (Nat.le_succ_of_le least) most]
    exact ⟨Nat.div_mul_le_self _ _, (Nat.div_lt_iff_lt_mul power).mp (Nat.lt_succ_self _)⟩

/-- The units have reached every rank that stands for no more of them. -/
theorem le_rankBelow (least : unitsOfRank rank ≤ units) : rank ≤ rankBelow units :=
  Nat.le_of_lt_succ
    (unitsOfRank_strictMono.lt_iff_lt.mp (Nat.lt_of_le_of_lt least (between_rankBelow units).2))

/-- The neighbours of a number of units tell its rank. -/
theorem rankBelow_eq (least : unitsOfRank rank ≤ units) (most : units < unitsOfRank (rank + 1))
    : rankBelow units = rank := by
  have notBehind : rankBelow units < rank + 1 :=
    unitsOfRank_strictMono.lt_iff_lt.mp (Nat.lt_of_le_of_lt (between_rankBelow units).1 most)
  exact Nat.le_antisymm (Nat.le_of_lt_succ notBehind) (le_rankBelow least)

/-- The greatest rank with at most the units of a rank is that rank. -/
theorem rankBelow_unitsOfRank (rank : Nat) : rankBelow (unitsOfRank rank) = rank :=
  rankBelow_eq (Nat.le_refl _) (unitsOfRank_lt_succ rank)

namespace Magnitude

-----------------------------------------------------------------------------------------
-- Exact values
-----------------------------------------------------------------------------------------

theorem ofRank_val (magnitude : Magnitude) : ofRank magnitude.val = magnitude :=
  Fin.ext (Nat.min_eq_left (Nat.le_of_lt_succ magnitude.isLt))

/-- Rounding gives back a magnitude that the quotient is exactly. -/
theorem nearest_units (magnitude : Magnitude) {den : Nat} (positive : 0 < den)
    : nearest (magnitude.units * den) den = magnitude := by
  have grows := unitsOfRank_lt_succ magnitude.val
  have rank_eq : rankBelow (magnitude.units * den / den) = magnitude.val := by
    rw [Nat.mul_div_cancel _ positive]
    exact rankBelow_unitsOfRank magnitude.val
  have units_eq : unitsOfRank magnitude.val = magnitude.units := rfl
  have gap_pos : 0 < (unitsOfRank (magnitude.val + 1) - magnitude.units) * den :=
    Nat.mul_pos (Nat.sub_pos_of_lt grows) positive
  simp only [nearest, rank_eq, units_eq, Nat.sub_self, Nat.mul_zero]
  rw [if_pos gap_pos, ofRank_val]

/-- Zero is the only magnitude of no units. -/
theorem units_eq_zero {magnitude : Magnitude} (none : magnitude.units = 0) : magnitude = zero := by
  have rank_eq := rankBelow_unitsOfRank magnitude.val
  rw [show unitsOfRank magnitude.val = 0 from none] at rank_eq
  rw [← ofRank_val magnitude, ← rank_eq]
  rfl

end Magnitude

end EcmaSyntax
