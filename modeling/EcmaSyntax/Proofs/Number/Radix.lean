import EcmaSyntax.Number.Literal
import EcmaSyntax.Proofs.Number.Nearest
import EcmaSyntax.Proofs.Number.ReadBack
import EcmaSyntax.Proofs.Text.Numerals

/-! Numbers summed up digit by digit, in a radix that is a power of two, with a rounding at every step. The
steps are exact up to 53 bits; the step beyond rounds, and those behind only multiply by the radix. So a
number is rounded as if its last digits were zeros, which makes a difference where these digits lead beyond
the middle between two magnitudes.
-/

namespace EcmaSyntax

variable {rank units bits value count digit : Nat}

-----------------------------------------------------------------------------------------
-- Powers of two
-----------------------------------------------------------------------------------------

/-- Powers of two are added to the exponent. -/
theorem unitsOfRank_shift (normal : Nat.pow 2 52 ≤ rank) (bits : Nat)
    : unitsOfRank (rank + bits * Nat.pow 2 52) = Nat.pow 2 bits * unitsOfRank rank := by
  obtain ⟨shift, significand, rfl, least, most, units_eq, _⟩ := exists_binade normal
  have rank_eq
      : shift * Nat.pow 2 52 + significand + bits * Nat.pow 2 52
        = (shift + bits) * Nat.pow 2 52 + significand := by
    ring
  rw [units_eq, rank_eq, unitsOfRank_add least (Nat.le_of_lt most),
    show Nat.pow 2 (shift + bits) = Nat.pow 2 shift * Nat.pow 2 bits from Nat.pow_add 2 shift bits]
  ring

/-- Above the subnormal ranks, every further binade doubles the units of a rank. -/
theorem unitsOfRank_shift_succ (normal : Nat.pow 2 52 ≤ rank) (bits : Nat)
    : unitsOfRank (rank + bits * Nat.pow 2 52 + 1) = Nat.pow 2 bits * unitsOfRank (rank + 1) := by
  rw [Nat.add_right_comm]
  exact unitsOfRank_shift (Nat.le_succ_of_le normal) bits

/-- Enough units to fill a significand lie above the subnormal ranks. -/
theorem normal_of_units (large : Nat.pow 2 52 ≤ units) : Nat.pow 2 52 ≤ rankBelow units := by
  refine le_rankBelow (Nat.le_trans (Nat.le_of_eq (unitsOfRank_of_lt ?_)) large)
  rw [binade_eq]
  decide

namespace Magnitude

/-- Rounding goes along with a multiplication by a power of two. -/
theorem nearestRank_shift (large : Nat.pow 2 52 ≤ units) (bits : Nat)
    : nearestRank (Nat.pow 2 bits * units) = nearestRank units + bits * Nat.pow 2 52 := by
  have power : 0 < Nat.pow 2 bits := Nat.two_pow_pos bits
  obtain ⟨least, most⟩ := between_rankBelow units
  have normal := normal_of_units large
  rw [nearestRank_eq least most]
  generalize rankBelow units = rank at least most normal
  have lower_eq := unitsOfRank_shift normal bits
  have upper_eq := unitsOfRank_shift_succ normal bits
  rw [nearestRank_eq (by rw [lower_eq]; exact Nat.mul_le_mul_left _ least)
    (by rw [upper_eq]; exact Nat.mul_lt_mul_of_pos_left most power), lower_eq, upper_eq,
    Nat.mul_left_comm, ← Nat.mul_add]
  simp only [Nat.mul_lt_mul_left power]
  split_ifs
  · rfl
  · omega
  · rw [binade_eq]
    omega

-----------------------------------------------------------------------------------------
-- Whole numbers
-----------------------------------------------------------------------------------------

/-- One is a power of two of units, of more than a significand's places. -/
theorem exists_places : ∃ places, unitsPerOne = Nat.pow 2 places ∧ 52 ≤ places ∧ places ≤ 1074 :=
  ⟨1074, unitsPerOne_eq, by decide, Nat.le_refl _⟩

/-- A number of 53 bits is filled up with zeros to a significand. -/
theorem exists_fill (present : value ≠ 0) (small : value < 2 * Nat.pow 2 52)
    : ∃ fill ≤ 52,
        Nat.pow 2 52 ≤ value * Nat.pow 2 fill ∧ value * Nat.pow 2 fill < 2 * Nat.pow 2 52 := by
  obtain ⟨fill, fill_eq⟩ : ∃ fill, value.log2 + fill = 52 :=
    ⟨52 - value.log2, Nat.add_sub_cancel' (Nat.le_of_lt_succ ((Nat.log2_lt present).mpr small))⟩
  refine ⟨fill, by omega, ?_, ?_⟩
  · calc 2 ^ 52 = 2 ^ value.log2 * 2 ^ fill := by rw [← Nat.pow_add, fill_eq]
      _ ≤ value * 2 ^ fill := Nat.mul_le_mul_right _ (Nat.log2_self_le present)
  · calc value * 2 ^ fill
        < 2 ^ (value.log2 + 1) * 2 ^ fill :=
          Nat.mul_lt_mul_of_pos_right Nat.lt_log2_self (Nat.two_pow_pos fill)
      _ = 2 * 2 ^ 52 := by rw [← Nat.pow_add, Nat.add_right_comm, fill_eq, Nat.pow_succ']

/-- Numbers of 53 bits are magnitudes. -/
theorem exists_rank_eq (small : value < 2 * Nat.pow 2 52)
    : ∃ rank < infiniteRank, unitsOfRank rank = value * unitsPerOne := by
  obtain ⟨places, places_eq, least, most⟩ := exists_places
  rw [places_eq]
  rcases Nat.eq_zero_or_pos value with rfl | positive
  · exact ⟨0, by decide, (Nat.zero_mul _).symm⟩
  · obtain ⟨fill, few, grown, fits⟩ := exists_fill (Nat.ne_of_gt positive) small
    refine ⟨(places - fill) * Nat.pow 2 52 + value * Nat.pow 2 fill, ?_, ?_⟩
    · have infinite_eq : infiniteRank = 2047 * Nat.pow 2 52 := rfl
      rw [infinite_eq]
      rw [binade_eq] at fits ⊢
      omega
    · rw [unitsOfRank_add grown (Nat.le_of_lt fits), Nat.mul_assoc]
      refine congrArg _ ((Nat.pow_add 2 fill (places - fill)).symm.trans ?_)
      exact congrArg (Nat.pow 2) (Nat.add_sub_cancel' (Nat.le_trans few least))

/-- Numbers of 53 bits are not rounded. -/
theorem ofNat_exact (small : value < 2 * Nat.pow 2 52)
    : (ofNat value).isInfinite = false ∧ (ofNat value).units = value * unitsPerOne := by
  obtain ⟨rank, finite, units_eq⟩ := exists_rank_eq small
  have rank_units := (units_ofRank (Nat.le_of_lt finite)).trans units_eq
  have same := (ofRank rank).nearest_units Nat.one_pos
  rw [Nat.mul_one, rank_units] at same
  rw [ofNat, same]
  exact ⟨isInfinite_ofRank finite, rank_units⟩

/-- The rank and the next one stand for even numbers, the doubles of these. -/
structure EvenNeighbours (rank lower upper : Nat) : Prop where
  lower_eq : unitsOfRank rank = 2 * lower * unitsPerOne
  upper_eq : unitsOfRank (rank + 1) = 2 * upper * unitsPerOne

theorem le_of_large (large : 2 * Nat.pow 2 52 * unitsPerOne ≤ units) : Nat.pow 2 52 ≤ units := by
  calc Nat.pow 2 52
      ≤ 2 * Nat.pow 2 52 := Nat.le_mul_of_pos_left _ Nat.two_pos
    _ ≤ 2 * Nat.pow 2 52 * unitsPerOne := Nat.le_mul_of_pos_right _ unitsPerOne_pos
    _ ≤ units := large

theorem normal_of_large (large : 2 * Nat.pow 2 52 * unitsPerOne ≤ unitsOfRank rank)
    : Nat.pow 2 52 ≤ rank := by
  have enough := le_of_large large
  by_contra few
  rw [unitsOfRank_of_lt (by omega)] at enough
  exact few enough

/-- From 53 bits on, magnitudes are even numbers. -/
theorem exists_evenNeighbours (large : 2 * Nat.pow 2 52 * unitsPerOne ≤ unitsOfRank rank)
    : ∃ lower upper, EvenNeighbours rank lower upper ∧ lower < upper := by
  obtain ⟨places, places_eq, _⟩ := exists_places
  obtain ⟨shift, significand, _, _, most, lower_eq, upper_eq⟩ := exists_binade (normal_of_large large)
  rw [lower_eq, places_eq] at large
  have beyond : places < shift := by
    by_contra within
    have power : Nat.pow 2 shift ≤ Nat.pow 2 places :=
      Nat.pow_le_pow_right (by decide) (Nat.le_of_not_lt within)
    have less : significand * Nat.pow 2 shift < 2 * Nat.pow 2 52 * Nat.pow 2 places :=
      Nat.mul_lt_mul_of_lt_of_le most power (Nat.two_pow_pos places)
    exact absurd large (Nat.not_le_of_lt less)
  obtain ⟨further, shift_eq⟩ : ∃ further, shift = further + (places + 1) :=
    ⟨shift - (places + 1), by omega⟩
  have even : Nat.pow 2 shift = 2 * Nat.pow 2 further * unitsPerOne := by
    rw [shift_eq, places_eq]
    calc 2 ^ (further + (places + 1)) = 2 ^ further * (2 ^ places * 2) := Nat.pow_add 2 further _
      _ = 2 * 2 ^ further * 2 ^ places := by ring
  rw [even] at lower_eq upper_eq
  refine ⟨significand * Nat.pow 2 further, (significand + 1) * Nat.pow 2 further, ⟨?_, ?_⟩, ?_⟩
  · rw [lower_eq]
    ring
  · rw [upper_eq]
    ring
  · exact Nat.mul_lt_mul_of_pos_right (Nat.lt_succ_self _) (Nat.two_pow_pos further)

/-- A number of more than 53 bits is rounded to one. -/
theorem le_unitsOfRank_rankBelow (large : 2 * Nat.pow 2 52 * unitsPerOne ≤ units)
    : 2 * Nat.pow 2 52 * unitsPerOne ≤ unitsOfRank (rankBelow units) := by
  obtain ⟨places, places_eq, _⟩ := exists_places
  have least_eq
      : unitsOfRank (places * Nat.pow 2 52 + 2 * Nat.pow 2 52) = 2 * Nat.pow 2 52 * unitsPerOne := by
    rw [places_eq]
    exact unitsOfRank_add (by rw [binade_eq]; decide) (Nat.le_refl _)
  rw [← least_eq] at large ⊢
  exact unitsOfRank_strictMono.le_iff_le.mpr (le_rankBelow large)

-----------------------------------------------------------------------------------------
-- Appending a digit
-----------------------------------------------------------------------------------------

theorem ofNat_zero : ofNat 0 = zero := by
  rw [ofNat, Nat.zero_mul]
  rfl

/-- The magnitude of a natural number is that of the rank nearest to its units. -/
theorem ofNat_eq_ofRank (value : Nat) : ofNat value = ofRank (nearestRank (value * unitsPerOne)) :=
  nearest_eq_ofRank _

/-- To a number of 53 bits a digit is appended with one rounding. -/
theorem appendDigit_exact (small : value < 2 * Nat.pow 2 52) (radix digit : Nat)
    : (ofNat value).appendDigit radix digit = ofNat (radix * value + digit) := by
  obtain ⟨finite, units_eq⟩ := ofNat_exact small
  rw [appendDigit, if_neg (by simp [finite]), units_eq, ofNat, Nat.add_mul, Nat.mul_assoc]

/-- The nearest rank is not below the one that the units have reached. -/
theorem rankBelow_le_nearestRank (units : Nat) : rankBelow units ≤ nearestRank units := by
  simp only [nearestRank]
  split_ifs <;> omega

/-- Behind a number of more than 53 bits a digit is as good as a zero. -/
theorem appendDigit_dropped (large : 2 * Nat.pow 2 52 ≤ value) (few : digit < Nat.pow 2 bits)
    : (ofNat value).appendDigit (Nat.pow 2 bits) digit = ofNat (Nat.pow 2 bits * value) := by
  have units_large : 2 * Nat.pow 2 52 * unitsPerOne ≤ value * unitsPerOne := Nat.mul_le_mul_right _ large
  have shifted := nearestRank_shift (le_of_large units_large) bits
  have rounded_large : 2 * Nat.pow 2 52 * unitsPerOne ≤ unitsOfRank (nearestRank (value * unitsPerOne)) :=
    Nat.le_trans (le_unitsOfRank_rankBelow units_large)
      (unitsOfRank_strictMono.le_iff_le.mpr (rankBelow_le_nearestRank _))
  rw [ofNat_eq_ofRank, ofNat_eq_ofRank, Nat.mul_assoc, shifted]
  generalize nearestRank (value * unitsPerOne) = rank at rounded_large
  rcases Nat.lt_or_ge rank infiniteRank with finite | infinite
  · rw [appendDigit, if_neg (by simp [isInfinite_ofRank finite]), units_ofRank (Nat.le_of_lt finite),
      nearest_eq_ofRank]
    obtain ⟨lower, upper, ends, apart⟩ := exists_evenNeighbours rounded_large
    have room
        : Nat.pow 2 bits * (unitsOfRank rank + 2 * unitsPerOne)
          ≤ Nat.pow 2 bits * unitsOfRank (rank + 1) := by
      refine Nat.mul_le_mul_left _ ?_
      rw [ends.lower_eq, ends.upper_eq, ← Nat.add_mul]
      exact Nat.mul_le_mul_right _ (by omega)
    have less : digit * unitsPerOne < Nat.pow 2 bits * unitsPerOne :=
      Nat.mul_lt_mul_of_pos_right few unitsPerOne_pos
    have normal := normal_of_large rounded_large
    have shifted_lower := unitsOfRank_shift normal bits
    have shifted_upper := unitsOfRank_shift_succ normal bits
    rw [Nat.mul_add, Nat.mul_left_comm] at room
    rw [nearestRank_eq (by rw [shifted_lower]; omega) (by rw [shifted_upper]; omega),
      if_pos (by rw [shifted_lower, shifted_upper]; omega)]
  · rw [ofRank_of_ge infinite, ofRank_of_ge (Nat.le_add_right_of_le infinite), appendDigit]
    exact if_pos rfl

-----------------------------------------------------------------------------------------
-- Summing up digits
-----------------------------------------------------------------------------------------

/-- The number with zeros for its last digits. -/
def kept (radix value count : Nat) : Nat :=
  value / radix ^ count * radix ^ count

/-- So many digits follow the first ones that are a number of more than 53 bits; none do if there are no
such.
-/
structure Drops (radix value count : Nat) : Prop where
  most : value / radix ^ (count + 1) < Nat.pow 2 53
  least : count ≠ 0 → Nat.pow 2 53 ≤ value / radix ^ count

section

variable {radix : Nat}

theorem kept_zero (radix value : Nat) : kept radix value 0 = value := by
  rw [kept, Nat.pow_zero, Nat.div_one, Nat.mul_one]

/-- Zeros for the last digits make a number no greater. -/
theorem kept_le (radix value count : Nat) : kept radix value count ≤ value :=
  Nat.div_mul_le_self _ _

/-- The digits in front of the last one do not depend on it. -/
theorem div_append (few : digit < radix) (value count : Nat)
    : (radix * value + digit) / radix ^ (count + 1) = value / radix ^ count := by
  rw [Nat.pow_succ', ← Nat.div_div_eq_div_mul, Nat.mul_add_div (Nat.zero_lt_of_lt few),
    Nat.div_eq_of_lt few, Nat.add_zero]

/-- No digit is dropped while the number in front has up to 53 bits. -/
theorem Drops.append_exact (few : digit < radix) (small : value < Nat.pow 2 53)
    : Drops radix (radix * value + digit) 0 := by
  refine ⟨?_, fun present => absurd rfl present⟩
  rwa [div_append few, Nat.pow_zero, Nat.div_one]

/-- A digit behind a number of more than 53 bits is dropped along with those before. -/
theorem Drops.append (drops : Drops radix value count) (few : digit < radix)
    (large : Nat.pow 2 53 ≤ value)
    : Drops radix (radix * value + digit) (count + 1) := by
  refine ⟨by rw [div_append few]; exact drops.most, fun _ => ?_⟩
  rw [div_append few]
  rcases Nat.eq_zero_or_pos count with rfl | more
  · rwa [Nat.pow_zero, Nat.div_one]
  · exact drops.least (Nat.ne_of_gt more)

/-- One more digit that is dropped multiplies what is kept by the radix. -/
theorem kept_append (few : digit < radix) (value count : Nat)
    : kept radix (radix * value + digit) (count + 1) = radix * kept radix value count := by
  rw [kept, kept, div_append few, Nat.pow_succ']
  ring

/-- Nothing is dropped from a number of 53 bits. -/
theorem Drops.eq_zero (drops : Drops radix value count) (small : value < Nat.pow 2 53) : count = 0 := by
  by_contra some
  have front := Nat.div_le_self value (radix ^ count)
  exact absurd small (Nat.not_lt_of_le (Nat.le_trans (drops.least some) front))

/-- What is kept of a number of more than 53 bits has more than 53 bits. -/
theorem Drops.le_kept (drops : Drops radix value count) (large : Nat.pow 2 53 ≤ value)
    : Nat.pow 2 53 ≤ kept radix value count := by
  rcases Nat.eq_zero_or_pos count with rfl | more
  · rwa [kept_zero]
  · have front := drops.least (Nat.ne_of_gt more)
    refine Nat.le_trans front (Nat.le_mul_of_pos_right _ (Nat.pos_of_ne_zero fun none => ?_))
    rw [none, Nat.div_zero] at front
    exact absurd front (by decide)

end

/-- A digit is appended to the number, or one more is dropped. -/
theorem appendDigit_drops (drops : Drops (Nat.pow 2 bits) value count) (few : digit < Nat.pow 2 bits)
    : ∃ further,
        Drops (Nat.pow 2 bits) (Nat.pow 2 bits * value + digit) further
        ∧ (ofNat (kept (Nat.pow 2 bits) value count)).appendDigit (Nat.pow 2 bits) digit
          = ofNat (kept (Nat.pow 2 bits) (Nat.pow 2 bits * value + digit) further) := by
  rcases Nat.lt_or_ge value (Nat.pow 2 53) with small | large
  · refine ⟨0, .append_exact few small, ?_⟩
    rw [drops.eq_zero small, kept_zero, kept_zero]
    exact appendDigit_exact small _ _
  · refine ⟨count + 1, drops.append few large, ?_⟩
    rw [kept_append few]
    exact appendDigit_dropped (drops.le_kept large) few

/-- The sum of the digits of a number is that of the digits that are not dropped. -/
theorem appendDigits?_drops {text : List Char} {total : Nat} (drops : Drops (Nat.pow 2 bits) value count)
    (folded : Text.foldDigits? (Nat.pow 2 bits) value text = some total)
    : ∃ further,
        Drops (Nat.pow 2 bits) total further
        ∧ appendDigits? (Nat.pow 2 bits) (ofNat (kept (Nat.pow 2 bits) value count)) text
          = some (ofNat (kept (Nat.pow 2 bits) total further)) := by
  induction text generalizing value count with
  | nil =>
      cases folded
      exact ⟨count, drops, rfl⟩
  | cons c text ih =>
      obtain ⟨digit, valued, onward⟩ := Option.bind_eq_some_iff.mp folded
      obtain ⟨more, dropsMore, appended⟩ := appendDigit_drops drops (Text.digitValue?_lt valued)
      obtain ⟨further, dropsFurther, summed⟩ := ih dropsMore onward
      refine ⟨further, dropsFurther, ?_⟩
      rw [appendDigits?, valued, Option.bind_some, appended, summed]

/-- What a text that writes a number sums up to. -/
theorem ofDigits?_of_writes {text : List Char} (writes : Text.Writes (Nat.pow 2 bits) text value)
    (least : 2 ≤ Nat.pow 2 bits) (most : Nat.pow 2 bits ≤ 16)
    : ∃ count,
        Drops (Nat.pow 2 bits) value count
        ∧ ofDigits? (Nat.pow 2 bits) text = some (ofNat (kept (Nat.pow 2 bits) value count)) := by
  have drops : Drops (Nat.pow 2 bits) 0 0 := ⟨by rw [Nat.zero_div]; decide, nofun⟩
  obtain ⟨count, dropsCount, summed⟩ := appendDigits?_drops drops (writes.foldDigits? least most)
  rw [kept_zero, ofNat_zero] at summed
  refine ⟨count, dropsCount, ?_⟩
  rw [ofDigits?, if_neg (by simpa using writes.ne_nil), summed]

-----------------------------------------------------------------------------------------
-- What is lost
-----------------------------------------------------------------------------------------

/-- So many units are the middle behind a finite magnitude of even rank. -/
def TiesDown (units : Nat) : Prop :=
  ∃ rank < infiniteRank, rank % 2 = 0 ∧ 2 * units = unitsOfRank rank + unitsOfRank (rank + 1)

/-- With zeros for its last digits the number is rounded down from the middle between two magnitudes; the
digits themselves lead beyond the middle.
-/
def LosesTie (radix value count : Nat) : Prop :=
  kept radix value count ≠ value ∧ TiesDown (kept radix value count * unitsPerOne)

section

variable {lower upper : Nat}

/-- The middle between even neighbours is a whole number. -/
theorem EvenNeighbours.middle_eq (ends : EvenNeighbours rank lower upper)
    : unitsOfRank rank + unitsOfRank (rank + 1) = 2 * ((lower + upper) * unitsPerOne) := by
  rw [ends.lower_eq, ends.upper_eq]
  ring

/-- A number between two even neighbours lies between their ranks. -/
theorem EvenNeighbours.between (ends : EvenNeighbours rank lower upper) (least : 2 * lower ≤ value)
    (most : value < 2 * upper)
    : unitsOfRank rank ≤ value * unitsPerOne ∧ value * unitsPerOne < unitsOfRank (rank + 1) := by
  rw [ends.lower_eq, ends.upper_eq]
  exact ⟨Nat.mul_le_mul_right _ least, Nat.mul_lt_mul_of_pos_right most unitsPerOne_pos⟩

/-- A number between even neighbours is compared with their middle. -/
theorem EvenNeighbours.nearestRank_eq (ends : EvenNeighbours rank lower upper)
    (least : 2 * lower ≤ value) (most : value < 2 * upper)
    : nearestRank (value * unitsPerOne)
      = if value < lower + upper then rank
        else if lower + upper < value then rank + 1
        else rank + rank % 2 := by
  obtain ⟨above, below⟩ := ends.between least most
  rw [Magnitude.nearestRank_eq above below, ends.middle_eq]
  simp only [Nat.mul_lt_mul_left Nat.two_pos, Nat.mul_lt_mul_right unitsPerOne_pos]

/-- The middle between two even neighbours is the sum of their halves. -/
theorem EvenNeighbours.tiesDown_iff (ends : EvenNeighbours rank lower upper)
    (least : 2 * lower ≤ value) (most : value < 2 * upper)
    : TiesDown (value * unitsPerOne)
      ↔ rank < infiniteRank ∧ rank % 2 = 0 ∧ value = lower + upper := by
  obtain ⟨above, below⟩ := ends.between least most
  constructor
  · rintro ⟨other, finite, even, middle⟩
    have grows := unitsOfRank_lt_succ other
    obtain rfl : other = rank := by
      rw [← rankBelow_eq above below]
      exact (rankBelow_eq (by omega) (by omega)).symm
    rw [ends.middle_eq] at middle
    exact ⟨finite, even, Nat.eq_of_mul_eq_mul_right unitsPerOne_pos (by omega)⟩
  · rintro ⟨finite, even, rfl⟩
    exact ⟨rank, finite, even, ends.middle_eq.symm⟩

end

/-- Dropped digits do not lead up to a number that the others are short of. -/
theorem lt_of_kept_lt {radix bound : Nat} (less : kept radix value count < bound * radix ^ count)
    : value < bound * radix ^ count := by
  have power : 0 < radix ^ count := Nat.pos_of_mul_pos_left (Nat.zero_lt_of_lt less)
  exact (Nat.div_lt_iff_lt_mul power).mp (Nat.lt_of_mul_lt_mul_right less)

/-- A number from which digits are dropped lies between two even numbers that are neighbours among the
magnitudes, on the same side of their middle as without these digits unless they lead beyond it.
-/
theorem Drops.exists_neighbours (drops : Drops (Nat.pow 2 bits) value count) (some : 0 < count)
    : ∃ rank lower upper,
        EvenNeighbours rank lower upper
        ∧ 2 * lower ≤ kept (Nat.pow 2 bits) value count
        ∧ value < 2 * upper
        ∧ (kept (Nat.pow 2 bits) value count < lower + upper → value < lower + upper) := by
  have radix_eq : Nat.pow 2 bits ^ count = Nat.pow 2 (bits * count) := (Nat.pow_mul 2 bits count).symm
  have present := unitsPerOne_pos
  have large
      : 2 * Nat.pow 2 52 * unitsPerOne ≤ value / Nat.pow 2 bits ^ count * unitsPerOne :=
    Nat.mul_le_mul_right _ (drops.least (Nat.ne_of_gt some))
  obtain ⟨least, most⟩ := between_rankBelow (value / Nat.pow 2 bits ^ count * unitsPerOne)
  have rounded_large := le_unitsOfRank_rankBelow large
  have normal := normal_of_large rounded_large
  obtain ⟨lower, upper, ends, _⟩ := exists_evenNeighbours rounded_large
  rw [ends.lower_eq] at least
  rw [ends.upper_eq] at most
  refine ⟨_, lower * Nat.pow 2 bits ^ count, upper * Nat.pow 2 bits ^ count,
    ⟨(unitsOfRank_shift normal (bits * count)).trans ?_,
      (unitsOfRank_shift_succ normal (bits * count)).trans ?_⟩, ?_, ?_, ?_⟩
  · rw [ends.lower_eq, radix_eq]
    ring
  · rw [ends.upper_eq, radix_eq]
    ring
  · rw [← Nat.mul_assoc]
    exact Nat.mul_le_mul_right _ (Nat.le_of_mul_le_mul_right least present)
  · rw [← Nat.mul_assoc]
    refine lt_of_kept_lt (Nat.mul_lt_mul_of_pos_right (Nat.lt_of_mul_lt_mul_right most) ?_)
    rw [radix_eq]
    exact Nat.two_pow_pos _
  · rw [← Nat.add_mul]
    exact lt_of_kept_lt

/-- From the middle behind a rank, rounding leads to the next one unless the rank is even and finite. -/
theorem ofRank_even (rank : Nat)
    : ofRank (rank + rank % 2) = ofRank (rank + 1) ∧ ¬(rank < infiniteRank ∧ rank % 2 = 0)
      ∨ (ofRank (rank + 1)).val = (ofRank (rank + rank % 2)).val + 1
        ∧ rank < infiniteRank
        ∧ rank % 2 = 0 := by
  rcases Nat.mod_two_eq_zero_or_one rank with even | odd
  · rw [even, Nat.add_zero]
    rcases Nat.lt_or_ge rank infiniteRank with finite | infinite
    · rw [ofRank_of_le finite, ofRank_of_le (Nat.le_of_lt finite)]
      exact .inr ⟨rfl, finite, rfl⟩
    · rw [ofRank_of_ge infinite, ofRank_of_ge (Nat.le_succ_of_le infinite)]
      exact .inl ⟨rfl, fun tied => absurd tied.1 (Nat.not_lt_of_le infinite)⟩
  · rw [odd]
    exact .inl ⟨rfl, fun tied => absurd tied.2 Nat.one_ne_zero⟩

/-- The magnitude that the digits sum up to is the nearest one, or the one in front of it. -/
theorem ofNat_kept (drops : Drops (Nat.pow 2 bits) value count)
    : ofNat (kept (Nat.pow 2 bits) value count) = ofNat value
        ∧ ¬LosesTie (Nat.pow 2 bits) value count
      ∨ (ofNat value).val = (ofNat (kept (Nat.pow 2 bits) value count)).val + 1
        ∧ LosesTie (Nat.pow 2 bits) value count := by
  rcases Nat.eq_zero_or_pos count with rfl | some
  · rw [kept_zero]
    exact .inl ⟨rfl, fun loses => loses.1 (kept_zero _ _)⟩
  · obtain ⟨rank, lower, upper, ends, least, most, short⟩ := drops.exists_neighbours some
    have fewer := kept_le (Nat.pow 2 bits) value count
    have ties := ends.tiesDown_iff least (Nat.lt_of_le_of_lt fewer most)
    rw [LosesTie, ties, ofNat_eq_ofRank, ofNat_eq_ofRank value,
      ends.nearestRank_eq least (Nat.lt_of_le_of_lt fewer most),
      ends.nearestRank_eq (Nat.le_trans least fewer) most]
    generalize kept (Nat.pow 2 bits) value count = front at *
    rcases Nat.lt_trichotomy front (lower + upper) with under | same | past
    · refine .inl ⟨?_, fun loses => absurd loses.2.2.2 (Nat.ne_of_lt under)⟩
      rw [if_pos under, if_pos (short under)]
    · rw [same] at fewer ⊢
      rw [if_neg (Nat.lt_irrefl _), if_neg (Nat.lt_irrefl _), if_neg (Nat.not_lt_of_le fewer)]
      rcases Nat.eq_or_lt_of_le fewer with whole | beyond
      · rw [if_neg (Nat.not_lt_of_le (Nat.le_of_eq whole.symm))]
        exact .inl ⟨rfl, fun loses => loses.1 whole⟩
      · rw [if_pos beyond]
        rcases ofRank_even rank with ⟨equal, untied⟩ | ⟨next, finite, even⟩
        · exact .inl ⟨equal, fun loses => untied ⟨loses.2.1, loses.2.2.1⟩⟩
        · exact .inr ⟨next, Nat.ne_of_lt beyond, finite, even, rfl⟩
    · refine .inl ⟨?_, fun loses => absurd loses.2.2.2 (Nat.ne_of_gt past)⟩
      have pastToo := Nat.lt_of_lt_of_le past fewer
      rw [if_neg (Nat.lt_asymm past), if_pos past, if_neg (Nat.lt_asymm pastToo), if_pos pastToo]

end Magnitude

end EcmaSyntax
