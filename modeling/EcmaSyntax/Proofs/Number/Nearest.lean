import EcmaSyntax.Proofs.Number.Rounding
import Mathlib.Data.Nat.Dist

/-! Rounding to the nearest magnitude. A number of units lies between two neighbouring ranks, and is rounded
to the nearer one, or to the even one from the middle. So no other magnitude is nearer to it, infinity being
taken for `2 ^ 1024`.
-/

namespace EcmaSyntax

variable {rank units : Nat}

namespace Magnitude

-----------------------------------------------------------------------------------------
-- Rounded ranks
-----------------------------------------------------------------------------------------

/-- The rank nearest to so many units, if ranks went on beyond infinity. -/
def nearestRank (units : Nat) : Nat :=
  let rank := rankBelow units
  let middle := unitsOfRank rank + unitsOfRank (rank + 1)
  if 2 * units < middle then rank
  else if middle < 2 * units then rank + 1
  else rank + rank % 2

/-- Rounding takes the magnitude of the nearest rank. -/
theorem nearest_eq_ofRank (units : Nat) : nearest units 1 = ofRank (nearestRank units) := by
  obtain ⟨below, above⟩ := between_rankBelow units
  simp only [nearest, nearestRank, Nat.div_one, Nat.mul_one]
  generalize rankBelow units = rank at *
  by_cases under : 2 * units < unitsOfRank rank + unitsOfRank (rank + 1)
  · rw [if_pos (by omega), if_pos under]
  · rw [if_neg (by omega), if_neg under]
    by_cases beyond : unitsOfRank rank + unitsOfRank (rank + 1) < 2 * units
    · rw [if_pos (by omega), if_pos beyond]
    · rw [if_neg (by omega), if_neg beyond]

/-- The rank is one of the two neighbours, and the nearer one, or the even one from the middle. -/
theorem nearestRank_eq (least : unitsOfRank rank ≤ units) (most : units < unitsOfRank (rank + 1))
    : nearestRank units
      = if 2 * units < unitsOfRank rank + unitsOfRank (rank + 1) then rank
        else if unitsOfRank rank + unitsOfRank (rank + 1) < 2 * units then rank + 1
        else rank + rank % 2 := by
  simp only [nearestRank, rankBelow_eq least most]

-----------------------------------------------------------------------------------------
-- Nearest magnitudes
-----------------------------------------------------------------------------------------

/-- No other magnitude is nearer to so many units, and of two as near the even one is chosen. -/
def IsNearest (units : Nat) (magnitude : Magnitude) : Prop :=
  ∀ other : Magnitude,
    other ≠ magnitude →
      Nat.dist units magnitude.units < Nat.dist units other.units
      ∨ Nat.dist units magnitude.units = Nat.dist units other.units ∧ magnitude.val % 2 = 0

theorem ofRank_of_le (finite : rank ≤ infiniteRank) : (ofRank rank).val = rank :=
  Nat.min_eq_left finite

/-- The magnitude of a rank up to infinity is worth the units of the rank. -/
theorem units_ofRank (finite : rank ≤ infiniteRank) : (ofRank rank).units = unitsOfRank rank :=
  congrArg unitsOfRank (ofRank_of_le finite)

theorem isInfinite_ofRank (finite : rank < infiniteRank) : (ofRank rank).isInfinite = false := by
  simp [isInfinite, ofRank_of_le (Nat.le_of_lt finite), Nat.ne_of_lt finite]

/-- Ranks from infinity on are all of infinity. -/
theorem ofRank_of_ge (large : infiniteRank ≤ rank) : ofRank rank = infinity :=
  Fin.ext ((Nat.min_eq_right large).trans (Nat.min_self infiniteRank).symm)

variable {magnitude other : Magnitude}

/-- The nearest magnitude is told by the middles between it and its neighbours. -/
theorem isNearest_of_middles
    (lower
      : ∀ rank,
          rank + 1 = magnitude.val →
            unitsOfRank rank + magnitude.units < 2 * units
            ∨ unitsOfRank rank + magnitude.units = 2 * units ∧ magnitude.val % 2 = 0)
    (upper
      : magnitude.val < infiniteRank →
          2 * units < magnitude.units + unitsOfRank (magnitude.val + 1)
          ∨ 2 * units = magnitude.units + unitsOfRank (magnitude.val + 1) ∧ magnitude.val % 2 = 0)
    : IsNearest units magnitude := by
  intro other different
  have within := Nat.le_of_lt_succ other.isLt
  unfold Nat.dist
  rcases Nat.lt_or_gt_of_ne fun same => different (Fin.ext same) with below | above
  · obtain ⟨rank, rank_eq⟩ := Nat.exists_eq_add_one_of_ne_zero (Nat.ne_zero_of_lt below)
    have middle := lower rank rank_eq.symm
    have under : other.units ≤ unitsOfRank rank :=
      unitsOfRank_strictMono.le_iff_le.mpr (by omega)
    have grows : unitsOfRank rank < magnitude.units :=
      unitsOfRank_strictMono (by omega)
    omega
  · have middle := upper (Nat.lt_of_lt_of_le above within)
    have further : unitsOfRank (magnitude.val + 1) ≤ other.units :=
      unitsOfRank_strictMono.le_iff_le.mpr above
    have grows : magnitude.units < unitsOfRank (magnitude.val + 1) := unitsOfRank_lt_succ _
    omega

/-- Units up to the middle behind a rank are rounded down to it. -/
theorem isNearest_lower (finite : rank < infiniteRank) (least : unitsOfRank rank ≤ units)
    (middle
      : 2 * units < unitsOfRank rank + unitsOfRank (rank + 1)
        ∨ 2 * units = unitsOfRank rank + unitsOfRank (rank + 1) ∧ rank % 2 = 0)
    : IsNearest units (ofRank rank) := by
  have val_eq := ofRank_of_le (Nat.le_of_lt finite)
  have units_eq := units_ofRank (Nat.le_of_lt finite)
  refine isNearest_of_middles (fun front next => ?_) fun _ => ?_
  · have before : unitsOfRank front < unitsOfRank rank := unitsOfRank_strictMono (by omega)
    omega
  · rwa [units_eq, val_eq]

/-- Units from the middle in front of a rank on are rounded up to it. -/
theorem isNearest_upper (finite : rank < infiniteRank) (most : units < unitsOfRank (rank + 1))
    (middle
      : unitsOfRank rank + unitsOfRank (rank + 1) < 2 * units
        ∨ unitsOfRank rank + unitsOfRank (rank + 1) = 2 * units ∧ (rank + 1) % 2 = 0)
    : IsNearest units (ofRank (rank + 1)) := by
  have reached : rank + 1 ≤ infiniteRank := finite
  have val_eq := ofRank_of_le reached
  have units_eq := units_ofRank reached
  refine isNearest_of_middles (fun front next => ?_) fun _ => ?_
  · obtain rfl : front = rank := by omega
    rwa [units_eq, val_eq]
  · have behind := unitsOfRank_lt_succ (rank + 1)
    rw [units_eq, val_eq]
    omega

/-- Rounding finds the nearest magnitude. -/
theorem isNearest_nearest (units : Nat) : IsNearest units (nearest units 1) := by
  obtain ⟨least, most⟩ := between_rankBelow units
  rw [nearest_eq_ofRank, nearestRank_eq least most]
  generalize rankBelow units = rank at least most
  rcases Nat.lt_or_ge rank infiniteRank with finite | infinite
  · split_ifs with under beyond
    · exact isNearest_lower finite least (.inl under)
    · exact isNearest_upper finite most (.inl beyond)
    · rcases Nat.mod_two_eq_zero_or_one rank with even | odd
      · rw [even, Nat.add_zero]
        exact isNearest_lower finite least (.inr ⟨by omega, even⟩)
      · rw [odd]
        exact isNearest_upper finite most (.inr ⟨by omega, by omega⟩)
  · -- The units lie at infinity or beyond, whichever neighbour is chosen.
    have chosen
        : infiniteRank
          ≤ if 2 * units < unitsOfRank rank + unitsOfRank (rank + 1) then rank
            else if unitsOfRank rank + unitsOfRank (rank + 1) < 2 * units then rank + 1
            else rank + rank % 2 := by
      split_ifs <;> omega
    rw [ofRank_of_ge chosen]
    refine isNearest_of_middles (fun front next => .inl ?_) fun finite => absurd finite (Nat.lt_irrefl _)
    have before : unitsOfRank front < infinity.units := unitsOfRank_strictMono (by omega)
    have reached : infinity.units ≤ unitsOfRank rank := unitsOfRank_strictMono.le_iff_le.mpr infinite
    omega

/-- There is only one nearest magnitude. -/
theorem IsNearest.unique (first : IsNearest units magnitude) (second : IsNearest units other)
    : magnitude = other := by
  by_contra different
  have near := first other (Ne.symm different)
  have near' := second magnitude different
  wlog before : magnitude.val < other.val with swapped
  · refine swapped second first (Ne.symm different) near' near ?_
    have apart : magnitude.val ≠ other.val := fun same => different (Fin.ext same)
    omega
  -- Both are even, so the magnitude behind the first lies between them and is nearer.
  let between : Magnitude := ⟨magnitude.val + 1, by omega⟩
  have nearer := first between fun same => absurd (congrArg Fin.val same) (Nat.succ_ne_self _)
  have left : magnitude.units < between.units := unitsOfRank_lt_succ magnitude.val
  have behind : between.val < other.val := show magnitude.val + 1 < other.val by omega
  have right : between.units < other.units := unitsOfRank_strictMono behind
  unfold Nat.dist at near near' nearer
  omega

end Magnitude

end EcmaSyntax
