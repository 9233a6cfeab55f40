import EcmaSyntax.Position
import EcmaSyntax.Text.Size
import Mathlib.Tactic.SplitIfs

/-! Positions of places in a text. They are told by the characters in front of the place and the first one behind
it.
-/

namespace EcmaSyntax.Position

/-- A character is passed by itself, unless it is a carriage return in front of a line feed. -/
theorem advance_cons {c : Char} {rest : List Char} (position : Position) (bytes : Nat)
    (single : ¬(c = '\r' ∧ rest.head? = some '\n'))
    : advance position bytes (c :: rest)
      = if c.utf8Size ≤ bytes then
          advance (if Text.isLineTerminator c then position.nextLine else position.nextColumn)
            (bytes - c.utf8Size) rest
        else
          position := by
  rw [advance]
  rintro tail rfl rfl
  exact single ⟨rfl, rfl⟩

/-- A character that the bytes end in is not passed. -/
theorem advance_of_lt {c : Char} {bytes : Nat} (position : Position) (rest : List Char)
    (within : bytes < c.utf8Size)
    : advance position bytes (c :: rest) = position := by
  by_cases pair : c = '\r' ∧ rest.head? = some '\n'
  · obtain ⟨rfl, head⟩ := pair
    obtain ⟨tail, rfl⟩ := List.head?_eq_some_iff.mp head
    have width : '\r'.utf8Size = 1 := rfl
    rw [advance, if_neg (by omega), if_neg (by omega)]
  · rw [advance_cons position bytes pair, if_neg (by omega)]

/-- The position of a place within a front of a text does not depend on what is behind the front. -/
theorem advance_append (rest other : List Char)
    : ∀ (front : List Char) (position : Position) (bytes : Nat),
        bytes < Text.size front →
        advance position bytes (front ++ rest) = advance position bytes (front ++ other)
  | [], _, _, within => absurd within (Nat.not_lt_zero _)
  | [c], position, bytes, within => by
      have within : bytes < c.utf8Size := by simpa using within
      rw [List.singleton_append, List.singleton_append, advance_of_lt position rest within,
        advance_of_lt position other within]
  | c :: d :: front, position, bytes, within => by
      simp only [Text.size_cons] at within
      simp only [List.cons_append]
      by_cases pair : c = '\r' ∧ d = '\n'
      · obtain ⟨rfl, rfl⟩ := pair
        have width : '\r'.utf8Size = 1 ∧ '\n'.utf8Size = 1 := ⟨rfl, rfl⟩
        rw [advance, advance]
        split_ifs with fits
        · exact advance_append rest other front _ _ (by omega)
        · rfl
        · rfl
      · have single (tail : List Char) : ¬(c = '\r' ∧ (d :: tail).head? = some '\n') := by
          simpa using pair
        rw [advance_cons position bytes (single _), advance_cons position bytes (single _)]
        split
        · exact advance_append rest other (d :: front) _ _ (by rw [Text.size_cons]; omega)
        · rfl

end EcmaSyntax.Position
