import EcmaSyntax.Proofs.Grammar.Settling.Outcome

/-! Repetitions settle if their items do: each item leaves less of the text, so a bound that exceeds what is
left is never reached.
-/

namespace EcmaSyntax.Parser.Settles

open EcmaSyntax.Grammar

variable {α : Type} {script : Script} {item twin : Parser α} {phrase : α → Phrase} {offset : Nat}

/-- Items settle what is left for as long as their kinds go on, since each leads further into the text. -/
theorem repeatWhile (sound : item.Sound script phrase) (consumes : ∀ value, (phrase value).consumes)
    (goes : Kind → Bool)
    (each : ∀ place, script.left place ≤ script.left offset → Settles script item twin place)
    : Settles script (Parser.repeatWhile (do return goes (← peek).kind) item)
        (Parser.repeatWhile (do return goes (← peek).kind) twin) offset := by
  refine .bind_repetitions fun bound enough limit room => ?_
  replace enough := (script.left_le offset).trans_lt enough
  replace room := (script.left_le offset).trans_lt room
  induction bound generalizing offset limit with
  | zero => exact absurd enough (Nat.not_lt_zero _)
  | succ bound ih =>
      obtain ⟨limit, rfl⟩ := Nat.exists_eq_add_one_of_ne_zero (Nat.ne_zero_of_lt room)
      unfold repeatAtMost
      rw [bind_assoc, bind_assoc]
      refine .bind_peek fun token met => ?_
      rw [pure_bind, pure_bind]
      refine .ite (fun _ => ?_) fun _ => .pure []
      refine (each _ (Nat.le_refl _)).bind (sound _) fun value tokens derivation => ?_
      have shorter := derivation.left_lt (consumes value)
      refine (ih (fun place within => each place (by omega)) limit (by omega) (by omega)).bind_last
        fun rest _ => .pure _

/-- Items settle what is left up to the token that stops them. -/
theorem repeatUntil (sound : item.Sound script phrase) (consumes : ∀ value, (phrase value).consumes)
    (stop : Kind)
    (each : ∀ place, script.left place ≤ script.left offset → Settles script item twin place)
    : Settles script (Parser.repeatUntil stop item) (Parser.repeatUntil stop twin) offset :=
  repeatWhile sound consumes (goesUntil stop) each

/-- The rest of a list settles what is left, by induction on the bounds, since commas lead further. -/
theorem listTail (sound : item.Sound script phrase) {close : Kind} {bound limit : Nat}
    (enough : script.left offset < bound) (room : script.left offset < limit)
    (each : ∀ place, script.left place < script.left offset → Settles script item twin place)
    : Settles script (Parser.listTail close item bound) (Parser.listTail close twin limit)
        offset := by
  induction bound generalizing offset limit with
  | zero => exact absurd enough (Nat.not_lt_zero _)
  | succ bound ih =>
      obtain ⟨limit, rfl⟩ := Nat.exists_eq_add_one_of_ne_zero (Nat.ne_zero_of_lt room)
      refine .bind_accept (fun comma separates isComma => ?_) (fun next read noComma => ?_)
      · have shorter := separates.left_lt (isComma ▸ by decide)
        refine (each _ shorter).bind (sound _) fun value tokens derivation => ?_
        have further := derivation.left_le
        refine (ih (by omega) (by omega) fun place within => each place (by omega)).bind_last
          fun rest _ => .pure _
      · exact ((require close .standard).map _).bind_last fun _ _ => .pure []

/-- A list settles what is left up to the token that closes it. -/
theorem list (sound : item.Sound script phrase) {close : Kind}
    (each : ∀ place, script.left place ≤ script.left offset → Settles script item twin place)
    : Settles script (Parser.list close item) (Parser.list close twin) offset := by
  refine .bind_accept (fun _ _ _ => .pure []) (fun first read goesOn => ?_)
  refine (each _ (Nat.le_refl _)).bind (sound _) fun value tokens derivation => ?_
  have further := derivation.left_le
  refine .bind_repetitions fun bound enough limit room => ?_
  refine (listTail sound ((script.left_le _).trans_lt enough) ((script.left_le _).trans_lt room)
    fun place within => each place (by omega)).bind_last fun rest _ => .pure _

/-- A list with a comma behind its last item, too, settles what is left. -/
theorem looseList (sound : item.Sound script phrase) {close : Kind}
    (each : ∀ place, script.left place ≤ script.left offset → Settles script item twin place)
    : Settles script (Parser.looseList close item) (Parser.looseList close twin) offset := by
  refine .bind_repetitions fun bound enough limit room => ?_
  replace enough := (script.left_le offset).trans_lt enough
  replace room := (script.left_le offset).trans_lt room
  induction bound generalizing offset limit with
  | zero => exact absurd enough (Nat.not_lt_zero _)
  | succ bound ih =>
      obtain ⟨limit, rfl⟩ := Nat.exists_eq_add_one_of_ne_zero (Nat.ne_zero_of_lt room)
      refine .bind_accept (fun _ _ _ => .pure []) (fun first read goesOn => ?_)
      refine (each _ (Nat.le_refl _)).bind (sound _) fun value tokens derivation => ?_
      have further := derivation.left_le
      refine .bind_accept (fun comma separates isComma => ?_) (fun next readNext noComma => ?_)
      · have shorter := separates.left_lt (isComma ▸ by decide)
        refine (ih (fun place within => each place (by omega)) limit (by omega) (by omega)).bind_last
          fun rest _ => .pure _
      · exact ((require close .standard).map _).bind_last fun _ _ => .pure _

/-- What a keyword announces has less text left than the keyword. -/
theorem afterKeyword {keyword : Kind}
    (each : ∀ place, script.left place ≤ script.left offset → Settles script item twin place)
    (present : keyword ≠ .endOfInput)
    : Settles script (Grammar.afterKeyword keyword item) (Grammar.afterKeyword keyword twin)
        offset := by
  refine .bind_accept (fun token read opens => ?_) (fun _ _ _ => .pure none)
  exact (each _ (read.left_lt (opens ▸ present)).le).map some

end EcmaSyntax.Parser.Settles
