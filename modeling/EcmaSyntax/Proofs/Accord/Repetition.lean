import EcmaSyntax.Proofs.Accord.Lookahead

/-! Repetitions in two runs, each with a bound of its own. A run that is out of its bounds has failed, and a failure
of this kind is never blamed.
-/

namespace EcmaSyntax.Parser.Echoes

open EcmaSyntax.Grammar

variable {α β : Type} {script other : Script} {accord : Accord script other}
variable {lost : Prop} {offset : Nat} {mode : LexMode}

/-- Each run has its own bound on repetitions. -/
theorem bind_repetitions {next twinNext : Nat → Parser β}
    (onward : ∀ bound limit, Echo accord (next bound) (twinNext limit))
    : Echoes accord lost (repetitions >>= next) (repetitions >>= twinNext) offset :=
  fun state mirror _ _ beside => onward state.bound mirror.bound _ _ _ _ beside

/-- Parsers that are tried so many times at most, by induction on the bound of the first run. -/
theorem bounded_at {ι : Type} {family twinFamily : Nat → ι → Parser α}
    (stuck : ∀ index, family 0 index = Parser.fault .exhausted)
    (twinStuck : ∀ index, twinFamily 0 index = Parser.fault .exhausted)
    (step
      : ∀ bound limit,
          (∀ index, Echo accord (family bound index) (twinFamily limit index)) →
          ∀ index, Echo accord (family (bound + 1) index) (twinFamily (limit + 1) index))
    (bound limit : Nat) (index : ι)
    : Echo accord (family bound index) (twinFamily limit index) := by
  induction bound generalizing limit index with
  | zero =>
      rw [stuck]
      exact fault
  | succ bound ih =>
      cases limit with
      | zero =>
          rw [twinStuck]
          exact exhausted (step bound 0 (ih 0) index)
      | succ limit => exact step bound limit (ih limit) index

/-- Parsers without an argument that are tried so many times at most echo. -/
theorem bounded {family twinFamily : Nat → Parser α}
    (stuck : family 0 = Parser.fault .exhausted)
    (twinStuck : twinFamily 0 = Parser.fault .exhausted)
    (step
      : ∀ bound limit,
          Echo accord (family bound) (twinFamily limit) →
          Echo accord (family (bound + 1)) (twinFamily (limit + 1)))
    (bound limit : Nat)
    : Echo accord (family bound) (twinFamily limit) :=
  @bounded_at α script other accord Unit (fun bound _ => family bound)
    (fun limit _ => twinFamily limit) (fun _ => stuck) (fun _ => twinStuck)
    (fun bound limit ih _ => step bound limit (ih ())) bound limit ()

/-- Items echo for as long as their kinds go on, if each item does. -/
theorem repeatWhile {item twin : Parser α} (goes : Kind → Bool) (each : Echo accord item twin)
    : Echoes accord lost (Parser.repeatWhile (do return goes (← Parser.peek).kind) item)
        (Parser.repeatWhile (do return goes (← Parser.peek).kind) twin) offset := by
  refine bind_repetitions (bounded rfl rfl fun bound limit ih => ?_)
  unfold repeatAtMost
  rw [bind_assoc, bind_assoc]
  refine bind_peek fun token read => ?_
  rw [pure_bind, pure_bind]
  exact .ite (fun _ => each.bind fun _ => ih.bind fun _ => .pure _) fun _ => .pure _

/-- Items echo up to the token that stops them, if each item does. -/
theorem repeatUntil {item twin : Parser α} (stop : Kind) (each : Echo accord item twin)
    : Echoes accord lost (Parser.repeatUntil stop item) (Parser.repeatUntil stop twin) offset :=
  repeatWhile (goesUntil stop) each

/-- The rest of a list echoes behind its first item, by induction on the bounds of both runs. -/
theorem listTail {item twin : Parser α} {close : Kind} (written : close.isWritten)
    (each : Echo accord item twin) (bound limit : Nat)
    : Echo accord (Parser.listTail close item bound) (Parser.listTail close twin limit) := by
  refine bounded rfl rfl (fun bound limit ih => ?_) bound limit
  exact bind_accept rfl (each.bind fun _ => ih.bind fun _ => .pure _)
    (.bind_discard_require written (.pure _))

/-- The items between a bracket and the token that closes it echo, if each item does. -/
theorem list {item twin : Parser α} {close : Kind} (written : close.isWritten)
    (each : Echo accord item twin)
    : Echoes accord lost (Parser.list close item) (Parser.list close twin) offset :=
  bind_accept written (.pure _)
    (each.bind fun _ =>
      .bind_repetitions fun bound limit =>
        (listTail written each bound limit).bind fun _ => .pure _)

/-- Items with a comma behind the last one, too, echo if each item does. -/
theorem looseList {item twin : Parser α} {close : Kind} (written : close.isWritten)
    (each : Echo accord item twin)
    : Echoes accord lost (Parser.looseList close item) (Parser.looseList close twin) offset := by
  refine bind_repetitions (bounded rfl rfl fun bound limit ih => ?_)
  exact bind_accept written (.pure _)
    (each.bind fun _ =>
      .bind_accept rfl (ih.bind fun _ => .pure _)
        (.bind_discard_require written (.pure _)))

/-- What a keyword announces echoes, and so does its absence. -/
theorem afterKeyword {item twin : Parser α} {keyword : Kind} (written : keyword.isWritten)
    (each : Echo accord item twin)
    : Echoes accord lost (Grammar.afterKeyword keyword item) (Grammar.afterKeyword keyword twin)
        offset :=
  bind_accept written (each.map some) (.pure none)

end EcmaSyntax.Parser.Echoes
