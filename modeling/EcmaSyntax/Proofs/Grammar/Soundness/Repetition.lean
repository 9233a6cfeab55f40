import EcmaSyntax.Proofs.Grammar.Derivation
import EcmaSyntax.Proofs.Parsing.Ensuring
import EcmaSyntax.Proofs.Token.Modes

/-! What parsers accept parses as the grammar has it. This module treats the ways in which phrases are
repeated, for any parser of the phrases.
-/

namespace EcmaSyntax

open EcmaSyntax.Parser EcmaSyntax.Grammar

/-- What the parser accepts parses as the phrase for the result. -/
def Parser.Sound {α : Type} (script : Script) (parser : Parser α) (phrase : α → Phrase) : Prop :=
  ∀ offset,
    Ensures script parser offset fun value tokens =>
      Parses script (.phrase (phrase value)) offset tokens

namespace Parser.Sound

variable {α : Type} {script : Script} {item : Parser α} {phrase : α → Phrase}

/-- The rest of a list parses behind its first item, by induction on the bound. -/
theorem listTail (sound : Sound script item phrase) {close : Kind} (mark : close.isPlain)
    (bound offset : Nat)
    : Ensures script (Parser.listTail close item bound) offset fun values tokens =>
        Parses script (.listTail close (values.map phrase)) offset tokens := by
  induction bound generalizing offset with
  | zero => exact .fault
  | succ bound ih =>
      refine .bind_accept (fun comma separates isComma => ?_) (fun next read noComma => ?_)
      · refine (sound _).bind fun first front derivation => ?_
        refine (ih _).bind fun rest back derivations => .pure ?_
        exact .intro (.repetition (.listTailMore isComma))
          (.token separates (.part derivation (.part derivations .nil))) rfl
      · refine .bind_discard_require fun token read' closes => .pure ?_
        obtain rfl := read.unique read'
        exact .intro (.repetition (.listTailNone closes mark noComma)) (.token read .nil) rfl

/-- What is read as a list parses as one, the token that closes it included. -/
theorem list (sound : Sound script item phrase) {close : Kind} (mark : close.isPlain)
    (offset : Nat)
    : Ensures script (Parser.list close item) offset fun values tokens =>
        Parses script (.list close (values.map phrase)) offset tokens := by
  refine .bind_accept (fun token read closes => .pure ?_) (fun first read goesOn => ?_)
  · exact .intro (.repetition (.listNone closes mark)) (.token read .nil) rfl
  · refine (sound _).bind fun value front derivation => ?_
    refine .bind_repetitions fun bound => ?_
    refine (sound.listTail mark bound _).bind fun rest back derivations => .pure ?_
    exact .intro (.repetition (.listMore goesOn))
      (.ahead ⟨read, trivial⟩ (.part derivation (.part derivations .nil))) rfl

/-- A list that may have a comma behind its last item parses, by induction on the bound. -/
theorem looseListTail (sound : Sound script item phrase) {close : Kind}
    (mark : close.isPlain) (bound offset : Nat)
    : Ensures script (Parser.looseListTail close item bound) offset fun values tokens =>
        Parses script (.looseList close (values.map phrase)) offset tokens := by
  induction bound generalizing offset with
  | zero => exact .fault
  | succ bound ih =>
      refine .bind_accept (fun token read closes => .pure ?_) (fun first read goesOn => ?_)
      · exact .intro (.repetition (.looseListNone closes mark)) (.token read .nil) rfl
      · refine (sound _).bind fun value front derivation => ?_
        refine .bind_accept (fun comma separates isComma => ?_) (fun next readNext noComma => ?_)
        · refine (ih _).bind fun rest back derivations => .pure ?_
          exact .intro (.repetition (.looseListMore goesOn isComma))
            (.ahead ⟨read, trivial⟩
              (.part derivation (.token separates (.part derivations .nil)))) rfl
        · refine .bind_discard_require fun token readToken closes => .pure ?_
          obtain rfl := readNext.unique readToken
          exact .intro (.repetition (.looseListLast goesOn closes mark noComma))
            (.ahead ⟨read, trivial⟩ (.part derivation (.token readNext .nil))) rfl

theorem looseList (sound : Sound script item phrase) {close : Kind} (mark : close.isPlain)
    (offset : Nat)
    : Ensures script (Parser.looseList close item) offset fun values tokens =>
        Parses script (.looseList close (values.map phrase)) offset tokens :=
  .bind_repetitions fun bound => sound.looseListTail mark bound offset

/-- Items go on as long as a condition on the kind of the next token holds. -/
theorem repeatWhile (sound : Sound script item phrase) (goes : Kind → Bool) (offset : Nat)
    : Ensures script (Parser.repeatWhile (do return goes (← peek).kind) item) offset
        fun values tokens => Parses script (.repeated goes (values.map phrase)) offset tokens := by
  refine .bind_repetitions fun bound => ?_
  induction bound generalizing offset with
  | zero => exact .fault
  | succ bound ih =>
      unfold repeatAtMost
      rw [bind_assoc]
      refine .bind_peek fun first read => ?_
      rw [pure_bind]
      split
      next goesOn =>
        refine (sound _).bind fun value front derivation => ?_
        refine (ih _).bind fun rest back derivations => .pure ?_
        exact .intro (.repetition (.repeatedMore goesOn))
          (.ahead ⟨read, trivial⟩ (.part derivation (.part derivations .nil))) rfl
      next stops =>
        refine .pure ?_
        exact .intro (.repetition (.repeatedNone (by simpa using stops)))
          (.ahead ⟨read, trivial⟩ .nil) rfl

/-- What is read up to a token parses as items that go on until it. -/
theorem repeatUntil (sound : Sound script item phrase) (stop : Kind) (offset : Nat)
    : Ensures script (Parser.repeatUntil stop item) offset fun values tokens =>
        Parses script (.repeated (goesUntil stop) (values.map phrase)) offset tokens :=
  sound.repeatWhile (goesUntil stop) offset

/-- What is read behind a keyword parses as announced by it, or nothing does. -/
theorem afterKeyword (sound : Sound script item phrase) {keyword : Kind}
    (mark : keyword.isPlain) (offset : Nat)
    : Ensures script (Grammar.afterKeyword keyword item) offset fun value tokens =>
        Parses script (.afterKeyword keyword (value.map phrase)) offset tokens := by
  refine .bind_accept (fun token read opens => ?_) (fun next read missing => .pure ?_)
  · refine .map ((sound _).mono fun value tokens derivation => ?_)
    exact .intro (.repetition (.afterKeywordSome opens mark))
      (.token read (.part derivation .nil)) (by simp [Item.tokensOf])
  · exact .intro (.repetition (.afterKeywordNone missing)) (.ahead ⟨read, trivial⟩ .nil) rfl

end Parser.Sound

end EcmaSyntax
