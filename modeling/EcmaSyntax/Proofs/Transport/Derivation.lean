import EcmaSyntax.Proofs.Transport.Lookahead

/-! Derivations in another text. What parses as a phrase parses in another text where its tokens are carried
over, in front of a token that resembles the one behind it or closes what is open.
-/

namespace EcmaSyntax

open EcmaSyntax.Grammar

/-- A name that is read outside of operands is the token that is consumed there. -/
theorem Script.Reads.eq_of_word {script : Script} {offset : Nat} {first token : Token}
    (read : script.Reads .standard offset first) (named : first.kind = .identifier)
    (consumed : script.Reads token.kind.mode offset token)
    : first = token := by
  unfold Kind.mode at consumed
  split_ifs at consumed with isRegex
  · rcases read.modes consumed with same | ⟨slash, _⟩
    · exact same
    · rw [named] at slash
      cases slash
  · exact read.unique consumed

namespace Relocation

variable (relocation : Relocation) (script other : Script)

/-- What is looked at where a token is due resembles what was looked at before. -/
def Shows (ignoresLine : Bool) (offset : Nat) : Prop :=
  ∀ next,
    script.Reads .standard offset next →
    ∃ seen,
      other.Reads .standard (relocation.stop offset) seen ∧ next.Resembles ignoresLine seen

/-- The token is read at its new place, with its text. -/
structure CarriesToken (ignoresLine : Bool) (offset : Nat) (token : Token) : Prop where
  read : other.Reads token.kind.mode (relocation.stop offset) (relocation.token token)
  text_eq : other.textOf (relocation.span token.span) = script.textOf token.span
  newline_eq : ignoresLine = false → relocation.newline token = token.afterNewline
  shows : relocation.Shows script other ignoresLine offset

/-- The tokens are read one after the other at their new places. Only the first may be on another line. -/
def Carries : Bool → Nat → List Token → Prop
  | _, _, [] => True
  | ignoresLine, offset, token :: tokens =>
      relocation.CarriesToken script other ignoresLine offset token
      ∧ Carries false token.span.stop tokens

/-- The next token resembles the one before or closes what is open. -/
def Follows (closes : Kind → Bool) (offset : Nat) : Prop :=
  ∀ next,
    script.Reads .standard offset next →
    ∃ seen,
      other.Reads .standard (relocation.stop offset) seen
      ∧ (next.Resembles false seen ∨ closes seen.kind)

/-- The derivation can be had in the other text. -/
def Moves (nonterminal : Nonterminal) (offset : Nat) (tokens : List Token) : Prop :=
  ∀ ignoresLine,
    (ignoresLine = true → nonterminal.ignoresLine) →
    relocation.Carries script other ignoresLine offset tokens →
    relocation.Follows script other (fun kind => nonterminal.mayPrecede kind)
      (Token.endOf offset tokens) →
    nonterminal.Attached script offset →
    Parses other (nonterminal.moved relocation.span) (relocation.stop offset)
      (tokens.map relocation.token)

variable {relocation script other} {ignoresLine : Bool} {offset : Nat} {tokens front back : List Token}

/-- What resembles the next token may follow, whatever closes what is open. -/
theorem Shows.follows {closes : Kind → Bool}
    (shows : relocation.Shows script other false offset)
    : relocation.Follows script other closes offset := by
  intro next read
  obtain ⟨seen, readSeen, resembles⟩ := shows next read
  exact ⟨seen, readSeen, .inl resembles⟩

/-- Of tokens that are carried over, the front is. -/
theorem Carries.left (carries : relocation.Carries script other ignoresLine offset (front ++ back))
    : relocation.Carries script other ignoresLine offset front := by
  induction front generalizing ignoresLine offset with
  | nil => trivial
  | cons token front ih => exact ⟨carries.1, ih carries.2⟩

/-- Of tokens that are carried over, those behind a front are, with their lines. -/
theorem Carries.right (carries : relocation.Carries script other ignoresLine offset (front ++ back))
    (behind : ignoresLine = true → front ≠ [])
    : relocation.Carries script other false (Token.endOf offset front) back := by
  induction front generalizing ignoresLine offset with
  | nil =>
      cases ignoresLine with
      | false => exact carries
      | true => exact absurd rfl (behind rfl)
  | cons token front ih => exact ih carries.2 (by simp)

/-- What is carried from a place at which no line break is ignored on. -/
theorem Carries.later (carries : relocation.Carries script other false offset (front ++ back))
    : relocation.Carries script other false (Token.endOf offset front) back :=
  carries.right (by simp)

/-- The token that follows tokens resembles the one before; only where no token is left, it may be another
that closes what is open.
-/
theorem Carries.looks {closes : Kind → Bool} {next : Token}
    (carries : relocation.Carries script other ignoresLine offset tokens)
    (follows : relocation.Follows script other closes (Token.endOf offset tokens))
    (read : script.Reads .standard offset next)
    : ∃ shown,
        other.Reads .standard (relocation.stop offset) shown
        ∧ (next.Resembles ignoresLine shown ∨ closes shown.kind ∧ tokens = []) := by
  cases tokens with
  | nil =>
      obtain ⟨shown, readShown, resembles | closing⟩ := follows next read
      · exact ⟨shown, readShown, .inl (resembles.mono fun _ => rfl)⟩
      · exact ⟨shown, readShown, .inr ⟨closing, rfl⟩⟩
  | cons token tokens =>
      obtain ⟨shown, readShown, resembles⟩ := carries.1.shows next read
      exact ⟨shown, readShown, .inl resembles⟩

/-- Carried tokens end where the end of the last one is moved to. -/
theorem endOf_map (consumes : script.Consumes offset tokens)
    : Token.endOf (relocation.stop offset) (tokens.map relocation.token)
        = relocation.stop (Token.endOf offset tokens) := by
  induction tokens generalizing offset with
  | nil => rfl
  | cons token tokens ih =>
      obtain ⟨read, present, consumes⟩ := consumes
      have stop_eq := relocation.stop_span _ (read.start_lt_stop present).2.1
      rw [List.map_cons, Token.endOf_cons, Token.endOf_cons, span_token, stop_eq, ih consumes]

/-- Tokens that are carried over keep their texts, and their lines as far as these matter. -/
theorem Carries.keeps {ignores : Bool}
    (carries : relocation.Carries script other ignoresLine offset tokens)
    (consumes : script.Consumes offset tokens) (dialect_eq : other.dialect = script.dialect)
    (weaker : ignores = false → ignoresLine = false)
    : relocation.Keeps script other ignores tokens := by
  induction tokens generalizing ignoresLine offset with
  | nil => exact ⟨dialect_eq, by simp, by simp, by simp⟩
  | cons token tokens ih =>
      have rest := ih carries.2 consumes.2.2 fun _ => rfl
      have nonempty := (consumes.1.start_lt_stop consumes.2.1).2.1
      refine ⟨dialect_eq, ?_, ?_, fun noted => ?_⟩
      · simpa using And.intro nonempty rest.nonempty
      · simpa using And.intro carries.1.text_eq rest.text_eq
      · simpa using And.intro (carries.1.newline_eq (weaker noted)) (rest.newline_eq noted)

/-- Tokens that are carried over follow each other in the other text. -/
theorem Carries.consumes (carries : relocation.Carries script other ignoresLine offset tokens)
    (consumes : script.Consumes offset tokens)
    : other.Consumes (relocation.stop offset) (tokens.map relocation.token) := by
  induction tokens generalizing ignoresLine offset with
  | nil => trivial
  | cons token tokens ih =>
      refine ⟨carries.1.read, consumes.2.1, ?_⟩
      rw [span_token, relocation.stop_span _ (consumes.1.start_lt_stop consumes.2.1).2.1]
      exact ih carries.2 consumes.2.2

/-- The tokens span together what their span is moved to. -/
theorem Carries.spanOf_map (carries : relocation.Carries script other ignoresLine offset tokens)
    (consumes : script.Consumes offset tokens) (present : tokens ≠ [])
    : Token.spanOf (tokens.map relocation.token) = relocation.span (Token.spanOf tokens) := by
  induction tokens generalizing ignoresLine offset with
  | nil => exact absurd rfl present
  | cons token tokens ih =>
      cases tokens with
      | nil => rfl
      | cons second tokens =>
          have there := carries.consumes consumes
          have rest := ih carries.2 consumes.2.2 (List.cons_ne_nil _ _)
          have one : script.Spans offset [token] token.span :=
            .of_token ⟨consumes.1, consumes.2.1, trivial⟩
          have more
              : script.Spans token.span.stop (second :: tokens) (Token.spanOf (second :: tokens)) :=
            ⟨consumes.2.2, List.cons_ne_nil _ _, rfl⟩
          have oneThere
              : other.Spans (relocation.stop offset) [relocation.token token]
                  (relocation.token token).span :=
            .of_token ⟨there.1, there.2.1, trivial⟩
          have moreThere
              : other.Spans (relocation.token token).span.stop
                  ((second :: tokens).map relocation.token)
                  (relocation.span (Token.spanOf (second :: tokens))) :=
            ⟨there.2.2, by simp, rest.symm⟩
          have whole := (one.cover_append more).span_eq
          have wholeThere := (oneThere.cover_append moreThere).span_eq
          rw [List.singleton_append] at whole wholeThere
          rw [List.map_cons, ← wholeThere, ← whole,
            relocation.span_cover _ _ one.nonempty more.nonempty]
          rfl

end Relocation

namespace Grammar

variable {script other : Script} {relocation : Relocation} {span : Span} {offset : Nat}
variable {items : List Item} {nonterminal : Nonterminal}

-----------------------------------------------------------------------------------------
-- Facts about productions
-----------------------------------------------------------------------------------------

/-- Of components whose tokens are present, those in front have theirs. -/
theorem Item.Present.left {first behind : List Item} (present : Item.Present (first ++ behind))
    : Item.Present first := by
  induction first with
  | nil => trivial
  | cons item first ih =>
      cases item with
      | token | regex => exact ⟨present.1, ih present.2⟩
      | ahead | part => exact ih present

/-- What is looked at is one token, or an identifier that is consumed then and the token behind it. -/
def Item.LooksAhead : List Item → Prop
  | [] => True
  | .ahead tokens :: items =>
      ((∃ next, tokens = [next])
        ∨ ∃ first second,
          tokens = [first, second] ∧ first.kind = .identifier ∧ items.any Item.consumes)
      ∧ LooksAhead items
  | _ :: items => LooksAhead items

/-- No production looks at more than a token, or an identifier and the token behind it. -/
theorem Rule.looksAhead (rule : Rule script span nonterminal items) : Item.LooksAhead items := by
  cases rule with
  | expression rule => cases rule <;> simp [Item.LooksAhead]
  | statement rule =>
      cases rule <;> simp_all [Item.LooksAhead, Item.consumes, Nonterminal.consumes, Phrase.consumes]
  | repetition rule => cases rule <;> simp [Item.LooksAhead]

/-- Whether the first token begins a line is ignored by what is first. -/
def Item.ignoresLine : List Item → Bool
  | .ahead _ :: items => ignoresLine items
  | .part nonterminal _ :: _ => nonterminal.ignoresLine
  | _ => true

/-- Where a phrase ignores the line of its first token, each of its productions does. -/
theorem Rule.ignoresLine (rule : Rule script span nonterminal items)
    (ignores : nonterminal.ignoresLine)
    : Item.ignoresLine items := by
  cases rule with
  | expression rule => cases rule <;> first | rfl | cases ignores
  | statement rule => cases rule <;> first | rfl | cases ignores
  | repetition rule => cases rule <;> cases ignores

/-- What ignores the line of its first token has a first token. -/
theorem Nonterminal.consumes_of_ignoresLine (ignores : nonterminal.ignoresLine)
    : nonterminal.consumes := by
  cases nonterminal with
  | phrase inner => cases inner <;> first | rfl | cases ignores
  | _ => cases ignores

/-- What goes on from an expression stands right behind it. -/
theorem ExpressionRule.attached {phrase : Phrase} (rule : ExpressionRule script span phrase items)
    (components : Components script (Parses script) items offset)
    (attached : phrase.Attached script offset)
    : Components script (fun part offset _ => part.Attached script offset) items offset := by
  cases rule with
  | expression =>
      obtain ⟨operand, _, _⟩ := components
      exact ⟨trivial, ⟨_, _, operand.spans, rfl⟩, trivial⟩
  | construct =>
      obtain ⟨read, head, _, reads, _⟩ := components
      exact ⟨read, trivial, ⟨_, _, head.spans, rfl⟩, reads, trivial, trivial⟩
  | constructBare =>
      obtain ⟨read, head, _, reads, _⟩ := components
      exact ⟨read, trivial, ⟨_, _, head.spans, rfl⟩, reads, trivial⟩
  | accessesMore =>
      obtain ⟨reads, access, _⟩ := components
      obtain ⟨origin, front, spans, rfl⟩ := attached
      exact ⟨reads, ⟨_, _, spans, rfl⟩, ⟨_, _, access.spans _ _ spans rfl, by simp⟩, trivial⟩
  | operatorsUpdate updates =>
      obtain ⟨read, _⟩ := components
      obtain ⟨origin, front, spans, rfl⟩ := attached
      have token := Script.Spans.of_token (read.consumes (Kind.isPlain_of_updateOperator? updates))
      exact ⟨read, ⟨_, _, spans.cover_append token, by simp⟩, trivial⟩
  | operatorsMore =>
      obtain ⟨reads, continuation, _⟩ := components
      obtain ⟨origin, front, spans, rfl⟩ := attached
      have further := continuation.spans _ _ spans rfl
      exact ⟨reads, ⟨_, _, spans, rfl⟩, ⟨_, _, further, by simp⟩, trivial⟩
  | continuationAccess =>
      exact ⟨attached, trivial⟩
  | _ => simp_all [Components, Nonterminal.Attached, Phrase.Attached]

/-- The parts of what goes on from an expression go on from theirs. -/
theorem Rule.attached (rule : Rule script span nonterminal items)
    (components : Components script (Parses script) items offset)
    (attached : nonterminal.Attached script offset)
    : Components script (fun part offset _ => part.Attached script offset) items offset := by
  cases rule with
  | expression rule => exact rule.attached components attached
  | statement rule =>
      cases rule <;> simp_all [Components, Nonterminal.Attached, Phrase.Attached]
  | repetition rule => cases rule <;> simp_all [Components, Nonterminal.Attached]

-----------------------------------------------------------------------------------------
-- Components in the other text
-----------------------------------------------------------------------------------------

/-- Components can be had in the other text, one after the other, with what is looked at there. -/
theorem Components.moved {closes : Kind → Bool} {ignores current : Bool}
    (components
      : Components script
          (fun part offset tokens =>
            Parses script part offset tokens ∧ relocation.Moves script other part offset tokens)
          items offset)
    (attached : Components script (fun part offset _ => part.Attached script offset) items offset)
    (consumes : script.Consumes offset (Item.tokensOf items))
    (present : Item.Present items)
    (ahead : Item.LooksAhead items)
    (line : current = true → ignores ∧ Item.ignoresLine items)
    (precede : ∀ kind, closes kind → Item.mayPrecede kind items)
    (carries : relocation.Carries script other current offset (Item.tokensOf items))
    (follows
      : relocation.Follows script other closes (Token.endOf offset (Item.tokensOf items)))
    : ∃ seen,
        Item.Sees closes ignores items seen
        ∧ Components other (Parses other) (seen.map (Item.moved relocation))
            (relocation.stop offset) := by
  induction items generalizing offset current with
  | nil => exact ⟨[], .nil, trivial⟩
  | cons item items ih =>
      cases item with
      | token token =>
          obtain ⟨read, components⟩ := components
          obtain ⟨plain, present⟩ := present
          simp only [Kind.isPlain, Bool.and_eq_true, bne_iff_ne] at plain
          obtain ⟨seen, sees, behind⟩ :=
            ih components attached.2 consumes.2.2 present ahead (by simp) precede carries.2 follows
          refine ⟨_, .token sees, ?_, ?_⟩
          · have there := carries.1.read
            rwa [Kind.mode, if_neg plain.2] at there
          · rwa [Relocation.span_token,
              relocation.stop_span _ (read.start_lt_stop consumes.2.1).2.1]
      | regex token =>
          obtain ⟨read, components⟩ := components
          obtain ⟨isRegex, present⟩ := present
          obtain ⟨seen, sees, behind⟩ :=
            ih components attached.2 consumes.2.2 present ahead (by simp) precede carries.2 follows
          refine ⟨_, .regex sees, ?_, ?_⟩
          · have there := carries.1.read
            rwa [Kind.mode, if_pos isRegex] at there
          · rwa [Relocation.span_token,
              relocation.stop_span _ (read.start_lt_stop consumes.2.1).2.1]
      | ahead tokens =>
          obtain ⟨reads, components⟩ := components
          obtain ⟨isLooked, ahead⟩ := ahead
          obtain ⟨seen, sees, behind⟩ := ih components attached.2 consumes present ahead line
            precede carries follows
          have weaker : ignores = false → current = false := by grind
          rcases isLooked with ⟨next, rfl⟩ | ⟨first, second, rfl, named, goesOn⟩
          · obtain ⟨shown, read, resembles | ⟨closing, none⟩⟩ := carries.looks follows reads.1
            · exact ⟨_, .alike (resembles.mono weaker) sees, ⟨read, trivial⟩, behind⟩
            · have ends := components.any_consumes (fun _ _ _ holds => holds.1) none
              exact ⟨_, .last closing ends sees, ⟨read, trivial⟩, behind⟩
          · cases row : Item.tokensOf items with
            | nil =>
                rw [components.any_consumes (fun _ _ _ holds => holds.1) row] at goesOn
                cases goesOn
            | cons token more =>
                simp only [Item.tokensOf, row] at carries consumes follows
                obtain ⟨readFirst, readSecond, _⟩ := reads
                obtain rfl := readFirst.eq_of_word named consumes.1
                obtain ⟨shown, read, resembles⟩ := carries.2.looks follows readSecond
                have there := carries.1.read
                rw [named] at there
                have stop_eq := relocation.stop_span _ (readFirst.start_lt_stop consumes.2.1).2.1
                rw [← stop_eq] at read
                have alike : first.Resembles ignores (relocation.token first) :=
                  ⟨rfl, fun noted => carries.1.newline_eq (weaker noted)⟩
                refine ⟨_, .two alike ?_ sees, ⟨there, read, trivial⟩, behind⟩
                exact resembles.imp (fun same => same.mono (by simp)) And.left
      | part nonterminal tokens =>
          obtain ⟨⟨parses, moves⟩, components⟩ := components
          obtain ⟨fits, attached⟩ := attached
          simp only [Item.tokensOf] at carries consumes follows
          obtain ⟨consumesFront, consumes⟩ := Script.consumes_append.mp consumes
          have some_tokens (fresh : current = true) : tokens ≠ [] :=
            parses.ne_nil (Nonterminal.consumes_of_ignoresLine (line fresh).2)
          have further := carries.right some_tokens
          rw [Token.endOf_append] at follows
          simp only [Item.mayPrecede, Bool.and_eq_true, Bool.or_eq_true] at precede
          obtain ⟨seen, sees, behind⟩ := ih components attached consumes present ahead (by simp)
            (fun kind closing => (precede kind closing).2) further follows
          refine ⟨_, .part sees, ?_, ?_⟩
          · refine moves current (fun fresh => (line fresh).2) carries.left ?_ fits
            cases more : Item.tokensOf items with
            | nil =>
                intro next read
                rw [more] at follows
                obtain ⟨shown, readShown, resembles | closing⟩ := follows next read
                · exact ⟨shown, readShown, .inl resembles⟩
                · refine ⟨shown, readShown, .inr ?_⟩
                  have one := (precede _ closing).1
                  rw [Item.any_isToken_of_tokensOf more] at one
                  simpa using one
            | cons token rest =>
                rw [more] at further
                exact further.1.shows.follows
          · rwa [Relocation.endOf_map consumesFront]

-----------------------------------------------------------------------------------------
-- Moved components
-----------------------------------------------------------------------------------------

section Moved

variable (move : Span → Span)

/-- What may follow a phrase does not depend on places. -/
theorem Phrase.mayPrecede_moved (kind : Kind)
    : mayPrecede kind ∘ moved move = mayPrecede kind := by
  funext phrase
  cases phrase <;> rfl

theorem Nonterminal.mayPrecede_moved (kind : Kind) (nonterminal : Nonterminal)
    : (nonterminal.moved move).mayPrecede kind = nonterminal.mayPrecede kind := by
  cases nonterminal with
  | phrase inner => exact congrFun (Phrase.mayPrecede_moved move kind) inner
  | afterKeyword keyword phrase? =>
      have same := congrFun (Phrase.mayPrecede_moved move kind)
      cases phrase? <;> simp_all [moved, mayPrecede]
  | list | listTail | looseList | separated | repeated =>
      simp [moved, mayPrecede, Phrase.mayPrecede_moved]

/-- Whether a line is ignored does not depend on places. -/
theorem Nonterminal.ignoresLine_moved (nonterminal : Nonterminal)
    : (nonterminal.moved move).ignoresLine = nonterminal.ignoresLine := by
  cases nonterminal with
  | phrase inner => cases inner <;> rfl
  | _ => rfl

theorem Nonterminal.consumes_moved (nonterminal : Nonterminal)
    : (nonterminal.moved move).consumes = nonterminal.consumes := by
  cases nonterminal with
  | phrase inner => cases inner <;> rfl
  | _ => rfl

end Moved

theorem Item.consumes_moved (item : Item) : (item.moved relocation).consumes = item.consumes := by
  cases item with
  | part nonterminal => exact nonterminal.consumes_moved relocation.span
  | _ => rfl

/-- The tokens of moved components are the tokens at their new places. -/
theorem Item.tokensOf_moved (items : List Item)
    : tokensOf (items.map (Item.moved relocation)) = (tokensOf items).map relocation.token := by
  induction items with
  | nil => rfl
  | cons item items ih => cases item <;> simp [Item.moved, tokensOf, ih]

namespace Item.Sees

variable {closes : Kind → Bool} {ignores : Bool} {seen : List Item}

/-- Other tokens to look at leave the consumed ones as they are. -/
theorem tokensOf_eq (sees : Sees closes ignores items seen) : tokensOf seen = tokensOf items := by
  induction sees with
  | nil => rfl
  | token _ ih | regex _ ih | part _ ih => simp only [tokensOf, ih]
  | alike _ _ ih | last _ _ _ ih | two _ _ _ ih => exact ih

/-- Other tokens to look at stay such when all components are moved. -/
theorem moved (sees : Sees closes ignores items seen)
    : Sees closes ignores (items.map (Item.moved relocation))
        (seen.map (Item.moved relocation)) := by
  induction sees with
  | nil => exact .nil
  | token _ ih => exact .token ih
  | regex _ ih => exact .regex ih
  | part _ ih => exact .part ih
  | alike resembles _ ih => exact .alike resembles ih
  | last closing ends _ ih =>
      refine .last closing ?_ ih
      rw [List.any_map, ← ends]
      exact congrArg (List.any _) (funext Item.consumes_moved)
  | two resembles follows _ ih => exact .two resembles follows ih

end Item.Sees

-----------------------------------------------------------------------------------------
-- Derivations
-----------------------------------------------------------------------------------------

/-- A derivation can be had in the other text where its tokens are carried over. -/
theorem Parses.moves {tokens : List Token} (derivation : Parses script nonterminal offset tokens)
    (dialect_eq : other.dialect = script.dialect)
    : relocation.Moves script other nonterminal offset tokens := by
  refine derivation.induction
    (motive := fun nonterminal offset tokens =>
      relocation.Moves script other nonterminal offset tokens) ?_
  intro nonterminal items offset rule components ignoresLine ignores carries follows fits
  have parses := components.mono (fun _ _ _ holds => holds.1)
  have whole : Parses script nonterminal offset (Item.tokensOf items) :=
    .of_rule rule parses.sequence
  have consumes := whole.consumes
  obtain ⟨seen, sees, moved⟩
      : ∃ seen,
          Item.Sees (fun kind => nonterminal.mayPrecede kind) nonterminal.ignoresLine items seen
          ∧ Components other (Parses other) (seen.map (Item.moved relocation))
              (relocation.stop offset) :=
    components.moved (rule.attached parses fits) consumes rule.present rule.looksAhead
      (fun fresh => ⟨ignores fresh, rule.ignoresLine (ignores fresh)⟩)
      (fun _ closing => rule.mayPrecede closing) carries follows
  have tokens_eq
      : Item.tokensOf (seen.map (Item.moved relocation))
          = (Item.tokensOf items).map relocation.token := by
    rw [Item.tokensOf_moved, sees.tokensOf_eq]
  have keeps : relocation.Keeps script other nonterminal.ignoresLine (Item.tokensOf items) :=
    carries.keeps consumes dialect_eq (by grind)
  have rule := rule.moved parses fits keeps fun holds =>
    carries.spanOf_map consumes (whole.ne_nil holds)
  refine .intro (rule.sees ?_) moved.sequence tokens_eq
  simp only [Nonterminal.mayPrecede_moved, Nonterminal.ignoresLine_moved]
  exact sees.moved

end Grammar

end EcmaSyntax
