import EcmaSyntax.Proofs.Grammar.Chains
import EcmaSyntax.Proofs.Grammar.Completeness.Program
import EcmaSyntax.Proofs.Grammar.Precedence
import EcmaSyntax.Proofs.Grammar.Settling.Outcome
import EcmaSyntax.Proofs.Grammar.Structure
import EcmaSyntax.Proofs.Printing.Operators

/-! What is read of an expression where the operator `in` is not allowed: all of it, or what stands in front
of the first `in` that nothing closes. Where one loop over operators stops at that `in`, so do all the
loops around it.
-/

namespace EcmaSyntax

open EcmaSyntax.Parser EcmaSyntax.Grammar

-----------------------------------------------------------------------------------------
-- Open `in`s
-----------------------------------------------------------------------------------------

namespace Expr

/-- The operations `in` that stand where no token closes what they are in, as they stand in the source. -/
def openIns : Expr → List Expr
  | binary span operator left right =>
      left.openIns
      ++ (if operator = .isIn then [binary span operator left right] else [])
      ++ right.openIns
  | conditional _ test _ alternate => test.openIns ++ alternate.openIns
  | call _ base _ | member _ base _ | index _ base _ | construct _ base _ => base.openIns
  | unary _ _ argument | update _ _ argument => argument.openIns
  | identifier .. | this _ | boolean .. | null _ | number .. | regex .. | string .. | array ..
  | object .. | function .. | parenthesized .. => []

/-- An expression has an open `in` if one is listed. -/
theorem openIns_eq_nil {value : Expr} : value.openIns = [] ↔ value.hasOpenIn = false := by
  fun_induction hasOpenIn value with
  | case1 span operator left right ihLeft ihRight =>
      simp [openIns, ihLeft, ihRight, and_assoc, and_left_comm]
  | _ => simp_all [openIns]

/-- Where the left operand ends and the operator of an operation follows. -/
def divide : Expr → Nat
  | binary _ _ left _ => left.span.stop
  | value => value.span.start

end Expr

/-- The word is the operator of the operation `in`: the left operand ends in front of it, and the right one
begins behind it.
-/
def Script.Divides (script : Script) (place : Nat) (word : Token) (operation : Expr) : Prop :=
  ∃ span left right,
    operation = .binary span .isIn left right
    ∧ left.span.stop = place
    ∧ script.Reads .standard place word
    ∧ word.kind = .keywordIn
    ∧ word.span.stop ≤ right.span.start

variable {script : Script} {offset : Nat} {tokens : List Token} {inAllowed : Bool}

namespace Grammar

variable {span : Span} {items : List Item}

-----------------------------------------------------------------------------------------
-- Operators that are tighter than `in`
-----------------------------------------------------------------------------------------

/-- A phrase whose operators are all tighter than `in` has no open one, apart from those that it goes on
from.
-/
def Nonterminal.Tight : Nonterminal → Prop
  | phrase (.expression _ least value) => Operator.isIn.precedence < least → value.openIns = []
  | phrase (.operand _ value) | phrase (.primary value) => value.openIns = []
  | phrase (.operators _ least left value) =>
      Operator.isIn.precedence < least → left.openIns = [] → value.openIns = []
  | phrase (.continuation _ operator left value) =>
      Operator.isIn.precedence < operator.precedence → left.openIns = [] → value.openIns = []
  | phrase (.access _ object value) | phrase (.accesses object value) =>
      object.openIns = [] → value.openIns = []
  | _ => True

/-- A production with tight operators only has no open `in`, given that its parts are tight. -/
theorem ExpressionRule.tight {phrase : Phrase} (rule : ExpressionRule script span phrase items)
    (components : Components script (fun part _ _ => part.Tight) items offset)
    : (Nonterminal.phrase phrase).Tight := by
  cases rule with
  | expression =>
      obtain ⟨operand, operators, _⟩ := components
      exact fun tight => operators tight operand
  | operandPlain => exact components.1
  | operandPrefixed opens =>
      obtain ⟨_, argument, _⟩ := components
      exact argument (rightPrecedence_of_prefixOperator? opens ▸ by decide)
  | construct | constructBare =>
      obtain ⟨_, head, accesses, _⟩ := components
      exact accesses head
  | accessesNone => exact id
  | accessesMore =>
      obtain ⟨_, access, accesses, _⟩ := components
      exact fun object => accesses (access object)
  | accessMember | accessIndex => exact id
  | operatorsNone => exact fun _ => id
  | operatorsUpdate =>
      obtain ⟨_, operators, _⟩ := components
      exact operators
  | operatorsMore _ _ binds =>
      obtain ⟨_, continuation, operators, _⟩ := components
      exact fun tight left => operators tight (continuation (Nat.lt_of_lt_of_le tight binds) left)
  | continuationCall => exact fun _ => id
  | continuationAccess => exact fun _ => components.1
  | continuationConditional => exact fun tight => absurd tight (by decide)
  | @continuationBinary operator =>
      obtain ⟨_, right, _⟩ := components
      intro tight left
      have other : operator ≠ .isIn := by
        rintro rfl
        exact Nat.lt_irrefl _ tight
      have right := right (Nat.lt_of_lt_of_le tight operator.precedence_le_rightPrecedence)
      simp [Expr.openIns, other, left, right]
  | object | array | identifier | functionAnonymous | functionNamed | this | boolean | null
  | number | regex | string | parenthesized =>
      rfl
  | arguments | elementsNone | elementsHole | elementsLast | elementsMore | memberProperty
  | memberGetter | memberSetter | function | parameter | body =>
      trivial

/-- Whatever parses is tight where its place asks for tight operators, by induction on the derivation. -/
theorem Parses.tight {nonterminal : Nonterminal}
    (derivation : Parses script nonterminal offset tokens)
    : nonterminal.Tight := by
  refine derivation.induction (motive := fun nonterminal _ _ => nonterminal.Tight) ?_
  intro nonterminal items offset rule components
  cases rule with
  | expression rule => exact rule.tight (components.mono fun _ _ _ holds => holds.2)
  | statement rule => cases rule <;> trivial
  | repetition rule => cases rule <;> trivial

-----------------------------------------------------------------------------------------
-- Open `in`s in front of operators
-----------------------------------------------------------------------------------------

/-- What operators go on from comes first. -/
def Nonterminal.Extends : Nonterminal → Prop
  | phrase (.operators _ _ left value) | phrase (.continuation _ _ left value)
  | phrase (.access _ left value) => left.openIns <+: value.openIns
  | _ => True

/-- What a production goes on from comes first among its open `in`s, given that this is so in its parts.
-/
theorem ExpressionRule.extends {phrase : Phrase} (rule : ExpressionRule script span phrase items)
    (components : Components script (fun part _ _ => part.Extends) items offset)
    : (Nonterminal.phrase phrase).Extends := by
  cases rule with
  | operatorsNone | accessMember | accessIndex | continuationCall => exact List.prefix_rfl
  | operatorsUpdate => exact components.2.1
  | operatorsMore =>
      obtain ⟨_, continuation, operators, _⟩ := components
      exact continuation.trans operators
  | continuationAccess => exact components.1
  | continuationConditional => exact List.prefix_append _ _
  | continuationBinary =>
      simp only [Nonterminal.Extends, Expr.openIns, List.append_assoc]
      exact List.prefix_append _ _
  | _ => trivial

/-- What operators go on from comes first, by induction on the derivation. -/
theorem Parses.extends {nonterminal : Nonterminal}
    (derivation : Parses script nonterminal offset tokens)
    : nonterminal.Extends := by
  refine derivation.induction (motive := fun nonterminal _ _ => nonterminal.Extends) ?_
  intro nonterminal items offset rule components
  cases rule with
  | expression rule => exact rule.extends (components.mono fun _ _ _ holds => holds.2)
  | statement rule => cases rule <;> trivial
  | repetition rule => cases rule <;> trivial

-----------------------------------------------------------------------------------------
-- Open `in`s from left to right
-----------------------------------------------------------------------------------------

/-- The operators of the operations come one after the other, the first from the one offset on, the last in
front of the other.
-/
structure InOrder (start stop : Nat) (operations : List Expr) : Prop where
  ordered : operations.Pairwise fun first second => first.divide < second.divide
  within : ∀ operation ∈ operations, start ≤ operation.divide ∧ operation.divide < stop

theorem InOrder.nil (start stop : Nat) : InOrder start stop [] :=
  ⟨.nil, by simp⟩

/-- Operations in order are so between offsets further apart. -/
theorem InOrder.widen {start stop first last : Nat} {operations : List Expr}
    (inOrder : InOrder start stop operations) (starts : first ≤ start) (stops : stop ≤ last)
    : InOrder first last operations := by
  refine ⟨inOrder.ordered, fun operation among => ?_⟩
  obtain ⟨after, before⟩ := inOrder.within operation among
  exact ⟨starts.trans after, Nat.lt_of_lt_of_le before stops⟩

theorem InOrder.singleton {start stop : Nat} {operation : Expr} (starts : start ≤ operation.divide)
    (stops : operation.divide < stop)
    : InOrder start stop [operation] :=
  ⟨List.pairwise_singleton _ _, by simp [starts, stops]⟩

/-- Operations in order, one row behind the other, are in order. -/
theorem InOrder.append {start middle stop : Nat} {front back : List Expr}
    (first : InOrder start middle front) (second : InOrder middle stop back)
    (starts : start ≤ middle) (stops : middle ≤ stop)
    : InOrder start stop (front ++ back) := by
  refine ⟨List.pairwise_append.mpr ⟨first.ordered, second.ordered, ?_⟩, ?_⟩
  · intro left among right amongToo
    exact Nat.lt_of_lt_of_le (first.within left among).2 (second.within right amongToo).1
  · intro operation among
    rcases List.mem_append.mp among with front | back
    · exact (first.within operation front).imp_right fun less => Nat.lt_of_lt_of_le less stops
    · exact (second.within operation back).imp_left starts.trans

/-- The open `in`s of what a phrase makes come one after the other, those of what it goes on from first. -/
def Nonterminal.Orders (script : Script) (offset : Nat) (tokens : List Token) : Nonterminal → Prop
  | phrase (.expression _ _ value) => InOrder offset (Token.endOf offset tokens) value.openIns
  | phrase (.operators _ _ left value) | phrase (.continuation _ _ left value) =>
      ∀ place front,
        script.Spans place front left.span →
        Token.endOf place front = offset →
        InOrder place offset left.openIns →
        InOrder place (Token.endOf offset tokens) value.openIns
  | phrase (.access _ object value) => value.openIns = object.openIns
  | _ => True

/-- The open `in`s of a production are in the order of the text, given that those of its parts are. -/
theorem ExpressionRule.orders {phrase : Phrase} (rule : ExpressionRule script span phrase items)
    (components
      : Components script
          (fun part offset tokens =>
            Parses script part offset tokens ∧ part.Orders script offset tokens) items offset)
    : (Nonterminal.phrase phrase).Orders script offset (Item.tokensOf items) := by
  cases rule with
  | expression =>
      obtain ⟨⟨derived, _⟩, ⟨_, operators⟩, _⟩ := components
      have closed : Expr.openIns _ = [] := derived.tight
      simp only [Nonterminal.Orders, Item.tokensOf, List.append_nil, Token.endOf_append]
      exact operators _ _ derived.spans rfl (closed ▸ .nil _ _)
  | operatorsNone => exact fun _ _ _ _ inOrder => inOrder
  | operatorsUpdate updates =>
      obtain ⟨read, ⟨_, operators⟩, _⟩ := components
      rintro place front spans rfl inOrder
      have consumes := read.consumes (Kind.isPlain_of_updateOperator? updates)
      simp only [Item.tokensOf, List.append_nil, Token.endOf_cons]
      exact operators _ _ (spans.cover_append (.of_token consumes)) (by simp)
        (inOrder.widen (Nat.le_refl _) consumes.le_endOf)
  | operatorsMore =>
      obtain ⟨_, ⟨derived, continuation⟩, ⟨_, operators⟩, _⟩ := components
      intro place front spans ends inOrder
      simp only [Item.tokensOf, List.append_nil, Token.endOf_append]
      exact operators _ _ (derived.spans place front spans ends) (by rw [Token.endOf_append, ends])
        (continuation place front spans ends inOrder)
  | continuationCall =>
      obtain ⟨⟨derived, _⟩, _⟩ := components
      intro place front spans ends inOrder
      simp only [Item.tokensOf, List.append_nil]
      exact inOrder.widen (Nat.le_refl _) derived.consumes.le_endOf
  | continuationAccess isAccess =>
      obtain ⟨⟨derived, same⟩, _⟩ := components
      intro place front spans ends inOrder
      simp only [Item.tokensOf, List.append_nil]
      rw [show Expr.openIns _ = Expr.openIns _ from same]
      exact inOrder.widen (Nat.le_refl _) derived.consumes.le_endOf
  | continuationConditional opens divides =>
      obtain ⟨read, ⟨derived, _⟩, readColon, ⟨derivedLast, alternate⟩, _⟩ := components
      intro place front spans ends inOrder
      have starts := spans.consumes.le_endOf
      have first := (read.consumes (opens ▸ rfl)).le_endOf
      have second := derived.consumes.le_endOf
      have third := (readColon.consumes (divides ▸ rfl)).le_endOf
      have last := derivedLast.consumes.le_endOf
      simp only [Token.endOf_cons, Token.endOf_nil] at first third
      simp only [Item.tokensOf, List.append_nil, Token.endOf_cons, Token.endOf_append, Expr.openIns]
      refine inOrder.append (alternate.widen ?_ (Nat.le_refl _)) ?_ ?_
      all_goals omega
  | @continuationBinary operator _ left right token _ opens =>
      obtain ⟨read, ⟨derived, inOrderRight⟩, _⟩ := components
      rintro place front spans rfl inOrder
      have consumes := read.consumes (Kind.isPlain_of_infixOperator? opens)
      have starts := spans.consumes.le_endOf
      have stops := derived.consumes.le_endOf
      obtain ⟨before, present, _⟩
          : Token.endOf place front ≤ token.span.start ∧ token.span.start < token.span.stop ∧ _ :=
        consumes.spanOf (List.cons_ne_nil _ _)
      have ends : left.span.stop = Token.endOf place front := by
        rw [spans.span_eq, (spans.consumes.spanOf spans.present).2.2]
      have word
          : InOrder (Token.endOf place front) token.span.stop
              (if operator = .isIn then [.binary (left.span.cover right.span) operator left right]
                else []) := by
        split
        next => exact .singleton (Nat.le_of_eq ends.symm) (by rw [Expr.divide, ends]; omega)
        next => exact .nil _ _
      simp only [Item.tokensOf, List.append_nil, Token.endOf_cons, Expr.openIns]
      exact (inOrder.append word starts (by omega)).append inOrderRight (by omega) stops
  | accessMember | accessIndex => rfl
  | _ => trivial

/-- The open `in`s of whatever parses are in the order of the text, by induction on the derivation. -/
theorem Parses.orders {nonterminal : Nonterminal}
    (derivation : Parses script nonterminal offset tokens)
    : nonterminal.Orders script offset tokens := by
  refine derivation.induction
    (motive := fun nonterminal offset tokens => nonterminal.Orders script offset tokens) ?_
  intro nonterminal items offset rule components
  cases rule with
  | expression rule => exact rule.orders components
  | statement rule => cases rule <;> trivial
  | repetition rule => cases rule <;> trivial

-----------------------------------------------------------------------------------------
-- Phrases where `in` is not allowed
-----------------------------------------------------------------------------------------

/-- The tokens of a phrase for a value, where `in` is not allowed. If the value has no open `in`, they parse as
the phrase for the same value. If it has one, the tokens in front of the first do, for another value.
-/
structure Barred (script : Script) (phrase : Expr → Phrase) (value : Expr) (offset : Nat)
    (tokens : List Token)
    : Prop where
  whole : value.openIns = [] → Parses script (.phrase (phrase value)) offset tokens
  cut
    : ∀ first others,
        value.openIns = first :: others →
        ∃ front word back between,
          tokens = front ++ word :: back
          ∧ Parses script (.phrase (phrase between)) offset front
          ∧ script.Divides (Token.endOf offset front) word first

/-- Where `in` is allowed, a phrase is read as far as it is where `in` is not allowed. An operand is tighter
than `in`, so that it stays the same, and operators go on from a value that stays the same.
-/
def Nonterminal.Bars (script : Script) (offset : Nat) (tokens : List Token) : Nonterminal → Prop
  | phrase (.expression inAllowed least value) =>
      inAllowed = true → Barred script (.expression false least) value offset tokens
  | phrase (.operand inAllowed value) =>
      inAllowed = true → Parses script (.phrase (.operand false value)) offset tokens
  | phrase (.operators inAllowed least left value) =>
      inAllowed = true →
      left.openIns = [] →
      (∃ place front, script.Spans place front left.span ∧ Token.endOf place front = offset) →
      Barred script (.operators false least left) value offset tokens
  | phrase (.continuation inAllowed operator left value) =>
      inAllowed = true →
      operator ≠ .isIn →
      left.openIns = [] →
      Barred script (.continuation false operator left) value offset tokens
  | _ => True

/-- What stops operators stops them where `in` is not allowed, too. -/
theorem StopsOperators.barring {least : Nat} {token : Token}
    (stops : StopsOperators true least token)
    : StopsOperators false least token := by
  unfold StopsOperators at stops ⊢
  split at stops
  · exact stops
  · exact fun operator opens => (stops operator opens).imp_right fun isIn => absurd isIn.2 (by decide)

/-- Operators stop in front of the word `in` where it is not allowed. -/
theorem parses_operators_in {least : Nat} {word : Token} {value : Expr}
    (read : script.Reads .standard offset word) (isIn : word.kind = .keywordIn)
    : Parses script (.phrase (.operators false least value value)) offset [] := by
  refine .intro (.expression (.operatorsNone ?_)) (.ahead ⟨read, trivial⟩ .nil) rfl
  have opens : word.kind.infixOperator? = some .isIn := isIn ▸ rfl
  unfold StopsOperators
  rw [updateOperator?_of_infixOperator? opens]
  intro operator opens'
  rw [opens] at opens'
  cases opens'
  exact .inr ⟨rfl, rfl⟩

/-- The operation `in` begins with its word. -/
theorem divides_of_continuation {left value : Expr} {place : Nat} {front : List Token}
    (derivation : Parses script (.phrase (.continuation inAllowed .isIn left value)) offset tokens)
    (spans : script.Spans place front left.span) (ends : Token.endOf place front = offset)
    (closed : left.openIns = [])
    : ∃ word back others,
        tokens = word :: back
        ∧ value.openIns = value :: others
        ∧ script.Divides offset word value := by
  obtain ⟨items, rfl, rule, components⟩ := derivation.expression_components rfl
  cases rule with
  | continuationAccess isAccess => rcases isAccess with same | same <;> cases same
  | @continuationBinary _ _ _ right token _ opens =>
      obtain ⟨read, derived, _⟩ := components
      have bounds := derived.spans.consumes.spanOf derived.spans.present
      rw [← derived.spans.span_eq] at bounds
      have stops := (spans.consumes.spanOf spans.present).2.2
      refine ⟨token, _, right.openIns, rfl, by simp [Expr.openIns, closed], ?_⟩
      refine ⟨_, left, right, rfl, ?_, read, eq_keywordIn_of_infixOperator? opens, bounds.1⟩
      rw [spans.span_eq, stops, ends]

/-- A value without an open `in` is read as it is. -/
theorem Barred.of_closed {phrase : Expr → Phrase} {value : Expr} (closed : value.openIns = [])
    (derivation : Parses script (.phrase (phrase value)) offset tokens)
    : Barred script phrase value offset tokens :=
  ⟨fun _ => derivation, fun _ _ opens => absurd (closed.symm.trans opens) (List.cons_ne_nil _ _).symm⟩

/-- A value with an open `in` is read up to the first one. -/
theorem Barred.of_cut {phrase : Expr → Phrase} {value first between : Expr} {others : List Expr}
    {front : List Token} {word : Token} (opens : value.openIns = first :: others)
    (derivation : Parses script (.phrase (phrase between)) offset front)
    (divides : script.Divides (Token.endOf offset front) word first) (back : List Token)
    : Barred script phrase value offset (front ++ word :: back) := by
  refine ⟨fun closed => absurd (opens.symm.trans closed) (List.cons_ne_nil _ _), ?_⟩
  intro head tail same
  obtain ⟨rfl, _⟩ := List.cons.inj (opens.symm.trans same)
  exact ⟨front, word, back, between, rfl, derivation, divides⟩

/-- A cut in the last part of a phrase is a cut in the phrase. -/
theorem Barred.behind {inner outer : Expr → Phrase} {value : Expr} {place : Nat} {back : List Token}
    (barred : Barred script inner value place back) (build : Expr → Expr) (front : List Token)
    (ends : Token.endOf offset front = place) (opens : (build value).openIns = value.openIns)
    (phrase
      : ∀ between tokens,
          Parses script (.phrase (inner between)) place tokens →
          Parses script (.phrase (outer (build between))) offset (front ++ tokens))
    : Barred script outer (build value) offset (front ++ back) := by
  refine ⟨fun closed => phrase value back (barred.whole (opens ▸ closed)), fun first others same => ?_⟩
  obtain ⟨tokens, word, rest, between, rfl, derived, divides⟩ := barred.cut first others (opens ▸ same)
  refine ⟨front ++ tokens, word, rest, build between, by simp, phrase between tokens derived, ?_⟩
  rwa [Token.endOf_append, ends]

/-- Operators behind a continuation that may have a cut. -/
theorem Barred.operators {operator : Operator} {least : Nat} {left between value : Expr}
    {next : Token} {front back : List Token}
    (continuation : Barred script (.continuation false operator left) between offset front)
    (read : script.Reads .standard offset next) (noUpdate : updateOperator? next = none)
    (opens : next.kind.infixOperator? = some operator) (binds : least ≤ operator.precedence)
    (other : operator ≠ .isIn) (further : between.openIns <+: value.openIns)
    (operators
      : between.openIns = [] →
          Barred script (.operators false least between) value (Token.endOf offset front) back)
    : Barred script (.operators false least left) value offset (front ++ back) := by
  have more {between value : Expr} {front back : List Token}
      (derived : Parses script (.phrase (.continuation false operator left between)) offset front)
      (rest
        : Parses script (.phrase (.operators false least between value)) (Token.endOf offset front)
            back)
      : Parses script (.phrase (.operators false least left value)) offset (front ++ back) :=
    .intro (.expression (.operatorsMore noUpdate opens binds fun isIn => absurd isIn other))
      (.ahead ⟨read, trivial⟩ (.part derived (.part rest .nil))) (by simp [Item.tokensOf])
  cases openIns : between.openIns with
  | nil =>
      exact (operators openIns).behind id front rfl rfl fun _ _ rest =>
        more (continuation.whole openIns) rest
  | cons first others =>
      -- The loop stops where the cut is, since `in` follows it.
      obtain ⟨tail, same⟩ := further
      obtain ⟨tokens, word, rest, cut, rfl, derived, divides⟩ := continuation.cut first others openIns
      obtain ⟨_, _, _, _, _, readWord, isIn, _⟩ := id divides
      rw [openIns] at same
      have stopped := more derived (parses_operators_in readWord isIn)
      rw [List.append_nil] at stopped
      simpa using Barred.of_cut same.symm stopped divides (rest ++ back)

/-- A production is read up to its first open `in`, given that its parts are. -/
theorem ExpressionRule.bars {phrase : Phrase} (rule : ExpressionRule script span phrase items)
    (components
      : Components script
          (fun part offset tokens =>
            Parses script part offset tokens ∧ part.Bars script offset tokens) items offset)
    : (Nonterminal.phrase phrase).Bars script offset (Item.tokensOf items) := by
  cases rule with
  | expression =>
      rintro rfl
      obtain ⟨⟨derived, operand⟩, ⟨_, operators⟩, _⟩ := components
      have operators := operators rfl derived.tight ⟨_, _, derived.spans, rfl⟩
      simp only [Item.tokensOf, List.append_nil]
      refine operators.behind id _ rfl rfl fun between tokens rest => ?_
      exact .intro (.expression .expression) (.part (operand rfl) (.part rest .nil))
        (by simp [Item.tokensOf])
  | operandPlain =>
      rintro rfl
      exact .intro (.expression .operandPlain) (.part components.1.1 .nil) rfl
  | operandPrefixed opens target =>
      rintro rfl
      obtain ⟨read, ⟨derived, argument⟩, _⟩ := components
      have closed := derived.tight (rightPrecedence_of_prefixOperator? opens ▸ by decide)
      exact .intro (.expression (.operandPrefixed opens target))
        (.token read (.part ((argument rfl).whole closed) .nil)) rfl
  | operatorsNone stops =>
      rintro rfl closed _
      refine .of_closed closed ?_
      exact .intro (.expression (.operatorsNone stops.barring)) (.ahead components.1 .nil) rfl
  | operatorsUpdate updates binds target =>
      rintro rfl closed ⟨place, front, spans, ends⟩
      obtain ⟨read, ⟨_, operators⟩, _⟩ := components
      have plain := Kind.isPlain_of_updateOperator? updates
      subst ends
      have further := spans.cover_append (.of_token (read.consumes plain))
      have operators := operators rfl closed ⟨place, _, further, by simp⟩
      simp only [Item.tokensOf, List.append_nil]
      refine operators.behind id [_] rfl rfl fun between tokens rest => ?_
      exact .intro (.expression (.operatorsUpdate updates binds target))
        (.token read (.part rest .nil)) (by simp [Item.tokensOf])
  | @operatorsMore _ operator _ _ left value between _ _ noUpdate opens binds =>
      rintro rfl closed ⟨place, front, spans, ends⟩
      obtain ⟨⟨read, _⟩, ⟨derived, continuation⟩, ⟨derivedRest, operators⟩, _⟩ := components
      simp only [Item.tokensOf, List.append_nil]
      have further : between.openIns <+: value.openIns := derivedRest.extends
      by_cases isIn : operator = .isIn
      · -- The loop stops here at once.
        subst isIn
        obtain ⟨word, back, others, rfl, opened, divides⟩ :=
          divides_of_continuation derived spans ends closed
        obtain ⟨tail, same⟩ := further
        obtain ⟨_, _, _, _, _, readWord, wordIn, _⟩ := id divides
        rw [opened] at same
        exact Barred.of_cut same.symm (parses_operators_in readWord wordIn) divides (back ++ _)
      · have covers := derived.spans place front spans ends
        refine (continuation rfl isIn closed).operators read noUpdate opens binds isIn further ?_
        exact fun none => operators rfl none ⟨place, _, covers, by rw [Token.endOf_append, ends]⟩
  | continuationCall =>
      rintro rfl _ closed
      exact .of_closed closed (.intro (.expression .continuationCall) (.part components.1.1 .nil) rfl)
  | continuationAccess isAccess =>
      rintro rfl _ closed
      obtain ⟨⟨derived, _⟩, _⟩ := components
      refine .of_closed (derived.tight closed) ?_
      exact .intro (.expression (.continuationAccess isAccess)) (.part derived .nil) rfl
  | @continuationConditional _ left consequent alternate question front colon back opens divides =>
      rintro rfl _ closed
      obtain ⟨readQuestion, ⟨derived, _⟩, readColon, ⟨_, barred⟩, _⟩ := components
      have split
          : Item.tokensOf
                [
                  .token question,
                  .part (.phrase (.expression true Operator.assignmentPrecedence consequent)) front,
                  .token colon,
                  .part (.phrase (.expression true Operator.assignmentPrecedence alternate)) back
                ]
              = (question :: (front ++ [colon])) ++ back := by
        simp [Item.tokensOf]
      rw [split]
      refine (barred rfl).behind
        (fun last => .conditional (left.span.cover last.span) left consequent last) _ (by simp)
        (by simp [Expr.openIns, closed]) fun between tokens last => ?_
      exact .intro (.expression (.continuationConditional opens divides))
        (.token readQuestion (.part derived (.token readColon (.part last .nil))))
        (by simp [Item.tokensOf])
  | @continuationBinary operator _ left _ token _ opens isBinary target =>
      rintro rfl other closed
      obtain ⟨read, ⟨_, right⟩, _⟩ := components
      simp only [Item.tokensOf, List.append_nil]
      refine (right rfl).behind
        (fun right => .binary (left.span.cover right.span) operator left right) [_] rfl ?_
        fun between tokens derived => ?_
      · simp [Expr.openIns, other, closed]
      · exact .intro (.expression (.continuationBinary opens isBinary target))
          (.token read (.part derived .nil)) (by simp [Item.tokensOf])
  | _ => trivial

/-- Whatever parses where `in` is allowed is read up to the first open one where it is not, by induction
on the derivation.
-/
theorem Parses.bars {nonterminal : Nonterminal}
    (derivation : Parses script nonterminal offset tokens)
    : nonterminal.Bars script offset tokens := by
  refine derivation.induction
    (motive := fun nonterminal offset tokens => nonterminal.Bars script offset tokens) ?_
  intro nonterminal items offset rule components
  cases rule with
  | expression rule => exact rule.bars components
  | statement rule => cases rule <;> trivial
  | repetition rule => cases rule <;> trivial

-----------------------------------------------------------------------------------------
-- Expressions as they are read
-----------------------------------------------------------------------------------------

/-- A derivation has at most as many tokens as characters are left. -/
theorem Parses.length_le_left {nonterminal : Nonterminal}
    (derivation : Parses script nonterminal offset tokens)
    : tokens.length ≤ script.left offset := by
  have consumes := derivation.consumes
  cases tokens with
  | nil => exact Nat.zero_le _
  | cons token tokens =>
      obtain ⟨rest, cut, _⟩ := Option.map_eq_some_iff.mp consumes.1
      have short := consumes.length_le cut
      rwa [Script.left, cut, Option.getD_some]

/-- What parses as an expression from the tokens consumed on is read. -/
theorem expressionFrom_of_parses {depth least : Nat} {value : Expr} {state : ParserState}
    {consumed : List Token} (enough : script.left (Token.endOf 0 consumed) ≤ depth)
    (shows : state.Shows script consumed)
    (derivation
      : Parses script (.phrase (.expression inAllowed least value)) (Token.endOf 0 consumed) tokens)
    : ∃ after,
        expressionFrom (Rules.ofDepth depth) inAllowed least state = .ok value after
        ∧ after.Shows script (consumed ++ tokens) :=
  derivation.complete depth (derivation.length_le_left.trans enough) _ _ shows rfl

/-- An expression that is read where `in` is allowed is read as it is where `in` is not allowed, if it has no open
`in`. If it has one, a front of it without any is read, and the next token is the word of the first.
-/
theorem expressionFrom_barred {depth least : Nat} {value : Expr} {state after : ParserState}
    {consumed : List Token} (enough : script.left (Token.endOf 0 consumed) ≤ depth)
    (shows : state.Shows script consumed)
    (ran : expressionFrom (Rules.ofDepth depth) true least state = .ok value after)
    : (value.openIns = [] →
          ∃ last,
            expressionFrom (Rules.ofDepth depth) false least state = .ok value last
            ∧ last.consumed = after.consumed)
      ∧ (value.openIns ≠ [] →
          ∃ between last word peeked,
            expressionFrom (Rules.ofDepth depth) false least state = .ok between last
            ∧ between.openIns = []
            ∧ peek .standard last = .ok word peeked
            ∧ word.kind = .keywordIn
            ∧ last.consumed ++ [word] <+: after.consumed
            ∧ ∃ first ∈ value.openIns,
                script.Divides (Token.endOf 0 last.consumed) word first
                ∧ ∀ other ∈ value.openIns, first.divide ≤ other.divide) := by
  obtain ⟨tokens, shown, derivation⟩ :=
    expressionFrom_sound (Rules.sound_ofDepth script depth) true least _ _ _ _ _ shows rfl ran
  have barred := derivation.bars rfl
  constructor
  · intro closed
    obtain ⟨last, ranToo, shownToo⟩ := expressionFrom_of_parses enough shows (barred.whole closed)
    exact ⟨last, ranToo, shownToo.consumed_eq.trans shown.consumed_eq.symm⟩
  · intro opened
    obtain ⟨first, others, openIns⟩ := List.exists_cons_of_ne_nil opened
    obtain ⟨front, word, back, between, rfl, derived, divides⟩ := barred.cut first others openIns
    obtain ⟨last, ranToo, shownToo⟩ := expressionFrom_of_parses enough shows derived
    obtain ⟨next, peeked, ranPeek, read, _⟩ := peek_shows shownToo .standard
    rw [← Token.endOf_append] at divides
    obtain ⟨_, _, _, _, _, readWord, isIn, _⟩ := id divides
    obtain rfl := readWord.unique read
    refine ⟨between, last, word, peeked, ranToo, Expr.openIns_eq_nil.mpr (derived.closedToIn rfl),
      ranPeek, isIn, ?_, first, by simp [openIns], shownToo.consumed_eq ▸ divides, ?_⟩
    · rw [shownToo.consumed_eq, shown.consumed_eq]
      exact ⟨back, by simp⟩
    · have ordered := derivation.orders.ordered
      rw [openIns, List.pairwise_cons] at ordered
      rw [openIns]
      rintro other (_ | ⟨_, among⟩)
      · exact Nat.le_refl _
      · exact (ordered.1 other among).le

/-- The first branch of a conditional closes its `in`, and of the two in the second branch the first is cut. -/
theorem expressionFrom_barred_conditional
    : ∃ value after between last word peeked,
        expressionFrom (Rules.ofDepth 40) true 1
            (.ofSource "a = b ? c in d : e in f in g".toList .js)
          = .ok value after
        ∧ value.openIns.length = 2
        ∧ expressionFrom (Rules.ofDepth 40) false 1
            (.ofSource "a = b ? c in d : e in f in g".toList .js)
          = .ok between last
        ∧ between.openIns = []
        ∧ peek .standard last = .ok word peeked
        ∧ word.kind = .keywordIn
        ∧ last.consumed ++ [word] <+: after.consumed := by
  have counted
      : (match
            expressionFrom (Rules.ofDepth 40) true 1
              (.ofSource "a = b ? c in d : e in f in g".toList .js)
          with
          | .ok value _ => some value.openIns.length
          | .error .. => none)
          = some 2 := by
    decide +kernel
  have shows := ParserState.shows_ofSource "a = b ? c in d : e in f in g".toList .js
  split at counted
  next value after ran =>
    have two := Option.some.inj counted
    have opened : value.openIns ≠ [] := by
      intro closed
      rw [closed] at two
      cases two
    obtain ⟨between, last, word, peeked, ranToo, closed, ranPeek, isIn, front, _⟩ :=
      (expressionFrom_barred ((Script.left_le _ _).trans (by decide)) shows ran).2 opened
    exact ⟨value, after, between, last, word, peeked, ran, two, ranToo, closed, ranPeek, isIn, front⟩
  next => cases counted

end Grammar

end EcmaSyntax
