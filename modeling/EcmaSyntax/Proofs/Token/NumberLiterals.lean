import EcmaSyntax.Grammar.Literal
import EcmaSyntax.Proofs.Grammar.Rule
import EcmaSyntax.Proofs.Token.Numbers

/-! Number tokens and the values of texts. Every number token has a value, in the form in which the lexer went
over it, so that no number is malformed to the grammar. The texts that are one number token have values, and apart
from them only numbers with a sign and octal numbers that go on as decimal ones.
-/

namespace EcmaSyntax

open Text (size)

variable {source text rest : List Char} {mode : LexMode} {offset : Nat} {token : Token}

-----------------------------------------------------------------------------------------
-- Number tokens have values
-----------------------------------------------------------------------------------------

/-- The token is a number with the text, to which the magnitude is given in the form in which the lexer goes over
it. The lexer tells the form by the beginning of what is left of the source, the evaluation by the text alone.
-/
structure Token.HasValue (source : List Char) (mode : LexMode) (token : Token) (form : NumberForm)
    (text rest : List Char) (magnitude : Magnitude)
    : Prop where
  slice_eq : Text.slice? token.span.start token.span.stop source = some text
  drop_eq : Text.drop? token.span.start source = some (text ++ rest)
  form_eq : NumberForm.ofText (text ++ rest) = form
  scan_eq : Scan.token mode (text ++ rest) = form.scan (text ++ rest)
  rest_eq : form.scan (text ++ rest) = Scan.found .literalNumber rest
  hexadecimal_iff
    : form = .hexadecimal
      ↔ ∃ marker digits, (marker = 'x' ∨ marker = 'X') ∧ text = '0' :: marker :: digits
  octal_iff : form = .octal ↔ isLegacyOctal text
  value_eq : form.value? text = some magnitude
  number_eq : Number.ofLiteral? text = some (.signed false magnitude)

/-- Every number token is a literal of the form in which the lexer goes over it. -/
theorem Token.exists_isNumber (read : Token.read? source mode offset = some token)
    (isNumber : token.kind = .literalNumber)
    : ∃ front gap text rest,
        token.Lies source front gap text rest
        ∧ Scan.token mode (text ++ rest) = Scan.found .literalNumber rest
        ∧ Text.IsNumber (NumberForm.ofText (text ++ rest)) text := by
  obtain ⟨front, gap, text, rest, lies, scanned⟩ := exists_found read isNumber (by decide)
  obtain ⟨found, same, literal⟩ := Scan.token_isNumber scanned
  obtain rfl := List.append_cancel_right same
  exact ⟨front, gap, text, rest, lies, scanned, literal⟩

/-- A number token denotes a number that is neither negative nor NaN. -/
theorem Script.Reads.exists_number {script : Script} (read : script.Reads mode offset token)
    (isNumber : token.kind = .literalNumber)
    : ∃ magnitude, script.numberOf? token = some (.signed false magnitude) := by
  obtain ⟨_, _, text, _, lies, _, literal⟩ := Token.exists_isNumber read isNumber
  obtain ⟨magnitude, _, evaluated⟩ := literal.exists_value
  exact ⟨magnitude, by rw [numberOf?, script.textOf_of_lies lies, evaluated]⟩

/-- The grammar finds the value of the text at a span, and leaves the state as it is. -/
theorem Grammar.numberAt_eq_ok {state : ParserState} {span : Span} {value : Number}
    (slice : Text.slice? span.start span.stop state.source = some text)
    (evaluated : Number.ofLiteral? text = some value)
    : numberAt span state = .ok value state := by
  have read : Parser.textAt span state = .ok text state := by
    unfold Parser.textAt
    rw [Parser.bind_of_ok _ (rfl : (get : Parser ParserState) state = .ok state state), slice]
    rfl
  unfold numberAt
  rw [Parser.bind_of_ok _ read, evaluated]
  rfl

/-- Every number token has a value, which is neither negative nor NaN, in the form in which the lexer goes over it;
and the grammar finds that value, wherever it is in the source.
-/
theorem Token.exists_hasValue (read : Token.read? source mode offset = some token)
    (isNumber : token.kind = .literalNumber)
    : ∃ form text rest magnitude,
        token.HasValue source mode form text rest magnitude
        ∧ ∀ state : ParserState,
            state.source = source →
            Grammar.numberAt token.span state = .ok (.signed false magnitude) state := by
  obtain ⟨front, gap, text, rest, lies, scanned, literal⟩ := exists_isNumber read isNumber
  obtain ⟨magnitude, valued, evaluated⟩ := literal.exists_value
  have slice : Text.slice? token.span.start token.span.stop source = some text := by
    refine Text.slice?_eq_some.mpr ⟨front ++ gap, rest, by simp [lies.source_eq], ?_, ?_⟩
    · rw [lies.start_eq, Text.size_append]
    · rw [lies.start_eq, lies.stop_eq]
  have gone := Scan.token_eq_scan scanned
  refine ⟨NumberForm.ofText (text ++ rest), text, rest, magnitude, ?_, ?_⟩
  · exact ⟨slice, lies.drop?_start, rfl, gone, by rw [← gone, scanned], literal.hexadecimal_iff,
      literal.octal_iff, valued, evaluated⟩
  · rintro state rfl
    exact Grammar.numberAt_eq_ok slice evaluated

/-- An octal number between a comment and a point, which is no part of it. -/
theorem Token.exists_hasValue_octal
    : ∃ token,
        Token.read? "é/*\n*/017.5".toList .regex 2 = some token
        ∧ token.kind = .literalNumber
        ∧ Text.slice? token.span.start token.span.stop "é/*\n*/017.5".toList = some "017".toList
        ∧ ∃ form text rest magnitude,
            token.HasValue "é/*\n*/017.5".toList .regex form text rest magnitude
            ∧ ∀ state : ParserState,
                state.source = "é/*\n*/017.5".toList →
                Grammar.numberAt token.span state = .ok (.signed false magnitude) state := by
  have read
      : (Token.read? "é/*\n*/017.5".toList .regex 2).map (fun token => (token.kind, token.span))
        = some (.literalNumber, ⟨7, 10⟩) := by
    decide +kernel
  obtain ⟨token, read, same⟩ := Option.map_eq_some_iff.mp read
  obtain ⟨isNumber, span⟩ := Prod.mk.inj same
  exact ⟨token, read, isNumber, by rw [span]; rfl, Token.exists_hasValue read isNumber⟩

-----------------------------------------------------------------------------------------
-- Texts with values
-----------------------------------------------------------------------------------------

/-- The text is one number token and nothing else. -/
def Text.IsNumberLiteral (mode : LexMode) (text : List Char) : Prop :=
  Token.read? text mode 0
    = some
        {
          kind := .literalNumber
          span :=
            {
              start := 0
              stop := size text
            }
          afterNewline := false
        }

instance (mode : LexMode) (text : List Char) : Decidable (Text.IsNumberLiteral mode text) :=
  inferInstanceAs (Decidable (_ = _))

/-- What a number begins with begins no trivia. -/
theorem Trivia.stops_of_opensNumber {c : Char} (opens : Scan.OpensNumber c rest) : Stops (c :: rest) := by
  refine stops_cons.mpr ⟨?_, ?_⟩
  · rw [← Bool.not_eq_true]
    intro spacing
    rcases opens with digit | ⟨rfl, _⟩
    · rw [Scan.isDigit_of_spacing spacing] at digit
      cases digit
    · exact (Scan.ne_of_spacing spacing).2.1 rfl
  · rintro rfl
    exact absurd (opens.imp_right And.left) (by decide)

/-- The texts that are one number token are the number literals, whatever the mode. -/
theorem Text.isNumberLiteral_iff : IsNumberLiteral mode text ↔ ∃ form, IsNumber form text := by
  constructor
  · intro read
    obtain ⟨front, gap, part, rest, lies, _, isNumber⟩ := Token.exists_isNumber read rfl
    have start := lies.start_eq
    have stop := lies.stop_eq
    have whole := congrArg size lies.source_eq
    simp only [size_append] at start stop whole
    obtain rfl : front = [] := size_eq_zero.mp (by omega)
    obtain rfl : gap = [] := size_eq_zero.mp (by omega)
    obtain rfl : rest = [] := size_eq_zero.mp (by omega)
    obtain rfl : text = part := by simpa using lies.source_eq
    exact ⟨_, isNumber⟩
  · rintro ⟨form, isNumber⟩
    have scanned : Scan.token mode (text ++ []) = Scan.found .literalNumber [] := by
      rw [List.append_nil, Scan.token_of_isNumber mode isNumber]
    have stops : Trivia.Stops (text ++ []) := by
      obtain ⟨first, rest, rfl, opens⟩ := isNumber.opens
      rw [List.append_nil]
      exact Trivia.stops_of_opensNumber opens
    have cut : Text.drop? 0 text = some (text ++ []) := by rw [drop?, List.append_nil]
    simpa [IsNumberLiteral] using Token.read?_of_stops cut stops scanned

/-- A text has a value if and only if it is one number token, or a decimal number with a sign in front, or an octal
number that goes on with a fraction or with an exponent; and the latter are no number tokens.
-/
theorem Number.isSome_ofLiteral?_iff (mode : LexMode) (text : List Char)
    : ((ofLiteral? text).isSome ↔ Text.IsNumberLiteral mode text ∨ Text.IsLooseNumber text)
      ∧ ¬(Text.IsNumberLiteral mode text ∧ Text.IsLooseNumber text) := by
  rw [Text.isNumberLiteral_iff]
  refine ⟨⟨Text.isNumber_or_isLooseNumber, ?_⟩, ?_⟩
  · rintro (⟨form, isNumber⟩ | isLoose)
    · obtain ⟨magnitude, _, evaluated⟩ := isNumber.exists_value
      exact Option.isSome_of_eq_some evaluated
    · exact isLoose.isSome_ofLiteral?
  · rintro ⟨⟨form, isNumber⟩, isLoose⟩
    exact isLoose.not_isNumber isNumber

/-- A number with a sign, and an octal one with a fraction, have values and are no number tokens. -/
theorem Number.ofLiteral?_of_no_literal
    : (ofLiteral? "-1".toList).isSome
      ∧ (ofLiteral? "01.5".toList).isSome
      ∧ ∀ mode, ¬Text.IsNumberLiteral mode "-1".toList ∧ ¬Text.IsNumberLiteral mode "01.5".toList := by
  refine ⟨by decide +kernel, by decide +kernel, fun mode => ?_⟩
  cases mode <;> decide +kernel

end EcmaSyntax
