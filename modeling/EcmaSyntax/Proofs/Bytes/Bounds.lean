import EcmaSyntax.Proofs.Bytes.Decoding
import EcmaSyntax.Proofs.Bytes.Stream
import EcmaSyntax.Proofs.Grammar.Settling.Program

/-! Nothing that is done with a source text looks outside of it. What the grammar cuts out of the source and
where it reads tokens can be cut out and read; the lexer, the decoders of literals and names and the
table of lines, each of them by byte offsets, always have a result, which is that on characters; and
errors lie within the source.
-/

namespace EcmaSyntax.Bytes

-----------------------------------------------------------------------------------------
-- Precedences
-----------------------------------------------------------------------------------------

/-- The precedence for the operand on the right, which may be one more than that of the operator, is a
byte. -/
theorem rightPrecedence_lt (operator : Operator) : operator.rightPrecedence < UInt8.size := by
  cases operator <;> decide

-----------------------------------------------------------------------------------------
-- All that is done with a source
-----------------------------------------------------------------------------------------

/-- What is done with a source stays within it. Parsing has a fault as its outcome if a cut of the source or
a look into the buffer fails, and has none here; the lexer, the decoders and the table of lines, by byte
offsets, have what the ones on characters have; no operator is missing from its table; and errors lie
within the source.
-/
structure StaysWithin (source : List Char) (dialect : Dialect) : Prop where
  parses
    : ∃ outcome : Except SyntaxError Program,
        Program.parse source dialect = outcome.mapError .rejected
        ∧ ∀ error, outcome = .error error → error.span.Within source
  tokenizes
    : ∃ outcome : Except SyntaxError (List Token),
        tokenize source = some outcome
        ∧ EcmaSyntax.tokenize source = outcome.mapError .rejected
        ∧ ∀ error, outcome = .error error → error.span.Within source
  lexes
    : ∀ mode offset,
        Lexing.lexNext mode source offset
        = (Token.read? source mode offset).map fun token => (.ok token, token.span.stop)
  locates : ∀ offset, position source offset = some (Position.ofOffset source offset)
  strings : ∀ body, decodeString body = some (Text.decodeString body)
  names : ∀ raw, decodeName raw = some (Text.decodeName raw)
  numbers : ∀ raw, numberOf raw = some (Number.ofLiteral? raw)
  operators
    : (Operator.table.map Prod.fst).Nodup
      ∧ ∀ operator : Operator,
          Operator.table.lookup operator = some (operator.precedence, operator.associativity)
          ∧ operator.rightPrecedence < UInt8.size

/-- A text is parsed, or rejected for something within it. -/
theorem parse_within (source : List Char) (dialect : Dialect)
    : ∃ outcome : Except SyntaxError Program,
        Program.parse source dialect = outcome.mapError .rejected
        ∧ ∀ error, outcome = .error error → error.span.Within source := by
  obtain ⟨program, parsed⟩ | ⟨error, rejected, blames⟩ := Program.parse_or_blames source dialect
  · refine ⟨.ok program, parsed, ?_⟩
    rintro error ⟨⟩
  · refine ⟨.error (error.locate source), rejected, ?_⟩
    rintro _ ⟨⟩
    exact blames.within

/-- Every source in every dialect is parsed and split into tokens without a look outside of it. -/
theorem staysWithin (source : List Char) (dialect : Dialect) : StaysWithin source dialect where
  parses := parse_within source dialect
  tokenizes := tokenize_eq source
  lexes := lexNext_eq_read? source
  locates := position_eq source
  strings := decodeString_eq
  names := decodeName_eq
  numbers := numberOf_eq
  operators :=
    ⟨Operator.nodup_table, fun operator => ⟨Operator.lookup_table operator, rightPrecedence_lt operator⟩⟩

end EcmaSyntax.Bytes
