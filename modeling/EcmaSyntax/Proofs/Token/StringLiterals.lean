import EcmaSyntax.Proofs.Bytes.Decoding
import EcmaSyntax.Proofs.Bytes.Scanning
import EcmaSyntax.Proofs.Grammar.Rule
import EcmaSyntax.Proofs.Text.Numerals
import EcmaSyntax.Proofs.Text.Units
import EcmaSyntax.Proofs.Token.Quoted

/-! String literals. The lexer passes over escapes and the decoder takes them for characters, each by rules
of its own. Both take a literal apart into the same pieces, so that a literal stands for the texts of its
pieces one after the other.
-/

namespace EcmaSyntax

open Text (Writes)

-----------------------------------------------------------------------------------------
-- The pieces of a literal
-----------------------------------------------------------------------------------------

/-- The letters of the escapes for control characters. -/
def Text.controlLetters : List (Char × Char) :=
  [('b', '\x08'), ('f', '\x0C'), ('n', '\n'), ('r', '\r'), ('t', '\t'), ('v', '\x0B')]

/-- The letters that do not stand for themselves behind a backslash. -/
def Text.escapeLetters : List Char :=
  ['b', 'f', 'n', 'r', 't', 'v', 'x', 'u']

/-- What is written between the quotes of a string literal as a piece of it, and what it stands for. -/
inductive Text.IsStringPiece (quote : Char) : List Char → List Char → Prop
  | raw {c : Char} (noQuote : c ≠ quote) (noEscape : c ≠ '\\') (inLine : isLineTerminator c = false)
    : IsStringPiece quote [c] [c]
  | byteEscape {c : Char} {digits : List Char} (two : digits.length = 2)
    (writes : Writes 16 digits c.toNat)
    : IsStringPiece quote ('\\' :: 'x' :: digits) [c]
  | unitEscape {c : Char} {digits : List Char} (four : digits.length = 4)
    (writes : Writes 16 digits c.toNat)
    : IsStringPiece quote ('\\' :: 'u' :: digits) [c]
  | pairEscape {c : Char} {lead trail : List Char} (beyond : 0x10000 ≤ c.toNat)
    (four : lead.length = 4 ∧ trail.length = 4)
    (writesLead : Writes 16 lead (0xD800 + (c.toNat - 0x10000) / 0x400))
    (writesTrail : Writes 16 trail (0xDC00 + (c.toNat - 0x10000) % 0x400))
    : IsStringPiece quote ('\\' :: 'u' :: (lead ++ '\\' :: 'u' :: trail)) [c]
  | controlEscape {letter c : Char} (listed : (letter, c) ∈ controlLetters)
    : IsStringPiece quote ['\\', letter] [c]
  | selfEscape {c : Char} (noLetter : c ∉ escapeLetters)
    (noDigit : isOctalDigit c = false) (inLine : isLineTerminator c = false)
    : IsStringPiece quote ['\\', c] [c]
  | continuation {c : Char} (terminator : isLineTerminator c) : IsStringPiece quote ['\\', c] []
  | continuationPair : IsStringPiece quote ['\\', '\r', '\n'] []

/-- A piece of a string literal between the quotes. -/
structure Text.StringPiece (quote : Char) where
  spelling : List Char
  meaning : List Char
  valid : IsStringPiece quote spelling meaning

/-- The string literal of the pieces. -/
def Text.quoted {quote : Char} (pieces : List (StringPiece quote)) : List Char :=
  quote :: (pieces.flatMap StringPiece.spelling ++ [quote])

namespace Text

variable {quote c : Char} {spelling meaning digits tail : List Char} {value : Nat}

/-- Hexadecimal digits are no quotes, escapes or line terminators. -/
theorem Writes.plain (writes : Writes 16 digits value) (quotes : quote = '"' ∨ quote = '\'')
    : ∀ c ∈ digits, c ≠ quote ∧ c ≠ '\\' ∧ isLineTerminator c = false := by
  intro c member
  have digit : isHexDigit c :=
    digit_of_foldDigits? (writes.foldDigits? (by decide) (by decide)) c member
  refine ⟨?_, ?_, ?_⟩
  · rcases quotes with rfl | rfl <;>
      · rintro rfl
        cases digit
  · rintro rfl
    cases digit
  · by_contra terminator
    rw [Bool.not_eq_false] at terminator
    rw [Scan.isHexDigit_of_spacing (by simp [isSpacing, terminator])] at digit
    cases digit

/-- No piece begins with a line feed, so a carriage return in front of one ends a line continuation. -/
theorem IsStringPiece.head?_ne (piece : IsStringPiece quote spelling meaning) (tail : List Char)
    : (spelling ++ tail).head? ≠ some '\n' := by
  cases piece with
  | raw _ _ inLine =>
      rintro ⟨⟩
      cases inLine
  | _ => rintro ⟨⟩

end Text

-----------------------------------------------------------------------------------------
-- The lexer
-----------------------------------------------------------------------------------------

namespace Scan

variable {quote c : Char} {front spelling meaning rest tail : List Char}

/-- Characters without a meaning of their own are passed over. -/
theorem string_plain (plain : ∀ c ∈ front, c ≠ quote ∧ c ≠ '\\' ∧ Text.isLineTerminator c = false)
    (tail : List Char)
    : string quote (front ++ tail) = string quote tail := by
  rw [Bytes.string_append fun c member => ⟨(plain c member).2.1, (plain c member).1⟩, if_neg]
  simpa using fun c member => (plain c member).2.2

/-- A backslash and the character behind it are passed over, unless they escape a pair of line
terminators.
-/
theorem string_escape (noPair : c = '\r' → tail.head? ≠ some '\n')
    : string quote ('\\' :: c :: tail) = string quote tail := by
  rw [string]
  rintro _ rfl rfl
  exact noPair rfl rfl

/-- The lexer passes over a piece. -/
theorem string_piece (quotes : quote = '"' ∨ quote = '\'')
    (piece : Text.IsStringPiece quote spelling meaning) (noFeed : tail.head? ≠ some '\n')
    : string quote (spelling ++ tail) = string quote tail := by
  cases piece with
  | raw noQuote noEscape inLine =>
      exact string_plain (List.forall_mem_singleton.mpr ⟨noQuote, noEscape, inLine⟩) tail
  | byteEscape _ writes | unitEscape _ writes =>
      exact (string_escape (by nofun)).trans (string_plain (writes.plain quotes) tail)
  | pairEscape _ _ writesLead writesTrail =>
      rw [List.cons_append, List.cons_append, string_escape (by nofun), List.append_assoc,
        string_plain (writesLead.plain quotes)]
      exact (string_escape (by nofun)).trans (string_plain (writesTrail.plain quotes) tail)
  | controlEscape | selfEscape | continuation => exact string_escape fun _ => noFeed
  | continuationPair => simp [string]

/-- The lexer finds the end of a literal behind its pieces. -/
theorem string_pieces (quotes : quote = '"' ∨ quote = '\'') (pieces : List (Text.StringPiece quote))
    (rest : List Char)
    : string quote (pieces.flatMap Text.StringPiece.spelling ++ quote :: rest)
        = found .literalString rest
      ∧ (pieces.flatMap Text.StringPiece.spelling ++ quote :: rest).head? ≠ some '\n' := by
  induction pieces with
  | nil =>
      have noEscape : quote ≠ '\\' := by rcases quotes with rfl | rfl <;> decide
      refine ⟨?_, ?_⟩
      · rw [List.flatMap_nil, List.nil_append, string_cons noEscape, if_pos rfl]
      · rcases quotes with rfl | rfl <;> rintro ⟨⟩
  | cons piece pieces ih =>
      obtain ⟨scanned, noFeed⟩ := ih
      rw [List.flatMap_cons, List.append_assoc]
      exact ⟨(string_piece quotes piece.valid noFeed).trans scanned, piece.valid.head?_ne _⟩

end Scan

-----------------------------------------------------------------------------------------
-- The decoder
-----------------------------------------------------------------------------------------

namespace Text

variable {quote c : Char} {spelling meaning digits tail escape : List Char} {units : List UInt16}

/-- An escape is decoded, and then what follows it. -/
theorem stringUnits_escape (meant : stringEscape? (escape ++ tail) = some (escape.length, units))
    (offset : Nat)
    : stringUnits 0 offset ('\\' :: (escape ++ tail))
      = (stringUnits 0 (offset + size ('\\' :: escape)) tail).map (units ++ ·) := by
  rw [stringUnits, if_pos rfl, meant]
  dsimp only
  rw [Bytes.stringUnits_drop, List.take_left, List.drop_left, size_cons, Nat.add_assoc]

/-- The digits of an escape give the number that they write. -/
theorem hexEscape?_of_writes {count value : Nat} (length : digits.length = count)
    (writes : Writes 16 digits value) (tail : List Char)
    : hexEscape? count (digits ++ tail) = some value.toUInt16 := by
  subst length
  rw [hexEscape?, if_pos (by simp), List.take_left, writes.digitsValue? (by decide) (by decide),
    Option.map_some]

/-- Four digits after `u` write a unit. -/
theorem stringUnits_unitEscape {value : Nat} (four : digits.length = 4)
    (writes : Writes 16 digits value) (offset : Nat) (tail : List Char)
    : stringUnits 0 offset ('\\' :: 'u' :: (digits ++ tail))
      = (stringUnits 0 (offset + size ('\\' :: 'u' :: digits)) tail).map ([value.toUInt16] ++ ·) := by
  have meant
      : stringEscape? ('u' :: digits ++ tail) = some (('u' :: digits).length, [value.toUInt16]) := by
    simp [stringEscape?, hexEscape?_of_writes four writes, four]
  exact stringUnits_escape meant offset

theorem encodeUnits_singleton (c : Char) : encodeUnits [c] = unitsOfChar c :=
  List.append_nil _

/-- A character up to U+FFFF is one unit. -/
theorem encodeUnits_small (small : c.toNat < 0x10000) : encodeUnits [c] = [c.toNat.toUInt16] := by
  rw [encodeUnits_singleton, unitsOfChar, if_pos small]

/-- Two units that are a pair of surrogates are the units of one character. -/
theorem stringUnits_pairEscape {lead trail : List Char} (beyond : 0x10000 ≤ c.toNat)
    (four : lead.length = 4 ∧ trail.length = 4)
    (writesLead : Writes 16 lead (0xD800 + (c.toNat - 0x10000) / 0x400))
    (writesTrail : Writes 16 trail (0xDC00 + (c.toNat - 0x10000) % 0x400)) (offset : Nat)
    (tail : List Char)
    : stringUnits 0 offset ('\\' :: 'u' :: (lead ++ '\\' :: 'u' :: (trail ++ tail)))
      = (stringUnits 0 (offset + size ('\\' :: 'u' :: (lead ++ '\\' :: 'u' :: trail))) tail).map
          (encodeUnits [c] ++ ·) := by
  have units_eq
      : encodeUnits [c]
        = [(0xD800 + (c.toNat - 0x10000) / 0x400).toUInt16,
            (0xDC00 + (c.toNat - 0x10000) % 0x400).toUInt16] := by
    rw [encodeUnits_singleton, unitsOfChar, if_neg (Nat.not_lt.mpr beyond)]
  have offset_eq
      : offset + size ('\\' :: 'u' :: lead) + size ('\\' :: 'u' :: trail)
        = offset + size ('\\' :: 'u' :: (lead ++ '\\' :: 'u' :: trail)) := by
    simp only [size_cons, size_append]
    omega
  rw [stringUnits_unitEscape four.1 writesLead, stringUnits_unitEscape four.2 writesTrail, offset_eq,
    units_eq]
  cases stringUnits 0 _ tail <;> rfl

/-- No letter of an escape ends a line. -/
theorem not_letter_of_isLineTerminator (terminator : isLineTerminator c) : c ∉ escapeLetters := by
  have letters : escapeLetters.all (fun letter => !isLineTerminator letter) := by decide
  intro member
  simpa [terminator] using List.all_eq_true.mp letters c member

/-- A character without a meaning of its own, unless it is a digit or one of the letters, is escaped as
itself or ends a line.
-/
theorem stringEscape?_plain (noLetter : c ∉ escapeLetters)
    (noPair : c = '\r' → tail.head? ≠ some '\n')
    : stringEscape? (c :: tail)
      = if isLineTerminator c then some (1, [])
        else if isOctalDigit c then
          (octalEscape? (c :: tail)).map fun (value, length) => (length, [value.toUInt16])
        else some (1, unitsOfChar c) := by
  simp only [escapeLetters, List.mem_cons, List.not_mem_nil, or_false, not_or] at noLetter
  rw [stringEscape?]
  case x_1 =>
    rintro rest rfl rfl
    exact noPair rfl rfl
  all_goals simp_all

/-- The decoder takes a piece for the units of its text. -/
theorem stringUnits_piece (piece : IsStringPiece quote spelling meaning)
    (noFeed : tail.head? ≠ some '\n') (offset : Nat)
    : stringUnits 0 offset (spelling ++ tail)
      = (stringUnits 0 (offset + size spelling) tail).map (encodeUnits meaning ++ ·) := by
  cases piece with
  | @raw c _ noEscape =>
      rw [List.singleton_append, stringUnits, if_neg noEscape, encodeUnits_singleton]
      rfl
  | @byteEscape c digits two writes =>
      have small := writes.lt (by decide) (by decide)
      rw [two] at small
      rw [encodeUnits_small (by omega)]
      have meant
          : stringEscape? ('x' :: digits ++ tail)
            = some (('x' :: digits).length, [c.toNat.toUInt16]) := by
        simp [stringEscape?, hexEscape?_of_writes two writes, two]
      exact stringUnits_escape meant offset
  | @unitEscape c digits four writes =>
      have small := writes.lt (by decide) (by decide)
      rw [four] at small
      rw [encodeUnits_small small]
      exact stringUnits_unitEscape four writes offset tail
  | @pairEscape c lead trail beyond four writesLead writesTrail =>
      rw [List.cons_append, List.cons_append, List.append_assoc, List.cons_append, List.cons_append]
      exact stringUnits_pairEscape beyond four writesLead writesTrail offset tail
  | @controlEscape letter c listed =>
      have meant : stringEscape? ([letter] ++ tail) = some ([letter].length, encodeUnits [c]) := by
        simp only [controlLetters, List.mem_cons, Prod.mk.injEq, List.not_mem_nil, or_false] at listed
        obtain ⟨rfl, rfl⟩ | ⟨rfl, rfl⟩ | ⟨rfl, rfl⟩ | ⟨rfl, rfl⟩ | ⟨rfl, rfl⟩ | ⟨rfl, rfl⟩ := listed
        all_goals rfl
      exact stringUnits_escape meant offset
  | @selfEscape c noLetter noDigit inLine =>
      have noPair : c = '\r' → tail.head? ≠ some '\n' := fun _ => noFeed
      have meant : stringEscape? ([c] ++ tail) = some ([c].length, unitsOfChar c) := by
        rw [List.singleton_append, stringEscape?_plain noLetter noPair, if_neg (by simp [inLine]),
          if_neg (by simp [noDigit])]
        rfl
      rw [encodeUnits_singleton]
      exact stringUnits_escape meant offset
  | @continuation c terminator =>
      have noPair : c = '\r' → tail.head? ≠ some '\n' := fun _ => noFeed
      have noLetter := not_letter_of_isLineTerminator terminator
      have meant : stringEscape? ([c] ++ tail) = some ([c].length, []) := by
        rw [List.singleton_append, stringEscape?_plain noLetter noPair, if_pos terminator]
        rfl
      exact stringUnits_escape meant offset
  | continuationPair =>
      have meant : stringEscape? (['\r', '\n'] ++ tail) = some (['\r', '\n'].length, []) := rfl
      exact stringUnits_escape meant offset

/-- No row of pieces begins with a line feed. -/
theorem head?_pieces (pieces : List (StringPiece quote))
    : (pieces.flatMap StringPiece.spelling).head? ≠ some '\n' := by
  cases pieces with
  | nil => nofun
  | cons piece pieces => exact piece.valid.head?_ne _

/-- The decoder takes the pieces one after the other. -/
theorem stringUnits_pieces (pieces : List (StringPiece quote)) (offset : Nat)
    : stringUnits 0 offset (pieces.flatMap StringPiece.spelling)
      = .ok (encodeUnits (pieces.flatMap StringPiece.meaning)) := by
  induction pieces generalizing offset with
  | nil => rfl
  | cons piece pieces ih =>
      rw [List.flatMap_cons, List.flatMap_cons,
        stringUnits_piece piece.valid (head?_pieces pieces), ih, encodeUnits, encodeUnits, encodeUnits,
        List.flatMap_append]
      rfl

end Text

/-- A string literal of any pieces is read in both modes as one token over all of it, which stands for the
texts of the pieces one after the other.
-/
theorem Script.reads_string {script : Script} {quote : Char} {offset : Nat} {rest : List Char}
    (quotes : quote = '"' ∨ quote = '\'') (pieces : List (Text.StringPiece quote)) (mode : LexMode)
    (cut : Text.drop? offset script.source = some (Text.quoted pieces ++ rest))
    : ∃ token,
        script.Reads mode offset token
        ∧ token.kind = .literalString
        ∧ token.span
          = {
              start := offset
              stop := offset + Text.size (Text.quoted pieces)
            }
        ∧ script.stringOf? token = some (String.ofList (pieces.flatMap Text.StringPiece.meaning)) := by
  have scanned
      : Scan.token mode (Text.quoted pieces ++ rest) = Scan.found .literalString rest := by
    rw [Text.quoted, List.cons_append, List.append_assoc]
    exact (Scan.Scans.string quotes).eq_token.trans (Scan.string_pieces quotes pieces rest).1
  have stops : Trivia.Stops (Text.quoted pieces ++ rest) := by
    rcases quotes with rfl | rfl <;> exact Trivia.stops_cons.mpr ⟨by decide, nofun⟩
  refine ⟨_, Token.read?_of_stops cut stops scanned, rfl, rfl, ?_⟩
  rw [stringOf?, script.textOf_of_drop? cut, Text.quoted, Text.unquote?_quoted quotes]
  simp only [Option.bind_some, Text.decodeString, Text.stringUnits_pieces pieces]
  simp [Except.map, Except.toOption, Text.decodeUnits_encodeUnits]

/-- A character beyond ASCII, a pair of surrogates between letters of either case, escaped quotes and line
breaks, and the other quote.
-/
theorem Script.reads_string_escapes
    : ('"' = '"' ∨ '"' = '\'')
      ∧ Text.drop? 1 "(\"é\\\"\\x4A\\uD83d\\ude00\\n\\\u2028\\\r\n'\"+1".toList
          = some "\"é\\\"\\x4A\\uD83d\\ude00\\n\\\u2028\\\r\n'\"+1".toList
      ∧ ∃ token,
          Script.Reads
              {
                source := "(\"é\\\"\\x4A\\uD83d\\ude00\\n\\\u2028\\\r\n'\"+1".toList
                dialect := .js
              }
              .standard 1 token
          ∧ token.kind = .literalString
          ∧ token.span
            = {
                start := 1
                stop := 33
              }
          ∧ Script.stringOf?
                {
                  source := "(\"é\\\"\\x4A\\uD83d\\ude00\\n\\\u2028\\\r\n'\"+1".toList
                  dialect := .js
                }
                token
            = some "é\"J😀\n'" := by
  have cut
      : Text.drop? 1 "(\"é\\\"\\x4A\\uD83d\\ude00\\n\\\u2028\\\r\n'\"+1".toList
        = some "\"é\\\"\\x4A\\uD83d\\ude00\\n\\\u2028\\\r\n'\"+1".toList := by
    decide
  obtain ⟨token, read, kind, span, text⟩ :=
    @reads_string ⟨"(\"é\\\"\\x4A\\uD83d\\ude00\\n\\\u2028\\\r\n'\"+1".toList, .js⟩ '"' 1
      "+1".toList (.inl rfl)
      [⟨['é'], ['é'], .raw (by decide) (by decide) (by decide)⟩,
        ⟨['\\', '"'], ['"'], .selfEscape (by decide) (by decide) (by decide)⟩,
        ⟨['\\', 'x', '4', 'A'], ['J'], .byteEscape rfl ⟨0, by decide⟩⟩,
        ⟨['\\', 'u', 'D', '8', '3', 'd', '\\', 'u', 'd', 'e', '0', '0'], ['😀'],
          @Text.IsStringPiece.pairEscape '"' '😀' ['D', '8', '3', 'd'] ['d', 'e', '0', '0'] (by decide)
            ⟨rfl, rfl⟩ ⟨0, by decide⟩ ⟨0, by decide⟩⟩,
        ⟨['\\', 'n'], ['\n'], .controlEscape (by decide)⟩,
        ⟨['\\', '\u2028'], [], .continuation (by decide)⟩,
        ⟨['\\', '\r', '\n'], [], .continuationPair⟩,
        ⟨['\''], ['\''], .raw (by decide) (by decide) (by decide)⟩]
      .standard cut
  exact ⟨.inl rfl, cut, token, read, kind, span.trans (by decide), text⟩

end EcmaSyntax
