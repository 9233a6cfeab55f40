import EcmaSyntax.Proofs.Bytes.Scanning
import EcmaSyntax.Proofs.Bytes.Search
import EcmaSyntax.Proofs.Token.LongestMatch

/-! Which scanner reads a token. The longest pattern at the beginning of the text decides, and for a
reserved word also the character behind it.
-/

namespace EcmaSyntax.Bytes

open Text (size)

/-- The ASCII characters that may open an identifier. -/
def asciiStarts : List Char :=
  "$ABCDEFGHIJKLMNOPQRSTUVWXYZ_abcdefghijklmnopqrstuvwxyz".toList

/-- The ASCII characters that may stand in an identifier. -/
def asciiParts : List Char :=
  "$0123456789ABCDEFGHIJKLMNOPQRSTUVWXYZ_abcdefghijklmnopqrstuvwxyz".toList

def digits : List Char :=
  "0123456789".toList

/-- A reserved word, and the identifiers that have one more character. -/
def wordPatterns (entry : Kind × String) : Patterns Kind :=
  (entry.1, entry.2.toList)
    :: (asciiParts.filter fun c => (wordKind? (entry.2.toList ++ [c])).isNone).map fun c =>
        (.identifier, entry.2.toList ++ [c])

/-- What tokens begin with. -/
def tokenPatterns : Patterns Kind :=
  (punctuators.map fun entry => (entry.1, entry.2.toList))
  ++ reservedWords.flatMap wordPatterns
  ++ (asciiStarts.map fun c => (.identifier, [c]))
  ++ (.identifier, ['\\'])
  :: (digits.map fun c => (.literalNumber, [c]))
  ++ [(.literalNumberHex, ['0', 'x']), (.literalNumberHex, ['0', 'X'])]
  ++ (digits.map fun c => (.literalNumber, ['.', c]))
  ++ [(.literalString, ['"']), (.literalString, ['\''])]

namespace Lexing

/-- A word goes on after so many bytes. -/
def continuesWord (width : Nat) : Lexing Bool := do
  let start ← offset
  let text ← present (Text.drop? (start + width) (← source))
  return text.head?.any fun c => c = '\\' || !Text.isAscii c && Text.isIdentifierPart c

/-- A token of the kind with so many bytes. -/
def take (kind : Kind) (width : Nat) : Lexing Kind := do
  advance width
  return kind

/-- The token that begins with a pattern of the kind. -/
def tokenOf (mode : LexMode) (kind : Kind) (width : Nat) : Lexing Kind :=
  match kind with
  | .identifier => identifier
  | .literalNumber => number
  | .literalNumberHex => hexNumber
  | .literalString => string
  | .slash | .slashEquals => if mode = .regex then regex else take kind width
  | _ =>
      if kind.isWord then do
        if ← continuesWord width then identifier else take kind width
      else
        take kind width

/-- The next token. No pattern opens an identifier that begins beyond ASCII. -/
def token (mode : LexMode) : Lexing Kind := do
  if (← peek).any fun c => !Text.isAscii c && Text.isIdentifierStart c then
    identifier
  else
    match ← opening tokenPatterns with
    | none => fail .unexpectedCharacter
    | some (kind, width) => tokenOf mode kind width

end Lexing

variable {source text rest : List Char} {c : Char} {kind : Kind}

-----------------------------------------------------------------------------------------
-- The patterns
-----------------------------------------------------------------------------------------

/-- The patterns, by what they are. -/
inductive IsTokenPattern : Kind × List Char → Prop
  | punctuator {entry : Kind × String} (listed : entry ∈ punctuators)
    : IsTokenPattern (entry.1, entry.2.toList)
  | word {entry : Kind × String} (listed : entry ∈ reservedWords)
    : IsTokenPattern (entry.1, entry.2.toList)
  | longer {entry : Kind × String} {c : Char} (listed : entry ∈ reservedWords)
    (part : Text.asciiPartSet.contains c) (noWord : wordKind? (entry.2.toList ++ [c]) = none)
    : IsTokenPattern (.identifier, entry.2.toList ++ [c])
  | start {c : Char} (isStart : Text.asciiStartSet.contains c) : IsTokenPattern (.identifier, [c])
  | escape : IsTokenPattern (.identifier, ['\\'])
  | digit {c : Char} (isDigit : Text.isDigit c) : IsTokenPattern (.literalNumber, [c])
  | hex {marker : Char} (marked : marker = 'x' ∨ marker = 'X')
    : IsTokenPattern (.literalNumberHex, ['0', marker])
  | fraction {c : Char} (isDigit : Text.isDigit c) : IsTokenPattern (.literalNumber, ['.', c])
  | quote {c : Char} (quotes : c = '"' ∨ c = '\'') : IsTokenPattern (.literalString, [c])

/-- A property of ASCII characters can be checked on each of them. -/
theorem forall_ascii {p : Char → Prop} (all : ∀ code < 128, p (Char.ofNat code))
    (isAscii : Text.isAscii c)
    : p c := by
  simp only [Text.isAscii, decide_eq_true_eq] at isAscii
  have here := all c.toNat isAscii
  rwa [Char.ofNat_toNat] at here

/-- The listed bytes are the ASCII characters that a name goes on with. -/
theorem mem_asciiParts : c ∈ asciiParts ↔ Text.asciiPartSet.contains c := by
  constructor
  · intro member
    have all : asciiParts.all Text.asciiPartSet.contains := by decide
    exact List.all_eq_true.mp all c member
  · intro part
    refine forall_ascii (p := fun c => Text.asciiPartSet.contains c → c ∈ asciiParts) ?_
      (isAscii_of_asciiPart part) part
    decide

theorem asciiPart_of_asciiStart (isStart : Text.asciiStartSet.contains c)
    : Text.asciiPartSet.contains c := by
  simp only [Text.asciiPartSet, Text.CharSet.contains, Text.CharSet.addInterval, Text.inIntervals,
    List.any_cons] at isStart ⊢
  rw [isStart, Bool.or_true]

/-- The listed bytes are the ASCII characters that a name begins with. -/
theorem mem_asciiStarts : c ∈ asciiStarts ↔ Text.asciiStartSet.contains c := by
  constructor
  · intro member
    have all : asciiStarts.all Text.asciiStartSet.contains := by decide
    exact List.all_eq_true.mp all c member
  · intro isStart
    refine forall_ascii (p := fun c => Text.asciiStartSet.contains c → c ∈ asciiStarts) ?_
      (isAscii_of_asciiPart (asciiPart_of_asciiStart isStart)) isStart
    decide

/-- The listed bytes are the digits. -/
theorem mem_digits : c ∈ digits ↔ Text.isDigit c := by
  constructor
  · intro member
    have all : digits.all Text.isDigit := by decide
    exact List.all_eq_true.mp all c member
  · intro isDigit
    have range := Text.isDigit_iff.mp isDigit
    refine forall_ascii (p := fun c => Text.isDigit c → c ∈ digits) ?_ ?_ isDigit
    · decide
    · simp only [Text.isAscii, decide_eq_true_eq]
      omega

/-- The patterns are the reserved words with what may follow them, the punctuators, and the openings of
literals, comments and names.
-/
theorem mem_tokenPatterns {entry : Kind × List Char}
    : entry ∈ tokenPatterns ↔ IsTokenPattern entry := by
  simp only [tokenPatterns, List.mem_append, List.mem_cons, List.mem_map, List.mem_flatMap,
    wordPatterns, List.mem_filter, Option.isNone_iff_eq_none, mem_asciiParts, mem_asciiStarts,
    mem_digits, List.not_mem_nil, or_false]
  constructor
  · rintro ((((((⟨listed, among, rfl⟩ | ⟨word, among, rfl | ⟨c, ⟨part, noWord⟩, rfl⟩⟩) | ⟨c, isStart, rfl⟩)
      | rfl | ⟨c, isDigit, rfl⟩) | rfl | rfl) | ⟨c, isDigit, rfl⟩) | rfl | rfl)
    · exact .punctuator among
    · exact .word among
    · exact .longer among part noWord
    · exact .start isStart
    · exact .escape
    · exact .digit isDigit
    · exact .hex (.inl rfl)
    · exact .hex (.inr rfl)
    · exact .fraction isDigit
    · exact .quote (.inl rfl)
    · exact .quote (.inr rfl)
  · intro pattern
    cases pattern with
    | punctuator listed => exact .inl (.inl (.inl (.inl (.inl (.inl ⟨_, listed, rfl⟩)))))
    | word listed => exact .inl (.inl (.inl (.inl (.inl (.inr ⟨_, listed, .inl rfl⟩)))))
    | longer listed part noWord =>
        exact .inl (.inl (.inl (.inl (.inl (.inr ⟨_, listed, .inr ⟨_, ⟨part, noWord⟩, rfl⟩⟩)))))
    | start isStart => exact .inl (.inl (.inl (.inl (.inr ⟨_, isStart, rfl⟩))))
    | escape => exact .inl (.inl (.inl (.inr (.inl rfl))))
    | digit isDigit => exact .inl (.inl (.inl (.inr (.inr ⟨_, isDigit, rfl⟩))))
    | hex marked =>
        rcases marked with rfl | rfl
        · exact .inl (.inl (.inr (.inl rfl)))
        · exact .inl (.inl (.inr (.inr rfl)))
    | fraction isDigit => exact .inl (.inr ⟨_, isDigit, rfl⟩)
    | quote quotes =>
        rcases quotes with rfl | rfl
        · exact .inr (.inl rfl)
        · exact .inr (.inr rfl)

-----------------------------------------------------------------------------------------
-- Their first characters
-----------------------------------------------------------------------------------------

/-- How patterns begin, so that those of different kinds cannot open the same text. -/
inductive Opening where
  | letter
  | digit
  | escape
  | quote
  | other
  deriving DecidableEq, Repr

def openingOf (c : Char) : Opening :=
  if Text.asciiStartSet.contains c then .letter
  else if Text.isDigit c then .digit
  else if c = '\\' then .escape
  else if c = '"' || c = '\'' then .quote
  else .other

theorem openingOf_start (isStart : Text.asciiStartSet.contains c) : openingOf c = .letter := by
  rw [openingOf, if_pos isStart]

theorem openingOf_digit (isDigit : Text.isDigit c) : openingOf c = .digit := by
  have noStart : ¬Text.asciiStartSet.contains c = true := by
    intro isStart
    have ascii := isAscii_of_asciiPart (asciiPart_of_asciiStart isStart)
    have start : Text.isIdentifierStart c = true := by
      rw [Text.isIdentifierStart, if_pos ascii, isStart]
    exact Text.not_isIdentifierStart_of_digit isDigit start
  rw [openingOf, if_neg noStart, if_pos isDigit]

theorem head?_of_front {front : List Char} (opens : front <+: c :: rest) (present : front ≠ [])
    : front.head? = some c := by
  obtain ⟨d, others, rfl⟩ := List.exists_cons_of_ne_nil present
  rw [(List.cons_prefix_cons.mp opens).1, List.head?_cons]

/-- No punctuator begins like a name or a number. -/
theorem openingOf_punctuator {entry : Kind × String} (listed : entry ∈ punctuators)
    (opens : entry.2.toList <+: c :: rest)
    : openingOf c = .other := by
  have all : ∀ entry ∈ punctuators, entry.2.toList.head?.map openingOf = some .other := by decide
  have first := all entry listed
  rw [head?_of_front opens (spelling_ne_nil entry listed)] at first
  exact Option.some.inj first

/-- Reserved words have two letters at least, and nothing but letters. -/
theorem letters_of_word {entry : Kind × String} (listed : entry ∈ reservedWords)
    : 2 ≤ entry.2.toList.length ∧ ∀ c ∈ entry.2.toList, Text.asciiStartSet.contains c := by
  have all
      : ∀ entry ∈ reservedWords,
          2 ≤ entry.2.toList.length ∧ entry.2.toList.all Text.asciiStartSet.contains := by
    decide
  obtain ⟨long, letters⟩ := all entry listed
  exact ⟨long, List.all_eq_true.mp letters⟩

/-- Reserved words begin like names. -/
theorem openingOf_word {entry : Kind × String} {more : List Char} (listed : entry ∈ reservedWords)
    (opens : entry.2.toList ++ more <+: c :: rest)
    : openingOf c = .letter := by
  obtain ⟨long, letters⟩ := letters_of_word listed
  cases spelled : entry.2.toList with
  | nil => simp [spelled] at long
  | cons d others =>
      rw [spelled] at opens letters
      obtain ⟨rfl, _⟩ := List.cons_prefix_cons.mp opens
      exact openingOf_start (letters d List.mem_cons_self)

/-- The patterns that open a text, by the first character of the text. -/
inductive Opens (c : Char) (rest : List Char) : Kind × List Char → Prop
  | punctuator {entry : Kind × String} (opening : openingOf c = .other) (listed : entry ∈ punctuators)
    : Opens c rest (entry.1, entry.2.toList)
  | word {entry : Kind × String} (opening : openingOf c = .letter) (listed : entry ∈ reservedWords)
    : Opens c rest (entry.1, entry.2.toList)
  | longer {entry : Kind × String} {d : Char} (opening : openingOf c = .letter)
    (listed : entry ∈ reservedWords) (part : Text.asciiPartSet.contains d)
    (noWord : wordKind? (entry.2.toList ++ [d]) = none)
    : Opens c rest (.identifier, entry.2.toList ++ [d])
  | start (opening : openingOf c = .letter) : Opens c rest (.identifier, [c])
  | escape (opening : openingOf c = .escape) : Opens c rest (.identifier, [c])
  | digit (opening : openingOf c = .digit) : Opens c rest (.literalNumber, [c])
  | hex {marker : Char} (opening : openingOf c = .digit) (marked : marker = 'x' ∨ marker = 'X')
    (zero : c = '0') (next : rest.head? = some marker)
    : Opens c rest (.literalNumberHex, [c, marker])
  | fraction {d : Char} (opening : openingOf c = .other) (isDigit : Text.isDigit d) (point : c = '.')
    (next : rest.head? = some d)
    : Opens c rest (.literalNumber, [c, d])
  | quote (opening : openingOf c = .quote) : Opens c rest (.literalString, [c])

/-- A pattern that matches tells what the first character is. -/
theorem IsTokenPattern.opens {entry : Kind × List Char} (pattern : IsTokenPattern entry)
    (opens : entry.2 <+: c :: rest)
    : Opens c rest entry := by
  have pair {first second : Char} (opens : [first, second] <+: c :: rest)
      : first = c ∧ rest.head? = some second := by
    obtain ⟨tail, same⟩ := opens
    obtain ⟨rfl, rfl⟩ := List.cons.inj same
    exact ⟨rfl, rfl⟩
  cases pattern with
  | punctuator listed => exact .punctuator (openingOf_punctuator listed opens) listed
  | @word entry listed =>
      have whole : entry.2.toList ++ [] <+: c :: rest := by rwa [List.append_nil]
      exact .word (openingOf_word listed whole) listed
  | longer listed part noWord => exact .longer (openingOf_word listed opens) listed part noWord
  | start isStart =>
      obtain rfl := singleton_prefix_cons.mp opens
      exact .start (openingOf_start isStart)
  | escape =>
      obtain rfl := singleton_prefix_cons.mp opens
      exact .escape (by decide)
  | digit isDigit =>
      obtain rfl := singleton_prefix_cons.mp opens
      exact .digit (openingOf_digit isDigit)
  | hex marked =>
      obtain ⟨rfl, next⟩ := pair opens
      exact .hex (by decide) marked rfl next
  | fraction isDigit =>
      obtain ⟨rfl, next⟩ := pair opens
      exact .fraction (by decide) isDigit rfl next
  | quote quotes =>
      obtain rfl := singleton_prefix_cons.mp opens
      exact .quote (by rcases quotes with rfl | rfl <;> decide)

/-- The pattern is found if no other one that opens the text is as long. -/
theorem longestAt_tokenPatterns {entry : Kind × List Char} (pattern : IsTokenPattern entry)
    (opens : entry.2 <+: c :: rest)
    (longest
      : ∀ other,
          other.2 <+: c :: rest →
            Opens c rest other → other = entry ∨ other.2.length < entry.2.length)
    : longestAt tokenPatterns (ofText (c :: rest)) = some entry :=
  longestAt_eq_some (mem_tokenPatterns.mpr pattern) opens fun other member alsoOpens =>
    longest other alsoOpens ((mem_tokenPatterns.mp member).opens alsoOpens)

-----------------------------------------------------------------------------------------
-- Tokens that no letter opens
-----------------------------------------------------------------------------------------

/-- An ASCII character goes on with what the longest pattern there says. -/
theorem Gives.token_of_opening {mode : LexMode} {entry : Kind × List Char}
    {result : Except Cause Kind} {after : List Char}
    (inAscii : (!Text.isAscii c && Text.isIdentifierStart c) = false)
    (found : longestAt tokenPatterns (ofText (c :: rest)) = some entry)
    (further : Gives source (Lexing.tokenOf mode entry.1 (size entry.2)) (c :: rest) result after)
    : Gives source (Lexing.token mode) (c :: rest) result after := by
  have opening := Gives.opening source tokenPatterns (c :: rest)
  rw [found] at opening
  refine (Gives.peek _).bind ?_
  rw [List.head?_cons, Option.any_some, inAscii, if_neg Bool.false_ne_true]
  exact opening.bind further

/-- An escape opens an identifier. -/
theorem Gives.token_escape (mode : LexMode) (rest : List Char)
    : Yields source (Lexing.token mode) ('\\' :: rest) (Scan.escapedIdentifier ('\\' :: rest)) := by
  refine .token_of_opening (by decide) (longestAt_tokenPatterns .escape ⟨rest, rfl⟩ ?_)
    (.escapedIdentifier rest)
  intro other _ opens
  have opening : openingOf '\\' = .escape := by decide
  cases opens with
  | escape => exact .inl rfl
  | punctuator other | word other | longer other | start other | digit other | hex other
  | fraction other | quote other => rw [opening] at other; cases other

/-- A quote opens a string. -/
theorem Gives.token_quote (mode : LexMode) (quotes : c = '"' ∨ c = '\'') (rest : List Char)
    : Yields source (Lexing.token mode) (c :: rest) (Scan.string c rest) := by
  have opening : openingOf c = .quote := by rcases quotes with rfl | rfl <;> decide
  have isAscii : Text.isAscii c := by rcases quotes with rfl | rfl <;> decide
  refine .token_of_opening (by simp [isAscii]) (longestAt_tokenPatterns (.quote quotes) ⟨rest, rfl⟩ ?_)
    (.string isAscii rest)
  intro other _ opens
  cases opens with
  | quote => exact .inl rfl
  | punctuator other | word other | longer other | start other | digit other | hex other
  | fraction other | escape other => rw [opening] at other; cases other

/-- Digits open a number, also after a point. -/
theorem Gives.token_number (mode : LexMode) (number : Scan.OpensNumber c rest)
    (decimal : c = '0' → rest.head? ≠ some 'x' ∧ rest.head? ≠ some 'X')
    : Yields source (Lexing.token mode) (c :: rest) (Scan.number (c :: rest)) := by
  rcases number with isDigit | ⟨rfl, next⟩
  · have opening := openingOf_digit isDigit
    have noStart := Text.not_isIdentifierStart_of_digit isDigit
    refine .token_of_opening (by simp [noStart])
      (longestAt_tokenPatterns (.digit isDigit) ⟨rest, rfl⟩ ?_) (.number _)
    intro other _ opens
    cases opens with
    | digit => exact .inl rfl
    | hex _ marked zero next =>
        rcases marked with rfl | rfl
        · exact absurd next (decimal zero).1
        · exact absurd next (decimal zero).2
    | punctuator other | word other | longer other | start other | escape other | fraction other
    | quote other => rw [opening] at other; cases other
  · cases rest with
    | nil => cases next
    | cons d rest =>
        have isDigit : Text.isDigit d := by simpa using next
        have opening : openingOf '.' = .other := by decide
        refine .token_of_opening (by decide)
          (longestAt_tokenPatterns (.fraction isDigit) ⟨rest, rfl⟩ ?_) (.number _)
        intro other isPrefix opens
        cases opens with
        | punctuator _ listed =>
            have all
                : ∀ entry ∈ punctuators,
                    entry.2.toList.head? = some '.' → entry.2.toList.length < 2 := by
              decide
            exact .inr (all _ listed (head?_of_front isPrefix (spelling_ne_nil _ listed)))
        | fraction _ _ _ next =>
            cases next
            exact .inl rfl
        | digit other | hex other | word other | longer other | start other | escape other
        | quote other => rw [opening] at other; cases other

/-- The pattern of a hexadecimal number is longer than that of a digit, so the number is read as one. -/
theorem Gives.token_hexNumber (mode : LexMode) {marker : Char} (marked : marker = 'x' ∨ marker = 'X')
    (rest : List Char)
    : Yields source (Lexing.token mode) ('0' :: marker :: rest) (Scan.hexNumber rest) := by
  have opening : openingOf '0' = .digit := by decide
  refine .token_of_opening (by decide) (longestAt_tokenPatterns (.hex marked) ⟨rest, rfl⟩ ?_)
    (.hexNumber marked rest)
  intro other _ opens
  cases opens with
  | digit => exact .inr (by simp)
  | hex _ _ _ next =>
      cases next
      exact .inl rfl
  | punctuator other | word other | longer other | start other | escape other | fraction other
  | quote other => rw [opening] at other; cases other

/-- A slash where an operand is due begins a regular expression; any other punctuator is the token. -/
theorem tokenOf_punctuator (mode : LexMode) (width : Nat) (spelled : kind.punctuator?.isSome)
    : Lexing.tokenOf mode kind width
      = if (kind = .slash ∨ kind = .slashEquals) ∧ mode = .regex then Lexing.regex
        else Lexing.take kind width := by
  revert spelled
  cases kind with
  | slash | slashEquals => simp [Lexing.tokenOf]
  | _ => first | exact fun _ => rfl | exact nofun

/-- Where the longest punctuator is found, no other pattern is as long. -/
theorem longestAt_of_punctuator {entry : Kind × String} (longest : OpensLongest (c :: rest) entry)
    (noNumber : ¬Scan.OpensNumber c rest)
    : longestAt tokenPatterns (ofText (c :: rest)) = some (entry.1, entry.2.toList) := by
  have opening := openingOf_punctuator longest.member longest.opens
  refine longestAt_tokenPatterns (.punctuator longest.member) longest.opens ?_
  intro other isPrefix opens
  cases opens with
  | @punctuator another _ listed =>
      have bound := longest.longest another listed isPrefix
      rw [← String.length_toList, ← String.length_toList] at bound
      rcases Nat.lt_or_eq_of_le bound with shorter | same
      · exact .inr shorter
      · have alsoLongest : OpensLongest (c :: rest) another := by
          refine ⟨listed, isPrefix, fun third member opens => ?_⟩
          have least := longest.longest third member opens
          rw [← String.length_toList, ← String.length_toList] at least ⊢
          omega
        rw [alsoLongest.unique longest]
        exact .inl rfl
  | fraction _ isDigit point next => exact absurd (.inr ⟨point, by simp [next, isDigit]⟩) noNumber
  | digit other | hex other | word other | longer other | start other | escape other
  | quote other => rw [opening] at other; cases other

/-- Where no punctuator opens the text, no pattern does. -/
theorem longestAt_of_no_punctuator (opening : openingOf c = .other)
    (noNumber : ¬Scan.OpensNumber c rest) (none_eq : longestPunctuator? (c :: rest) = none)
    : longestAt tokenPatterns (ofText (c :: rest)) = none := by
  refine longestAt_eq_none.mpr fun entry member isPrefix => ?_
  cases (mem_tokenPatterns.mp member).opens isPrefix with
  | punctuator _ listed =>
      obtain ⟨longest, found⟩ := exists_longestPunctuator? listed isPrefix
      rw [none_eq] at found
      cases found
  | fraction _ isDigit point next => exact noNumber (.inr ⟨point, by simp [next, isDigit]⟩)
  | digit other | hex other | word other | longer other | start other | escape other
  | quote other => rw [opening] at other; cases other

/-- What begins no name, number or string begins no pattern of these either. -/
theorem openingOf_other (noEscape : c ≠ '\\') (noStart : ¬Text.isIdentifierStart c)
    (noNumber : ¬Scan.OpensNumber c rest) (noQuote : c ≠ '"' ∧ c ≠ '\'')
    : openingOf c = .other := by
  have noLetter : ¬Text.asciiStartSet.contains c = true := by
    intro isStart
    have ascii := isAscii_of_asciiPart (asciiPart_of_asciiStart isStart)
    exact noStart (by rw [Text.isIdentifierStart, if_pos ascii, isStart])
  rw [openingOf, if_neg noLetter, if_neg (fun isDigit => noNumber (.inl isDigit)), if_neg noEscape,
    if_neg (by simpa using noQuote)]

/-- The longest punctuator is the token, as no pattern of another kind begins there. -/
theorem Gives.token_punctuator {mode : LexMode} {entry : Kind × String}
    (noStart : ¬Text.isIdentifierStart c) (noNumber : ¬Scan.OpensNumber c rest)
    (found : longestPunctuator? (c :: rest) = some entry)
    (noRegex : ¬((entry.1 = .slash ∨ entry.1 = .slashEquals) ∧ mode = .regex))
    : Yields source (Lexing.token mode) (c :: rest) (Scan.punctuator (c :: rest)) := by
  obtain ⟨kind, spelling⟩ := entry
  have longest := longestPunctuator?_eq_some.mp found
  refine .token_of_opening (by simp [noStart]) (longestAt_of_punctuator longest noNumber) ?_
  have spelled : ∀ entry ∈ punctuators, entry.1.punctuator?.isSome := by decide
  rw [tokenOf_punctuator mode _ (spelled _ longest.member), if_neg noRegex, Scan.punctuator, found]
  obtain ⟨tail, same⟩ := longest.opens
  dsimp only
  rw [← same, ← String.length_toList, List.drop_left]
  exact (Gives.advance _ tail).bind (.pure _ tail)

/-- A slash opens a regular expression where an operand may begin. -/
theorem Gives.token_regex (rest : List Char)
    : Yields source (Lexing.token .regex) ('/' :: rest) (Scan.regex false rest) := by
  have listed : (Kind.slash, "/") ∈ punctuators := by decide
  obtain ⟨entry, found⟩ := exists_longestPunctuator? listed
    (⟨rest, rfl⟩ : "/".toList <+: '/' :: rest)
  have longest := longestPunctuator?_eq_some.mp found
  have noNumber : ¬Scan.OpensNumber '/' rest := by simp [Scan.OpensNumber, Text.isDigit_iff]
  have slashes
      : ∀ entry ∈ punctuators,
          entry.2.toList.head? = some '/' →
            entry.1.punctuator?.isSome ∧ (entry.1 = .slash ∨ entry.1 = .slashEquals) := by
    decide
  obtain ⟨spelled, slash⟩ := slashes entry longest.member
    (head?_of_front longest.opens (spelling_ne_nil entry longest.member))
  refine .token_of_opening (by decide) (longestAt_of_punctuator longest noNumber) ?_
  rw [tokenOf_punctuator .regex _ spelled, if_pos ⟨slash, rfl⟩]
  exact .regex rest

-----------------------------------------------------------------------------------------
-- Words
-----------------------------------------------------------------------------------------

/-- A kind of a word is found for words of the list only. -/
theorem mem_of_wordKind? (found : wordKind? text = some kind)
    : ∃ entry ∈ reservedWords, entry.1 = kind ∧ entry.2.toList = text := by
  obtain ⟨entry, present, rfl⟩ := Option.map_eq_some_iff.mp found
  exact ⟨entry, List.mem_of_find?_eq_some present, rfl, by simpa using List.find?_some present⟩

/-- A text whose first characters are no reserved word, or go on with an escape, is an identifier. -/
theorem word_eq_identifierTail
    (plain
      : ∀ kind,
          wordKind? (text.takeWhile Text.isIdentifierPart) = some kind →
            (text.dropWhile Text.isIdentifierPart).head? = some '\\')
    : Scan.word text = Scan.identifierTail 0 text := by
  rw [← identifierTail_dropWhile (fun _ part => part) text]
  by_cases escape : (text.dropWhile Text.isIdentifierPart).head? = some '\\'
  · obtain ⟨more, tail_eq⟩ : ∃ more, text.dropWhile Text.isIdentifierPart = '\\' :: more :=
      ⟨_, List.eq_cons_of_mem_head? escape⟩
    simp [Scan.word, tail_eq]
  · have noWord : wordKind? (text.takeWhile Text.isIdentifierPart) = none :=
      Option.eq_none_iff_forall_ne_some.mpr fun kind found => escape (plain kind found)
    have ends := Scan.ends_word fun tail same => escape (by rw [same]; rfl)
    have scanned := Scan.word_of_ends text ends
    rw [List.takeWhile_append_dropWhile, noWord] at scanned
    rw [scanned, Scan.identifierTail_of_ends ends]
    rfl

/-- A reserved word is the token unless a name goes on behind it. -/
theorem tokenOf_word (mode : LexMode) (width : Nat) (isWord : kind.isWord)
    : Lexing.tokenOf mode kind width
      = Lexing.continuesWord width >>= fun inner =>
          if inner then Lexing.identifier else Lexing.take kind width := by
  revert isWord
  cases kind with
  | _ => first | exact fun _ => rfl | exact nofun

/-- A word goes on with an escape or with a character of names beyond ASCII; ASCII ones have patterns. -/
theorem Gives.continuesWord (word tail : List Char)
    : Gives source (Lexing.continuesWord (size word)) (word ++ tail)
        (.ok (tail.head?.any fun c => c = '\\' || !Text.isAscii c && Text.isIdentifierPart c))
        (word ++ tail) := by
  intro within
  have after := drop?_offsetOf ((List.suffix_append word tail).trans within)
  rw [offsetOf_of_append within] at after
  refine ((Gives.offset _).bind ((Gives.source_ _).bind ?_)) within
  rw [after]
  exact .pure _ _

/-- Beyond ASCII an identifier begins without a pattern. -/
theorem Gives.token_beyond (mode : LexMode) (start : Text.isIdentifierStart c)
    (beyond : Text.isAscii c = false) (rest : List Char)
    : Yields source (Lexing.token mode) (c :: rest) (Scan.word (c :: rest)) := by
  have part := Text.isIdentifierPart_of_start start
  have noEscape : c ≠ '\\' := by
    rintro rfl
    exact absurd start (by decide)
  have plain : Scan.word (c :: rest) = Scan.identifierTail 0 (c :: rest) := by
    refine word_eq_identifierTail fun kind found => ?_
    obtain ⟨entry, listed, _, spelled⟩ := mem_of_wordKind? found
    have letter := (letters_of_word listed).2 c (by
      rw [spelled, List.takeWhile_cons_of_pos part]
      exact List.mem_cons_self)
    rw [isAscii_of_asciiPart (asciiPart_of_asciiStart letter)] at beyond
    cases beyond
  rw [plain, identifierTail_part part]
  refine (Gives.peek _).bind ?_
  rw [List.head?_cons, Option.any_some, if_pos (by simp [beyond, start])]
  exact .identifier noEscape rest

/-- What opens a text and consists of parts of an identifier opens its longest such front. -/
theorem prefix_takeWhile {front : List Char} (opens : front <+: text)
    (parts : ∀ c ∈ front, Text.isIdentifierPart c)
    : front <+: text.takeWhile Text.isIdentifierPart := by
  obtain ⟨tail, rfl⟩ := opens
  rw [List.takeWhile_append_of_pos parts]
  exact List.prefix_append _ _

/-- Reserved words have characters of names only. -/
theorem parts_of_word {entry : Kind × String} (listed : entry ∈ reservedWords)
    : ∀ c ∈ entry.2.toList, Text.isIdentifierPart c := fun c member =>
  isIdentifierPart_of_asciiPart (asciiPart_of_asciiStart ((letters_of_word listed).2 c member))

/-- A reserved word behind which no identifier goes on is the longest pattern. -/
theorem longest_of_wordKind? {entry : Kind × List Char}
    (found : longestAt tokenPatterns (ofText text) = some entry)
    (isWord : wordKind? (text.takeWhile Text.isIdentifierPart) = some kind)
    : (text.takeWhile Text.isIdentifierPart).length ≤ entry.2.length := by
  obtain ⟨word, listed, _, spelled⟩ := mem_of_wordKind? isWord
  have opens := List.takeWhile_prefix (l := text) Text.isIdentifierPart
  rw [← spelled] at opens ⊢
  exact (opens_of_longestAt found).2.2 _ (mem_tokenPatterns.mpr (.word listed)) opens

/-- Where the longest pattern is one of identifiers, the text begins with no reserved word. -/
theorem word_of_longest {entry : Kind × List Char}
    (found : longestAt tokenPatterns (ofText (c :: rest)) = some entry)
    (isIdentifier : entry.1 = .identifier)
    : Scan.word (c :: rest) = Scan.identifierTail 0 (c :: rest) := by
  refine word_eq_identifierTail fun kind isWord => ?_
  have bound := longest_of_wordKind? found isWord
  obtain ⟨member, opens, _⟩ := opens_of_longestAt found
  obtain ⟨word, listed, _, spelled⟩ := mem_of_wordKind? isWord
  have long := (letters_of_word listed).1
  rw [spelled] at long
  cases (mem_tokenPatterns.mp member).opens opens with
  | start | escape =>
      rw [List.length_singleton] at bound
      omega
  | @longer another d _ among part noWord =>
      have parts : ∀ c ∈ another.2.toList ++ [d], Text.isIdentifierPart c := by
        refine List.forall_mem_append.mpr ⟨parts_of_word among, ?_⟩
        simpa using isIdentifierPart_of_asciiPart part
      have same : another.2.toList ++ [d] = _ := (prefix_takeWhile opens parts).eq_of_length_le bound
      rw [same, isWord] at noWord
      cases noWord
  | @punctuator another _ among =>
      have others : ∀ entry ∈ punctuators, entry.1 ≠ .identifier := by decide
      exact absurd isIdentifier (others another among)
  | @word another _ among =>
      have others : ∀ entry ∈ reservedWords, entry.1 ≠ .identifier := by decide
      exact absurd isIdentifier (others another among)
  | digit | hex | fraction | quote => cases isIdentifier

/-- A reserved word with one more character is a pattern again. -/
theorem exists_longer_pattern {entry : Kind × String} (listed : entry ∈ reservedWords)
    (part : Text.asciiPartSet.contains c)
    : ∃ kind, (kind, entry.2.toList ++ [c]) ∈ tokenPatterns := by
  cases isWord : wordKind? (entry.2.toList ++ [c]) with
  | none => exact ⟨.identifier, mem_tokenPatterns.mpr (.longer listed part isWord)⟩
  | some kind =>
      obtain ⟨word, among, rfl, spelled⟩ := mem_of_wordKind? isWord
      exact ⟨word.1, spelled ▸ mem_tokenPatterns.mpr (.word among)⟩

/-- A reserved word ends where no part of an identifier follows, and no escape. -/
theorem word_of_word {entry : Kind × String} {tail : List Char} (listed : entry ∈ reservedWords)
    (found
      : longestAt tokenPatterns (ofText (entry.2.toList ++ tail))
        = some (entry.1, entry.2.toList))
    : Scan.word (entry.2.toList ++ tail)
      = if tail.head?.any fun c => c = '\\' || !Text.isAscii c && Text.isIdentifierPart c then
          Scan.identifierTail 0 (entry.2.toList ++ tail)
        else
          Scan.found entry.1 tail := by
  have parts := parts_of_word listed
  split
  next goesOn =>
    refine word_eq_identifierTail fun kind isWord => ?_
    have same : entry.2.toList = _ :=
      (prefix_takeWhile (List.prefix_append _ tail) parts).eq_of_length_le
        (longest_of_wordKind? found isWord)
    have ends := Scan.ends_dropWhile Text.isIdentifierPart (entry.2.toList ++ tail)
    have whole := List.takeWhile_append_dropWhile (p := Text.isIdentifierPart)
      (l := entry.2.toList ++ tail)
    rw [← same, List.append_cancel_left_eq] at whole
    rw [whole] at ends ⊢
    cases tail with
    | nil => cases goesOn
    | cons d more => simpa [ends d more rfl] using goesOn
  next stops =>
    have ends : Scan.Ends Scan.continuesName tail := by
      rintro d more rfl
      simp only [List.head?_cons, Option.any_some, Bool.or_eq_true, Bool.and_eq_true, not_or, not_and,
        Bool.not_eq_true', decide_eq_true_eq] at stops
      obtain ⟨noEscape, inAscii⟩ := stops
      rw [Scan.continuesName, Bool.or_eq_false_iff]
      refine ⟨decide_eq_false noEscape, ?_⟩
      by_contra part
      rw [Bool.not_eq_false] at part
      have isAscii : Text.isAscii d = true := by
        by_contra beyond
        exact inAscii (Bool.eq_false_iff.mpr beyond) part
      rw [isIdentifierPart_of_ascii isAscii] at part
      obtain ⟨kind, member⟩ := exists_longer_pattern listed part
      have bound := (opens_of_longestAt found).2.2 _ member ⟨more, by simp⟩
      simp at bound
    have scanned := Scan.word_of_ends entry.2.toList ends
    rwa [List.takeWhile_eq_self_iff.mpr parts, wordKind?_of_mem listed] at scanned

/-- A letter begins a word, which is reserved if its pattern is the longest and the word ends with it. -/
theorem Gives.token_letter (mode : LexMode) (isStart : Text.asciiStartSet.contains c)
    (rest : List Char)
    : Yields source (Lexing.token mode) (c :: rest) (Scan.word (c :: rest)) := by
  have opening := openingOf_start isStart
  have isAscii := isAscii_of_asciiPart (asciiPart_of_asciiStart isStart)
  have part := isIdentifierPart_of_asciiPart (asciiPart_of_asciiStart isStart)
  have noEscape : c ≠ '\\' := by
    rintro rfl
    exact absurd isStart (by decide)
  cases found : longestAt tokenPatterns (ofText (c :: rest)) with
  | none =>
      have closed := longestAt_eq_none.mp found _ (mem_tokenPatterns.mpr (.start isStart))
      exact absurd ⟨rest, rfl⟩ closed
  | some entry =>
      refine .token_of_opening (by simp [isAscii]) found ?_
      have opened := opens_of_longestAt found
      obtain ⟨member, opens, bound⟩ := opened
      cases (mem_tokenPatterns.mp member).opens opens with
      | start _ =>
          rw [word_of_longest found rfl, identifierTail_part part]
          exact .identifier noEscape rest
      | longer _ listed isPart noWord =>
          rw [word_of_longest found rfl, identifierTail_part part]
          exact .identifier noEscape rest
      | @word word _ listed =>
          obtain ⟨tail, same⟩ := opens
          have isWord : ∀ entry ∈ reservedWords, entry.1.isWord := by decide
          have scanned := word_of_word listed (by rw [same]; exact found)
          have inner : Gives source _ _ _ _ := Gives.continuesWord word.2.toList tail
          rw [tokenOf_word mode _ (isWord word listed), ← same, scanned]
          refine inner.bind ?_
          split
          next =>
            rw [same, identifierTail_part part]
            exact .identifier noEscape rest
          next => exact (Gives.advance _ tail).bind (.pure _ tail)
      | punctuator other | digit other | hex other | fraction other | escape other
      | quote other => rw [opening] at other; cases other

/-- A word is read in the same way if it begins beyond ASCII, where no pattern is found. -/
theorem Gives.token_word (mode : LexMode) (start : Text.isIdentifierStart c) (rest : List Char)
    : Yields source (Lexing.token mode) (c :: rest) (Scan.word (c :: rest)) := by
  cases ascii : Text.isAscii c with
  | true =>
      rw [Text.isIdentifierStart, if_pos ascii] at start
      exact .token_letter mode start rest
  | false => exact .token_beyond mode start ascii rest

-----------------------------------------------------------------------------------------
-- All tokens
-----------------------------------------------------------------------------------------

/-- The scanner is the one that reads the text. Where none does, nothing is passed over yet. -/
theorem Gives.token (source : List Char) (mode : LexMode) (c : Char) (rest : List Char)
    : Yields source (Lexing.token mode) (c :: rest) (Scan.token mode (c :: rest))
      ∨ Scan.token mode (c :: rest) = Scan.failed .unexpectedCharacter rest
        ∧ Gives source (Lexing.token mode) (c :: rest) (.error .unexpectedCharacter) (c :: rest) := by
  have scans := Scan.scans_token mode (c :: rest)
  generalize Scan.token mode (c :: rest) = scan at scans ⊢
  cases scans with
  | hexNumber marked => exact .inl (.token_hexNumber mode marked _)
  | escape => exact .inl (.token_escape mode rest)
  | word start => exact .inl (.token_word mode start rest)
  | number opens decimal => exact .inl (.token_number mode opens decimal)
  | string quotes => exact .inl (.token_quote mode quotes rest)
  | regex operand =>
      subst operand
      exact .inl (.token_regex rest)
  | punctuator noEscape noStart noNumber noQuote noRegex =>
      cases found : longestPunctuator? (c :: rest) with
      | some entry =>
          refine .inl (.token_punctuator noStart noNumber found ?_)
          rintro ⟨slash, operand⟩
          have slashes
              : ∀ entry ∈ punctuators,
                  entry.1 = .slash ∨ entry.1 = .slashEquals → entry.2.toList.head? = some '/' := by
            decide
          have longest := longestPunctuator?_eq_some.mp found
          have first := head?_of_front longest.opens (spelling_ne_nil entry longest.member)
          rw [slashes entry longest.member slash] at first
          exact noRegex (Option.some.inj first).symm operand
      | none =>
          have opening := openingOf_other noEscape noStart noNumber noQuote
          have opened := Gives.opening source tokenPatterns (c :: rest)
          rw [longestAt_of_no_punctuator opening noNumber found] at opened
          refine .inr ⟨by rw [Scan.punctuator, found]; rfl, (Gives.peek _).bind ?_⟩
          rw [List.head?_cons, Option.any_some, if_neg (by simp [noStart])]
          exact opened.bind (.fail _ _)

end EcmaSyntax.Bytes
