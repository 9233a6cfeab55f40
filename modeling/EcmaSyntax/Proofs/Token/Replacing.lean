import EcmaSyntax.Proofs.Token.Scanning
import EcmaSyntax.Proofs.Token.Trivia
import Mathlib.Data.List.TakeWhile

/-! Of what follows a token only the next character matters. A scanner that has found a token finds the same
one when the text behind the token is replaced by spacing, by nothing, or by a text that begins with the
same character.
-/

namespace EcmaSyntax

/-- The text is empty or begins with a blank or a line terminator. -/
def Text.Spaced (text : List Char) : Prop :=
  ∀ c rest, text = c :: rest → isSpacing c

theorem Text.spaced_nil : Text.Spaced [] := by
  intro c rest none
  cases none

/-- Where the first text follows a token, the second may follow it instead: it is spacing, or begins like
the first.
-/
def Text.MayFollow (rest other : List Char) : Prop :=
  Spaced other ∨ other.head? = rest.head?

/-- The end of the text may follow wherever it is reached. -/
theorem Text.mayFollow_of_append (front back : List Char) : Text.MayFollow (front ++ back) front := by
  cases front with
  | nil => exact .inl spaced_nil
  | cons => exact .inr rfl

namespace Scan

/-- The scanner finds the kind in the text, whatever follows instead of the rest. -/
def Finds (scan : List Char → Scan) (kind : Kind) (text rest : List Char) : Prop :=
  ∀ other, Text.MayFollow rest other → scan (text ++ other) = found kind other

/-- What the scanner finds at the beginning of a text it finds whatever follows instead. -/
def Replaces (scan : List Char → Scan) : Prop :=
  ∀ whole kind rest,
    scan whole = found kind rest → ∃ text, whole = text ++ rest ∧ Finds scan kind text rest

variable {kind : Kind} {whole text rest other : List Char} {c : Char}

/-- What a scanner finds and what it leaves are told by its outcome. -/
theorem found_inj {first second : Kind} {left right : List Char}
    (same : found first left = found second right)
    : first = second ∧ left = right := by
  simp only [found, Scan.mk.injEq, Except.ok.injEq] at same
  exact same

theorem failed_ne_found {cause : Cause} {kind : Kind} {left right : List Char}
    : failed cause left ≠ found kind right := by
  simp [failed, found]

/-- The text does not go on with a character that the condition holds of. -/
def Ends (condition : Char → Bool) (text : List Char) : Prop :=
  ∀ c rest, text = c :: rest → condition c = false

/-- Nothing is dropped from a text that does not go on with such a character. -/
theorem dropWhile_of_ends {condition : Char → Bool} (ends : Ends condition other)
    : other.dropWhile condition = other ∧ other.takeWhile condition = [] := by
  cases other with
  | nil => exact ⟨rfl, rfl⟩
  | cons c tail =>
      have stops := ends c tail rfl
      simp [stops]

/-- What a condition takes from the beginning of a text it takes whatever it does not hold of follows. -/
theorem dropWhile_replace {condition : Char → Bool} (whole : List Char)
    (ends : Ends condition other)
    : (whole.takeWhile condition ++ other).dropWhile condition = other
      ∧ (whole.takeWhile condition ++ other).takeWhile condition = whole.takeWhile condition := by
  have all : ∀ c ∈ whole.takeWhile condition, condition c := fun c => List.mem_takeWhile_imp
  obtain ⟨stays, none⟩ := dropWhile_of_ends ends
  rw [List.dropWhile_append_of_pos all, List.takeWhile_append_of_pos all, stays, none,
    List.append_nil]
  exact ⟨rfl, rfl⟩

-----------------------------------------------------------------------------------------
-- Classes without spacing
-----------------------------------------------------------------------------------------

/-- No spacing is part of an identifier. -/
theorem isIdentifierPart_of_spacing (spacing : Text.isSpacing c)
    : Text.isIdentifierPart c = false := by
  have outside := Text.isOutside_of_spacing spacing
  simp only [Text.isOutside, Bool.and_eq_true, Bool.not_eq_true'] at outside
  exact outside.1.1.1.1

theorem isHexDigit_of_spacing (spacing : Text.isSpacing c) : Text.isHexDigit c = false := by
  have outside := Text.isOutside_of_spacing spacing
  simp only [Text.isOutside, Bool.and_eq_true, Bool.not_eq_true'] at outside
  exact outside.1.1.1.2

theorem isDigit_of_spacing (spacing : Text.isSpacing c) : Text.isDigit c = false := by
  have outside := isHexDigit_of_spacing spacing
  rw [← Bool.not_eq_true, Text.isHexDigit_iff] at outside
  rw [← Bool.not_eq_true, Text.isDigit_iff]
  exact fun digit => outside (.inl digit)

theorem isIdentifierStart_of_spacing (spacing : Text.isSpacing c)
    : Text.isIdentifierStart c = false := by
  have outside := isIdentifierPart_of_spacing spacing
  rw [← Bool.not_eq_true] at outside ⊢
  exact fun start => outside (Text.isIdentifierPart_of_start start)

theorem asciiPartSet_of_spacing (spacing : Text.isSpacing c)
    : Text.asciiPartSet.contains c = false := by
  have all : Text.spacings.all (fun c => !Text.asciiPartSet.contains c) = true := by decide
  simpa using List.all_eq_true.mp all c (Text.mem_spacings spacing)

theorem ne_of_spacing (spacing : Text.isSpacing c)
    : c ≠ '\\' ∧ c ≠ '.' ∧ c ≠ '/' := by
  have outside := Text.isOutside_of_spacing spacing
  simp only [Text.isOutside, Bool.and_eq_true, decide_eq_true_eq] at outside
  exact ⟨outside.1.1.2, outside.1.2, outside.2⟩

/-- What is left behind the characters of a kind does not go on with one. -/
theorem ends_dropWhile (condition : Char → Bool) (text : List Char)
    : Ends condition (text.dropWhile condition) := by
  intro c rest same
  have head := List.head?_dropWhile_not condition text
  rw [same] at head
  simpa using head

/-- What spacing does not go on with, and the rest does not either, the other text does not. -/
theorem Ends.follow {condition : Char → Bool} (ends : Ends condition rest)
    (follows : Text.MayFollow rest other)
    (outside : ∀ {c : Char}, Text.isSpacing c → condition c = false)
    : Ends condition other := by
  rintro c tail rfl
  rcases follows with spaced | same
  · exact outside (spaced c tail rfl)
  · obtain ⟨tail', rfl⟩ := List.head?_eq_some_iff.mp same.symm
    exact ends c tail' rfl

theorem ends_nil (condition : Char → Bool) : Ends condition [] := by
  rintro c tail ⟨⟩

-----------------------------------------------------------------------------------------
-- Identifiers and words
-----------------------------------------------------------------------------------------

/-- A character that an identifier goes on with. -/
def continuesName (c : Char) : Bool :=
  c = '\\' || Text.isIdentifierPart c

/-- Spacing ends a name. -/
theorem continuesName_of_spacing (spacing : Text.isSpacing c) : continuesName c = false := by
  simp [continuesName, ne_of_spacing spacing, isIdentifierPart_of_spacing spacing]

/-- An escape is its first six characters. -/
theorem escapedChar?_eq_some {part : Char} (escaped : escapedChar? ('\\' :: whole) = some part)
    : 5 ≤ whole.length
      ∧ ∀ front rest other,
          whole = front ++ rest →
          5 ≤ front.length →
          escapedChar? ('\\' :: (front ++ other)) = some part := by
  unfold escapedChar? at escaped
  split at escaped
  next first second third fourth tail same =>
    cases same
    refine ⟨by simp, fun front rest other split long => ?_⟩
    match front, long with
    | c :: d :: e :: f :: g :: front, _ =>
        simp only [List.cons_append, List.cons.injEq] at split
        obtain ⟨rfl, rfl, rfl, rfl, rfl, _⟩ := split
        exact escaped
  next => cases escaped

/-- An identifier ends before what it does not go on with. -/
theorem identifierTail_of_ends (ends : Ends continuesName other)
    : identifierTail 0 other = found .identifier other := by
  cases other with
  | nil => rfl
  | cons c rest =>
      have stops := ends c rest rfl
      simp only [continuesName, Bool.or_eq_false_iff, decide_eq_false_iff_not] at stops
      rw [identifierTail, if_neg stops.1, if_neg (by simp [stops.2])]

/-- The rest of an identifier ends where it did, by induction on the text. Inside of an escape the text
does not end yet.
-/
theorem identifierTail_replaces {escaped : Nat}
    (scanned : identifierTail escaped whole = found kind rest) (long : escaped ≤ whole.length)
    : ∃ text,
        whole = text ++ rest
        ∧ escaped ≤ text.length
        ∧ Finds (identifierTail escaped) kind text rest := by
  fun_induction identifierTail escaped whole with
  | case1 escaped =>
      obtain ⟨rfl, rfl⟩ := found_inj scanned
      obtain rfl : escaped = 0 := by simpa using long
      refine ⟨[], rfl, Nat.le_refl _, fun other follows => identifierTail_of_ends ?_⟩
      exact (ends_nil continuesName).follow follows continuesName_of_spacing
  | case2 escaped c tail ih =>
      obtain ⟨text, rfl, enough, finds⟩ := ih scanned (by simpa using long)
      exact ⟨c :: text, rfl, by simpa using enough, finds⟩
  | case3 tail part inner isPart ih =>
      obtain ⟨length, escape⟩ := escapedChar?_eq_some isPart
      obtain ⟨text, rfl, enough, finds⟩ := ih scanned length
      refine ⟨'\\' :: text, rfl, Nat.zero_le _, fun other follows => ?_⟩
      rw [List.cons_append, identifierTail, if_pos rfl, escape text rest other rfl enough]
      dsimp only
      rw [if_pos inner]
      exact finds other follows
  | case4 => exact absurd scanned failed_ne_found
  | case5 => exact absurd scanned failed_ne_found
  | case6 c tail notEscape inner ih =>
      obtain ⟨text, rfl, _, finds⟩ := ih scanned (Nat.zero_le _)
      refine ⟨c :: text, rfl, Nat.zero_le _, fun other follows => ?_⟩
      rw [List.cons_append, identifierTail, if_neg notEscape, if_pos inner]
      exact finds other follows
  | case7 c tail notEscape outside =>
      obtain ⟨rfl, rfl⟩ := found_inj scanned
      have ends : Ends continuesName (c :: tail) := by
        rintro _ _ ⟨⟩
        simp [continuesName, notEscape, outside]
      refine ⟨[], rfl, Nat.le_refl _, fun other follows => identifierTail_of_ends ?_⟩
      exact ends.follow follows continuesName_of_spacing

/-- An identifier that begins with an escape ends where it did. -/
theorem escapedIdentifier_replaces
    (scanned : escapedIdentifier ('\\' :: whole) = found kind rest)
    : ∃ text, '\\' :: whole = text ++ rest ∧ Finds escapedIdentifier kind text rest := by
  unfold escapedIdentifier at scanned
  split at scanned
  next start isStart =>
    split at scanned
    next starts =>
      obtain ⟨length, escape⟩ := escapedChar?_eq_some isStart
      obtain ⟨text, same, enough, finds⟩ := identifierTail_replaces scanned (by simpa using length)
      cases text with
      | nil => simp at enough
      | cons c text =>
          simp only [List.cons_append, List.cons.injEq] at same
          obtain ⟨rfl, same⟩ := same
          refine ⟨'\\' :: text, by rw [same]; rfl, fun other follows => ?_⟩
          unfold escapedIdentifier
          rw [List.cons_append, escape text rest other same (by simpa using enough)]
          dsimp only
          rw [if_pos starts]
          exact finds other follows
    next => exact absurd scanned failed_ne_found
  next => exact absurd scanned failed_ne_found

/-- A word without escapes is a reserved word or an identifier. -/
theorem word_of_ends (whole : List Char) (ends : Ends continuesName other)
    : word (whole.takeWhile Text.isIdentifierPart ++ other)
      = found ((wordKind? (whole.takeWhile Text.isIdentifierPart)).getD .identifier) other := by
  have partEnds : Ends Text.isIdentifierPart other := fun c tail same =>
    (Bool.or_eq_false_iff.mp (ends c tail same)).2
  obtain ⟨drop, take⟩ := dropWhile_replace whole partEnds
  unfold word
  rw [drop, take]
  dsimp only
  split
  · cases ends '\\' _ rfl
  next isReserved => rw [isReserved, Option.getD_some]
  next isName => rw [isName, Option.getD_none]

/-- The characters of a word are followed by none that goes on, unless an escape does. -/
theorem ends_word
    (noEscape
      : ∀ tail, whole.dropWhile Text.isIdentifierPart = '\\' :: tail → False)
    : Ends continuesName (whole.dropWhile Text.isIdentifierPart) := by
  intro c tail same
  have notEscape : c ≠ '\\' := by
    rintro rfl
    exact noEscape tail same
  simp [continuesName, notEscape, ends_dropWhile Text.isIdentifierPart whole c tail same]

/-- A word ends where it did, since the next character is what ends it. -/
theorem word_replaces : Replaces word := by
  intro whole kind rest scanned
  have parts := List.takeWhile_append_dropWhile (p := Text.isIdentifierPart) (l := whole)
  unfold word at scanned
  dsimp only at scanned
  split at scanned
  next escape begins =>
    obtain ⟨text, same, _, finds⟩ := identifierTail_replaces scanned (Nat.zero_le _)
    -- The escape is part of the identifier, so its backslash stays in front of what follows.
    have shorter := (identifierTail_suffix_tail escape (.inr rfl : 0 ≠ 0 ∨ '\\' = '\\')).length_le
    rw [← begins, scanned, rest_found] at shorter
    obtain ⟨tail, rfl⟩ : ∃ tail, text = '\\' :: tail := by
      cases text with
      | nil =>
          rw [begins, List.nil_append] at same
          rw [← same, List.length_cons] at shorter
          omega
      | cons c tail =>
          rw [begins, List.cons_append] at same
          exact ⟨tail, by rw [(List.cons.inj same).1]⟩
    refine ⟨whole.takeWhile Text.isIdentifierPart ++ '\\' :: tail, ?_, fun other follows => ?_⟩
    · rw [List.append_assoc, ← same, parts]
    · have ends : Ends Text.isIdentifierPart ('\\' :: (tail ++ other)) := by
        rintro _ _ ⟨⟩
        decide
      obtain ⟨drop, take⟩ := dropWhile_replace whole ends
      unfold word
      rw [List.append_assoc, List.cons_append, drop, take]
      exact finds other follows
  next reserved isReserved noEscape =>
    obtain ⟨rfl, rfl⟩ := found_inj scanned
    refine ⟨_, parts.symm, fun other follows => ?_⟩
    have ends := (ends_word noEscape).follow follows continuesName_of_spacing
    rw [word_of_ends _ ends, isReserved, Option.getD_some]
  next isName noEscape =>
    obtain ⟨rfl, rfl⟩ := found_inj scanned
    refine ⟨_, parts.symm, fun other follows => ?_⟩
    have ends := (ends_word noEscape).follow follows continuesName_of_spacing
    rw [word_of_ends _ ends, isName, Option.getD_none]

-----------------------------------------------------------------------------------------
-- Numbers
-----------------------------------------------------------------------------------------

/-- Whether a condition goes on is told by the next character. -/
theorem Ends.replace {condition : Char → Bool} (ends : Ends condition (text ++ rest))
    (outside : Ends condition other)
    : Ends condition (text ++ other) := by
  cases text with
  | nil => exact outside
  | cons c text =>
      rintro _ _ ⟨⟩
      exact ends c (text ++ rest) rfl

/-- A character that a number must not run into. -/
def continuesNumber (c : Char) : Bool :=
  c = '\\' || Text.isDigit c || Text.isIdentifierStart c

/-- Spacing ends a number. -/
theorem continuesNumber_of_spacing (spacing : Text.isSpacing c) : continuesNumber c = false := by
  simp [continuesNumber, (ne_of_spacing spacing).1, isDigit_of_spacing spacing,
    isIdentifierStart_of_spacing spacing]

theorem Ends.isDigit (ends : Ends continuesNumber other) : Ends Text.isDigit other := by
  intro c tail same
  have stops := ends c tail same
  simp only [continuesNumber, Bool.or_eq_false_iff] at stops
  exact stops.1.2

/-- A number may end in front of what does not go on with it. -/
theorem numberEnd_of_ends (ends : Ends continuesNumber other)
    : numberEnd other = found .literalNumber other := by
  cases other with
  | nil => rfl
  | cons c tail =>
      have stops := ends c tail rfl
      rw [continuesNumber] at stops
      unfold numberEnd
      dsimp only
      rw [if_neg (by simp [stops])]

/-- Where a number may end, nothing of the text is passed over. -/
theorem numberEnd_eq_found (scanned : numberEnd whole = found kind rest)
    : whole = rest ∧ kind = .literalNumber ∧ Ends continuesNumber rest := by
  obtain rfl : whole = rest := by rw [← rest_numberEnd whole, scanned, rest_found]
  refine ⟨rfl, ?_⟩
  unfold numberEnd at scanned
  split at scanned
  next c tail =>
    split at scanned
    next => exact absurd scanned failed_ne_found
    next stops =>
      refine ⟨(found_inj scanned).1.symm, ?_⟩
      rintro _ _ ⟨⟩
      simpa [continuesNumber] using stops
  next => exact ⟨(found_inj scanned).1.symm, ends_nil _⟩

theorem continuesNumber_exponent : c = 'e' ∨ c = 'E' → continuesNumber c := by
  rintro (rfl | rfl) <;> decide

/-- Where no number goes on there is no exponent. -/
theorem numberExponent_of_ends (ends : Ends continuesNumber other)
    : numberExponent other = found .literalNumber other := by
  cases other with
  | nil => rfl
  | cons c tail =>
      have outside := ends c tail rfl
      have noExponent : ¬(c = 'e' ∨ c = 'E') := by
        intro marker
        rw [continuesNumber_exponent marker] at outside
        cases outside
      unfold numberExponent
      dsimp only
      rw [if_neg (by simpa using noExponent)]
      exact numberEnd_of_ends ends

/-- What follows a number does not go on with it. -/
theorem ends_of_numberExponent (scanned : numberExponent whole = found kind rest)
    : Ends continuesNumber rest := by
  unfold numberExponent at scanned
  split at scanned
  next c tail =>
    split at scanned
    next marker =>
      dsimp only at scanned
      split at scanned
      next => exact absurd scanned failed_ne_found
      next => exact (numberEnd_eq_found scanned).2.2
    next => exact (numberEnd_eq_found scanned).2.2
  next => exact (numberEnd_eq_found scanned).2.2

/-- The sign of an exponent is what stands before its digits. -/
theorem readSign_replace {digits : List Char} (present : digits ≠ [])
    (all : ∀ c ∈ digits, Text.isDigit c) (same : (Decimal.readSign whole).2 = digits ++ rest)
    : ∃ sign,
        whole = sign ++ (digits ++ rest)
        ∧ ∀ back, (Decimal.readSign (sign ++ (digits ++ back))).2 = digits ++ back := by
  unfold Decimal.readSign at same
  split at same
  · exact ⟨['+'], by rw [← same]; rfl, fun _ => rfl⟩
  · exact ⟨['-'], by rw [← same]; rfl, fun _ => rfl⟩
  · refine ⟨[], same, fun back => ?_⟩
    obtain ⟨d, tail, rfl⟩ := List.exists_cons_of_ne_nil present
    have digit := all d List.mem_cons_self
    unfold Decimal.readSign
    split
    next same =>
      obtain ⟨rfl, _⟩ := List.cons.inj same
      exact absurd digit (by decide)
    next same =>
      obtain ⟨rfl, _⟩ := List.cons.inj same
      exact absurd digit (by decide)
    next => rfl

/-- An exponent ends where it did, sign and digits. -/
theorem numberExponent_replaces : Replaces numberExponent := by
  intro whole kind rest scanned
  unfold numberExponent at scanned
  split at scanned
  next c tail =>
    split at scanned
    next marker =>
      dsimp only at scanned
      split at scanned
      next => exact absurd scanned failed_ne_found
      next present =>
        obtain ⟨rfl, rfl, ends⟩ := numberEnd_eq_found scanned
        generalize digits_eq : (Decimal.readSign tail).2 = digits at present scanned ends ⊢
        have present : digits.takeWhile Text.isDigit ≠ [] := by simpa using present
        have all : ∀ c ∈ digits.takeWhile Text.isDigit, Text.isDigit c :=
          fun c => List.mem_takeWhile_imp
        have parts := List.takeWhile_append_dropWhile (p := Text.isDigit) (l := digits)
        obtain ⟨sign, rfl, signed⟩ := readSign_replace present all (digits_eq.trans parts.symm)
        refine ⟨c :: (sign ++ digits.takeWhile Text.isDigit), by simp, fun other follows => ?_⟩
        have ends := ends.follow follows continuesNumber_of_spacing
        obtain ⟨drop, take⟩ := dropWhile_replace digits ends.isDigit
        unfold numberExponent
        simp only [List.cons_append, List.append_assoc, signed, drop, take]
        rw [if_pos marker, if_neg (by simpa using present)]
        exact numberEnd_of_ends ends
    next =>
      obtain ⟨rfl, rfl, ends⟩ := numberEnd_eq_found scanned
      refine ⟨[], rfl, fun other follows => numberExponent_of_ends ?_⟩
      exact ends.follow follows continuesNumber_of_spacing
  next =>
    obtain ⟨rfl, rfl, ends⟩ := numberEnd_eq_found scanned
    refine ⟨[], rfl, fun other follows => numberExponent_of_ends ?_⟩
    exact ends.follow follows continuesNumber_of_spacing

/-- A hexadecimal number ends where it did. -/
theorem hexNumber_replaces : Replaces hexNumber := by
  intro whole kind rest scanned
  unfold hexNumber at scanned
  split at scanned
  next => exact absurd scanned failed_ne_found
  next present =>
    obtain ⟨rfl, rfl, ends⟩ := numberEnd_eq_found scanned
    refine ⟨_, List.takeWhile_append_dropWhile.symm, fun other follows => ?_⟩
    have digitEnds := (ends_dropWhile Text.isHexDigit whole).follow follows isHexDigit_of_spacing
    obtain ⟨drop, take⟩ := dropWhile_replace whole digitEnds
    unfold hexNumber
    rw [drop, take, if_neg present]
    exact numberEnd_of_ends (ends.follow follows continuesNumber_of_spacing)

/-- A number ends where it did, whichever of its parts comes last. -/
theorem number_replaces : Replaces number := by
  intro whole kind rest scanned
  have parts := List.takeWhile_append_dropWhile (p := Text.isDigit) (l := whole)
  have stops := ends_dropWhile Text.isDigit whole
  unfold number at scanned
  dsimp only at scanned
  split at scanned
  next octal =>
    obtain ⟨rfl, rfl, ends⟩ := numberEnd_eq_found scanned
    refine ⟨_, parts.symm, fun other follows => ?_⟩
    have ends := ends.follow follows continuesNumber_of_spacing
    obtain ⟨drop, take⟩ := dropWhile_replace whole ends.isDigit
    unfold number
    rw [drop, take]
    dsimp only
    rw [if_pos octal]
    exact numberEnd_of_ends ends
  next decimal =>
    have numberEnds : Ends continuesNumber rest := by
      split at scanned <;> exact ends_of_numberExponent scanned
    split at scanned
    next fraction point =>
      obtain ⟨text, same, finds⟩ := numberExponent_replaces _ _ _ scanned
      have fractionParts := List.takeWhile_append_dropWhile (p := Text.isDigit) (l := fraction)
      refine ⟨whole.takeWhile Text.isDigit ++ '.' :: (fraction.takeWhile Text.isDigit ++ text), ?_,
        fun other follows => ?_⟩
      · simp only [List.append_assoc, List.cons_append, ← same, fractionParts, ← point, parts]
      · have pointEnds : Ends Text.isDigit
            ('.' :: (fraction.takeWhile Text.isDigit ++ (text ++ other))) := by
          rintro _ _ ⟨⟩
          decide
        have fractionEnds := ends_dropWhile Text.isDigit fraction
        rw [same] at fractionEnds
        have fractionEnds := fractionEnds.replace
          (numberEnds.follow follows continuesNumber_of_spacing).isDigit
        obtain ⟨drop, take⟩ := dropWhile_replace whole pointEnds
        obtain ⟨dropFraction, _⟩ := dropWhile_replace fraction fractionEnds
        unfold number
        simp only [List.append_assoc, List.cons_append, drop, take]
        rw [if_neg decimal, dropFraction]
        exact finds other follows
    next noPoint =>
      obtain ⟨text, same, finds⟩ := numberExponent_replaces _ _ _ scanned
      rw [same] at stops noPoint parts
      refine ⟨whole.takeWhile Text.isDigit ++ text, by rw [List.append_assoc, parts],
        fun other follows => ?_⟩
      have digitEnds := (numberEnds.follow follows continuesNumber_of_spacing).isDigit
      obtain ⟨drop, take⟩ := dropWhile_replace whole (stops.replace digitEnds)
      unfold number
      simp only [List.append_assoc, drop, take]
      rw [if_neg decimal]
      split
      next fraction point =>
        cases text with
        | nil =>
            have pointEnds : Ends (fun c => c = '.') rest := by
              rintro c tail rfl
              exact decide_eq_false fun isPoint => noPoint tail (by rw [isPoint]; rfl)
            have outside := pointEnds.follow follows (by simp [ne_of_spacing, ·])
            exact absurd (outside '.' fraction point) (by decide)
        | cons c text =>
            obtain ⟨rfl, _⟩ := List.cons.inj point
            exact absurd rfl (noPoint (text ++ rest))
      next => exact finds other follows

-----------------------------------------------------------------------------------------
-- Strings and regular expressions
-----------------------------------------------------------------------------------------

/-- A string takes up characters. -/
theorem string_shorter {quote : Char} (scanned : string quote whole = found kind rest)
    : rest.length < whole.length := by
  fun_induction string quote whole with
  | case1 | case4 | case6 => exact absurd scanned failed_ne_found
  | case2 tail ih | case3 c tail noBreak ih | case7 c tail _ _ _ _ _ ih =>
      have := ih scanned
      simp only [List.length_cons]
      omega
  | case5 tail =>
      obtain ⟨_, rfl⟩ := found_inj scanned
      simp

theorem plain_of_not_escape
    (noEscape : ∀ head tail, c = '\\' → rest = head :: tail → False)
    (noEnd : c = '\\' → rest = [] → False)
    : c ≠ '\\' := by
  intro escape
  cases rest with
  | nil => exact noEnd escape rfl
  | cons head tail => exact noEscape head tail escape rfl

/-- Outside of escapes, a string goes on up to its quote or to a line terminator. -/
theorem string_cons {quote : Char} (plain : c ≠ '\\')
    : string quote (c :: rest)
      = if c = quote then found .literalString rest
        else if Text.isLineTerminator c then failed .lineTerminatorInString (c :: rest)
        else string quote rest := by
  rw [string]
  · exact fun tail escape _ => plain escape
  · exact fun d tail escape _ => plain escape
  · exact fun escape _ => plain escape

/-- A string ends with its quote, whatever follows, by the recursion of the scanner. -/
theorem string_replaces (quote : Char) : Replaces (string quote) := by
  intro whole kind rest scanned
  fun_induction string quote whole with
  | case1 => exact absurd scanned failed_ne_found
  | case2 tail ih =>
      obtain ⟨text, rfl, finds⟩ := ih scanned
      refine ⟨'\\' :: '\r' :: '\n' :: text, rfl, fun other follows => ?_⟩
      simp only [List.cons_append, string]
      exact finds other follows
  | case3 c tail noBreak ih =>
      obtain ⟨text, rfl, finds⟩ := ih scanned
      have shorter := string_shorter scanned
      refine ⟨'\\' :: c :: text, rfl, fun other follows => ?_⟩
      rw [List.cons_append, List.cons_append, string]
      · exact finds other follows
      · obtain ⟨d, text, rfl⟩ := List.exists_cons_of_ne_nil (l := text) (by rintro rfl; simp at shorter)
        rintro _ rfl begins
        obtain ⟨rfl, _⟩ := List.cons.inj begins
        exact noBreak _ rfl rfl
  | case4 => exact absurd scanned failed_ne_found
  | case5 tail noBreak noEscape noEnd =>
      obtain ⟨rfl, rfl⟩ := found_inj scanned
      refine ⟨[quote], rfl, fun other follows => ?_⟩
      rw [List.cons_append, List.nil_append, string_cons (plain_of_not_escape noEscape noEnd),
        if_pos rfl]
  | case6 => exact absurd scanned failed_ne_found
  | case7 c tail noBreak noEscape noEnd noQuote noTerminator ih =>
      obtain ⟨text, rfl, finds⟩ := ih scanned
      refine ⟨c :: text, rfl, fun other follows => ?_⟩
      rw [List.cons_append, string_cons (plain_of_not_escape noEscape noEnd), if_neg noQuote,
        if_neg noTerminator]
      exact finds other follows

/-- Outside of escapes, a regular expression goes on up to a slash that is in no class. -/
theorem regex_cons {inClass : Bool} (plain : c ≠ '\\')
    : regex inClass (c :: rest)
      = if Text.isLineTerminator c then failed .unterminatedRegex (c :: rest)
        else if c = '/' && !inClass then regexFlags rest
        else regex (c = '[' || inClass && c != ']') rest := by
  rw [regex]
  · exact fun d tail escape _ => plain escape
  · exact fun escape _ => plain escape

/-- Flags end where they did. -/
theorem regexFlags_of_follow
    (follows : Text.MayFollow (whole.dropWhile Text.asciiPartSet.contains) other)
    : regexFlags (whole.takeWhile Text.asciiPartSet.contains ++ other)
      = found .literalRegex other := by
  have ends := (ends_dropWhile Text.asciiPartSet.contains whole).follow follows
    asciiPartSet_of_spacing
  rw [regexFlags, (dropWhile_replace _ ends).1]

/-- A regular expression ends with its flags, by the recursion of the scanner. -/
theorem regex_replaces (inClass : Bool) : Replaces (regex inClass) := by
  intro whole kind rest scanned
  fun_induction regex inClass whole with
  | case1 | case2 | case4 | case5 => exact absurd scanned failed_ne_found
  | case3 inClass c tail noTerminator ih =>
      obtain ⟨text, rfl, finds⟩ := ih scanned
      refine ⟨'\\' :: c :: text, rfl, fun other follows => ?_⟩
      rw [List.cons_append, List.cons_append, regex, if_neg noTerminator]
      exact finds other follows
  | case6 inClass c tail noEscape noEnd noTerminator closes =>
      obtain ⟨rfl, rfl⟩ := found_inj scanned
      refine ⟨c :: tail.takeWhile Text.asciiPartSet.contains, ?_, fun other follows => ?_⟩
      · rw [List.cons_append, List.takeWhile_append_dropWhile]
      · rw [List.cons_append, regex_cons (plain_of_not_escape noEscape noEnd), if_neg noTerminator,
          if_pos closes]
        exact regexFlags_of_follow follows
  | case7 inClass c tail noEscape noEnd noTerminator goesOn ih =>
      obtain ⟨text, rfl, finds⟩ := ih scanned
      refine ⟨c :: text, rfl, fun other follows => ?_⟩
      rw [List.cons_append, regex_cons (plain_of_not_escape noEscape noEnd), if_neg noTerminator,
        if_neg goesOn]
      exact finds other follows

-----------------------------------------------------------------------------------------
-- Punctuators
-----------------------------------------------------------------------------------------

/-- No punctuator contains a blank or a line terminator. -/
theorem spelling_of_spacing (spacing : Text.isSpacing c)
    : ∀ entry ∈ punctuators, c ∉ entry.2.toList := by
  intro entry member inside
  have all
      : punctuators.all (fun entry => entry.2.toList.all fun c => !Text.isSpacing c) = true := by
    decide
  have none := List.all_eq_true.mp (List.all_eq_true.mp all entry member) c inside
  simp [spacing] at none

/-- A punctuator ends where it did: a longer one would begin with the next character. -/
theorem punctuator_replaces : Replaces punctuator := by
  intro whole kind rest scanned
  unfold punctuator at scanned
  split at scanned
  next kind' spelling longest =>
    obtain ⟨rfl, rfl⟩ := found_inj scanned
    have opens := longestPunctuator?_eq_some.mp longest
    obtain ⟨after, rfl⟩ := opens.opens
    refine ⟨spelling.toList, ?_, fun other follows => ?_⟩
    · rw [← String.length_toList, List.drop_left]
    · have replaced : OpensLongest (spelling.toList ++ other) (kind', spelling) := by
        refine opens.replace ?_
        rcases follows with spaced | same
        · refine .inr fun c head => ?_
          obtain ⟨tail, same⟩ := List.head?_eq_some_iff.mp head
          exact spelling_of_spacing (spaced c tail same)
        · rw [← String.length_toList, List.drop_left] at same
          exact .inl same
      unfold punctuator
      rw [longestPunctuator?_eq_some.mpr replaced]
      dsimp only
      rw [← String.length_toList, List.drop_left]
  next => exact absurd scanned failed_ne_found

-----------------------------------------------------------------------------------------
-- All tokens
-----------------------------------------------------------------------------------------

/-- The next character is the same, unless spacing has come instead of it. -/
theorem head?_replace {character : Char} (outside : ¬Text.isSpacing character)
    (follows : Text.MayFollow rest other) (head : (text ++ other).head? = some character)
    : (text ++ rest).head? = some character := by
  cases text with
  | nil =>
      rcases follows with spaced | same
      · obtain ⟨tail, same⟩ := List.head?_eq_some_iff.mp head
        exact absurd (spaced character tail same) outside
      · exact same.symm.trans head
  | cons c text => exact head

/-- Whether a point opens a number depends on one character behind it. -/
theorem OpensNumber.replace (opens : OpensNumber c (text ++ other))
    (follows : Text.MayFollow rest other)
    : OpensNumber c (text ++ rest) := by
  rcases opens with digit | ⟨isPoint, digit⟩
  · exact .inl digit
  · refine .inr ⟨isPoint, ?_⟩
    obtain ⟨d, head, isDigit⟩ := (Option.any_eq_true ..).mp digit
    have outside : ¬Text.isSpacing d := by
      intro spacing
      rw [isDigit_of_spacing spacing] at isDigit
      cases isDigit
    rw [head?_replace outside follows head]
    exact isDigit

/-- A point that opens a number is followed by a digit of it. -/
theorem number_point {d : Char} (digit : Text.isDigit d) (tail : List Char)
    : (number ('.' :: d :: tail)).rest <:+ tail := by
  have point : Text.isDigit '.' = false := by decide
  unfold number
  rw [List.dropWhile_cons_of_neg (by simp [point]), List.takeWhile_cons_of_neg (by simp [point])]
  refine (numberExponent_suffix _).trans ?_
  rw [List.dropWhile_cons_of_pos digit]
  exact List.dropWhile_suffix _

/-- A scanner that leaves less than the tail of a text has passed over its first character. -/
theorem exists_cons_of_suffix {tail : List Char} (same : c :: tail = text ++ rest)
    (shorter : rest <:+ tail)
    : ∃ inner, text = c :: inner ∧ tail = inner ++ rest := by
  cases text with
  | nil =>
      have := shorter.length_le
      rw [← List.nil_append rest, ← same, List.length_cons] at this
      omega
  | cons d inner =>
      obtain ⟨rfl, tail_eq⟩ := List.cons.inj same
      exact ⟨inner, rfl, tail_eq⟩

/-- A token is not affected by what follows it, apart from the next character. -/
theorem token_replace {mode : LexMode} (scanned : token mode whole = found kind rest)
    (present : whole ≠ [])
    : ∃ text, text ≠ [] ∧ whole = text ++ rest ∧ Finds (token mode) kind text rest := by
  have scans := scans_token mode whole
  generalize token mode whole = scan at scanned scans
  subst scanned
  generalize scan_eq : found kind rest = scan at scans
  cases scans with
  | nothing => exact absurd rfl present
  | hexNumber marked =>
      obtain ⟨text, rfl, finds⟩ := hexNumber_replaces _ _ _ scan_eq.symm
      refine ⟨_ :: _ :: text, List.cons_ne_nil _ _, rfl, fun other follows => ?_⟩
      rw [← finds other follows]
      exact (Scans.hexNumber marked).eq_token
  | @escape tail =>
      have shorter := escapedIdentifier_suffix_tail tail
      rw [← scan_eq, rest_found] at shorter
      obtain ⟨text, same, finds⟩ := escapedIdentifier_replaces scan_eq.symm
      obtain ⟨inner, rfl, rfl⟩ := exists_cons_of_suffix same shorter
      refine ⟨_, List.cons_ne_nil _ _, rfl, fun other follows => ?_⟩
      rw [← finds other follows]
      exact Scans.escape.eq_token
  | @word c tail start =>
      have shorter := word_suffix_tail tail start
      rw [← scan_eq, rest_found] at shorter
      obtain ⟨text, same, finds⟩ := word_replaces _ _ _ scan_eq.symm
      obtain ⟨inner, rfl, rfl⟩ := exists_cons_of_suffix same shorter
      refine ⟨_, List.cons_ne_nil _ _, rfl, fun other follows => ?_⟩
      rw [← finds other follows]
      exact (Scans.word start).eq_token
  | @number c tail opens decimal =>
      have shorter := number_suffix_tail opens
      rw [← scan_eq, rest_found] at shorter
      obtain ⟨text, same, finds⟩ := number_replaces _ _ _ scan_eq.symm
      obtain ⟨inner, rfl, rfl⟩ := exists_cons_of_suffix same shorter
      refine ⟨_, List.cons_ne_nil _ _, rfl, fun other follows => ?_⟩
      rw [← finds other follows]
      refine (Scans.number ?_ fun zero => ⟨fun marker => ?_, fun marker => ?_⟩).eq_token
      · rcases opens with digit | ⟨rfl, digit⟩
        · exact .inl digit
        · refine .inr ⟨rfl, ?_⟩
          cases inner with
          | cons d inner => exact digit
          | nil =>
              obtain ⟨d, head, isDigit⟩ := (Option.any_eq_true ..).mp digit
              obtain ⟨tail, rfl⟩ := List.head?_eq_some_iff.mp head
              have shorter := (number_point isDigit tail).length_le
              rw [List.nil_append] at scan_eq
              rw [← scan_eq, rest_found, List.length_cons] at shorter
              omega
      · exact (decimal zero).1 (head?_replace (by decide) follows marker)
      · exact (decimal zero).2 (head?_replace (by decide) follows marker)
  | string quotes =>
      obtain ⟨text, rfl, finds⟩ := string_replaces _ _ _ _ scan_eq.symm
      refine ⟨_ :: text, List.cons_ne_nil _ _, rfl, fun other follows => ?_⟩
      rw [← finds other follows]
      exact (Scans.string quotes).eq_token
  | regex operand =>
      obtain ⟨text, rfl, finds⟩ := regex_replaces _ _ _ _ scan_eq.symm
      refine ⟨_ :: text, List.cons_ne_nil _ _, rfl, fun other follows => ?_⟩
      rw [← finds other follows]
      exact (Scans.regex operand).eq_token
  | @punctuator c tail noEscape noStart noNumber noQuote noRegex =>
      have shorter := punctuator_suffix_tail c tail
      rw [← scan_eq, rest_found] at shorter
      obtain ⟨text, same, finds⟩ := punctuator_replaces _ _ _ scan_eq.symm
      obtain ⟨inner, rfl, rfl⟩ := exists_cons_of_suffix same shorter
      refine ⟨_, List.cons_ne_nil _ _, rfl, fun other follows => ?_⟩
      rw [← finds other follows]
      refine (Scans.punctuator noEscape noStart ?_ noQuote noRegex).eq_token
      exact fun opens => noNumber (opens.replace follows)

end Scan

/-- No comment begins where a token does, whatever follows it. -/
theorem Trivia.Stops.replace {text rest other : List Char} (stops : Trivia.Stops (text ++ rest))
    (present : text ≠ []) (follows : Text.MayFollow rest other)
    : Trivia.Stops (text ++ other) := by
  obtain ⟨c, text, rfl⟩ := List.exists_cons_of_ne_nil present
  obtain ⟨plain, noComment⟩ := Trivia.stops_cons.mp stops
  refine Trivia.stops_cons.mpr ⟨plain, fun slash => ?_⟩
  obtain ⟨noLine, noBlock⟩ := noComment slash
  exact ⟨fun head => noLine (Scan.head?_replace (by decide) follows head),
    fun head => noBlock (Scan.head?_replace (by decide) follows head)⟩

end EcmaSyntax
