import EcmaSyntax.Proofs.Form.Scalars
import EcmaSyntax.Proofs.Number.Decimals
import EcmaSyntax.Proofs.Token.Names

/-! The codes of long escapes and the words of numbers. The reader leaves both to readers of numbers, which
take a few spellings more than the notation of forms has: a plus sign in place of the first digit of a code,
and the names of infinity and of NaN behind a minus sign.
-/

namespace EcmaSyntax

/-- What may stand behind `\u` in a string, and which words are numbers. -/
structure Spelling where
  IsCode : List Char → Prop
  IsNumeral : List Char → Prop

namespace Spelling

/-- Codes have four hexadecimal digits, and numbers are three names and the decimal numbers with or without
a minus sign.
-/
def strict : Spelling where
  IsCode code := code.length = 4 ∧ ∀ c ∈ code, Text.isHexDigit c
  IsNumeral word :=
    word = "NaN".toList
    ∨ word = "Infinity".toList
    ∨ word = "-Infinity".toList
    ∨ ∃ digits, Decimal.IsUnsigned digits ∧ (word = digits ∨ word = '-' :: digits)

/-- A plus sign may stand for the first digit of a code, and behind a minus sign `inf`, `infinity` and `nan`
are numbers in any case.
-/
def lenient : Spelling where
  IsCode code :=
    strict.IsCode code
    ∨ ∃ digits, code = '+' :: digits ∧ digits.length = 3 ∧ ∀ c ∈ digits, Text.isHexDigit c
  IsNumeral word :=
    strict.IsNumeral word
    ∨ ∃ name,
        word = '-' :: name
        ∧ name.map Char.toLower ∈ ["inf".toList, "infinity".toList, "nan".toList]

end Spelling

-----------------------------------------------------------------------------------------
-- Codes
-----------------------------------------------------------------------------------------

namespace Text

/-- The code that the reader finds behind `\u`, with its value. -/
def codeOf? (text : List Char) : Option (List Char × Nat) :=
  (take? 4 text).bind fun digits => (signedHexValue? digits).map fun value => (digits, value)

/-- A code that is found is one of the notation, at the beginning of the text. -/
theorem isCode_of_codeOf? {text code : List Char} {value : Nat} (found : codeOf? text = some (code, value))
    : Spelling.lenient.IsCode code ∧ ∃ rest, text = code ++ rest := by
  obtain ⟨code, taken, found⟩ := Option.bind_eq_some_iff.mp found
  obtain ⟨value, valued, same⟩ := Option.map_eq_some_iff.mp found
  obtain ⟨rfl, rfl⟩ := Prod.mk.inj same
  obtain ⟨rest, text_eq, bytes⟩ := take?_eq_some.mp taken
  refine ⟨?_, rest, text_eq⟩
  have hexadecimal {hex : List Char} (valued : digitsValue? 16 hex = some value)
      : (∀ c ∈ hex, isHexDigit c) ∧ size hex = hex.length := by
    have digits := (isSome_digitsValue?_iff.mp (Option.isSome_of_eq_some valued)).2
    exact ⟨digits, size_of_single fun c member => utf8Size_of_isHexDigit (digits c member)⟩
  unfold signedHexValue? at valued
  split at valued
  next hex _ =>
    obtain ⟨digits, width⟩ := hexadecimal valued
    have sign : '+'.utf8Size = 1 := rfl
    rw [size_cons, width] at bytes
    exact .inr ⟨hex, rfl, by omega, digits⟩
  next =>
    obtain ⟨digits, width⟩ := hexadecimal valued
    exact .inl ⟨by omega, digits⟩

/-- A code of the notation is found, whatever follows. -/
theorem codeOf?_of_isCode {code : List Char} (isCode : Spelling.lenient.IsCode code)
    : ∃ value, ∀ rest, codeOf? (code ++ rest) = some (code, value) := by
  have found (bytes : size code = 4) (valued : (signedHexValue? code).isSome)
      : ∃ value, ∀ rest, codeOf? (code ++ rest) = some (code, value) := by
    obtain ⟨value, valued⟩ := Option.isSome_iff_exists.mp valued
    refine ⟨value, fun rest => ?_⟩
    have taken := take?_size_append code rest
    rw [bytes] at taken
    simp [codeOf?, taken, valued]
  have valued {hex : List Char} (present : hex ≠ []) (digits : ∀ c ∈ hex, isHexDigit c)
      : size hex = hex.length ∧ (digitsValue? 16 hex).isSome :=
    ⟨size_of_single fun c member => utf8Size_of_isHexDigit (digits c member),
      isSome_digitsValue? present digits⟩
  rcases isCode with ⟨length, digits⟩ | ⟨hex, rfl, length, digits⟩
  · obtain ⟨width, value⟩ := valued (List.ne_nil_of_length_eq_add_one length) digits
    refine found (by omega) ?_
    unfold signedHexValue?
    split
    next => exact absurd (digits '+' List.mem_cons_self) (by decide)
    next => exact value
  · obtain ⟨width, value⟩ := valued (List.ne_nil_of_length_eq_add_one length) digits
    have sign : '+'.utf8Size = 1 := rfl
    exact found (by rw [size_cons, width, length, sign]) value

end Text

-----------------------------------------------------------------------------------------
-- Numbers
-----------------------------------------------------------------------------------------

namespace Number

/-- Where a number may begin, a word that is read as one is a number. -/
theorem isSome_numberOfWord?_of_opens {first : Char} {rest : List Char}
    (opens : Text.isDigit first ∨ first = '-' ∨ first = '.')
    (valued : (ofText? (first :: rest)).isSome)
    : (Form.numberOfWord? (first :: rest)).isSome := by
  unfold Form.numberOfWord?
  split_ifs with _ _ _ closed
  · rfl
  · rfl
  · rfl
  · exact valued
  · exact absurd (by simpa [or_assoc] using opens) closed

/-- The words that are read as numbers. -/
theorem isNumeral_iff {word : List Char}
    : Spelling.lenient.IsNumeral word ↔ (Form.numberOfWord? word).isSome := by
  constructor
  · rintro ((rfl | rfl | rfl | ⟨digits, isUnsigned, rfl | rfl⟩) | ⟨name, rfl, listed⟩)
    · rfl
    · rfl
    · rfl
    · obtain ⟨first, rest, rfl, opens⟩ := isUnsigned.opens
      exact isSome_numberOfWord?_of_opens (opens.imp_right .inr)
        ((isSome_ofText?_of_opens opens).mpr isUnsigned)
    · exact isSome_numberOfWord?_of_opens (.inr (.inl rfl)) (isSome_ofText?_minus.mpr (.inl isUnsigned))
    · exact isSome_numberOfWord?_of_opens (.inr (.inl rfl)) (isSome_ofText?_minus.mpr (.inr listed))
  · intro valued
    unfold Form.numberOfWord? at valued
    split_ifs at valued with isNaN isInfinity isNegative opens
    · exact .inl (.inl isNaN)
    · exact .inl (.inr (.inl isInfinity))
    · exact .inl (.inr (.inr (.inl isNegative)))
    · cases word with
      | nil => cases opens
      | cons first rest =>
          simp only [List.head?_cons, Option.any_some, Bool.or_eq_true, decide_eq_true_eq] at opens
          by_cases minus : first = '-'
          · subst minus
            rcases isSome_ofText?_minus.mp valued with isUnsigned | listed
            · exact .inl (.inr (.inr (.inr ⟨rest, isUnsigned, .inr rfl⟩)))
            · exact .inr ⟨rest, rfl, listed⟩
          · have isUnsigned := (isSome_ofText?_of_opens (by tauto)).mp valued
            exact .inl (.inr (.inr (.inr ⟨_, isUnsigned, .inl rfl⟩)))
    · cases valued

end Number

namespace Form

/-- Characters of numbers neither end words nor begin longer values. -/
theorem isPlain_of_isLiteralChar {c : Char} (literal : Number.isLiteralChar c) : IsPlain c := by
  simp only [Number.isLiteralChar, Bool.or_eq_true, decide_eq_true_eq, or_assoc] at literal
  rcases literal with digit | rfl | rfl | rfl | rfl | rfl
  · exact isPlain_of_isDigit digit
  all_goals decide

/-- A capital letter is as plain as the small one. -/
theorem isPlain_of_toLower {c : Char} (plain : IsPlain c.toLower) : IsPlain c := by
  by_cases capital : c.val ≥ 'A'.val ∧ c.val ≤ 'Z'.val
  · exact isPlain_of_range (.inr capital)
  · unfold Char.toLower at plain
    rwa [dif_neg capital] at plain

/-- A number takes up one word. -/
theorem isPlain_of_isNumeral {word : List Char} (isNumeral : Spelling.lenient.IsNumeral word)
    : ∀ c ∈ word, IsPlain c := by
  have decimal {digits : List Char} (isUnsigned : Decimal.IsUnsigned digits) : ∀ c ∈ digits, IsPlain c :=
    fun c member => isPlain_of_isLiteralChar (isUnsigned.characters c member)
  rcases isNumeral with (rfl | rfl | rfl | ⟨digits, isUnsigned, rfl | rfl⟩) | ⟨name, rfl, listed⟩
  · exact isPlain_of_all (by decide)
  · exact isPlain_of_all (by decide)
  · exact isPlain_of_all (by decide)
  · exact decimal isUnsigned
  · exact List.forall_mem_cons.mpr ⟨by decide, decimal isUnsigned⟩
  · have names : ∀ name ∈ ["inf".toList, "infinity".toList, "nan".toList], ∀ c ∈ name, IsPlain c := by
      refine List.forall_mem_cons.mpr ⟨isPlain_of_all (by decide), List.forall_mem_cons.mpr ⟨?_, ?_⟩⟩
      · exact isPlain_of_all (by decide)
      · exact List.forall_mem_singleton.mpr (isPlain_of_all (by decide))
    refine List.forall_mem_cons.mpr ⟨by decide, fun c member => isPlain_of_toLower ?_⟩
    exact names _ listed _ (List.mem_map_of_mem member)

end Form

end EcmaSyntax
