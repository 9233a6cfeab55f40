import EcmaSyntax.Proofs.Bytes.Dispatch
import EcmaSyntax.Proofs.Text.Numerals
import EcmaSyntax.Proofs.Text.Units
import EcmaSyntax.Proofs.Token.Names

/-! The spellings of a name. Any of its characters up to U+FFFF can be written as an escape, and every such
spelling is one identifier that stands for the name.
-/

namespace EcmaSyntax

/-- The text spells the name, with escapes for any of its characters. -/
inductive Text.SpellsName : List Char → List Char → Prop
  | nil : SpellsName [] []
  | raw {c : Char} {spelling name : List Char} (spells : SpellsName spelling name)
    : SpellsName (c :: spelling) (c :: name)
  | escape {c : Char} {digits spelling name : List Char} (four : digits.length = 4)
    (writes : Writes 16 digits c.toNat) (spells : SpellsName spelling name)
    : SpellsName ('\\' :: 'u' :: (digits ++ spelling)) (c :: name)

namespace Scan

variable {c : Char} {digits spelling name tail rest : List Char}

/-- Four digits after `u` escape the character whose code point they write. -/
theorem escapedChar?_of_writes (four : digits.length = 4) (writes : Text.Writes 16 digits c.toNat)
    (tail : List Char)
    : escapedChar? ('\\' :: 'u' :: (digits ++ tail)) = some c := by
  match digits, four with
  | [first, second, third, fourth], _ =>
      have code : Text.digitsValue? 16 [first, second, third, fourth] = some c.toNat :=
        writes.digitsValue? (by decide) (by decide)
      simp only [List.cons_append, escapedChar?, code, Option.bind_some, Text.charOfCode?_toNat]

/-- The backslash of an escape is no part of an identifier itself. -/
theorem not_isIdentifierPart_escape : ¬Text.isIdentifierPart '\\' := by
  decide

/-- An escape for a character of a name is passed over. -/
theorem identifierTail_escape (escaped : escapedChar? ('\\' :: tail) = some c)
    (part : Text.isIdentifierPart c)
    : identifierTail 0 ('\\' :: tail) = identifierTail 5 tail := by
  rw [identifierTail, if_pos rfl, escaped]
  exact if_pos part

/-- An identifier may begin with the escape for a character that may open one. -/
theorem escapedIdentifier_eq (escaped : escapedChar? ('\\' :: tail) = some c)
    (start : Text.isIdentifierStart c)
    : escapedIdentifier ('\\' :: tail) = identifierTail 0 ('\\' :: tail) := by
  rw [identifierTail_escape escaped (Text.isIdentifierPart_of_start start), escapedIdentifier, escaped]
  exact if_pos start

/-- The scan of an identifier passes over a spelling. -/
theorem identifierTail_of_spells (spells : Text.SpellsName spelling name)
    (parts : ∀ c ∈ name, Text.isIdentifierPart c) (ends : Ends continuesName rest)
    : identifierTail 0 (spelling ++ rest) = found .identifier rest := by
  induction spells with
  | nil => exact identifierTail_of_ends ends
  | raw _ ih =>
      obtain ⟨part, parts⟩ := List.forall_mem_cons.mp parts
      rw [List.cons_append, Bytes.identifierTail_part part, ih parts]
  | @escape c digits spelling name four writes _ ih =>
      obtain ⟨part, parts⟩ := List.forall_mem_cons.mp parts
      rw [List.cons_append, List.cons_append, List.append_assoc,
        identifierTail_escape (escapedChar?_of_writes four writes _) part, Bytes.identifierTail_drop,
        List.drop_succ_cons, ← four, List.drop_left, ih parts]

/-- The characters in front of the first escape are the name, or the escape follows them. -/
theorem takeWhile_of_spells (spells : Text.SpellsName spelling name)
    (parts : ∀ c ∈ name, Text.isIdentifierPart c) (ends : Ends continuesName rest)
    : (spelling ++ rest).takeWhile Text.isIdentifierPart = name
      ∨ ((spelling ++ rest).dropWhile Text.isIdentifierPart).head? = some '\\' := by
  induction spells with
  | nil =>
      have partEnds : Ends Text.isIdentifierPart rest := fun c tail same =>
        (Bool.or_eq_false_iff.mp (ends c tail same)).2
      exact .inl (dropWhile_of_ends partEnds).2
  | raw _ ih =>
      obtain ⟨part, parts⟩ := List.forall_mem_cons.mp parts
      rw [List.cons_append, List.takeWhile_cons_of_pos part, List.dropWhile_cons_of_pos part,
        List.cons.injEq]
      exact (ih parts).imp_left fun same => ⟨rfl, same⟩
  | escape =>
      rw [List.cons_append, List.dropWhile_cons_of_neg not_isIdentifierPart_escape]
      exact .inr rfl

/-- A spelling of a name that is not reserved is scanned as an identifier. -/
theorem token_of_spells (mode : LexMode) (isName : Text.IsName name) (free : wordKind? name = none)
    (spells : Text.SpellsName spelling name) (ends : Ends continuesName rest)
    : token mode (spelling ++ rest) = found .identifier rest := by
  have parts := isName.isIdentifierPart
  have scanned := identifierTail_of_spells spells parts ends
  obtain ⟨first, last, rfl, start, _⟩ := isName
  cases spells with
  | @raw _ spelling _ spells =>
      have plain (kind : Kind)
          (reserved : wordKind? ((first :: spelling ++ rest).takeWhile Text.isIdentifierPart) = some kind)
          : ((first :: spelling ++ rest).dropWhile Text.isIdentifierPart).head? = some '\\' := by
        refine (takeWhile_of_spells (.raw spells) parts ends).resolve_left fun same => ?_
        rw [same, free] at reserved
        cases reserved
      exact (Scans.word start).eq_token.trans ((Bytes.word_eq_identifierTail plain).trans scanned)
  | @escape _ digits spelling _ four writes =>
      have escaped := escapedChar?_of_writes four writes (spelling ++ rest)
      rw [← List.append_assoc] at escaped
      exact Scans.escape.eq_token.trans ((escapedIdentifier_eq escaped start).trans scanned)

end Scan

/-- The decoder takes a spelling for the name. -/
theorem Text.nameChars_of_spells {spelling name : List Char} (spells : SpellsName spelling name)
    (parts : ∀ c ∈ name, isIdentifierPart c)
    : nameChars 0 spelling = name := by
  induction spells with
  | nil => rfl
  | @raw c spelling name _ ih =>
      obtain ⟨part, parts⟩ := List.forall_mem_cons.mp parts
      have noEscape : c ≠ '\\' := by
        rintro rfl
        exact Scan.not_isIdentifierPart_escape part
      rw [nameChars_cons noEscape, ih parts]
  | @escape c digits spelling name four writes _ ih =>
      obtain ⟨_, parts⟩ := List.forall_mem_cons.mp parts
      rw [nameChars_escape (Scan.escapedChar?_of_writes four writes spelling), List.drop_succ_cons,
        ← four, List.drop_left, ih parts]

/-- The first character of an identifier begins no trivia. -/
theorem Trivia.stops_of_spells {spelling name : List Char} (isName : Text.IsName name)
    (spells : Text.SpellsName spelling name) (rest : List Char)
    : Stops (spelling ++ rest) := by
  obtain ⟨first, last, rfl, start, _⟩ := isName
  cases spells with
  | raw => exact Trivia.stops_of_start start
  | escape => exact Trivia.stops_cons.mpr ⟨by decide, nofun⟩

/-- Escaping characters of a name does not change it: every spelling of a name that is not reserved, with
nothing behind it that an identifier goes on with, is read in both modes as one identifier over all of it,
and the identifier has that name.
-/
theorem Script.reads_spelling {script : Script} {offset : Nat} {spelling name rest : List Char}
    (isName : Text.IsName name) (free : wordKind? name = none) (spells : Text.SpellsName spelling name)
    (mode : LexMode) (cut : Text.drop? offset script.source = some (spelling ++ rest))
    (ends : Scan.Ends Scan.continuesName rest)
    : ∃ token,
        script.Reads mode offset token
        ∧ token.kind = .identifier
        ∧ token.span
          = {
              start := offset
              stop := offset + Text.size spelling
            }
        ∧ script.nameOf token = String.ofList name := by
  have scanned := Scan.token_of_spells mode isName free spells ends
  have stops := Trivia.stops_of_spells isName spells rest
  refine ⟨_, Token.read?_of_stops cut stops scanned, rfl, rfl, ?_⟩
  rw [nameOf, script.textOf_of_drop? cut, Text.decodeName,
    Text.nameChars_of_spells spells isName.isIdentifierPart]

/-- A reserved word goes on with an escape, which is followed by a character beyond ASCII and an escaped
digit.
-/
theorem Script.reads_spelling_reserved_front
    : Text.IsName "varΩé1".toList
      ∧ wordKind? "varΩé1".toList = none
      ∧ Text.SpellsName "var\\u03a9é\\u0031".toList "varΩé1".toList
      ∧ Text.drop? 1 "(var\\u03a9é\\u0031)".toList = some ("var\\u03a9é\\u0031".toList ++ [')'])
      ∧ Scan.Ends Scan.continuesName [')']
      ∧ ∃ token,
          Script.Reads
              {
                source := "(var\\u03a9é\\u0031)".toList
                dialect := .js
              }
              .regex 1 token
          ∧ token.kind = .identifier
          ∧ token.span
            = {
                start := 1
                stop := 18
              }
          ∧ Script.nameOf
                {
                  source := "(var\\u03a9é\\u0031)".toList
                  dialect := .js
                }
                token
            = "varΩé1" := by
  have isName : Text.IsName "varΩé1".toList :=
    ⟨'v', "arΩé1".toList, rfl, by decide, List.all_eq_true.mp (by decide)⟩
  have free : wordKind? "varΩé1".toList = none := rfl
  have spells : Text.SpellsName "var\\u03a9é\\u0031".toList "varΩé1".toList :=
    .raw (.raw (.raw (@Text.SpellsName.escape 'Ω' ['0', '3', 'a', '9'] _ _ rfl ⟨1, by decide⟩
      (.raw (@Text.SpellsName.escape '1' ['0', '0', '3', '1'] _ _ rfl ⟨2, by decide⟩ .nil)))))
  have cut
      : Text.drop? 1 "(var\\u03a9é\\u0031)".toList
        = some ("var\\u03a9é\\u0031".toList ++ [')']) := by
    decide
  have ends : Scan.Ends Scan.continuesName [')'] := by
    rintro _ _ ⟨⟩
    decide
  obtain ⟨token, read, kind, span, name⟩ :=
    @reads_spelling ⟨"(var\\u03a9é\\u0031)".toList, .js⟩ 1 _ _ _ isName free spells .regex cut ends
  exact ⟨isName, free, spells, cut, ends, token, read, kind, span.trans (by decide), name⟩

end EcmaSyntax
