import EcmaSyntax.Proofs.Grammar.Names

/-! Reserved words as names. The lexer compares a word with the reserved ones as it is written, and a word
with an escape in it is an identifier whatever it spells. So a name in a tree is a reserved word only if
it was written with an escape.
-/

namespace EcmaSyntax

namespace Scan

variable {text rest : List Char} {c : Char} {mode : LexMode}

/-- A word that is an identifier has an escape in it or is not reserved. -/
theorem wordKind?_of_word (scanned : word (text ++ rest) = found .identifier rest)
    (plain : '\\' ∉ text)
    : wordKind? text = none := by
  have parts := List.takeWhile_append_dropWhile (p := Text.isIdentifierPart) (l := text ++ rest)
  have reserved : ∀ entry ∈ reservedWords, entry.1 ≠ .identifier := by decide
  unfold word at scanned
  dsimp only at scanned
  split at scanned
  next tail goesOn =>
    rw [goesOn] at scanned parts
    have suffix : (identifierTail 0 ('\\' :: tail)).rest <:+ tail :=
      identifierTail_suffix_tail tail (.inr rfl)
    rw [scanned, rest_found] at suffix
    obtain ⟨back, rfl⟩ := suffix
    -- What the escape opens is part of the identifier.
    have same : text = (text ++ rest).takeWhile Text.isIdentifierPart ++ '\\' :: back :=
      List.append_cancel_right (by rw [List.append_assoc, List.cons_append, parts])
    rw [same] at plain
    simp at plain
  next kind spelled _ =>
    obtain ⟨entry, listed, rfl⟩ := Option.map_eq_some_iff.mp spelled
    exact absurd (found_inj scanned).1 (reserved entry (List.mem_of_find?_eq_some listed))
  next free _ =>
    rw [(found_inj scanned).2] at parts
    rwa [List.append_cancel_right parts] at free

/-- An identifier that is written without an escape is not reserved. -/
theorem wordKind?_of_token (scanned : token mode (text ++ rest) = found .identifier rest)
    (plain : '\\' ∉ text)
    : wordKind? text = none := by
  have found := foundBy_of_token scanned
  generalize whole_eq : text ++ rest = whole at found
  cases found with
  | word _ _ read => exact wordKind?_of_word (whole_eq ▸ read) plain
  | punctuator spelled => cases spelled
  | @escape tail read =>
      have shorter := (escapedIdentifier_suffix_tail tail).length_le
      rw [read, rest_found] at shorter
      cases text with
      | nil =>
          rw [List.nil_append] at whole_eq
          rw [whole_eq, List.length_cons] at shorter
          omega
      | cons c text =>
          obtain ⟨rfl, _⟩ := List.cons.inj whole_eq
          simp at plain

end Scan

variable {script : Script} {mode : LexMode} {offset : Nat} {token : Token} {name : String}

/-- The name of an identifier that is written without an escape is not reserved. -/
theorem Script.Reads.wordKind?_nameOf (read : script.Reads mode offset token)
    (named : token.kind = .identifier) (plain : '\\' ∉ script.textOf token.span)
    : wordKind? (script.nameOf token).toList = none := by
  obtain ⟨front, gap, text, rest, lies, scanned⟩ := Token.exists_found read named (by decide)
  rw [script.textOf_of_lies lies] at plain
  rw [nameOf, script.textOf_of_lies lies, Text.decodeName, String.toList_ofList,
    Text.nameChars_of_plain plain]
  exact Scan.wordKind?_of_token scanned plain

namespace Program

variable {source : List Char} {dialect : Dialect} {program : Program} {node : Node}

/-- A reserved word that is a name anywhere in a parsed program is that of an identifier with an escape
in it.
-/
theorem escaped_of_reserved (parsed : parse source dialect = .ok program)
    (within : (Node.program program).Within node) (member : name ∈ node.names)
    (reserved : (wordKind? name.toList).isSome)
    : ∃ mode offset token,
        Script.Reads { source, dialect } mode offset token
        ∧ token.kind = .identifier
        ∧ Script.nameOf { source, dialect } token = name
        ∧ '\\' ∈ Script.textOf { source, dialect } token.span := by
  obtain ⟨mode, offset, token, read, named, rfl⟩ := mentioned_of_parse parsed within name member
  refine ⟨mode, offset, token, read, named, rfl, ?_⟩
  by_contra plain
  rw [read.wordKind?_nameOf named plain] at reserved
  cases reserved

/-- The name of the variable that the program begins by declaring. -/
def declared? (program : Program) : Option String :=
  match program.body with
  | .declaration inner :: _ => inner.declarators.head?.map Declarator.name
  | _ => none

/-- The declared variable has its name in a node of the program. -/
theorem exists_named_of_declared? (declared : program.declared? = some name)
    : ∃ node, (Node.program program).Within node ∧ name ∈ node.names := by
  unfold declared? at declared
  split at declared
  next inner rest body_eq =>
    obtain ⟨declarator, first, rfl⟩ := Option.map_eq_some_iff.mp declared
    have statement : (Node.program program).Within (.statement (.declaration inner)) :=
      .child .self (by simp [Node.children, body_eq])
    refine ⟨.declaration inner, .child statement List.mem_cons_self, ?_⟩
    exact List.mem_map_of_mem (List.mem_of_head? first)
  next => cases declared

/-- A reserved word is declared if a letter of it is escaped. -/
theorem declared?_escaped
    : ∃ program,
        parse "var cl\\u0061ss".toList .js = .ok program
        ∧ program.declared? = some "class" := by
  have declared : (parse "var cl\\u0061ss".toList .js).toOption.bind declared? = some "class" := by
    decide +kernel
  cases parsed : parse "var cl\\u0061ss".toList .js with
  | error failure =>
      rw [parsed] at declared
      cases declared
  | ok program =>
      rw [parsed] at declared
      exact ⟨program, rfl, declared⟩

/-- A reserved word is declared if one of its letters is written as an escape. -/
theorem reserved_declared
    : ∃ program node,
        parse "var cl\\u0061ss".toList .js = .ok program
        ∧ (Node.program program).Within node
        ∧ "class" ∈ node.names
        ∧ (wordKind? "class".toList).isSome := by
  obtain ⟨program, parsed, declared⟩ := declared?_escaped
  obtain ⟨node, within, member⟩ := exists_named_of_declared? declared
  exact ⟨program, node, parsed, within, member, by decide⟩

/-- The reserved word of such a declaration is a token with an escape. -/
theorem escaped_of_reserved_class
    : ∃ program node mode offset token,
        parse "var cl\\u0061ss".toList .js = .ok program
        ∧ (Node.program program).Within node
        ∧ "class" ∈ node.names
        ∧ (wordKind? "class".toList).isSome
        ∧ Script.Reads { source := "var cl\\u0061ss".toList, dialect := .js } mode offset token
        ∧ '\\'
          ∈ Script.textOf { source := "var cl\\u0061ss".toList, dialect := .js } token.span := by
  obtain ⟨program, parsed, declared⟩ := declared?_escaped
  obtain ⟨node, within, member⟩ := exists_named_of_declared? declared
  have reserved : (wordKind? "class".toList).isSome := by decide
  obtain ⟨mode, offset, token, read, _, _, escaped⟩ :=
    escaped_of_reserved parsed within member reserved
  exact ⟨program, node, mode, offset, token, parsed, within, member, reserved, read, escaped⟩

end Program

end EcmaSyntax
