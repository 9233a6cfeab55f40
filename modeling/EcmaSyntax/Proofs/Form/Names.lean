import EcmaSyntax.Proofs.Form.Leaves
import EcmaSyntax.Proofs.Grammar.Names

/-! The atoms of canonical forms. They are tags and names of variables, and no character of a name ends a
word, so that the form of every parsed program is read back from what is written of it.
-/

namespace EcmaSyntax

open EcmaSyntax.Form

-----------------------------------------------------------------------------------------
-- Names are words
-----------------------------------------------------------------------------------------

namespace Text

/-- A name is a word, as no character of a name ends one. -/
theorem IsName.isWord {name : String} (isName : IsName name.toList) : IsWord name := by
  refine ⟨?_, fun c member => ?_⟩
  · rintro rfl
    obtain ⟨c, rest, none, _⟩ := isName
    cases none
  · have part := isName.isIdentifierPart c member
    have visible := isWhiteSpace_of_part part
    simp only [isDelimiter, visible, Bool.false_or, Bool.or_eq_false_iff, decide_eq_false_iff_not]
    refine ⟨⟨?_, ?_⟩, ?_⟩ <;>
      · rintro rfl
        exact absurd part (by decide)

end Text

-----------------------------------------------------------------------------------------
-- The forms of parsed programs
-----------------------------------------------------------------------------------------

namespace Form

/-- Anything but an atom that is no word. -/
def IsWellNamed : Form → Prop
  | atom name => IsWord name
  | _ => True

/-- Tags are words, so only names of variables are to be looked at. -/
theorem closed_isWellNamed : Closed IsWellNamed where
  nil := trivial
  string _ := trivial
  tag isWord := isWord

mutual

/-- Every atom of a form is a word if every leaf is, by induction on the form. -/
theorem wellNamed_of_leaves (form : Form) (leaves : form.Leaves IsWellNamed) : form.WellNamed := by
  cases form with
  | list items => exact allWellNamed_of_leaves items leaves
  | nil | atom | string | number => exact leaves

theorem allWellNamed_of_leaves (items : List Form) (leaves : AllLeaves IsWellNamed items)
    : AllWellNamed items := by
  cases items with
  | nil => trivial
  | cons item items =>
      exact ⟨wellNamed_of_leaves item leaves.1, allWellNamed_of_leaves items leaves.2⟩

end

/-- The form of a program whose nodes are named by names has words for atoms only. -/
theorem wellNamed_ofProgram {program : Program}
    (named : ∀ node, (Node.program program).Within node → node.Named)
    : (ofProgram program).WellNamed := by
  refine allWellNamed_of_leaves _ (leaves_ofStmts closed_isWellNamed program.body ?_)
  intro statement member inner within
  have below : (Node.program program).Within (.statement statement) :=
    .child .self (List.mem_map_of_mem member)
  have innerNamed := named inner (within.trans below)
  cases inner with
  | expression value => cases value <;> trivial
  | declaration inner =>
      intro declarator listed
      exact (innerNamed _ (List.mem_map_of_mem listed)).isWord
  | _ => trivial

end Form

namespace Program

variable {source : List Char} {dialect : Dialect} {program : Program}

/-- Names are well-formed after their escapes are decoded: every name in the tree of a parsed program
begins with a character that may open an identifier and goes on with characters that may stand in one.
Hence the atoms of the form of the program are words, and both notations of the form are read as it.
-/
theorem names_read_back_of_parse (parsed : parse source dialect = .ok program)
    : (∀ node,
          (Node.program program).Within node →
          ∀ name ∈ node.names, Text.IsName name.toList)
      ∧ (Form.ofProgram program).WellNamed
      ∧ ReadsAs (Form.ofProgram program).write (Form.ofProgram program)
      ∧ ReadsAs (Form.ofProgram program).pretty (Form.ofProgram program) := by
  have named : ∀ node, (Node.program program).Within node → node.Named :=
    fun node within => named_of_parse parsed within
  have wellNamed := Form.wellNamed_ofProgram named
  exact ⟨named, wellNamed, wellNamed.readsAs⟩

/-- A name written with an escape is the name without. -/
theorem names_read_back_of_parse_escape
    : ∃ program,
        parse "for (var \\u0061\u0062 in c) { }".toList .ecma = .ok program
        ∧ (Form.ofProgram program).write
          = "[[:for_in, [:var_decl, :ab, nil], [:resolve, \"c\"], [:block, []]]]".toList
        ∧ ReadsAs (Form.ofProgram program).write (Form.ofProgram program) := by
  have written
      : (parse "for (var \\u0061\u0062 in c) { }".toList .ecma).toOption.map
            (fun program => (Form.ofProgram program).write)
          = some
              "[[:for_in, [:var_decl, :ab, nil], [:resolve, \"c\"], [:block, []]]]".toList := by
    decide +kernel
  cases parsed : parse "for (var \\u0061\u0062 in c) { }".toList .ecma with
  | error failure =>
      rw [parsed] at written
      cases written
  | ok program =>
      rw [parsed] at written
      have text := Option.some.inj written
      exact ⟨program, rfl, text, (names_read_back_of_parse parsed).2.2.1⟩

end Program

end EcmaSyntax
