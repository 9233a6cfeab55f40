import EcmaSyntax.Proofs.Grammar.Edges
import EcmaSyntax.Proofs.Grammar.Soundness.Program

/-! Statements in a row. The same statements parse as a program, in a block and in the body of a function,
for what they are followed by is looked at only where they end.
-/

namespace EcmaSyntax

open EcmaSyntax.Grammar

variable {script : Script} {offset : Nat} {tokens : List Token} {statements : List Stmt}

/-- Where a token is consumed, the same token or a slash is read outside of operands. -/
theorem Script.Reads.exists_standard {token : Token}
    (read : script.Reads token.kind.mode offset token)
    : ∃ next, script.Reads .standard offset next ∧ (next = token ∨ next.kind.isSlash) := by
  obtain ⟨rest, cut, _⟩ := Option.map_eq_some_iff.mp read
  obtain ⟨next, readNext⟩ := Token.exists_read? .standard ⟨rest, cut⟩
  refine ⟨next, readNext, ?_⟩
  unfold Kind.mode at read
  split_ifs at read with isRegex
  · rcases Script.Reads.modes readNext read with same | ⟨slash, _⟩
    · exact .inl same
    · exact .inr slash
  · exact .inl (Script.Reads.unique readNext read)

/-- Statements parse one after the other as the tokens from the offset on. -/
inductive Script.Row (script : Script) : Nat → List Token → List Stmt → Prop
  | nil {offset : Nat} : Row script offset [] []
  | cons {offset : Nat} {front back : List Token} {statement : Stmt} {statements : List Stmt}
    (first : Parses script (.phrase (.statement true statement)) offset front)
    (rest : Row script (Token.endOf offset front) back statements)
    : Row script offset (front ++ back) (statement :: statements)

/-- A statement begins with a token that ends no list of statements and goes on with none. -/
theorem Grammar.Parses.exists_next {statement : Stmt}
    (derivation : Parses script (.phrase (.statement true statement)) offset tokens)
    : ∃ next,
        script.Reads .standard offset next
        ∧ next.kind ≠ .endOfInput
        ∧ resumes next.kind = false := by
  obtain ⟨first, rest, rfl, opens⟩ := derivation.exists_first rfl
  obtain ⟨read, present, _⟩ := derivation.consumes
  obtain ⟨next, readNext, rfl | slash⟩ := read.exists_standard
  · exact ⟨next, readNext, present, opens⟩
  · have noClose : next.kind ≠ .braceClose := Kind.ne_of_isSlash slash rfl
    have noElse : next.kind ≠ .keywordElse := Kind.ne_of_isSlash slash rfl
    exact ⟨next, readNext, Kind.ne_of_isSlash slash rfl, by simp [resumes, noClose, noElse]⟩

/-- Statements that are repeated stand in a row. -/
theorem Grammar.Parses.row {goes : Kind → Bool}
    (derivation
      : Parses script (.repeated goes (statements.map (.statement true))) offset tokens)
    : script.Row offset tokens statements := by
  induction statements generalizing offset tokens with
  | nil =>
      obtain ⟨items, rfl, rule | rule | rule, components⟩ := derivation.components
      cases rule
      exact .nil
  | cons statement statements ih =>
      obtain ⟨items, rfl, rule | rule | rule, components⟩ := derivation.components
      cases rule
      obtain ⟨_, first, rest, _⟩ := components
      simpa [Item.tokensOf] using Script.Row.cons first (ih rest)

namespace Script.Row

variable {stop : Kind} {last : Token}

/-- The tokens of statements in a row are consumed, by induction on the row. -/
theorem consumes (row : script.Row offset tokens statements) : script.Consumes offset tokens := by
  induction row with
  | nil => trivial
  | cons first rest ih => exact Script.consumes_append.mpr ⟨first.consumes, ih⟩

/-- Statements in a row are repeated up to a closing brace or the end of the input. -/
theorem parses (row : script.Row offset tokens statements)
    (read : script.Reads .standard (Token.endOf offset tokens) last) (ends : last.kind = stop)
    (closes : stop = .braceClose ∨ stop = .endOfInput)
    : Parses script (.repeated (goesUntil stop) (statements.map (.statement true)))
        offset tokens := by
  induction row with
  | nil =>
      exact .intro (.repetition (.repeatedNone (by simp [goesUntil, ends])))
        (.ahead ⟨read, trivial⟩ .nil) rfl
  | cons first rest ih =>
      obtain ⟨next, readNext, present, opens⟩ := first.exists_next
      simp only [resumes, Bool.or_eq_false_iff, decide_eq_false_iff_not] at opens
      have goesOn : goesUntil stop next.kind := by
        rcases closes with rfl | rfl <;> simp [goesUntil, present, opens.1]
      rw [Token.endOf_append] at read
      exact .intro (.repetition (.repeatedMore goesOn))
        (.ahead ⟨readNext, trivial⟩ (.part first (.part (ih read) .nil))) (by simp [Item.tokensOf])

/-- Two rows of statements are one row. -/
theorem append {front back : List Token} {others : List Stmt}
    (first : script.Row offset front statements)
    (second : script.Row (Token.endOf offset front) back others)
    : script.Row offset (front ++ back) (statements ++ others) := by
  induction first with
  | nil => exact second
  | cons statement rest ih =>
      rw [Token.endOf_append] at second
      simpa using Script.Row.cons statement (ih second)

theorem single {statement : Stmt}
    (derivation : Parses script (.phrase (.statement true statement)) offset tokens)
    : script.Row offset tokens [statement] := by
  simpa using Script.Row.cons derivation .nil

/-- A row ends with its last statement. -/
theorem exists_last {statement : Stmt} (row : script.Row offset tokens (statements ++ [statement]))
    : ∃ front back,
        tokens = front ++ back
        ∧ script.Row offset front statements
        ∧ Parses script (.phrase (.statement true statement)) (Token.endOf offset front) back := by
  induction statements generalizing offset tokens with
  | nil =>
      cases row with
      | cons first rest =>
          cases rest
          exact ⟨[], _, by simp, .nil, first⟩
  | cons other statements ih =>
      cases row with
      | cons first rest =>
          obtain ⟨front, back, rfl, row, last⟩ := ih rest
          exact ⟨_, back, (List.append_assoc _ _ _).symm, .cons first row,
            by rwa [Token.endOf_append]⟩

/-- Statements in a row in front of the end of the input are a program. -/
theorem holds (row : script.Row 0 tokens statements)
    (read : script.Reads .standard (Token.endOf 0 tokens) last) (ends : last.kind = .endOfInput)
    : script.Holds statements tokens last :=
  ⟨row.parses read ends (.inr rfl), read, ends⟩

end Script.Row

end EcmaSyntax
