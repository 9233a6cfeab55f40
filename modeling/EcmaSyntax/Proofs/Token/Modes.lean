import EcmaSyntax.Proofs.Token.Cursor

/-! The two modes in which tokens are read. They give the same token unless it begins with a slash; then
it is a division outside of operands, and a regular expression or nothing where an operand is due.
-/

namespace EcmaSyntax

/-- A kind of token that a slash begins outside of operands. -/
def Kind.isSlash (kind : Kind) : Bool :=
  kind = .slash || kind = .slashEquals

theorem Kind.ne_of_isSlash {kind other : Kind} (slash : kind.isSlash) (plain : other.isSlash = false)
    : kind ≠ other := by
  rintro rfl
  rw [slash] at plain
  cases plain

namespace Scan

/-- Punctuators that begin with a slash are divisions, with or without an assignment. -/
theorem slash_of_opens
    : ∀ entry ∈ punctuators,
        entry.2.toList.head? = some '/' → entry.1.isSlash ∧ entry.2.length ≤ 2 := by
  decide

/-- A slash outside of operands is a punctuator of at most two characters. -/
theorem token_slash (rest : List Char)
    : ∃ kind left,
        token .standard ('/' :: rest) = found kind left
        ∧ kind.isSlash
        ∧ rest.length ≤ left.length + 1 := by
  have scanned : token .standard ('/' :: rest) = punctuator ('/' :: rest) := rfl
  obtain ⟨⟨kind, spelling⟩, longest⟩
      : ∃ longest, longestPunctuator? ('/' :: rest) = some longest :=
    exists_longestPunctuator? (show (Kind.slash, "/") ∈ punctuators by decide) ⟨rest, rfl⟩
  have opens := longestPunctuator?_eq_some.mp longest
  rw [punctuator, longest] at scanned
  have begins : spelling.toList.head? = some '/' := by
    obtain ⟨c, tail, spelled⟩ := List.exists_cons_of_ne_nil (spelling_ne_nil _ opens.member)
    obtain ⟨left, same⟩ := opens.opens
    rw [spelled] at same ⊢
    cases same
    rfl
  obtain ⟨isSlash, short⟩ := slash_of_opens _ opens.member begins
  refine ⟨kind, _, scanned, isSlash, ?_⟩
  simp only at short
  rw [List.length_drop, List.length_cons]
  omega

/-- What is scanned as a regular expression is one, if it is a token. -/
theorem regex_verdict {inClass : Bool} {text : List Char} {kind : Kind}
    (accepted : (regex inClass text).verdict = .ok kind)
    : kind = .literalRegex := by
  fun_induction regex inClass text with
  | case1 | case2 | case4 | case5 => cases accepted
  | case3 inClass c rest _ ih => exact ih accepted
  | case6 => cases accepted; rfl
  | case7 inClass c rest _ _ _ _ ih => exact ih accepted

/-- A regular expression that ends has passed over a character. -/
theorem regex_shorter {inClass : Bool} {text : List Char} {kind : Kind}
    (accepted : (regex inClass text).verdict = .ok kind)
    : (regex inClass text).rest.length < text.length := by
  fun_induction regex inClass text with
  | case1 | case2 | case4 | case5 => cases accepted
  | case3 inClass c rest _ ih =>
      have := ih accepted
      simp only [List.length_cons]
      omega
  | case6 inClass c rest =>
      have := (List.dropWhile_suffix (l := rest) Text.asciiPartSet.contains).length_le
      simp only [regexFlags, rest_found, List.length_cons]
      omega
  | case7 inClass c rest _ _ _ _ ih =>
      have := ih accepted
      simp only [List.length_cons]
      omega

/-- A slash outside of operands is no longer than the regular expression that it begins in one. -/
theorem regex_within {rest : List Char} {kind : Kind}
    (accepted : (regex false rest).verdict = .ok kind)
    : (regex false rest).rest <:+ (token .standard ('/' :: rest)).rest := by
  obtain ⟨_, left, scanned, _, short⟩ := token_slash rest
  refine List.suffix_of_suffix_length_le ?_ (token_suffix .standard ('/' :: rest)) ?_
  · exact (regex_suffix false rest).trans (List.suffix_cons _ _)
  · have shorter := regex_shorter accepted
    rw [scanned, rest_found]
    omega

end Scan

namespace Script.Reads

variable {script : Script} {offset : Nat}

/-- What the two modes read at one place: the same, or a slash that is part of a regular expression. -/
theorem modes {outside inside : Token} (read : script.Reads .standard offset outside)
    (operand : script.Reads .regex offset inside)
    : outside = inside
      ∨ outside.kind.isSlash
        ∧ (inside.kind = .literalRegex
            ∧ outside.span.start = inside.span.start
            ∧ outside.span.stop ≤ inside.span.stop
          ∨ inside.kind = .invalid) := by
  by_cases slash : ∃ rest, Text.drop? outside.span.start script.source = some ('/' :: rest)
  · obtain ⟨tail, slash⟩ := slash
    obtain ⟨front, gap, text, rest, rfl, lies, origin⟩ := Token.read?_eq_some read
    have cut : Text.drop? (Text.size front) script.source = some (gap ++ (text ++ rest)) :=
      lies.source_eq ▸ Text.drop?_size_append _ _
    obtain same : text ++ rest = '/' :: tail := Option.some.inj (lies.drop?_start.symm.trans slash)
    rw [Script.Reads, Token.read?, cut, Option.map_some, Option.some_inj] at read operand
    cases origin with
    | unterminated _ _ _ skip_eq =>
        refine .inl ?_
        rw [← read, ← operand, Lexeme.read, Lexeme.read, skip_eq]
    | scanned skip_eq rest_eq kind_eq =>
        refine .inr ⟨?_, ?_⟩
        · obtain ⟨kind, left, scanned, isSlash, _⟩ := Scan.token_slash tail
          rw [kind_eq, same, scanned]
          exact isSlash
        · have scanned : Scan.token .regex ('/' :: tail) = Scan.regex false tail := rfl
          have starts := lies.start_eq
          have stops := lies.stop_eq
          rw [← operand, Lexeme.read, skip_eq, same]
          simp only [Lexeme.placedAt, Lexeme.ofScan, scanned]
          cases verdict : (Scan.regex false tail).verdict with
          | ok kind =>
              obtain ⟨middle, within⟩ := Scan.regex_within verdict
              rw [← same, rest_eq] at within
              simp only [← same, ← within, Text.size_append] at starts stops ⊢
              exact .inl ⟨Scan.regex_verdict verdict, by omega, by omega⟩
          | error cause => exact .inr rfl
  · have same := Token.read?_mode .regex read fun rest found => slash ⟨rest, found⟩
    exact .inl (Script.Reads.unique same operand)

/-- A token that is no slash is read where an operand is due, too. -/
theorem toRegex {token : Token} (read : script.Reads .standard offset token)
    (plain : token.kind.isSlash = false)
    : script.Reads .regex offset token := by
  obtain ⟨rest, cut, _⟩ := Option.map_eq_some_iff.mp read
  obtain ⟨other, operand⟩ := Token.exists_read? .regex ⟨rest, cut⟩
  rcases read.modes operand with rfl | ⟨slash, _⟩
  · exact operand
  · rw [plain] at slash
    cases slash

/-- A token of an operand that is no regular expression is read elsewhere, too. -/
theorem toStandard {token : Token} (read : script.Reads .regex offset token)
    (noRegex : token.kind ≠ .literalRegex) (valid : token.kind ≠ .invalid)
    : script.Reads .standard offset token := by
  obtain ⟨rest, cut, _⟩ := Option.map_eq_some_iff.mp read
  obtain ⟨other, outside⟩ := Token.exists_read? .standard ⟨rest, cut⟩
  rcases Script.Reads.modes outside read with rfl | ⟨_, ⟨regex, _⟩ | invalid⟩
  · exact outside
  · exact absurd regex noRegex
  · exact absurd invalid valid

end Script.Reads

end EcmaSyntax
