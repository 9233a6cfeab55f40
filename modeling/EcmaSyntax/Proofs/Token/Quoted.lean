import EcmaSyntax.Proofs.Token.Found

/-! What stands between quotes. Every string literal that the lexer finds stands between two quotes of one byte,
and an escape without a meaning is found at its backslash.
-/

namespace EcmaSyntax

namespace Scan

variable {kind : Kind} {mode : LexMode} {whole rest : List Char}

-----------------------------------------------------------------------------------------
-- Strings
-----------------------------------------------------------------------------------------

/-- A string that is found ends in its quote. -/
theorem string_quoted {quote : Char} (scanned : string quote whole = found kind rest)
    : ∃ body, whole = body ++ quote :: rest := by
  fun_induction string quote whole with
  | case1 | case4 | case6 => exact absurd scanned failed_ne_found
  | case2 tail ih =>
      obtain ⟨body, rfl⟩ := ih scanned
      exact ⟨'\\' :: '\r' :: '\n' :: body, rfl⟩
  | case3 c tail _ ih =>
      obtain ⟨body, rfl⟩ := ih scanned
      exact ⟨'\\' :: c :: body, rfl⟩
  | case5 tail =>
      obtain ⟨_, rfl⟩ := found_inj scanned
      exact ⟨[], rfl⟩
  | case7 c tail _ _ _ _ _ ih =>
      obtain ⟨body, rfl⟩ := ih scanned
      exact ⟨c :: body, rfl⟩

/-- A string literal stands between two quotes. -/
theorem token_quoted (scanned : token mode whole = found .literalString rest)
    : ∃ quote body, (quote = '"' ∨ quote = '\'') ∧ whole = quote :: (body ++ quote :: rest) := by
  cases foundBy_of_token scanned with
  | word _ named => exact absurd named (by decide)
  | string quotes read =>
      obtain ⟨body, rfl⟩ := string_quoted read
      exact ⟨_, body, quotes, rfl⟩
  | punctuator spelled => cases spelled

end Scan

-----------------------------------------------------------------------------------------
-- The escapes of strings
-----------------------------------------------------------------------------------------

/-- The text between the quotes of a string literal. -/
theorem Text.unquote?_quoted {quote : Char} (quotes : quote = '"' ∨ quote = '\'') (body : List Char)
    : unquote? (quote :: (body ++ [quote])) = some body := by
  have width : quote.utf8Size = 1 := by rcases quotes with rfl | rfl <;> rfl
  refine slice?_eq_some.mpr ⟨[quote], [quote], rfl, by simp [width], ?_⟩
  simp only [size_cons, size_append, size_nil, width]
  omega

/-- An escape without a meaning is found at its backslash. -/
theorem Text.stringUnits_error {escaped offset place : Nat} {body : List Char}
    (failed : stringUnits escaped offset body = .error place)
    : ∃ front back, body = front ++ '\\' :: back ∧ place = offset + size front := by
  have further {α β : Type} {f : α → β} {result : Except Nat α}
      (failed : result.map f = .error place)
      : result = .error place := by
    cases result with
    | error other =>
        cases failed
        rfl
    | ok value => cases failed
  fun_induction stringUnits escaped offset body with
  | case1 => cases failed
  | case2 escaped offset c rest ih =>
      obtain ⟨front, back, rfl, rfl⟩ := ih failed
      exact ⟨c :: front, back, rfl, by simp [Nat.add_assoc]⟩
  | case3 offset rest length units meaning ih =>
      obtain ⟨front, back, rfl, rfl⟩ := ih (further failed)
      exact ⟨'\\' :: front, back, rfl, by simp [Nat.add_assoc]⟩
  | case4 offset rest none =>
      cases failed
      exact ⟨[], rest, rfl, by simp⟩
  | case5 offset c rest other ih =>
      obtain ⟨front, back, rfl, rfl⟩ := ih (further failed)
      exact ⟨c :: front, back, rfl, by simp [Nat.add_assoc]⟩

end EcmaSyntax
