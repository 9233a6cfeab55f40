import EcmaSyntax.Proofs.Token.InputEnd
import EcmaSyntax.Proofs.Token.Relocation
import EcmaSyntax.Proofs.Transport.Derivation

/-! How tokens are carried over. Where the text of a token stands at its new place behind trivia, in front of
what may follow it, the token is read there in the mode in which it was read, and so is a slash in the
place of a regular expression.
-/

namespace EcmaSyntax

-----------------------------------------------------------------------------------------
-- Tokens in a row
-----------------------------------------------------------------------------------------

variable {script other : Script} {relocation : Relocation} {offset : Nat} {token : Token}
variable {tokens : List Token}

/-- Tokens in a row lie between their beginning and their end. -/
theorem Script.Consumes.bounds (consumes : script.Consumes offset tokens)
    : ∀ token ∈ tokens,
        offset ≤ token.span.start
        ∧ token.span.start < token.span.stop
        ∧ token.span.stop ≤ Token.endOf offset tokens := by
  induction tokens generalizing offset with
  | nil => simp
  | cons first tokens ih =>
      obtain ⟨read, present, consumes⟩ := consumes
      have bounds := read.start_lt_stop present
      have further := consumes.le_endOf
      rw [List.forall_mem_cons, Token.endOf_cons]
      refine ⟨⟨bounds.1, bounds.2.1, further⟩, fun token member => ?_⟩
      have := ih consumes token member
      omega

namespace Relocation

-----------------------------------------------------------------------------------------
-- One token
-----------------------------------------------------------------------------------------

/-- The token stands in the other text, at the place where the relocation has it. -/
structure Places (relocation : Relocation) (other : Script) (token : Token)
    (offset : Nat) (text rest : List Char) (front gap rest' : List Char)
    : Prop where
  source_eq : other.source = front ++ (gap ++ (text ++ rest'))
  skipped
    : Trivia.skip .gap false (gap ++ (text ++ rest'))
        = .ended (relocation.newline token) (text ++ rest')
  follows : Text.MayFollow rest rest'
  stop_eq : relocation.stop offset = Text.size front
  span_eq
    : relocation.span token.span
        = {
            start := Text.size front + Text.size gap
            stop := Text.size front + Text.size gap + Text.size text
          }

/-- The token is read at its new place, with its text. -/
theorem Places.reads {mode : LexMode} {front gap text rest front' gap' rest' : List Char}
    (places : relocation.Places other token offset text rest front' gap' rest')
    (stands : token.Stands script mode front gap text rest)
    : other.Reads mode (relocation.stop offset) (relocation.token token)
      ∧ other.textOf (relocation.span token.span) = script.textOf token.span := by
  rw [places.stop_eq, Relocation.token, places.span_eq]
  exact ⟨stands.reads places.source_eq places.skipped places.follows,
    stands.textOf_eq places.source_eq⟩

/-- Everything that stands where the token does, and reaches no further, stands in the other text. -/
def PlacesWithin (relocation : Relocation) (script other : Script) (offset : Nat) (token : Token)
    : Prop :=
  ∀ {mode : LexMode} {next : Token} {front gap text rest : List Char},
    next.Stands script mode front gap text rest →
    Text.size front = offset →
    next.span.start = token.span.start →
    next.span.stop ≤ token.span.stop →
    ∃ front' gap' rest', relocation.Places other next offset text rest front' gap' rest'

/-- A token is carried over with whatever may be read in its place. -/
theorem PlacesWithin.carriesToken {ignoresLine : Bool}
    (places : relocation.PlacesWithin script other offset token)
    (read : script.Reads token.kind.mode offset token) (present : token.kind ≠ .endOfInput)
    (valid : token.kind ≠ .invalid)
    (newline
      : ignoresLine = false
        → ∀ next, next.span.start = token.span.start → relocation.newline next = next.afterNewline)
    : relocation.CarriesToken script other ignoresLine offset token := by
  have carried {mode : LexMode} {next : Token} (read : script.Reads mode offset next)
      (present : next.kind ≠ .endOfInput) (valid : next.kind ≠ .invalid)
      (starts : next.span.start = token.span.start) (within : next.span.stop ≤ token.span.stop)
      : other.Reads mode (relocation.stop offset) (relocation.token next)
        ∧ other.textOf (relocation.span next.span) = script.textOf next.span := by
    obtain ⟨front, gap, text, rest, rfl, stands⟩ := read.stands present valid
    obtain ⟨front', gap', rest', places⟩ := places stands rfl starts within
    exact places.reads stands
  have whole := carried read present valid rfl (Nat.le_refl _)
  refine ⟨whole.1, whole.2, fun noted => newline noted token rfl, fun next readNext => ?_⟩
  obtain ⟨presentNext, validNext, starts, within⟩
      : next.kind ≠ .endOfInput
        ∧ next.kind ≠ .invalid
        ∧ next.span.start = token.span.start
        ∧ next.span.stop ≤ token.span.stop := by
    unfold Kind.mode at read
    split_ifs at read with isRegex
    · rcases readNext.modes read with rfl | ⟨isSlash, ⟨_, starts, within⟩ | invalid⟩
      · exact ⟨present, valid, rfl, Nat.le_refl _⟩
      · exact ⟨Kind.ne_of_isSlash isSlash rfl, Kind.ne_of_isSlash isSlash rfl, starts, within⟩
      · exact absurd invalid valid
    · obtain rfl := readNext.unique read
      exact ⟨present, valid, rfl, Nat.le_refl _⟩
  exact ⟨relocation.token next, (carried readNext presentNext validNext starts within).1, rfl,
    fun noted => newline noted next starts⟩

-----------------------------------------------------------------------------------------
-- Tokens in a row
-----------------------------------------------------------------------------------------

/-- Tokens are carried over if each of them is, wherever it stands among them. -/
theorem carries_of {ignoresLine : Bool}
    (each
      : ∀ front token back,
          tokens = front ++ token :: back →
          relocation.CarriesToken script other (ignoresLine && front.isEmpty)
            (Token.endOf offset front) token)
    : relocation.Carries script other ignoresLine offset tokens := by
  induction tokens generalizing ignoresLine offset with
  | nil => trivial
  | cons token tokens ih =>
      refine ⟨by simpa using each [] token tokens rfl, ih fun front next back same => ?_⟩
      simpa using each (token :: front) next back (by rw [same, List.cons_append])

end Relocation

end EcmaSyntax
