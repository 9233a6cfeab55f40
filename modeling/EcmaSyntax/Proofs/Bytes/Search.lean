import EcmaSyntax.Proofs.Bytes.Cursor
import Mathlib.Data.List.MinMax

/-! Searches for patterns among the bytes of a text: the longest pattern that opens it, and the first
place where one does. Both find characters, since a pattern cannot begin inside of one.
-/

namespace EcmaSyntax.Bytes

open Text (size)

/-- Spellings, each with what it stands for. -/
abbrev Patterns (α : Type) := List (α × List Char)

/-- The longest pattern that opens the bytes, the first one if several are equally long. -/
def longestAt {α : Type} (patterns : Patterns α) (bytes : List UInt8) : Option (α × List Char) :=
  (patterns.filter fun entry => (ofText entry.2).isPrefixOf bytes).argmax fun entry =>
    (ofText entry.2).length

/-- What the first pattern among the bytes stands for, and the place where that pattern ends. -/
def firstMatch {α : Type} (patterns : Patterns α) : List UInt8 → Option (α × Nat)
  | [] => none
  | byte :: rest =>
      match longestAt patterns (byte :: rest) with
      | some (found, spelling) => some (found, (ofText spelling).length)
      | none => (firstMatch patterns rest).map fun (found, stop) => (found, stop + 1)

variable {α : Type} {patterns : Patterns α}

-----------------------------------------------------------------------------------------
-- Patterns at the beginning of a text
-----------------------------------------------------------------------------------------

/-- A pattern opens the bytes of a text if and only if its characters open the text. -/
theorem mem_opening_bytes {text : List Char} {entry : α × List Char}
    : entry ∈ patterns.filter (fun entry => (ofText entry.2).isPrefixOf (ofText text))
      ↔ entry ∈ patterns ∧ entry.2 <+: text := by
  simp [ofText_isPrefix]

/-- A single character opens a text that it is the first one of. -/
theorem singleton_prefix_cons {first c : Char} {rest : List Char}
    : [first] <+: c :: rest ↔ first = c := by
  simp [List.cons_prefix_cons]

/-- No pattern opens the text. -/
theorem longestAt_eq_none {text : List Char}
    : longestAt patterns (ofText text) = none ↔ ∀ entry ∈ patterns, ¬entry.2 <+: text := by
  simp [longestAt, List.argmax_eq_none, List.filter_eq_nil_iff, ofText_isPrefix]

/-- The pattern that is found opens the text, and no longer one does. -/
theorem opens_of_longestAt {text : List Char} {entry : α × List Char}
    (found : longestAt patterns (ofText text) = some entry)
    : entry ∈ patterns
      ∧ entry.2 <+: text
      ∧ ∀ other ∈ patterns, other.2 <+: text → other.2.length ≤ entry.2.length := by
  obtain ⟨member, opens⟩ := mem_opening_bytes.mp (List.argmax_mem found)
  refine ⟨member, opens, fun other among alsoOpens => ?_⟩
  have sizes := List.le_of_mem_argmax (mem_opening_bytes.mpr ⟨among, alsoOpens⟩) found
  simp only [length_ofText] at sizes
  by_contra longer
  -- Of two fronts of a text the longer one has more bytes.
  obtain ⟨more, spelled⟩ := List.prefix_of_prefix_length_le opens alsoOpens (by omega)
  rw [← spelled, Text.size_append] at sizes
  have empty : more = [] := Text.size_eq_zero.mp (by omega)
  simp [← spelled, empty] at longer

/-- A pattern is found where it opens the text and all others that do are shorter. -/
theorem longestAt_eq_some {text : List Char} {entry : α × List Char} (member : entry ∈ patterns)
    (opens : entry.2 <+: text)
    (longest
      : ∀ other ∈ patterns, other.2 <+: text → other = entry ∨ other.2.length < entry.2.length)
    : longestAt patterns (ofText text) = some entry := by
  cases found : longestAt patterns (ofText text) with
  | none => exact absurd opens (longestAt_eq_none.mp found entry member)
  | some best =>
      obtain ⟨among, alsoOpens, bound⟩ := opens_of_longestAt found
      have least := bound entry member opens
      rcases longest best among alsoOpens with rfl | shorter
      · rfl
      · omega

/-- No pattern opens another one. -/
def Patterns.Apart (patterns : Patterns α) : Prop :=
  ∀ first ∈ patterns, ∀ second ∈ patterns, first.2 <+: second.2 → first = second

/-- Of patterns that are apart at most one opens a text, so that no lengths need to be compared. -/
theorem Patterns.Apart.longestAt_eq_some (apart : patterns.Apart) {text : List Char}
    {entry : α × List Char} (member : entry ∈ patterns) (opens : entry.2 <+: text)
    : longestAt patterns (ofText text) = some entry := by
  refine Bytes.longestAt_eq_some member opens fun other among alsoOpens => .inl ?_
  rcases List.prefix_or_prefix_of_prefix alsoOpens opens with shorter | longer
  · exact apart other among entry member shorter
  · exact (apart entry member other among longer).symm

-----------------------------------------------------------------------------------------
-- Patterns further on
-----------------------------------------------------------------------------------------

/-- Inside of a character no pattern is found. -/
theorem firstMatch_skip (present : ∀ entry ∈ patterns, entry.2 ≠ []) {inner bytes : List UInt8}
    (others : ∀ byte ∈ inner, ¬byte.IsUTF8FirstByte)
    : firstMatch patterns (inner ++ bytes)
      = (firstMatch patterns bytes).map fun (found, stop) => (found, stop + inner.length) := by
  induction inner with
  | nil => simp
  | cons byte inner ih =>
      have closed : longestAt patterns (byte :: (inner ++ bytes)) = none := by
        rw [longestAt, List.argmax_eq_none, List.filter_eq_nil_iff]
        intro entry member
        obtain ⟨c, rest, spelling_eq⟩ := List.exists_cons_of_ne_nil (present entry member)
        obtain ⟨first, more, bytes_eq, isFirst, _⟩ := exists_utf8EncodeChar c
        rw [spelling_eq, ofText_cons, bytes_eq, List.isPrefixOf_iff_prefix, List.cons_append,
          List.cons_prefix_cons]
        rintro ⟨rfl, _⟩
        exact others _ List.mem_cons_self isFirst
      rw [List.cons_append, firstMatch, closed]
      rw [ih fun byte member => others byte (.tail _ member), Option.map_map]
      congr 1

/-- Patterns are looked for from character to character. -/
theorem firstMatch_cons (present : ∀ entry ∈ patterns, entry.2 ≠ []) (c : Char) (rest : List Char)
    : firstMatch patterns (ofText (c :: rest))
      = match longestAt patterns (ofText (c :: rest)) with
        | some (found, spelling) => some (found, size spelling)
        | none =>
            (firstMatch patterns (ofText rest)).map fun (found, stop) =>
              (found, stop + c.utf8Size) := by
  obtain ⟨first, others, bytes_eq, _, inner⟩ := exists_utf8EncodeChar c
  have length_eq : c.utf8Size = others.length + 1 := by
    rw [← String.length_utf8EncodeChar, bytes_eq, List.length_cons]
  rw [ofText_cons, bytes_eq, List.cons_append, firstMatch, firstMatch_skip present inner]
  simp only [length_ofText, Option.map_map, length_eq]
  split <;> rfl

-----------------------------------------------------------------------------------------
-- Searches at an offset
-----------------------------------------------------------------------------------------

/-- The longest pattern here, and the number of its bytes. -/
def Lexing.opening (patterns : Patterns α) : Lexing (Option (α × Nat)) := do
  let bytes := ofText (← rest)
  return (longestAt patterns bytes).map fun (found, spelling) => (found, (ofText spelling).length)

/-- The longest pattern is found among the bytes of what is left, and nothing is passed over. -/
theorem Gives.opening (source : List Char) (patterns : Patterns α) (text : List Char)
    : Gives source (Lexing.opening patterns) text
        (.ok ((longestAt patterns (ofText text)).map fun (found, spelling) => (found, size spelling)))
        text := by
  refine (Gives.rest_ text).bind ?_
  simp only [length_ofText]
  exact .pure _ text

end EcmaSyntax.Bytes
