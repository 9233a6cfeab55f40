import EcmaSyntax.Proofs.Bytes.Encoding
import EcmaSyntax.Diagnostic

/-! A lexer that goes through a source by byte offsets. Every slice that it takes has to lie between two
places where a character begins or the source ends, and no offset may go beyond that end: otherwise
there is no outcome at all. What such a lexer does is stated in terms of the text that is left.
-/

namespace EcmaSyntax.Bytes

open Text (size)

/-- A part of the lexer: given the source and an offset, its result and the offset where the next part
goes on. There is none if it looks outside of the source. -/
def Lexing (α : Type) : Type :=
  List Char → Nat → Option (Except Cause α × Nat)

namespace Lexing

instance : Monad Lexing where
  pure value := fun _ offset => some (.ok value, offset)
  bind action onward := fun source offset =>
    match action source offset with
    | none => none
    | some (.error cause, next) => some (.error cause, next)
    | some (.ok value, next) => onward value source next

variable {α β : Type}

/-- An action that has a value is followed by what is done with the value. -/
theorem bind_of_ok {action : Lexing α} {source : List Char} {offset next : Nat} {value : α}
    (run : action source offset = some (.ok value, next)) (onward : α → Lexing β)
    : (action >>= onward) source offset = onward value source next := by
  simp only [bind, run]

/-- Nothing is done after an error. -/
theorem bind_of_error {action : Lexing α} {source : List Char} {offset next : Nat} {cause : Cause}
    (run : action source offset = some (.error cause, next)) (onward : α → Lexing β)
    : (action >>= onward) source offset = some (.error cause, next) := by
  simp only [bind, run]

/-- Nothing is done after a look outside of the source. -/
theorem bind_of_none {action : Lexing α} {source : List Char} {offset : Nat}
    (run : action source offset = none) (onward : α → Lexing β)
    : (action >>= onward) source offset = none := by
  simp only [bind, run]

-----------------------------------------------------------------------------------------
-- Looking and moving
-----------------------------------------------------------------------------------------

def outside : Lexing α :=
  fun _ _ => none

def fail (cause : Cause) : Lexing α :=
  fun _ offset => some (.error cause, offset)

/-- The result of an action, be it a failure. -/
def attempt (action : Lexing α) : Lexing (Except Cause α) :=
  fun source offset =>
    (action source offset).map fun (result, next) => (.ok result, next)

/-- A part of the source, which has to be there. -/
def present (slice : Option α) : Lexing α :=
  match slice with
  | some text => pure text
  | none => outside

def offset : Lexing Nat :=
  fun _ offset => some (.ok offset, offset)

def source : Lexing (List Char) :=
  fun source offset => some (.ok source, offset)

/-- The source from here on. -/
def rest : Lexing (List Char) := do
  present (Text.drop? (← offset) (← source))

/-- The source from an earlier offset up to here. -/
def since (start : Nat) : Lexing (List Char) := do
  present (Text.slice? start (← offset) (← source))

/-- So many bytes of the source from here on. -/
def ahead (bytes : Nat) : Lexing (List Char) := do
  let start ← offset
  present (Text.slice? start (start + bytes) (← source))

/-- The number of bytes left. -/
def remaining : Lexing Nat := do
  let stop := size (← source)
  let start ← offset
  present (sub? stop start)

/-- The next character. -/
def peek : Lexing (Option Char) := do
  return (← rest).head?

/-- Goes on so many bytes. -/
def advance (bytes : Nat) : Lexing Unit :=
  fun source offset =>
    if offset + bytes ≤ size source then some (.ok ⟨⟩, offset + bytes) else none

/-- Goes to the end of the source. -/
def toEnd : Lexing Unit :=
  fun source _ => some (.ok ⟨⟩, size source)

/-- The bytes of the characters from here on that belong to a class. -/
def widthOf (among : Char → Bool) : Lexing Nat := do
  return size ((← rest).takeWhile among)

/-- The bytes from here on up to either of two characters. -/
def widthBefore (first second : Char) : Lexing Nat := do
  let bytes := ofText (← rest)
  let all ← remaining
  return (indexOfEither first second bytes).getD all

-----------------------------------------------------------------------------------------
-- Repetition
-----------------------------------------------------------------------------------------

/-- Takes steps from one state to the next until one gives a value, at most so many. -/
def iterate {State : Type} (step : State → Lexing (State ⊕ α)) : Nat → State → Lexing α
  | 0, _ => outside
  | bound + 1, state => do
      match ← step state with
      | .inl next => iterate step bound next
      | .inr value => return value

/-- Takes steps until one gives a value; there are no more of them than characters. -/
def repeating {State : Type} (step : State → Lexing (State ⊕ α)) (state : State) : Lexing α := do
  iterate step ((← source).length + 1) state

end Lexing

-----------------------------------------------------------------------------------------
-- Places in a source
-----------------------------------------------------------------------------------------

/-- The offset at which the last part of the source begins. -/
def offsetOf (source rest : List Char) : Nat :=
  size source - size rest

variable {source text rest : List Char}

/-- What is left of a source is at the size of what lies in front of it. -/
theorem offsetOf_append (front rest : List Char) : offsetOf (front ++ rest) rest = size front := by
  rw [offsetOf, Text.size_append]
  omega

/-- The offset of a suffix and its size make up the size of the source. -/
theorem offsetOf_add_size (within : text <:+ source) : offsetOf source text + size text = size source := by
  obtain ⟨front, rfl⟩ := within
  rw [offsetOf_append, Text.size_append]

/-- Passing over some text adds its size to the offset. -/
theorem offsetOf_of_append {used : List Char} (within : used ++ rest <:+ source)
    : offsetOf source rest = offsetOf source (used ++ rest) + size used := by
  have sizes := offsetOf_add_size within
  have fewer := offsetOf_add_size ((List.suffix_append used rest).trans within)
  rw [Text.size_append] at sizes
  omega

/-- The text from the offset of a suffix on is that suffix. -/
theorem drop?_offsetOf (within : text <:+ source)
    : Text.drop? (offsetOf source text) source = some text := by
  obtain ⟨front, rfl⟩ := within
  rw [offsetOf_append, Text.drop?_size_append]

/-- The text between the offsets of two suffixes is what lies between them. -/
theorem slice?_offsetOf {used : List Char} (within : used ++ rest <:+ source)
    : Text.slice? (offsetOf source (used ++ rest)) (offsetOf source rest) source = some used := by
  have start := offsetOf_of_append within
  obtain ⟨front, rfl⟩ := within
  rw [offsetOf_append] at start ⊢
  exact Text.slice?_eq_some.mpr ⟨front, rest, rfl, rfl, start.symm⟩

-----------------------------------------------------------------------------------------
-- Outcomes
-----------------------------------------------------------------------------------------

/-- Where `text` is left of the source, the action stays inside of the source, has the result and
leaves `rest`. -/
def Gives {α : Type} (source : List Char) (action : Lexing α) (text : List Char)
    (result : Except Cause α) (rest : List Char)
    : Prop :=
  text <:+ source →
    rest <:+ text ∧ action source (offsetOf source text) = some (result, offsetOf source rest)

namespace Gives

open Lexing

variable {α β : Type} {middle used : List Char} {cause : Cause}

protected theorem pure (value : α) (text : List Char)
    : Gives source (pure value) text (.ok value) text :=
  fun _ => ⟨List.suffix_refl _, rfl⟩

theorem fail (cause : Cause) (text : List Char)
    : Gives source (fail cause : Lexing α) text (.error cause) text :=
  fun _ => ⟨List.suffix_refl _, rfl⟩

/-- Two actions give, one after the other, what the second one gives. -/
theorem bind {action : Lexing α} {onward : α → Lexing β} {value : α} {result : Except Cause β}
    (first : Gives source action text (.ok value) middle)
    (then_ : Gives source (onward value) middle result rest)
    : Gives source (action >>= onward) text result rest := by
  intro within
  obtain ⟨inner, run⟩ := first within
  obtain ⟨further, onwards⟩ := then_ (inner.trans within)
  exact ⟨further.trans inner, (bind_of_ok run onward).trans onwards⟩

theorem bind_error {action : Lexing α} (onward : α → Lexing β)
    (first : Gives source action text (.error cause) rest)
    : Gives source (action >>= onward) text (.error cause) rest := by
  intro within
  obtain ⟨inner, run⟩ := first within
  exact ⟨inner, bind_of_error run onward⟩

/-- An attempt gives the error as its value. -/
theorem attempt {action : Lexing α} {result : Except Cause α}
    (gives : Gives source action text result rest)
    : Gives source (attempt action) text (.ok result) rest := by
  intro within
  obtain ⟨inner, run⟩ := gives within
  exact ⟨inner, by simp [Lexing.attempt, run]⟩

theorem offset (text : List Char)
    : Gives source offset text (.ok (offsetOf source text)) text :=
  fun _ => ⟨List.suffix_refl _, rfl⟩

theorem source_ (text : List Char) : Gives source Lexing.source text (.ok source) text :=
  fun _ => ⟨List.suffix_refl _, rfl⟩

theorem rest_ (text : List Char) : Gives source Lexing.rest text (.ok text) text := by
  intro within
  refine ((offset text).bind ((source_ text).bind ?_)) within
  rw [drop?_offsetOf within]
  exact .pure text text

/-- The text since an offset is what was passed over. -/
theorem since (used rest : List Char) (within : used ++ rest <:+ source)
    : Gives source (since (offsetOf source (used ++ rest))) rest (.ok used) rest := by
  refine (offset rest).bind ((source_ rest).bind ?_)
  rw [slice?_offsetOf within]
  exact .pure used rest

/-- So many bytes ahead are cut out if they are the bytes of some characters. -/
theorem ahead (used rest : List Char)
    : Gives source (ahead (size used)) (used ++ rest) (.ok used) (used ++ rest) := by
  intro within
  refine ((offset _).bind ((source_ _).bind ?_)) within
  rw [← offsetOf_of_append within, slice?_offsetOf within]
  exact .pure used _

theorem remaining (text : List Char) : Gives source remaining text (.ok (size text)) text := by
  intro within
  have sizes := offsetOf_add_size within
  refine ((source_ text).bind ((offset text).bind ?_)) within
  rw [sub?_of_le (by omega), show size source - offsetOf source text = size text by omega]
  exact .pure _ text

theorem peek (text : List Char) : Gives source peek text (.ok text.head?) text :=
  (rest_ text).bind (.pure _ text)

/-- An advance by the size of some text passes over the text. -/
theorem advance (used rest : List Char)
    : Gives source (advance (size used)) (used ++ rest) (.ok ⟨⟩) rest := by
  intro within
  have start := offsetOf_of_append within
  have sizes := offsetOf_add_size ((List.suffix_append used rest).trans within)
  refine ⟨List.suffix_append used rest, ?_⟩
  rw [Lexing.advance, if_pos (by omega), start]

/-- An advance by the bytes of one character passes over the character. -/
theorem advance_char (c : Char) (rest : List Char)
    : Gives source (Lexing.advance c.utf8Size) (c :: rest) (.ok ⟨⟩) rest := by
  simpa using advance [c] rest

theorem advance_one {c : Char} (single : c.utf8Size = 1) (rest : List Char)
    : Gives source (Lexing.advance 1) (c :: rest) (.ok ⟨⟩) rest :=
  single ▸ advance_char c rest

theorem toEnd (text : List Char) : Gives source toEnd text (.ok ⟨⟩) [] :=
  fun _ => ⟨List.nil_suffix, rfl⟩

/-- The bytes of the characters in front that are among some are counted. -/
theorem widthOf (among : Char → Bool) (text : List Char)
    : Gives source (widthOf among) text (.ok (size (text.takeWhile among))) text :=
  (rest_ text).bind (.pure _ text)

/-- The bytes in front of two characters are counted by a search for their bytes, as both are ASCII. -/
theorem widthBefore {first second : Char} (isAscii : Text.isAscii first ∧ Text.isAscii second)
    (text : List Char)
    : Gives source (widthBefore first second) text
        (.ok (size (text.takeWhile fun c => c ≠ first && c ≠ second))) text := by
  rw [← indexOfEither_getD text isAscii]
  exact (rest_ text).bind ((remaining text).bind (.pure _ text))

theorem advance_takeWhile_append (among : Char → Bool) (run tail : List Char)
    : Gives source (Lexing.advance (size (run.takeWhile among))) (run ++ tail) (.ok ⟨⟩)
        (run.dropWhile among ++ tail) := by
  have whole
      : Gives source (Lexing.advance (size (run.takeWhile among)))
          (run.takeWhile among ++ (run.dropWhile among ++ tail)) (.ok ⟨⟩)
          (run.dropWhile among ++ tail) :=
    advance _ _
  rwa [← List.append_assoc, List.takeWhile_append_dropWhile] at whole

/-- Characters in front that are among some are counted and passed over. -/
theorem advance_takeWhile (among : Char → Bool) (text : List Char)
    : Gives source (Lexing.advance (size (text.takeWhile among))) text (.ok ⟨⟩)
        (text.dropWhile among) := by
  simpa using advance_takeWhile_append among text []

/-- Passes over all characters of a class. -/
theorem passOver (among : Char → Bool) (text : List Char)
    : Gives source (Lexing.widthOf among >>= Lexing.advance) text (.ok ⟨⟩) (text.dropWhile among) :=
  (widthOf among text).bind (advance_takeWhile among text)

end Gives

-----------------------------------------------------------------------------------------
-- Outcomes of repetitions
-----------------------------------------------------------------------------------------

/-- Steps from a state on have an outcome, if more of them are allowed than characters are left. -/
def Loops {State α : Type} (source : List Char) (step : State → Lexing (State ⊕ α)) (state : State)
    (text : List Char) (result : Except Cause α) (rest : List Char)
    : Prop :=
  ∀ bound, text.length < bound → Gives source (Lexing.iterate step bound state) text result rest

namespace Loops

variable {State α : Type} {step : State → Lexing (State ⊕ α)} {state next : State}
  {middle : List Char} {result : Except Cause α}

/-- A loop ends where its step says so. -/
theorem stop {value : α} (gives : Gives source (step state) text (.ok (.inr value)) rest)
    : Loops source step state text (.ok value) rest := by
  intro bound enough
  obtain ⟨bound, rfl⟩ := Nat.exists_eq_add_one_of_ne_zero (Nat.ne_zero_of_lt enough)
  exact gives.bind (.pure value rest)

/-- A loop fails where its step does. -/
theorem fail {cause : Cause} (gives : Gives source (step state) text (.error cause) rest)
    : Loops source step state text (.error cause) rest := by
  intro bound enough
  obtain ⟨bound, rfl⟩ := Nat.exists_eq_add_one_of_ne_zero (Nat.ne_zero_of_lt enough)
  exact gives.bind_error _

/-- A step that does not go on has the outcome of all of them. -/
theorem last (gives : Gives source (step state) text (result.map .inr) rest)
    : Loops source step state text result rest := by
  cases result with
  | ok value => exact stop gives
  | error cause => exact fail gives

/-- A loop goes on from what its step leaves, which is shorter. -/
theorem more (gives : Gives source (step state) text (.ok (.inl next)) middle)
    (shorter : middle.length < text.length) (loops : Loops source step next middle result rest)
    : Loops source step state text result rest := by
  intro bound enough
  obtain ⟨bound, rfl⟩ := Nat.exists_eq_add_one_of_ne_zero (Nat.ne_zero_of_lt enough)
  exact gives.bind (loops bound (by omega))

/-- A source has no fewer characters than are left of it. -/
theorem gives (loops : Loops source step state text result rest)
    : Gives source (Lexing.repeating step state) text result rest := by
  intro within
  exact ((Gives.source_ text).bind (loops _ (Nat.lt_succ_of_le within.length_le))) within

end Loops

end EcmaSyntax.Bytes
