/-!
Texts are lists of characters, and offsets into them count the bytes of their UTF-8 form.
Cutting a text at an offset is refused where the offset lies inside a character or past the end.
-/

namespace EcmaSyntax.Text

/-- The number of bytes that the text takes in UTF-8. -/
def size : List Char → Nat
  | [] => 0
  | c :: rest => c.utf8Size + size rest

@[simp]
theorem size_nil : size [] = 0 := rfl

@[simp]
theorem size_cons (c : Char) (rest : List Char) : size (c :: rest) = c.utf8Size + size rest := rfl

/-- The sizes of texts that stand one after the other add up. -/
@[simp]
theorem size_append (first second : List Char) : size (first ++ second) = size first + size second := by
  induction first with
  | nil => simp
  | cons c rest ih => simp [ih, Nat.add_assoc]

/-- The text without its first bytes. -/
def drop? : Nat → List Char → Option (List Char)
  | 0, text => some text
  | _ + 1, [] => none
  | bytes + 1, c :: rest =>
      if c.utf8Size ≤ bytes + 1 then drop? (bytes + 1 - c.utf8Size) rest else none

/-- The first bytes of the text. -/
def take? : Nat → List Char → Option (List Char)
  | 0, _ => some []
  | _ + 1, [] => none
  | bytes + 1, c :: rest =>
      if c.utf8Size ≤ bytes + 1 then
        (take? (bytes + 1 - c.utf8Size) rest).map (c :: ·)
      else
        none

/-- The text between two byte offsets. -/
def slice? (start stop : Nat) (text : List Char) : Option (List Char) :=
  if start ≤ stop then
    (drop? start text).bind (take? (stop - start))
  else
    none

/-- A text is cut off in front of the one that follows it. -/
theorem drop?_size_append (first second : List Char) :
    drop? (size first) (first ++ second) = some second := by
  induction first with
  | nil => simp [drop?]
  | cons c rest ih =>
      have pos := c.utf8Size_pos
      obtain ⟨bytes, eq⟩ : ∃ bytes, size (c :: rest) = bytes + 1 :=
        ⟨size (c :: rest) - 1, by simp only [size_cons]; omega⟩
      have fits : c.utf8Size ≤ bytes + 1 := by simp only [size_cons] at eq; omega
      have left : bytes + 1 - c.utf8Size = size rest := by simp only [size_cons] at eq; omega
      simp [eq, drop?, fits, left, ih]

/-- A text is cut out of itself with what follows it. -/
theorem take?_size_append (first second : List Char) :
    take? (size first) (first ++ second) = some first := by
  induction first with
  | nil => simp [take?]
  | cons c rest ih =>
      have pos := c.utf8Size_pos
      obtain ⟨bytes, eq⟩ : ∃ bytes, size (c :: rest) = bytes + 1 :=
        ⟨size (c :: rest) - 1, by simp only [size_cons]; omega⟩
      have fits : c.utf8Size ≤ bytes + 1 := by simp only [size_cons] at eq; omega
      have left : bytes + 1 - c.utf8Size = size rest := by simp only [size_cons] at eq; omega
      simp [eq, take?, fits, left, ih]

end EcmaSyntax.Text
