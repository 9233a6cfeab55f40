import EcmaSyntax.Position
import EcmaSyntax.Proofs.Bytes.Encoding

/-! Lines and columns, looked up in a table of the offsets at which lines begin. Every offset has a line in
that table, and the slice from the line's beginning to the offset is one of whole characters.
-/

namespace EcmaSyntax.Bytes

open Text (size)

/-- The offsets at which the lines after the first one begin, the text beginning at an offset. -/
def lineStarts : Nat → List Char → List Nat
  | _, [] => []
  | offset, '\r' :: '\n' :: rest => (offset + 2) :: lineStarts (offset + 2) rest
  | offset, c :: rest =>
      if Text.isLineTerminator c then
        (offset + c.utf8Size) :: lineStarts (offset + c.utf8Size) rest
      else
        lineStarts (offset + c.utf8Size) rest

/-- Goes back from an offset until a character begins or the text ends there, but not below zero. -/
def floorBoundary (source : List Char) : Nat → Option Nat
  | 0 => if (Text.drop? 0 source).isSome then some 0 else none
  | offset + 1 =>
      if (Text.drop? (offset + 1) source).isSome then some (offset + 1)
      else floorBoundary source offset

/-- The place of an offset, given where lines begin. -/
def locate (source : List Char) (starts : List Nat) (offset : Nat) : Option Position := do
  let line := (starts.takeWhile (· ≤ offset)).length
  let index ← sub? line 1
  let start ← starts[index]?
  let before ← Text.slice? start offset source
  return {
    line
    column := before.length + 1
  }

/-- The place of the character at an offset, or of the one that the offset lies in. -/
def position (source : List Char) (offset : Nat) : Option Position := do
  let boundary ← floorBoundary source (min offset (size source))
  locate source (0 :: lineStarts 0 source) boundary

variable {source front text rest : List Char}

-----------------------------------------------------------------------------------------
-- Whole characters
-----------------------------------------------------------------------------------------

/-- As many whole characters as fit into the bytes. -/
def fitting : Nat → List Char → List Char
  | _, [] => []
  | bytes, c :: rest => if c.utf8Size ≤ bytes then c :: fitting (bytes - c.utf8Size) rest else []

/-- Where a front fits, the rest has the bytes that are left. -/
theorem fitting_append (extra : Nat) (front rest : List Char)
    : fitting (size front + extra) (front ++ rest) = front ++ fitting extra rest := by
  induction front with
  | nil => simp
  | cons c front ih =>
      have fits : c.utf8Size ≤ size (c :: front) + extra := by
        rw [Text.size_cons]
        omega
      have left : size (c :: front) + extra - c.utf8Size = size front + extra := by
        rw [Text.size_cons]
        omega
      rw [List.cons_append, fitting, if_pos fits, left, ih, List.cons_append]

theorem fitting_zero (text : List Char) : fitting 0 text = [] := by
  cases text with
  | nil => rfl
  | cons c rest => exact if_neg (Nat.not_le.mpr c.utf8Size_pos)

/-- A text fits into as many bytes as it has. -/
theorem fitting_of_le {bytes : Nat} (enough : size text ≤ bytes) : fitting bytes text = text := by
  obtain ⟨extra, rfl⟩ := Nat.exists_eq_add_of_le enough
  simpa [fitting] using fitting_append extra text []

/-- Past the end no more fits than up to it. -/
theorem fitting_min (bytes : Nat) (text : List Char)
    : fitting (min bytes (size text)) text = fitting bytes text := by
  rcases Nat.le_total bytes (size text) with fewer | enough
  · rw [Nat.min_eq_left fewer]
  · rw [Nat.min_eq_right enough, fitting_of_le enough, fitting_of_le (Nat.le_refl _)]

/-- Inside of a character nothing more fits than before it. -/
theorem fitting_succ {bytes : Nat} (inside : Text.drop? (bytes + 1) text = none)
    : fitting (bytes + 1) text = fitting bytes text := by
  induction text generalizing bytes with
  | nil => rfl
  | cons c rest ih =>
      rw [Text.drop?] at inside
      rcases Nat.lt_trichotomy c.utf8Size (bytes + 1) with fewer | same | more
      · have left : bytes + 1 - c.utf8Size = bytes - c.utf8Size + 1 := by omega
        rw [if_pos (Nat.le_of_lt fewer), left] at inside
        rw [fitting, fitting, if_pos (Nat.le_of_lt fewer), if_pos (Nat.le_of_lt_succ fewer), left, ih inside]
      · rw [if_pos (Nat.le_of_eq same), same, Nat.sub_self, Text.drop?] at inside
        cases inside
      · rw [fitting, fitting, if_neg (by omega), if_neg (by omega)]

/-- Going back from an offset ends where the characters that fit in front of it end. -/
theorem floorBoundary_eq (source : List Char) (offset : Nat)
    : floorBoundary source offset = some (size (fitting offset source)) := by
  induction offset with
  | zero => simp [floorBoundary, Text.drop?, fitting_zero]
  | succ offset ih =>
      rw [floorBoundary]
      split
      next boundary =>
        obtain ⟨rest, dropped⟩ := Option.isSome_iff_exists.mp boundary
        obtain ⟨front, rfl, sized⟩ := Text.drop?_eq_some.mp dropped
        have whole := fitting_append 0 front rest
        rw [fitting_zero, List.append_nil, Nat.add_zero, sized] at whole
        rw [whole, sized]
      next inside => rw [ih, fitting_succ (Option.not_isSome_iff_eq_none.mp inside)]

-----------------------------------------------------------------------------------------
-- Lines
-----------------------------------------------------------------------------------------

/-- Every line in a table begins behind the offset that the table is counted from. -/
theorem lt_of_mem_lineStarts {offset start : Nat} (member : start ∈ lineStarts offset text)
    : offset < start := by
  fun_induction lineStarts offset text with
  | case1 => cases member
  | case2 offset rest ih =>
      rcases List.mem_cons.mp member with rfl | member
      · omega
      · exact Nat.lt_trans (by omega) (ih member)
  | case3 offset c rest _ ends ih =>
      have positive := c.utf8Size_pos
      rcases List.mem_cons.mp member with rfl | member
      · omega
      · exact Nat.lt_trans (by omega) (ih member)
  | case4 offset c rest _ goesOn ih =>
      have positive := c.utf8Size_pos
      exact Nat.lt_trans (by omega) (ih member)

/-- The lines that have begun in a front; the last one has so many characters in it. -/
structure InLine (front : List Char) (starts : List Nat) (length : Nat) : Prop where
  begun : ∀ start ∈ starts, start ≤ size front
  last : ∃ earlier before line,
    starts = earlier ++ [size before] ∧ front = before ++ line ∧ line.length = length

namespace InLine

variable {starts : List Nat} {length : Nat}

theorem nil : InLine [] [0] 0 where
  begun := by simp
  last := ⟨[], [], [], rfl, rfl, rfl⟩

/-- A character goes on with the line. -/
theorem character (inLine : InLine front starts length) (c : Char)
    : InLine (front ++ [c]) starts (length + 1) where
  begun start member := by
    have within := inLine.begun start member
    rw [Text.size_append]
    omega
  last := by
    obtain ⟨earlier, before, line, starts_eq, rfl, rfl⟩ := inLine.last
    exact ⟨earlier, before, line ++ [c], starts_eq, by simp, by simp⟩

/-- A line break begins a line. -/
theorem lineBreak (inLine : InLine front starts length) (ends : List Char)
    : InLine (front ++ ends) (starts ++ [size front + size ends]) 0 where
  begun start member := by
    rw [Text.size_append]
    rcases List.mem_append.mp member with earlier | last
    · have within := inLine.begun start earlier
      omega
    · exact Nat.le_of_eq (List.mem_singleton.mp last)
  last := ⟨starts, front ++ ends, [], by rw [Text.size_append], by simp, rfl⟩

/-- The end of the front is in the last line that has begun. -/
theorem locate_eq (inLine : InLine front starts length) (text : List Char) {later : List Nat}
    (after : ∀ start ∈ later, size front < start)
    : locate (front ++ text) (starts ++ later) (size front)
      = some { line := starts.length, column := length + 1 } := by
  have taken : (starts ++ later).takeWhile (· ≤ size front) = starts := by
    rw [List.takeWhile_append_of_pos (by simpa using inLine.begun)]
    cases later with
    | nil => simp
    | cons start later => simp [after start List.mem_cons_self]
  obtain ⟨earlier, before, line, rfl, rfl, rfl⟩ := inLine.last
  have sliced
      : Text.slice? (size before) (size before + size line) (before ++ (line ++ text)) = some line :=
    Text.slice?_eq_some.mpr ⟨before, text, rfl, rfl, rfl⟩
  rw [locate, taken]
  simp [sub?, sliced]

/-- Where nothing more fits, the place is that of the front. -/
theorem locate_of_full (inLine : InLine front starts length) {bytes : Nat}
    (full : fitting bytes text = [])
    : locate (front ++ text) (starts ++ lineStarts (size front) text)
        (size front + size (fitting bytes text))
      = some { line := starts.length, column := length + 1 } := by
  rw [full]
  exact inLine.locate_eq text fun start => lt_of_mem_lineStarts

/-- From a place that is known, the table gives the places that are counted. -/
theorem locate_fitting (inLine : InLine front starts length) (bytes : Nat) (text : List Char)
    : locate (front ++ text) (starts ++ lineStarts (size front) text)
        (size front + size (fitting bytes text))
      = some (Position.advance { line := starts.length, column := length + 1 } bytes text) := by
  generalize place_eq : ({ line := starts.length, column := length + 1 } : Position) = place
  have single : '\r'.utf8Size = 1 := rfl
  have double : '\r'.utf8Size + '\n'.utf8Size = 2 := rfl
  fun_induction Position.advance place bytes text generalizing front starts length with
  | case1 place bytes => exact (inLine.locate_of_full (by rw [fitting])).trans (congrArg some place_eq)
  | case2 place bytes rest enough ih =>
      have onward := ih (inLine.lineBreak ['\r', '\n']) (by simp [← place_eq, Position.nextLine])
      have fitted
          : fitting bytes ('\r' :: '\n' :: rest) = '\r' :: '\n' :: fitting (bytes - 2) rest := by
        have whole := fitting_append (bytes - 2) ['\r', '\n'] rest
        have width : size ['\r', '\n'] = 2 := rfl
        rwa [width, Nat.add_sub_cancel' enough] at whole
      have sized (run : List Char) : size ('\r' :: '\n' :: run) = 2 + size run :=
        Text.size_append ['\r', '\n'] run
      rw [lineStarts, fitted, sized]
      simpa [Nat.add_assoc, double] using onward
  | case3 place rest =>
      -- The line feed alone does not fit, so the carriage return is one more character of its line.
      have onward := (inLine.character '\r').locate_of_full (fitting_zero ('\n' :: rest))
      have fitted : fitting 1 ('\r' :: '\n' :: rest) = '\r' :: fitting 0 ('\n' :: rest) :=
        fitting_append 0 ['\r'] ('\n' :: rest)
      have ends : Text.isLineTerminator '\n' := by decide
      have alone : '\n'.utf8Size = 1 := rfl
      rw [lineStarts, if_pos ends] at onward
      · rw [lineStarts, fitted]
        simpa [Nat.add_assoc, single, alone, ← place_eq, Position.nextColumn] using onward
      · exact fun _ same => absurd same (by decide)
  | case4 place bytes rest fewer other =>
      refine (inLine.locate_of_full ?_).trans (congrArg some place_eq)
      rw [fitting, if_neg (by omega)]
  | case5 place bytes c rest notBoth fits ih =>
      have fitted : fitting bytes (c :: rest) = c :: fitting (bytes - c.utf8Size) rest := by
        rw [fitting, if_pos fits]
      rw [fitted]
      cases ends : Text.isLineTerminator c with
      | true =>
          have onward := ih (inLine.lineBreak [c]) (by simp [← place_eq, Position.nextLine, ends])
          rw [lineStarts, if_pos ends]
          simpa [Nat.add_assoc, ends] using onward
          exact notBoth
      | false =>
          have onward := ih (inLine.character c) (by simp [← place_eq, Position.nextColumn, ends])
          rw [lineStarts, ends]
          simpa [Nat.add_assoc, ends] using onward
          exact notBoth
  | case6 place bytes c rest notBoth large =>
      refine (inLine.locate_of_full ?_).trans (congrArg some place_eq)
      rw [fitting, if_neg large]

end InLine

/-- The table gives the place of every offset, without ever being left. -/
theorem position_eq (source : List Char) (offset : Nat)
    : position source offset = some (Position.ofOffset source offset) := by
  have located := InLine.nil.locate_fitting offset source
  simp only [List.nil_append, Text.size_nil, Nat.zero_add] at located
  rw [position, floorBoundary_eq, fitting_min]
  exact located

end EcmaSyntax.Bytes
