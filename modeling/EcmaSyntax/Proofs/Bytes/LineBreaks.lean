import EcmaSyntax.Proofs.Bytes.Lines
import EcmaSyntax.Proofs.Token.Reading
import Mathlib.Data.List.TakeWhile

/-! Line breaks, and the positions that they make. The line of a place is told by the line breaks that end in
front of it, its column by the characters behind the last of them; so positions grow with the offset.
-/

namespace EcmaSyntax

open Text (size)

-----------------------------------------------------------------------------------------
-- Line breaks
-----------------------------------------------------------------------------------------

/-- A carriage return and the line feed after it together, or one line terminator. -/
inductive Text.IsLineBreak : List Char → Prop
  | pair : IsLineBreak ['\r', '\n']
  | single {c : Char} (terminator : isLineTerminator c) : IsLineBreak [c]

/-- A line break ends at the offset. The halves of a pair are not line breaks of their own. -/
def Text.BreaksAt (source : List Char) (stop : Nat) : Prop :=
  ∃ front ends rest,
    source = front ++ (ends ++ rest)
    ∧ size front + size ends = stop
    ∧ IsLineBreak ends
    ∧ (ends = ['\r'] → rest.head? ≠ some '\n')
    ∧ (ends = ['\n'] → front.getLast? ≠ some '\r')

namespace Text

variable {source : List Char} {offset stop : Nat}

/-- Characters begin within the source. -/
theorem IsBoundary.le_size (isBoundary : IsBoundary source offset) : offset ≤ size source := by
  obtain ⟨rest, cut⟩ := isBoundary
  obtain ⟨front, rfl, rfl⟩ := drop?_eq_some.mp cut
  simp

/-- A line break ends behind every line terminator that is not the first half of a pair. -/
theorem breaksAt_iff
    : BreaksAt source stop
      ↔ ∃ front c rest,
          source = front ++ c :: rest
          ∧ size front + c.utf8Size = stop
          ∧ isLineTerminator c
          ∧ (c = '\r' → rest.head? ≠ some '\n') := by
  constructor
  · rintro ⟨front, ends, rest, rfl, rfl, isBreak, whole, _⟩
    cases isBreak with
    | pair => exact ⟨front ++ ['\r'], '\n', rest, by simp, by simp [Nat.add_assoc], by decide, nofun⟩
    | @single c terminator =>
        exact ⟨front, c, rest, rfl, rfl, terminator, fun same => whole (by rw [same])⟩
  · rintro ⟨front, c, rest, rfl, rfl, terminator, whole⟩
    by_cases half : c = '\n' ∧ front.getLast? = some '\r'
    · obtain ⟨rfl, last⟩ := half
      obtain ⟨before, rfl⟩ := List.getLast?_eq_some_iff.mp last
      refine ⟨before, ['\r', '\n'], rest, by simp, by simp [Nat.add_assoc], .pair, ?_, ?_⟩ <;> simp
    · refine ⟨front, [c], rest, rfl, rfl, .single terminator, ?_, ?_⟩
      · simpa using whole
      · simpa using half

end Text

namespace Bytes

variable {source text : List Char} {offset stop bound first second : Nat}

-----------------------------------------------------------------------------------------
-- The table of lines
-----------------------------------------------------------------------------------------

/-- A character of a text is its first one or stands in the rest. -/
theorem exists_split_cons {c : Char} {property : List Char → Char → List Char → Prop}
    : (∃ front d rest, c :: text = front ++ d :: rest ∧ property front d rest)
      ↔ property [] c text
        ∨ ∃ front d rest, text = front ++ d :: rest ∧ property (c :: front) d rest := by
  constructor
  · rintro ⟨front, d, rest, same, holds⟩
    cases front with
    | nil =>
        obtain ⟨rfl, rfl⟩ := List.cons.inj same
        exact .inl holds
    | cons first front =>
        obtain ⟨rfl, rfl⟩ := List.cons.inj same
        exact .inr ⟨front, d, rest, rfl, holds⟩
  · rintro (holds | ⟨front, d, rest, rfl, holds⟩)
    · exact ⟨[], c, text, rfl, holds⟩
    · exact ⟨c :: front, d, rest, rfl, holds⟩

/-- The table holds the offsets behind the line breaks. -/
theorem mem_lineStarts
    : stop ∈ lineStarts offset text
      ↔ ∃ front c rest,
          text = front ++ c :: rest
          ∧ offset + (size front + c.utf8Size) = stop
          ∧ Text.isLineTerminator c
          ∧ (c = '\r' → rest.head? ≠ some '\n') := by
  fun_induction lineStarts offset text with
  | case1 => simp
  | case2 offset rest ih =>
      have double : '\r'.utf8Size + '\n'.utf8Size = 2 := rfl
      have ends : Text.isLineTerminator '\n' := by decide
      rw [List.mem_cons, ih, exists_split_cons, exists_split_cons]
      -- The carriage return is the first half of the pair, so nothing ends behind it.
      refine (or_congr ?_ ?_).trans (or_iff_right fun here => here.2.2 rfl rfl).symm
      · rw [eq_comm]
        simp [ends, double]
      · simp only [Text.size_cons, ← double, Nat.add_assoc]
  | case3 offset c rest single ends ih =>
      have whole : c = '\r' → rest.head? ≠ some '\n' := by
        rintro rfl feed
        obtain ⟨tail, rfl⟩ := List.head?_eq_some_iff.mp feed
        exact single tail rfl rfl
      rw [List.mem_cons, ih, exists_split_cons]
      refine or_congr ?_ ?_
      · rw [eq_comm, and_iff_left ⟨ends, whole⟩, Text.size_nil, Nat.zero_add]
      · simp only [Text.size_cons, Nat.add_assoc]
  | case4 offset c rest single goesOn ih =>
      rw [ih, exists_split_cons, or_iff_right (fun here => goesOn here.2.1)]
      simp only [Text.size_cons, Nat.add_assoc]

/-- The table of lines is sorted, by induction on the text. -/
theorem pairwise_lineStarts (offset : Nat) (text : List Char)
    : (lineStarts offset text).Pairwise (· < ·) := by
  fun_induction lineStarts offset text with
  | case1 => exact .nil
  | case2 offset rest ih | case3 offset c rest single ends ih =>
      exact .cons (fun stop => lt_of_mem_lineStarts) ih
  | case4 offset c rest single goesOn ih => exact ih

/-- There is one more line than there are line breaks. -/
theorem lineCount_eq (offset : Nat) (text : List Char)
    : Position.lineCount text = (lineStarts offset text).length + 1 := by
  fun_induction lineStarts offset text with
  | case1 => rfl
  | case2 offset rest ih => rw [Position.lineCount, ih, List.length_cons]
  | case3 offset c rest single ends ih =>
      rw [Position.lineCount, if_pos ends, ih, List.length_cons]
      exact single
  | case4 offset c rest single goesOn ih =>
      rw [Position.lineCount, if_neg goesOn, ih]
      exact single

/-- The table of lines lists where line breaks end. -/
theorem mem_lineStarts_zero : stop ∈ lineStarts 0 source ↔ Text.BreaksAt source stop := by
  rw [mem_lineStarts, Text.breaksAt_iff]
  simp only [Nat.zero_add]

-----------------------------------------------------------------------------------------
-- The line breaks up to an offset
-----------------------------------------------------------------------------------------

/-- The offsets at which line breaks end, in their order, up to a bound. -/
def breaksUpTo (source : List Char) (bound : Nat) : List Nat :=
  (lineStarts 0 source).takeWhile (· ≤ bound)

theorem mem_takeWhile_of_pairwise {list : List Nat} (sorted : list.Pairwise (· < ·))
    (member : stop ∈ list) (within : stop ≤ bound)
    : stop ∈ list.takeWhile (· ≤ bound) := by
  induction sorted with
  | nil => cases member
  | @cons first rest before _ ih =>
      rcases List.mem_cons.mp member with rfl | later
      · rw [List.takeWhile_cons_of_pos (by simpa using within)]
        exact List.mem_cons_self
      · have := before stop later
        rw [List.takeWhile_cons_of_pos (by simp only [decide_eq_true_eq]; omega)]
        exact List.mem_cons_of_mem first (ih later)

/-- The line breaks up to a bound are sorted, as a front of a sorted table. -/
theorem pairwise_breaksUpTo (source : List Char) (bound : Nat)
    : (breaksUpTo source bound).Pairwise (· < ·) :=
  (pairwise_lineStarts 0 source).sublist (List.takeWhile_sublist _)

/-- Listed up to a bound are exactly the offsets not above it at which line breaks end. -/
theorem mem_breaksUpTo
    : stop ∈ breaksUpTo source bound ↔ Text.BreaksAt source stop ∧ stop ≤ bound := by
  constructor
  · intro member
    have within := List.mem_takeWhile_imp (p := (· ≤ bound)) member
    exact ⟨mem_lineStarts_zero.mp ((List.takeWhile_sublist _).subset member), by simpa using within⟩
  · rintro ⟨breaks, within⟩
    exact mem_takeWhile_of_pairwise (pairwise_lineStarts 0 source) (mem_lineStarts_zero.mpr breaks) within

/-- Further on, further line breaks have ended. -/
theorem exists_breaksUpTo_append (source : List Char) (ordered : first ≤ second)
    : ∃ later,
        breaksUpTo source second = breaksUpTo source first ++ later
        ∧ ∀ stop, stop ∈ later ↔ Text.BreaksAt source stop ∧ first < stop ∧ stop ≤ second := by
  have front
      : (breaksUpTo source second).takeWhile (· ≤ first) = breaksUpTo source first := by
    rw [breaksUpTo, List.takeWhile_takeWhile, breaksUpTo]
    congr 1
    funext stop
    simp only [decide_eq_true_eq, decide_eq_decide]
    omega
  have split := List.takeWhile_append_dropWhile (p := (· ≤ first)) (l := breaksUpTo source second)
  rw [front] at split
  generalize (breaksUpTo source second).dropWhile (· ≤ first) = later at split
  have sorted := pairwise_breaksUpTo source second
  rw [← split, List.pairwise_append] at sorted
  refine ⟨later, split.symm, fun stop => ⟨fun member => ?_, fun ⟨breaks, above, within⟩ => ?_⟩⟩
  · have among : stop ∈ breaksUpTo source second := split ▸ List.mem_append_right _ member
    obtain ⟨breaks, within⟩ := mem_breaksUpTo.mp among
    refine ⟨breaks, Nat.lt_of_not_le fun below => ?_, within⟩
    have earlier := mem_breaksUpTo.mpr ⟨breaks, below⟩
    exact Nat.lt_irrefl stop (sorted.2.2 stop earlier stop member)
  · have among : stop ∈ breaksUpTo source first ++ later := split ▸ mem_breaksUpTo.mpr ⟨breaks, within⟩
    refine (List.mem_append.mp among).resolve_left fun earlier => ?_
    exact Nat.not_le.mpr above (mem_breaksUpTo.mp earlier).2

-----------------------------------------------------------------------------------------
-- Positions
-----------------------------------------------------------------------------------------

/-- Going back from an offset ends at the last boundary up to it. -/
theorem greatest_of_floorBoundary {boundary : Nat}
    (found : floorBoundary source bound = some boundary)
    : Text.IsBoundary source boundary
      ∧ boundary ≤ bound
      ∧ ∀ other, Text.IsBoundary source other → other ≤ bound → other ≤ boundary := by
  induction bound with
  | zero =>
      rw [floorBoundary] at found
      split at found
      next here =>
        cases found
        exact ⟨Option.isSome_iff_exists.mp here, Nat.le_refl 0, fun _ _ within => within⟩
      next => cases found
  | succ bound ih =>
      rw [floorBoundary] at found
      split at found
      next here =>
        cases found
        exact ⟨Option.isSome_iff_exists.mp here, Nat.le_refl _, fun _ _ within => within⟩
      next inside =>
        obtain ⟨isBoundary, below, greatest⟩ := ih found
        refine ⟨isBoundary, Nat.le_succ_of_le below, fun other otherBoundary within => ?_⟩
        rcases Nat.lt_or_eq_of_le within with fewer | rfl
        · exact greatest other otherBoundary (Nat.le_of_lt_succ fewer)
        · exact absurd (Option.isSome_iff_exists.mpr otherBoundary) inside

/-- The table gives the number of line breaks and the characters behind the last one. -/
theorem locate_lineStarts {boundary : Nat} {position : Position}
    (located : locate source (0 :: lineStarts 0 source) boundary = some position)
    : ∃ text,
        Text.slice? ((breaksUpTo source boundary).getLast?.getD 0) boundary source = some text
        ∧ position
          = { line := (breaksUpTo source boundary).length + 1, column := text.length + 1 } := by
  have taken
      : (0 :: lineStarts 0 source).takeWhile (· ≤ boundary) = 0 :: breaksUpTo source boundary := by
    rw [List.takeWhile_cons_of_pos (by simp), breaksUpTo]
  have begins
      : (0 :: lineStarts 0 source)[(breaksUpTo source boundary).length]?
        = some ((breaksUpTo source boundary).getLast?.getD 0) := by
    rw [← List.takeWhile_append_dropWhile (p := (· ≤ boundary)) (l := 0 :: lineStarts 0 source),
      taken, List.getElem?_append_left (by simp), ← List.getLast?_cons, List.getLast?_eq_getElem?]
    simp
  rw [locate, taken, List.length_cons, sub?_of_le (Nat.le_add_left 1 _)] at located
  simp only [Option.bind_eq_bind, Option.bind_some, Nat.add_sub_cancel, begins] at located
  obtain ⟨text, sliced, position_eq⟩ := Option.bind_eq_some_iff.mp located
  exact ⟨text, sliced, (Option.some.inj position_eq).symm⟩

end Bytes

namespace Position

open Bytes (breaksUpTo)

variable {source : List Char} {first second : Nat}

/-- A place is told by the last boundary up to it. -/
theorem exists_boundary (source : List Char) (offset : Nat)
    : ∃ boundary text,
        Text.IsBoundary source boundary
        ∧ boundary ≤ min offset (size source)
        ∧ (∀ other,
            Text.IsBoundary source other → other ≤ min offset (size source) → other ≤ boundary)
        ∧ Text.slice? ((breaksUpTo source boundary).getLast?.getD 0) boundary source = some text
        ∧ ofOffset source offset
          = { line := (breaksUpTo source boundary).length + 1, column := text.length + 1 } := by
  obtain ⟨boundary, found, located⟩ := Option.bind_eq_some_iff.mp (Bytes.position_eq source offset)
  obtain ⟨isBoundary, within, greatest⟩ := Bytes.greatest_of_floorBoundary found
  obtain ⟨text, sliced, position_eq⟩ := Bytes.locate_lineStarts located
  exact ⟨boundary, text, isBoundary, within, greatest, sliced, position_eq⟩

/-- The place of a boundary. -/
theorem ofOffset_boundary {boundary : Nat} (isBoundary : Text.IsBoundary source boundary)
    : ∃ text,
        Text.slice? ((breaksUpTo source boundary).getLast?.getD 0) boundary source = some text
        ∧ ofOffset source boundary
          = { line := (breaksUpTo source boundary).length + 1, column := text.length + 1 } := by
  obtain ⟨floor, text, _, within, greatest, sliced, position_eq⟩ := exists_boundary source boundary
  have bounded := isBoundary.le_size
  have above := greatest boundary isBoundary (by omega)
  obtain rfl : floor = boundary := by omega
  exact ⟨text, sliced, position_eq⟩

/-- Between two places a line begins if and only if a line break ends. -/
theorem line_lt_iff (boundary : Text.IsBoundary source first)
    (boundaryToo : Text.IsBoundary source second) (ordered : first ≤ second)
    : (ofOffset source first).line < (ofOffset source second).line
      ↔ ∃ stop, Text.BreaksAt source stop ∧ first < stop ∧ stop ≤ second := by
  obtain ⟨_, _, position_eq⟩ := ofOffset_boundary boundary
  obtain ⟨_, _, positionToo_eq⟩ := ofOffset_boundary boundaryToo
  obtain ⟨later, split, mem_later⟩ := Bytes.exists_breaksUpTo_append source ordered
  rw [position_eq, positionToo_eq, split, List.length_append]
  constructor
  · intro more
    obtain ⟨stop, member⟩ := List.exists_mem_of_length_pos (l := later) (by simp only at more; omega)
    exact ⟨stop, (mem_later stop).mp member⟩
  · rintro ⟨stop, breaks⟩
    have := List.length_pos_of_mem ((mem_later stop).mpr breaks)
    simp only
    omega

/-- Earlier in the text: on a line before, or further left on the same line. -/
def Before (first second : Position) : Prop :=
  first.line < second.line ∨ first.line = second.line ∧ first.column < second.column

/-- Positions grow with the boundary. -/
theorem before_of_lt (boundary : Text.IsBoundary source first)
    (boundaryToo : Text.IsBoundary source second) (less : first < second)
    : (ofOffset source first).Before (ofOffset source second) := by
  obtain ⟨text, sliced, position_eq⟩ := ofOffset_boundary boundary
  obtain ⟨longer, slicedToo, positionToo_eq⟩ := ofOffset_boundary boundaryToo
  obtain ⟨later, split, _⟩ := Bytes.exists_breaksUpTo_append source (Nat.le_of_lt less)
  rw [position_eq, positionToo_eq, split, List.length_append]
  by_cases none : later = []
  · -- Both are on one line, and the text in front of the first is a front of that in front of the second.
    rw [split, none, List.append_nil] at slicedToo
    obtain ⟨front, rest, source_eq, start_eq, stop_eq⟩ := Text.slice?_eq_some.mp sliced
    obtain ⟨frontToo, restToo, sourceToo_eq, startToo_eq, stopToo_eq⟩ := Text.slice?_eq_some.mp slicedToo
    obtain ⟨rfl, onward⟩ := Text.append_inj_size (source_eq.symm.trans sourceToo_eq) (by omega)
    obtain ⟨middle, rfl, _⟩ := Text.exists_append_of_size_le onward (by omega)
    have present : middle ≠ [] := by
      rintro rfl
      rw [List.append_nil] at stopToo_eq
      omega
    have := List.length_pos_iff.mpr present
    refine .inr ⟨?_, ?_⟩
    · simp [none]
    · simp only [List.length_append]
      omega
  · have := List.length_pos_iff.mpr none
    refine .inl ?_
    simp only
    omega

/-- The end of a text is in its last line. -/
theorem lineCount_eq_line (source : List Char)
    : lineCount source = (ofOffset source (size source)).line := by
  have boundary : Text.IsBoundary source (size source) :=
    ⟨[], Text.drop?_eq_some.mpr ⟨source, by simp, rfl⟩⟩
  obtain ⟨_, _, position_eq⟩ := ofOffset_boundary boundary
  have whole : breaksUpTo source (size source) = Bytes.lineStarts 0 source := by
    refine List.takeWhile_eq_self_iff.mpr fun stop member => ?_
    obtain ⟨front, c, rest, rfl, rfl, _⟩ := Bytes.mem_lineStarts.mp member
    simp
  rw [position_eq, whole, Bytes.lineCount_eq 0]

/-- Every offset stands for the last boundary up to it. Its line is one more than the line breaks that end up
to there, and its column one more than the characters behind the last of them. The lines of the text are
counted to its end, and further on in the text the position is a later one.
-/
theorem ofOffset_counts (source : List Char)
    : (∀ offset,
          ∃ (boundary : Nat) (stops : List Nat) (text : List Char),
            Text.IsBoundary source boundary
            ∧ boundary ≤ min offset (size source)
            ∧ (∀ other,
                Text.IsBoundary source other → other ≤ min offset (size source) → other ≤ boundary)
            ∧ stops.Pairwise (· < ·)
            ∧ (∀ stop, stop ∈ stops ↔ Text.BreaksAt source stop ∧ stop ≤ boundary)
            ∧ Text.slice? (stops.getLast?.getD 0) boundary source = some text
            ∧ ofOffset source offset
              = {
                  line := stops.length + 1
                  column := text.length + 1
                })
      ∧ lineCount source = (ofOffset source (size source)).line
      ∧ ∀ first second,
          Text.IsBoundary source first →
          Text.IsBoundary source second →
          first < second →
          (ofOffset source first).Before (ofOffset source second) := by
  refine ⟨fun offset => ?_, lineCount_eq_line source, fun first second => before_of_lt⟩
  obtain ⟨boundary, text, isBoundary, within, greatest, sliced, position_eq⟩ :=
    exists_boundary source offset
  exact ⟨boundary, breaksUpTo source boundary, text, isBoundary, within, greatest,
    Bytes.pairwise_breaksUpTo source boundary, fun _ => Bytes.mem_breaksUpTo, sliced, position_eq⟩

/-- Before, between and behind the halves of a pair, and inside of a separator of lines. -/
theorem ofOffset_counts_pair
    : Text.IsBoundary "é\r\n\u2028x".toList 3
      ∧ Text.IsBoundary "é\r\n\u2028x".toList 4
      ∧ (ofOffset "é\r\n\u2028x".toList 3).Before (ofOffset "é\r\n\u2028x".toList 4)
      ∧ [2, 3, 4, 6, 7].map (ofOffset "é\r\n\u2028x".toList)
        = [⟨1, 2⟩, ⟨1, 3⟩, ⟨2, 1⟩, ⟨2, 1⟩, ⟨3, 1⟩]
      ∧ lineCount "é\r\n\u2028x".toList = 3 := by
  have between : Text.IsBoundary "é\r\n\u2028x".toList 3 := ⟨_, rfl⟩
  have behind : Text.IsBoundary "é\r\n\u2028x".toList 4 := ⟨_, rfl⟩
  obtain ⟨_, counted, ordered⟩ := ofOffset_counts "é\r\n\u2028x".toList
  exact ⟨between, behind, ordered 3 4 between behind (by decide), by decide, counted.trans (by decide)⟩

end Position

end EcmaSyntax
