import EcmaSyntax.Proofs.Form.Unambiguous
import EcmaSyntax.Proofs.Number.Comparison

/-! Equal forms and their hashes. Equal forms are the same up to the signs of zeros, and the hash sees these
signs. So equal forms hash alike if and only if the signs agree, as they do in the forms of programs.
-/

namespace EcmaSyntax

-----------------------------------------------------------------------------------------
-- Contents and marks
-----------------------------------------------------------------------------------------

/-- Two contents of one length, with as many marks, are the same if and only if their marks are. -/
structure MarkedAlike {α β : Type} (first second : List α) (marks others : List β) : Prop where
  length_eq : first.length = second.length
  length_marks_eq : marks.length = others.length
  same_iff : first = second ↔ marks = others

namespace MarkedAlike

variable {α β : Type} {first second more next : List α} {marks others left right : List β}

/-- A content is like itself, whatever its marks are. -/
theorem refl (content : List α) (marks : List β) : MarkedAlike content content marks marks :=
  ⟨rfl, rfl, iff_of_true rfl rfl⟩

/-- Equal lengths tell where the contents and the marks are put together. -/
theorem append (front : MarkedAlike first second marks others)
    (back : MarkedAlike more next left right)
    : MarkedAlike (first ++ more) (second ++ next) (marks ++ left) (others ++ right) where
  length_eq := by rw [List.length_append, List.length_append, front.length_eq, back.length_eq]
  length_marks_eq := by
    rw [List.length_append, List.length_append, front.length_marks_eq, back.length_marks_eq]
  same_iff := by
    rw [List.append_eq_append_iff_of_size_eq_left front.length_eq,
      List.append_eq_append_iff_of_size_eq_left front.length_marks_eq, front.same_iff, back.same_iff]

/-- The same content in front keeps contents alike. -/
theorem cons (content : α) (rest : MarkedAlike first second marks others)
    : MarkedAlike (content :: first) (content :: second) marks others :=
  (refl [content] []).append rest

end MarkedAlike

-----------------------------------------------------------------------------------------
-- Equal forms
-----------------------------------------------------------------------------------------

/-- The sign of a number that is zero. -/
def Number.zeroSign? : Number → Option Bool
  | nan => none
  | signed negative magnitude => if magnitude = Magnitude.zero then some negative else none

namespace Form

mutual

/-- The signs of the zeros in a form, in order. -/
def zeroSigns : Form → List Bool
  | number value => value.zeroSign?.toList
  | list items => zeroSignsOfItems items
  | nil | atom _ | string _ => []

def zeroSignsOfItems : List Form → List Bool
  | [] => []
  | item :: items => item.zeroSigns ++ zeroSignsOfItems items

end

variable {first second : Form}

theorem length_eq_of_equalsItems {items others : List Form} (equal : equalsItems items others)
    : items.length = others.length := by
  induction items generalizing others with
  | nil =>
      cases others with
      | nil => rfl
      | cons => cases equal
  | cons item items ih =>
      cases others with
      | nil => cases equal
      | cons other others =>
          rw [equalsItems, Bool.and_eq_true] at equal
          rw [List.length_cons, List.length_cons, ih equal.2]

/-- Equal numbers are hashed differently if they are zeros with different signs. -/
theorem markedAlike_number {value other : Number} (equal : value.equals other)
    : MarkedAlike (number value).hashInput (number other).hashInput (number value).zeroSigns
        (number other).zeroSigns := by
  rcases Number.eq_or_zeros_of_equals equal with rfl | ⟨negative, rfl, rfl⟩
  · exact .refl _ _
  · refine ⟨rfl, rfl, iff_of_false ?_ ?_⟩ <;> cases negative <;> decide

mutual

/-- Equal forms have inputs of the hash that differ in the signs of zeros only, by induction on the
form.
-/
theorem markedAlike_hashInput (first second : Form) (equal : first.equals second)
    : MarkedAlike first.hashInput second.hashInput first.zeroSigns second.zeroSigns := by
  cases first <;> cases second <;> first | cases equal; done | skip
  case nil => exact .refl _ _
  case atom =>
    obtain rfl := eq_of_beq equal
    exact .refl _ _
  case string =>
    obtain rfl := eq_of_beq equal
    exact .refl _ _
  case number => exact markedAlike_number equal
  case list items others =>
    rw [hashInput, hashInput, length_eq_of_equalsItems equal]
    exact ((markedAlike_hashInputItems items others equal).cons _).cons _

/-- Equal lists of forms are alike item by item. -/
theorem markedAlike_hashInputItems (items others : List Form) (equal : equalsItems items others)
    : MarkedAlike (hashInputItems items) (hashInputItems others) (zeroSignsOfItems items)
        (zeroSignsOfItems others) := by
  cases items <;> cases others
  case nil.nil => exact .refl _ _
  case nil.cons => cases equal
  case cons.nil => cases equal
  case cons.cons item items other others =>
    rw [equalsItems, Bool.and_eq_true] at equal
    exact (markedAlike_hashInput item other equal.1).append
      (markedAlike_hashInputItems items others equal.2)

end

/-- Equal forms contribute the same to a hash if and only if their zeros have the same signs. -/
theorem sameHash_iff_of_equals (equal : first.equals second)
    : first.sameHash second ↔ first.zeroSigns = second.zeroSigns := by
  rw [sameHash, decide_eq_true_iff]
  exact (markedAlike_hashInput first second equal).same_iff

/-- Only the last of three zeros differs in its sign. -/
theorem sameHash_iff_of_equals_nested
    : let zeros (last : Bool) :=
        list
          [
            number .nan, list [string "a", number (.signed true Magnitude.zero)], number .zero,
            list [list [number (.signed last Magnitude.zero)], atom "b"]
          ]
      (zeros false).equals (zeros true)
      ∧ ((zeros false).sameHash (zeros true)
        ↔ (zeros false).zeroSigns = (zeros true).zeroSigns) :=
  ⟨by decide, sameHash_iff_of_equals (by decide)⟩

/-- The two zeros are equal as forms and hash apart. -/
theorem zeros_hash_apart
    : (number .zero).equals (number (.signed true Magnitude.zero))
      ∧ ¬(number .zero).sameHash (number (.signed true Magnitude.zero)) := by
  decide

/-- Equal forms without negative numbers hash alike. -/
theorem sameHash_of_unsigned (equal : first.equals second) (left : first.Unsigned)
    (right : second.Unsigned)
    : first.sameHash second := by
  rw [eq_of_equals first second equal left right, sameHash, decide_eq_true_iff]

end Form

-----------------------------------------------------------------------------------------
-- Forms of programs
-----------------------------------------------------------------------------------------

namespace Program

variable {source other : List Char} {dialect otherDialect : Dialect} {first second : Program}

/-- The form of a parsed program has no negative numbers. -/
theorem unsigned_of_parse (parsed : parse source dialect = .ok first)
    : (Form.ofProgram first).Unsigned :=
  Form.unsigned_ofStmts first.body fun _ member =>
    (spelled_of_parse parsed).child (List.mem_map_of_mem member)

/-- Programs that are parsed from any texts, in any dialects, and have equal forms hash alike. -/
theorem sameHash_of_equals (parsed : parse source dialect = .ok first)
    (otherParsed : parse other otherDialect = .ok second)
    (equal : (Form.ofProgram first).equals (Form.ofProgram second))
    : (Form.ofProgram first).sameHash (Form.ofProgram second) :=
  Form.sameHash_of_unsigned equal (unsigned_of_parse parsed) (unsigned_of_parse otherParsed)

end Program

end EcmaSyntax
