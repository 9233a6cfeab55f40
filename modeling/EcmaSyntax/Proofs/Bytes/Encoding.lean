import EcmaSyntax.Proofs.Text.Cutting
import EcmaSyntax.Text.Identifier
import Mathlib.Tactic.SplitIfs

/-! Texts in UTF-8. No character begins inside another one, so bytes that spell characters are found
only where those characters stand.
-/

namespace EcmaSyntax.Bytes

open Text (size)

/-- The bytes of a text in UTF-8. -/
def ofText (text : List Char) : List UInt8 :=
  text.flatMap String.utf8EncodeChar

@[simp]
theorem ofText_nil : ofText [] = [] := rfl

theorem ofText_cons (c : Char) (rest : List Char)
    : ofText (c :: rest) = String.utf8EncodeChar c ++ ofText rest :=
  rfl

theorem ofText_append (front rest : List Char)
    : ofText (front ++ rest) = ofText front ++ ofText rest :=
  List.flatMap_append

/-- A text has as many bytes as its characters take up. -/
@[simp]
theorem length_ofText (text : List Char) : (ofText text).length = size text := by
  induction text with
  | nil => rfl
  | cons c rest ih => simp [ofText_cons, ih]

/-- A difference of offsets, which must not go below zero. -/
def sub? (first second : Nat) : Option Nat :=
  if second ≤ first then some (first - second) else none

/-- An offset that is not greater can be subtracted. -/
theorem sub?_of_le {first second : Nat} (ordered : second ≤ first)
    : sub? first second = some (first - second) := by
  rw [sub?, if_pos ordered]

-----------------------------------------------------------------------------------------
-- First bytes
-----------------------------------------------------------------------------------------

/-- A character begins with its first byte, and no other byte of it could begin one. -/
theorem exists_utf8EncodeChar (c : Char)
    : ∃ first others,
        String.utf8EncodeChar c = first :: others
        ∧ first.IsUTF8FirstByte
        ∧ ∀ byte ∈ others, ¬byte.IsUTF8FirstByte := by
  have marks {index : Nat} (within : index < (String.utf8EncodeChar c).length)
      : (String.utf8EncodeChar c)[index].IsUTF8FirstByte ↔ index = 0 :=
    UInt8.isUTF8FirstByte_getElem_utf8EncodeChar
  have present : String.utf8EncodeChar c ≠ [] :=
    List.ne_nil_of_length_pos (by rw [String.length_utf8EncodeChar]; exact c.utf8Size_pos)
  obtain ⟨first, others, bytes_eq⟩ := List.exists_cons_of_ne_nil present
  simp only [bytes_eq] at marks
  refine ⟨first, others, bytes_eq, (marks (Nat.zero_lt_succ _)).mpr rfl, fun byte member isFirst => ?_⟩
  obtain ⟨index, within, rfl⟩ := List.getElem_of_mem member
  exact absurd ((marks (Nat.succ_lt_succ within)).mp isFirst) (Nat.succ_ne_zero index)

/-- Where the bytes of a text open those of another one, its characters do. -/
theorem ofText_isPrefix {pattern text : List Char}
    : ofText pattern <+: ofText text ↔ pattern <+: text := by
  constructor
  · rintro ⟨others, same⟩
    apply List.isPrefix_of_utf8Encode_append_eq_utf8Encode others.toByteArray
    change (ofText pattern).toByteArray ++ others.toByteArray = (ofText text).toByteArray
    rw [← List.toByteArray_append, same]
  · rintro ⟨rest, rfl⟩
    exact ⟨ofText rest, (ofText_append pattern rest).symm⟩

-----------------------------------------------------------------------------------------
-- The bytes of ASCII characters
-----------------------------------------------------------------------------------------

/-- A byte below 128 is a character of its own. -/
theorem toNat_of_mem_utf8EncodeChar {c : Char} {byte : UInt8}
    (member : byte ∈ String.utf8EncodeChar c) (ascii : byte.toNat < 128)
    : c.toNat = byte.toNat := by
  change c.val.toNat = byte.toNat
  unfold String.utf8EncodeChar at member
  dsimp only at member
  split_ifs at member with one two three
  · obtain rfl := List.mem_singleton.mp member
    simp only [UInt8.toNat_ofNat']
    omega
  -- Every byte of a longer character has its highest bit set.
  all_goals
    simp only [List.mem_cons, List.not_mem_nil, or_false] at member
    rcases member with rfl | rfl | rfl | rfl <;> simp only [UInt8.toNat_ofNat'] at ascii <;> omega

/-- The byte of an ASCII character is its code. -/
theorem toNat_toUInt8 {c : Char} (isAscii : Text.isAscii c) : c.toUInt8.toNat = c.toNat := by
  simp only [Text.isAscii, decide_eq_true_eq] at isAscii
  change (UInt8.ofNat c.toNat).toNat = c.toNat
  rw [UInt8.toNat_ofNat']
  omega

/-- An ASCII character is among the bytes of no other character. -/
theorem eq_of_toUInt8_mem {c ascii : Char} (isAscii : Text.isAscii ascii)
    (member : ascii.toUInt8 ∈ String.utf8EncodeChar c)
    : c = ascii := by
  have value := toNat_toUInt8 isAscii
  simp only [Text.isAscii, decide_eq_true_eq] at isAscii
  have same := toNat_of_mem_utf8EncodeChar member (by omega)
  exact Char.toNat_inj.mp (same.trans value)

/-- An ASCII character is its only byte. -/
theorem utf8EncodeChar_of_isAscii {c : Char} (isAscii : Text.isAscii c)
    : String.utf8EncodeChar c = [c.toUInt8] := by
  simp only [Text.isAscii, decide_eq_true_eq] at isAscii
  have single : c.utf8Size = 1 := by
    rw [Char.utf8Size_eq_one_iff, UInt32.le_iff_toNat_le]
    exact Nat.le_of_lt_succ isAscii
  rw [String.utf8EncodeChar_eq_singleton single]
  rfl

/-- An ASCII character is a single byte. -/
theorem utf8Size_of_isAscii {c : Char} (isAscii : Text.isAscii c) : c.utf8Size = 1 := by
  rw [← String.length_utf8EncodeChar, utf8EncodeChar_of_isAscii isAscii]
  rfl

/-- The first place of either of two ASCII characters. -/
def indexOfEither (first second : Char) (bytes : List UInt8) : Option Nat :=
  bytes.findIdx? fun byte => byte = first.toUInt8 || byte = second.toUInt8

/-- The two characters are found where the run of other characters ends. -/
theorem indexOfEither_getD {first second : Char} (text : List Char)
    (isAscii : Text.isAscii first ∧ Text.isAscii second)
    : (indexOfEither first second (ofText text)).getD (size text)
      = size (text.takeWhile fun c => c ≠ first && c ≠ second) := by
  induction text with
  | nil => rfl
  | cons c rest ih =>
      have apart (ascii : Char) (isAscii : Text.isAscii ascii) (other : c ≠ ascii)
          : ascii.toUInt8 ∉ String.utf8EncodeChar c :=
        fun member => other (eq_of_toUInt8_mem isAscii member)
      by_cases found : c = first ∨ c = second
      · have ascii : Text.isAscii c := by
          rcases found with rfl | rfl
          · exact isAscii.1
          · exact isAscii.2
        have marked : (c.toUInt8 = first.toUInt8 || c.toUInt8 = second.toUInt8) = true := by
          rcases found with rfl | rfl <;> simp
        have stops : ¬(decide (c ≠ first) && decide (c ≠ second)) = true := by
          rcases found with rfl | rfl <;> simp
        rw [List.takeWhile_cons, if_neg stops]
        simp [indexOfEither, ofText_cons, utf8EncodeChar_of_isAscii ascii, List.findIdx?_cons, marked]
      · rw [not_or] at found
        have passed
            : (String.utf8EncodeChar c).findIdx?
                (fun byte => byte = first.toUInt8 || byte = second.toUInt8) = none := by
          rw [List.findIdx?_eq_none_iff]
          intro byte member
          rw [Bool.or_eq_false_iff, decide_eq_false_iff_not, decide_eq_false_iff_not]
          constructor
          · rintro rfl
            exact apart first isAscii.1 found.1 member
          · rintro rfl
            exact apart second isAscii.2 found.2 member
        rw [List.takeWhile_cons, if_pos (by simp [found]), Text.size_cons, Text.size_cons, ← ih]
        rw [indexOfEither, ofText_cons, List.findIdx?_append, passed, Option.none_or,
          String.length_utf8EncodeChar, indexOfEither]
        cases (ofText rest).findIdx? _ <;> simp [Nat.add_comm]

end EcmaSyntax.Bytes
