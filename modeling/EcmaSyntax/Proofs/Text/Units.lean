import EcmaSyntax.Text.Units

/-! Reading units back as a text undoes turning the text into units: no character is a surrogate, and the
surrogates of one character form a pair.
-/

namespace EcmaSyntax.Text

/-- A character is no surrogate. -/
theorem toNat_valid (c : Char) : c.toNat < 0xD800 ∨ (0xDFFF < c.toNat ∧ c.toNat < 0x110000) :=
  c.valid

/-- A character has a code point. -/
theorem charOfCode?_toNat (c : Char) : charOfCode? c.toNat = some c := by
  have valid : c.toNat.isValidChar := c.valid
  rw [charOfCode?, dif_pos valid]
  rfl

theorem toNat_toUInt16 {code : Nat} (small : code < 0x10000) : code.toUInt16.toNat = code :=
  UInt16.toNat_ofNat_of_lt' small

/-- The leading surrogates, by number. -/
theorem isLeadUnit_iff {unit : UInt16}
    : isLeadUnit unit = true ↔ 0xD800 ≤ unit.toNat ∧ unit.toNat < 0xDC00 := by
  simp [isLeadUnit, UInt16.le_iff_toNat_le, UInt16.lt_iff_toNat_lt]

/-- The trailing surrogates, by number. -/
theorem isTrailUnit_iff {unit : UInt16}
    : isTrailUnit unit = true ↔ 0xDC00 ≤ unit.toNat ∧ unit.toNat < 0xE000 := by
  simp [isTrailUnit, UInt16.le_iff_toNat_le, UInt16.lt_iff_toNat_lt]

/-- The unit of a character is read as the character, whatever follows. -/
theorem decodeUnits_single {c : Char} (small : c.toNat < 0x10000) (rest : List UInt16)
    : decodeUnits (c.toNat.toUInt16 :: rest) = c :: decodeUnits rest := by
  have valid := toNat_valid c
  have lead : isLeadUnit c.toNat.toUInt16 = false := by
    rw [Bool.eq_false_iff, ne_eq, isLeadUnit_iff, toNat_toUInt16 small]
    omega
  have trail : isTrailUnit c.toNat.toUInt16 = false := by
    rw [Bool.eq_false_iff, ne_eq, isTrailUnit_iff, toNat_toUInt16 small]
    omega
  have read : charOfUnit c.toNat.toUInt16 = c := by
    rw [charOfUnit, lead, trail, toNat_toUInt16 small]
    exact Char.ofNat_toNat c
  cases rest with
  | nil => simp [decodeUnits, read]
  | cons second rest => simp [decodeUnits, lead, read]

/-- The pair of a character is read as the character. -/
theorem decodeUnits_pair {c : Char} (large : 0x10000 ≤ c.toNat) (rest : List UInt16)
    : decodeUnits
          ((0xD800 + (c.toNat - 0x10000) / 0x400).toUInt16
            :: (0xDC00 + (c.toNat - 0x10000) % 0x400).toUInt16 :: rest)
        = c :: decodeUnits rest := by
  have valid := toNat_valid c
  have leadNat := toNat_toUInt16 (show 0xD800 + (c.toNat - 0x10000) / 0x400 < 0x10000 by omega)
  have trailNat := toNat_toUInt16 (show 0xDC00 + (c.toNat - 0x10000) % 0x400 < 0x10000 by omega)
  have lead := isLeadUnit_iff.mpr (by rw [leadNat]; omega)
  have trail := isTrailUnit_iff.mpr (by rw [trailNat]; omega)
  have read
      : charOfPair (0xD800 + (c.toNat - 0x10000) / 0x400).toUInt16
            (0xDC00 + (c.toNat - 0x10000) % 0x400).toUInt16
          = c := by
    rw [charOfPair, leadNat, trailNat]
    refine (congrArg Char.ofNat ?_).trans (Char.ofNat_toNat c)
    omega
  rw [decodeUnits, if_pos (by rw [lead, trail]; rfl), read]

/-- The units of a character are read back as the character, whatever follows. -/
theorem decodeUnits_unitsOfChar (c : Char) (rest : List UInt16)
    : decodeUnits (unitsOfChar c ++ rest) = c :: decodeUnits rest := by
  by_cases small : c.toNat < 0x10000
  · rw [unitsOfChar, if_pos small]
    exact decodeUnits_single small rest
  · rw [unitsOfChar, if_neg small]
    exact decodeUnits_pair (Nat.le_of_not_lt small) rest

/-- A text is read back from its units. -/
theorem decodeUnits_encodeUnits (text : List Char) : decodeUnits (encodeUnits text) = text := by
  induction text with
  | nil => rfl
  | cons c text ih =>
      rw [encodeUnits, List.flatMap_cons, decodeUnits_unitsOfChar]
      exact congrArg _ ih

end EcmaSyntax.Text
