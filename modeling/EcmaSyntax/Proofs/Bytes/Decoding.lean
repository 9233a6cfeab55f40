import EcmaSyntax.Number.Literal
import EcmaSyntax.Proofs.Bytes.Search
import EcmaSyntax.Proofs.Token.Names
import EcmaSyntax.Text.Escape

/-! The decoders of literals and names, by byte offsets. A token is cut up again behind each escape; every
cut is at the beginning of a character, and the decoded text is that of the decoders on characters.
-/

namespace EcmaSyntax.Bytes

open Text (size)

-----------------------------------------------------------------------------------------
-- Escapes of strings
-----------------------------------------------------------------------------------------

/-- An octal digit, as a byte. -/
def isOctalByte (byte : UInt8) : Bool :=
  0x30 ≤ byte.toNat && byte.toNat ≤ 0x37

/-- The bytes that a legacy octal escape takes, and its value. No text is left if a cut fails. -/
def octalEscape (text : List Char) : Option (Option (Nat × Nat)) := do
  let length := (((ofText text).take 3).takeWhile isOctalByte).length
  let digits ← Text.take? length text
  match Text.digitsValue? 8 digits with
  | none => return none
  | some value =>
      if value ≤ 0o377 then
        return some (value, length)
      else
        let shorter ← sub? length 1
        let digits ← Text.take? shorter text
        return (Text.digitsValue? 8 digits).map fun value => (value, shorter)

/-- The unit that hexadecimal digits after the first character write. -/
def hexEscape (count : Nat) (text : List Char) : Option UInt16 :=
  ((Text.slice? 1 (1 + count) text).bind (Text.digitsValue? 16)).map Nat.toUInt16

/-- The escape that a text after a backslash begins with: the number of its bytes and its units. -/
def stringEscape (text : List Char) : Option (Option (Nat × List UInt16)) :=
  match text with
  | [] => return none
  | '\r' :: _ => do
      let rest ← Text.drop? 1 text
      return some (if rest.head? = some '\n' then 2 else 1, [])
  | 'b' :: _ => return some (1, [0x08])
  | 'f' :: _ => return some (1, [0x0C])
  | 'n' :: _ => return some (1, [0x0A])
  | 'r' :: _ => return some (1, [0x0D])
  | 't' :: _ => return some (1, [0x09])
  | 'v' :: _ => return some (1, [0x0B])
  | 'x' :: _ => return (hexEscape 2 text).map fun unit => (3, [unit])
  | 'u' :: _ => return (hexEscape 4 text).map fun unit => (5, [unit])
  | c :: _ =>
      if Text.isLineTerminator c then
        return some (c.utf8Size, [])
      else if Text.isOctalDigit c then
        return (← octalEscape text).map fun (value, length) => (length, [value.toUInt16])
      else
        return some (c.utf8Size, Text.unitsOfChar c)

variable {text rest : List Char} {c : Char}

/-- Octal digits are single bytes. -/
theorem isAscii_of_isOctalDigit (isOctal : Text.isOctalDigit c) : Text.isAscii c := by
  have range := Text.isOctalDigit_iff.mp isOctal
  simp only [Text.isAscii, decide_eq_true_eq]
  omega

/-- An octal digit is a byte of its own. -/
theorem utf8EncodeChar_of_isOctalDigit (isOctal : Text.isOctalDigit c)
    : String.utf8EncodeChar c = [c.toUInt8] ∧ isOctalByte c.toUInt8 = true := by
  have isAscii := isAscii_of_isOctalDigit isOctal
  have range := Text.isOctalDigit_iff.mp isOctal
  refine ⟨utf8EncodeChar_of_isAscii isAscii, ?_⟩
  simp only [isOctalByte, toNat_toUInt8 isAscii, Bool.and_eq_true, decide_eq_true_eq]
  omega

/-- No other character has such a byte. -/
theorem isOctalByte_of_mem (other : Text.isOctalDigit c = false) {byte : UInt8}
    (member : byte ∈ String.utf8EncodeChar c)
    : isOctalByte byte = false := by
  by_contra isByte
  simp only [isOctalByte, Bool.not_eq_false, Bool.and_eq_true, decide_eq_true_eq] at isByte
  have same := toNat_of_mem_utf8EncodeChar member (by omega)
  rw [Text.isOctalDigit_iff.mpr (by omega)] at other
  cases other

/-- Octal digits can be counted as bytes. -/
theorem length_takeWhile_isOctalByte (count : Nat) (text : List Char)
    : (((ofText text).take count).takeWhile isOctalByte).length
      = ((text.take count).takeWhile Text.isOctalDigit).length := by
  induction count generalizing text with
  | zero => simp
  | succ count ih =>
      cases text with
      | nil => simp
      | cons c rest =>
          cases isOctal : Text.isOctalDigit c with
          | true =>
              obtain ⟨bytes_eq, isByte⟩ := utf8EncodeChar_of_isOctalDigit isOctal
              simp [ofText_cons, bytes_eq, isOctal, isByte, ih]
          | false =>
              obtain ⟨first, others, bytes_eq, _, _⟩ := exists_utf8EncodeChar c
              have noByte := isOctalByte_of_mem isOctal (bytes_eq ▸ List.mem_cons_self)
              simp [ofText_cons, bytes_eq, isOctal, noByte]

/-- A text consists of octal digits if its bytes are ones. -/
theorem all_isOctalByte (text : List Char)
    : (ofText text).all isOctalByte = text.all Text.isOctalDigit := by
  induction text with
  | nil => rfl
  | cons c rest ih =>
      rw [ofText_cons, List.all_append, ih, List.all_cons]
      cases isOctal : Text.isOctalDigit c with
      | true =>
          obtain ⟨bytes_eq, isByte⟩ := utf8EncodeChar_of_isOctalDigit isOctal
          simp [bytes_eq, isByte]
      | false =>
          obtain ⟨first, others, bytes_eq, _, _⟩ := exists_utf8EncodeChar c
          have noByte := isOctalByte_of_mem isOctal (bytes_eq ▸ List.mem_cons_self)
          simp [bytes_eq, noByte]

/-- Characters of one byte each are cut off by their number. -/
theorem take?_length {front : List Char} (opens : front <+: text)
    (single : ∀ c ∈ front, c.utf8Size = 1)
    : Text.take? front.length text = some front := by
  obtain ⟨tail, rfl⟩ := opens
  rw [← Text.size_of_single single, Text.take?_size_append]

/-- An octal escape is decoded by bytes as by characters, as its digits are single bytes. -/
theorem octalEscape_eq (isOctal : Text.isOctalDigit c) (rest : List Char)
    : octalEscape (c :: rest) = some (Text.octalEscape? (c :: rest)) := by
  unfold octalEscape Text.octalEscape?
  rw [length_takeWhile_isOctalByte]
  have opens : ((c :: rest).take 3).takeWhile Text.isOctalDigit <+: c :: rest :=
    (List.takeWhile_prefix _).trans (List.take_prefix 3 _)
  have single : ∀ d ∈ ((c :: rest).take 3).takeWhile Text.isOctalDigit, d.utf8Size = 1 :=
    fun d member => utf8Size_of_isAscii (isAscii_of_isOctalDigit (List.mem_takeWhile_imp member))
  have present : ((c :: rest).take 3).takeWhile Text.isOctalDigit ≠ [] := by simp [isOctal]
  generalize ((c :: rest).take 3).takeWhile Text.isOctalDigit = digits at opens single present ⊢
  have fewer := take?_length ((List.dropLast_prefix digits).trans opens)
    fun d member => single d (List.mem_of_mem_dropLast member)
  rw [List.length_dropLast] at fewer
  have shorter := sub?_of_le (List.length_pos_of_ne_nil present)
  dsimp only
  rw [take?_length opens single]
  cases valued : Text.digitsValue? 8 digits with
  | none => simp [valued]
  | some value =>
      simp only [Option.bind_eq_bind, Option.bind_some, valued]
      split <;> simp [shorter, fewer]

/-- Digits that have a value are single bytes. -/
theorem utf8Size_of_digitsValue? {digits : List Char} {value : Nat}
    (valued : Text.digitsValue? 16 digits = some value)
    : ∀ c ∈ digits, c.utf8Size = 1 := by
  unfold Text.digitsValue? at valued
  split at valued
  next => cases valued
  next =>
    exact fun c member => Text.utf8Size_of_isHexDigit (Text.digit_of_foldDigits? valued c member)

/-- Digits are cut off by their number of bytes as by their number. -/
theorem bind_take?_digitsValue? (count : Nat) (text : List Char)
    : (Text.take? count text).bind (Text.digitsValue? 16)
      = if count ≤ text.length then Text.digitsValue? 16 (text.take count) else none := by
  ext value
  rw [Option.bind_eq_some_iff]
  constructor
  · rintro ⟨digits, taken, valued⟩
    obtain ⟨tail, rfl, sized⟩ := Text.take?_eq_some.mp taken
    rw [Text.size_of_single (utf8Size_of_digitsValue? valued)] at sized
    rw [if_pos (by rw [List.length_append]; omega), List.take_left' sized, valued]
  · intro valued
    split at valued
    next enough =>
      refine ⟨text.take count, ?_, valued⟩
      have taken := take?_length (List.take_prefix count text) (utf8Size_of_digitsValue? valued)
      rwa [List.length_take, Nat.min_eq_left enough] at taken
    next => cases valued

/-- A hexadecimal escape is decoded by bytes as by characters: a cut that ends within a character has a
character that is no digit.
-/
theorem hexEscape_eq {first : Char} (single : first.utf8Size = 1) (count : Nat) (rest : List Char)
    : hexEscape count (first :: rest) = Text.hexEscape? count rest := by
  have sliced : Text.slice? 1 (1 + count) (first :: rest) = Text.take? count rest := by
    simp [Text.slice?, Text.drop?, single]
  unfold hexEscape Text.hexEscape?
  rw [sliced, bind_take?_digitsValue?]
  split <;> rfl

/-- The digits of an octal escape are bytes. -/
theorem size_take_octalEscape? {value length : Nat}
    (escaped : Text.octalEscape? text = some (value, length))
    : size (text.take length) = length := by
  have opens : (text.take 3).takeWhile Text.isOctalDigit <+: text :=
    (List.takeWhile_prefix _).trans (List.take_prefix 3 _)
  have single : ∀ d ∈ (text.take 3).takeWhile Text.isOctalDigit, d.utf8Size = 1 :=
    fun d member => utf8Size_of_isAscii (isAscii_of_isOctalDigit (List.mem_takeWhile_imp member))
  have sized (count : Nat) (fewer : count ≤ ((text.take 3).takeWhile Text.isOctalDigit).length)
      : size (text.take count) = count := by
    obtain ⟨tail, same⟩ := opens
    rw [← same, List.take_append_of_le_length fewer,
      Text.size_of_single fun d member => single d (List.mem_of_mem_take member),
      List.length_take, Nat.min_eq_left fewer]
  simp only [Text.octalEscape?, Option.bind_eq_some_iff] at escaped
  obtain ⟨_, _, escaped⟩ := escaped
  split at escaped
  next =>
    cases escaped
    exact sized _ (Nat.le_refl _)
  next =>
    obtain ⟨_, _, same⟩ := Option.map_eq_some_iff.mp escaped
    cases same
    exact sized _ (Nat.sub_le _ _)

/-- So are the digits of a hexadecimal escape. -/
theorem size_take_hexEscape? {count : Nat} {unit : UInt16}
    (escaped : Text.hexEscape? count rest = some unit)
    : size (rest.take count) = count := by
  unfold Text.hexEscape? at escaped
  split at escaped
  next enough =>
    obtain ⟨_, valued, _⟩ := Option.map_eq_some_iff.mp escaped
    rw [Text.size_of_single (utf8Size_of_digitsValue? valued), List.length_take, Nat.min_eq_left enough]
  next => cases escaped

/-- A carriage return continues the line, together with a line feed behind it. -/
theorem stringEscape_return (rest : List Char)
    : stringEscape ('\r' :: rest)
      = some ((Text.stringEscape? ('\r' :: rest)).map
          fun (length, units) => (size (('\r' :: rest).take length), units)) := by
  have single : '\r'.utf8Size = 1 := rfl
  have dropped : Text.drop? 1 ('\r' :: rest) = some rest := by simp [Text.drop?, single]
  rw [stringEscape, dropped]
  cases rest with
  | nil => rfl
  | cons next rest =>
      by_cases feed : next = '\n'
      · subst feed
        rfl
      · have ends : Text.isLineTerminator '\r' := by decide
        simp [Text.stringEscape?, feed, ends, single]

/-- An escape takes the bytes of its characters. -/
theorem stringEscape_eq (text : List Char)
    : stringEscape text
      = some ((Text.stringEscape? text).map fun (length, units) => (size (text.take length), units)) := by
  have hex {marker : Char} (single : marker.utf8Size = 1) (count : Nat) (rest : List Char)
      : (hexEscape count (marker :: rest)).map (fun unit => (count + 1, [unit]))
        = ((Text.hexEscape? count rest).map fun unit => (count + 1, [unit])).map
            fun (length, units) => (size ((marker :: rest).take length), units) := by
    rw [hexEscape_eq single]
    cases escaped : Text.hexEscape? count rest with
    | none => rfl
    | some unit => simp [single, size_take_hexEscape? escaped, Nat.add_comm]
  by_cases returns : text.head? = some '\r'
  · obtain ⟨rest, rfl⟩ := List.head?_eq_some_iff.mp returns
    exact stringEscape_return rest
  fun_cases Text.stringEscape? text with
  | case1 => rfl
  | case2 => exact absurd rfl returns
  | case3 => rfl
  | case4 => rfl
  | case5 => rfl
  | case6 => rfl
  | case7 => rfl
  | case8 => rfl
  | case9 rest => exact congrArg some (hex rfl 2 rest)
  | case10 rest => exact congrArg some (hex rfl 4 rest)
  | case11 c rest alone _ _ _ _ _ _ _ _ ends =>
      unfold stringEscape
      split <;> simp_all
  | case12 c rest alone _ _ _ _ _ _ _ _ goesOn isOctal =>
      have eq : stringEscape (c :: rest) = (do
          return (← octalEscape (c :: rest)).map
            fun (value, length) => (length, [value.toUInt16])) := by
        unfold stringEscape
        split <;> simp_all
      rw [eq, octalEscape_eq isOctal]
      cases escaped : Text.octalEscape? (c :: rest) with
      | none => rfl
      | some found => simp [size_take_octalEscape? escaped]
  | case13 c rest alone _ _ _ _ _ _ _ _ goesOn other =>
      unfold stringEscape
      split <;> simp_all

-----------------------------------------------------------------------------------------
-- Strings
-----------------------------------------------------------------------------------------

/-- The offset at which a spelling is found first. -/
def find (spelling : List Char) : List Char → Option Nat
  | [] => none
  | c :: rest =>
      if spelling <+: c :: rest then some 0 else (find spelling rest).map (c.utf8Size + ·)

/-- Where the beginning of a spelling is not found, the spelling is not. -/
theorem find_eq_none_of_front {front spelling : List Char} (opens : front <+: spelling)
    (unfound : find front text = none)
    : find spelling text = none := by
  fun_induction find front text with
  | case1 => rfl
  | case2 => cases unfound
  | case3 c rest other ih =>
      rw [find, if_neg fun found => other (opens.trans found), ih (Option.map_eq_none_iff.mp unfound)]
      rfl

/-- The units of the text between the quotes of a string literal from an offset on, at most so many
escapes of it. The error is the offset of an escape without a meaning. -/
def stringUnits (body : List Char) : Nat → Nat → Option (Except Nat (List UInt16))
  | 0, _ => none
  | bound + 1, offset => do
      let rest ← Text.drop? offset body
      match find ['\\'] rest with
      | none => return .ok (Text.encodeUnits rest)
      | some width =>
          let run ← Text.slice? offset (offset + width) body
          let escaped ← Text.drop? (offset + width + 1) body
          match ← stringEscape escaped with
          | none => return .error (offset + width)
          | some (length, units) =>
              let rest ← stringUnits body bound (offset + width + 1 + length)
              return rest.map (Text.encodeUnits run ++ units ++ ·)

/-- The text that a string literal stands for, given what is between its quotes. -/
def decodeString (body : List Char) : Option (Except Nat String) := do
  let units ← stringUnits body (body.length + 1) 0
  return units.map fun units => String.ofList (Text.decodeUnits units)

/-- Characters of an escape are passed over. -/
theorem stringUnits_drop (escaped offset : Nat) (text : List Char)
    : Text.stringUnits escaped offset text
      = Text.stringUnits 0 (offset + size (text.take escaped)) (text.drop escaped) := by
  induction escaped generalizing offset text with
  | zero => simp
  | succ escaped ih =>
      cases text with
      | nil => simp [Text.stringUnits]
      | cons c rest => simp [Text.stringUnits, ih, Nat.add_assoc]

theorem encodeUnits_cons (c : Char) (rest : List Char)
    : Text.encodeUnits (c :: rest) = Text.unitsOfChar c ++ Text.encodeUnits rest :=
  rfl

/-- A character that no escape begins with stands for itself. -/
theorem stringUnits_cons (plain : ¬['\\'] <+: c :: rest) (offset : Nat)
    : Text.stringUnits 0 offset (c :: rest)
      = (Text.stringUnits 0 (offset + c.utf8Size) rest).map (Text.unitsOfChar c ++ ·) := by
  rw [singleton_prefix_cons] at plain
  rw [Text.stringUnits, if_neg fun same => plain same.symm]

/-- A body without a backslash stands for itself. -/
theorem stringUnits_of_find_none (unfound : find ['\\'] text = none) (offset : Nat)
    : Text.stringUnits 0 offset text = .ok (Text.encodeUnits text) := by
  fun_induction find ['\\'] text generalizing offset with
  | case1 => rfl
  | case2 => cases unfound
  | case3 c rest plain ih =>
      rw [stringUnits_cons plain, ih (Option.map_eq_none_iff.mp unfound)]
      rfl

/-- A string goes on with itself up to the first escape. -/
theorem stringUnits_of_find_some {width : Nat} (found : find ['\\'] text = some width)
    : ∃ run tail,
        text = run ++ '\\' :: tail
        ∧ size run = width
        ∧ ∀ offset,
            Text.stringUnits 0 offset text
            = (Text.stringUnits 0 (offset + width) ('\\' :: tail)).map (Text.encodeUnits run ++ ·) := by
  fun_induction find ['\\'] text generalizing width with
  | case1 => cases found
  | case2 c rest marked =>
      cases found
      obtain rfl := singleton_prefix_cons.mp marked
      refine ⟨[], rest, rfl, rfl, fun offset => ?_⟩
      cases Text.stringUnits 0 (offset + 0) ('\\' :: rest) <;> rfl
  | case3 c rest plain ih =>
      obtain ⟨further, foundFurther, rfl⟩ := Option.map_eq_some_iff.mp found
      obtain ⟨run, tail, rfl, rfl, onward⟩ := ih foundFurther
      refine ⟨c :: run, tail, rfl, rfl, fun offset => ?_⟩
      rw [stringUnits_cons plain, onward, Nat.add_assoc]
      cases Text.stringUnits 0 (offset + (c.utf8Size + size run)) ('\\' :: tail) with
      | error place => rfl
      | ok units => simp [Except.map, encodeUnits_cons]

/-- Where a string goes on, it is decoded from there, since each escape takes a character at least. -/
theorem stringUnits_eq {bound : Nat} (front text : List Char) (enough : text.length < bound)
    : stringUnits (front ++ text) bound (size front)
      = some (Text.stringUnits 0 (size front) text) := by
  induction bound generalizing front text with
  | zero => omega
  | succ bound ih =>
      rw [stringUnits, Text.drop?_size_append]
      cases found : find ['\\'] text with
      | none => simp [found, stringUnits_of_find_none found]
      | some width =>
          obtain ⟨run, tail, rfl, rfl, onward⟩ := stringUnits_of_find_some found
          have run_eq
              : Text.slice? (size front) (size front + size run) (front ++ (run ++ '\\' :: tail))
                = some run :=
            Text.slice?_eq_some.mpr ⟨front, _, rfl, rfl, rfl⟩
          have start : size front + size run + 1 = size (front ++ run ++ ['\\']) := by
            simp only [Text.size_append, Text.size_cons, Text.size_nil]
            rfl
          have whole : front ++ (run ++ '\\' :: tail) = front ++ run ++ ['\\'] ++ tail := by simp
          have tail_eq
              : Text.drop? (size front + size run + 1) (front ++ (run ++ '\\' :: tail)) = some tail := by
            rw [start, whole, Text.drop?_size_append]
          simp only [Option.bind_eq_bind, Option.bind_some, found, run_eq, tail_eq, stringEscape_eq,
            onward, Text.stringUnits, if_true]
          cases meaning : Text.stringEscape? tail with
          | none => rfl
          | some escape =>
              obtain ⟨length, units⟩ := escape
              have rest_eq
                  : front ++ run ++ ['\\'] ++ tail.take length ++ tail.drop length
                    = front ++ (run ++ '\\' :: tail) := by
                rw [whole, List.append_assoc, List.take_append_drop]
              have onwards := ih (front ++ run ++ ['\\'] ++ tail.take length) (tail.drop length)
                (by simp only [List.length_append, List.length_cons, List.length_drop] at enough ⊢; omega)
              rw [rest_eq, Text.size_append, ← start] at onwards
              have backslash : '\\'.utf8Size = 1 := rfl
              simp only [Option.map_some, backslash, stringUnits_drop length, onwards]
              cases Text.stringUnits 0 (size front + size run + 1 + size (tail.take length))
                  (tail.drop length) with
              | error place => rfl
              | ok others => simp [Except.map]

/-- The decoder of strings that searches for bytes decodes as the one on characters. -/
theorem decodeString_eq (body : List Char)
    : decodeString body = some (Text.decodeString body) := by
  have whole := stringUnits_eq [] body (Nat.lt_succ_self body.length)
  rw [List.nil_append] at whole
  simp only [decodeString, Text.decodeString, Text.size_nil] at whole ⊢
  rw [whole]
  rfl

-----------------------------------------------------------------------------------------
-- Names
-----------------------------------------------------------------------------------------

/-- The characters of a name, at most so many escapes of it. The four bytes after `\u` are taken for
digits if they can be cut off. -/
def nameChars : Nat → List Char → Option (List Char)
  | 0, _ => none
  | bound + 1, text => do
      match find ['\\', 'u'] text with
      | none => return text
      | some width =>
          let run ← Text.take? width text
          let digits := (Text.slice? (width + 2) (width + 6) text).getD []
          let written ←
            match (Text.signedHexValue? digits).bind Text.charOfCode? with
            | some c => some [c]
            | none => Text.slice? width (width + 2) text
          let rest ← Text.drop? (width + 2 + size digits) text
          return run ++ written ++ (← nameChars bound rest)

/-- The name that an identifier or a word spells. -/
def decodeName (raw : List Char) : Option String := do
  if (find ['\\'] raw).isSome then
    return String.ofList (← nameChars (raw.length + 1) raw)
  else
    return String.ofList raw

theorem nameChars_drop (escaped : Nat) (text : List Char)
    : Text.nameChars escaped text = Text.nameChars 0 (text.drop escaped) := by
  induction escaped generalizing text with
  | zero => simp
  | succ escaped ih =>
      cases text with
      | nil => simp [Text.nameChars]
      | cons c rest => simp [Text.nameChars, ih]

/-- A character that no escape begins with stands for itself. -/
theorem nameChars_cons (plain : ¬['\\', 'u'] <+: c :: rest)
    : Text.nameChars 0 (c :: rest) = c :: Text.nameChars 0 rest := by
  rw [Text.nameChars]
  rintro tail rfl rfl
  exact plain ⟨tail, rfl⟩

/-- A name without an escape stands for itself. -/
theorem nameChars_of_find_none (unfound : find ['\\', 'u'] text = none)
    : Text.nameChars 0 text = text := by
  fun_induction find ['\\', 'u'] text with
  | case1 => rfl
  | case2 => cases unfound
  | case3 c rest plain ih => rw [nameChars_cons plain, ih (Option.map_eq_none_iff.mp unfound)]

/-- A name goes on with itself up to the first escape. -/
theorem nameChars_of_find_some {width : Nat} (found : find ['\\', 'u'] text = some width)
    : ∃ run tail,
        text = run ++ '\\' :: 'u' :: tail
        ∧ size run = width
        ∧ Text.nameChars 0 text = run ++ Text.nameChars 0 ('\\' :: 'u' :: tail) := by
  fun_induction find ['\\', 'u'] text generalizing width with
  | case1 => cases found
  | case2 c rest marked =>
      cases found
      obtain ⟨tail, same⟩ := marked
      obtain ⟨rfl, rfl⟩ := List.cons.inj same
      exact ⟨[], tail, rfl, rfl, rfl⟩
  | case3 c rest plain ih =>
      obtain ⟨further, foundFurther, rfl⟩ := Option.map_eq_some_iff.mp found
      obtain ⟨run, tail, rfl, rfl, onward⟩ := ih foundFurther
      exact ⟨c :: run, tail, rfl, rfl, by rw [nameChars_cons plain, onward, List.cons_append]⟩

/-- The digits behind an escape's `\u` are the four bytes there, or none if those cannot be cut off. -/
theorem digits_eq (run tail : List Char)
    : Text.slice? (size run + 2) (size run + 6) (run ++ '\\' :: 'u' :: tail)
      = Text.take? 4 tail := by
  have start : size run + 2 = size (run ++ ['\\', 'u']) := by
    rw [Text.size_append]
    rfl
  have whole : run ++ '\\' :: 'u' :: tail = run ++ ['\\', 'u'] ++ tail := by simp
  have stop : size run + 6 - (size run + 2) = 4 := by omega
  rw [Text.slice?, if_pos (by omega), stop, start, whole, Text.drop?_size_append]
  rfl

/-- Behind an escape the name goes on after its digits, whether they give a character or not. -/
theorem nameChars_escape (tail : List Char)
    : ∃ digits rest,
        tail = digits ++ rest
        ∧ (Text.take? 4 tail).getD [] = digits
        ∧ Text.nameChars 0 ('\\' :: 'u' :: tail)
          = (match (Text.signedHexValue? digits).bind Text.charOfCode? with
              | some c => [c]
              | none => ['\\', 'u'])
            ++ Text.nameChars 0 rest := by
  rw [Text.nameChars]
  cases taken : Text.take? 4 tail with
  | none => exact ⟨[], tail, rfl, rfl, rfl⟩
  | some digits =>
      obtain ⟨rest, rfl, _⟩ := Text.take?_eq_some.mp taken
      refine ⟨digits, rest, rfl, rfl, ?_⟩
      dsimp only
      rw [nameChars_drop, List.drop_left]
      cases (Text.signedHexValue? digits).bind Text.charOfCode? <;> rfl

/-- Where a name goes on, it is decoded from there, since each escape takes a character at least. -/
theorem nameChars_eq {bound : Nat} (text : List Char) (enough : text.length < bound)
    : nameChars bound text = some (Text.nameChars 0 text) := by
  induction bound generalizing text with
  | zero => omega
  | succ bound ih =>
      rw [nameChars]
      cases found : find ['\\', 'u'] text with
      | none => rw [nameChars_of_find_none found]; rfl
      | some width =>
          obtain ⟨run, tail, rfl, rfl, onward⟩ := nameChars_of_find_some found
          obtain ⟨digits, rest, rfl, digits_of, escape⟩ := nameChars_escape tail
          have marker : size run + 2 = size (run ++ ['\\', 'u']) := by
            rw [Text.size_append]
            rfl
          have marked
              : Text.slice? (size run) (size run + 2) (run ++ '\\' :: 'u' :: (digits ++ rest))
                = some ['\\', 'u'] :=
            Text.slice?_eq_some.mpr ⟨run, digits ++ rest, rfl, rfl, rfl⟩
          have left
              : Text.drop? (size run + 2 + size digits) (run ++ '\\' :: 'u' :: (digits ++ rest))
                = some rest := by
            have whole
                : run ++ '\\' :: 'u' :: (digits ++ rest) = run ++ ['\\', 'u'] ++ digits ++ rest := by
              simp
            rw [marker, ← Text.size_append, whole, Text.drop?_size_append]
          have onwards := ih rest
            (by simp only [List.length_append, List.length_cons] at enough; omega)
          simp only [Option.bind_eq_bind, Option.bind_some, Text.take?_size_append, digits_eq, digits_of,
            marked, left, onwards, onward, escape]
          cases (Text.signedHexValue? digits).bind Text.charOfCode? <;> simp

/-- The decoder of names that searches for bytes decodes as the one on characters. -/
theorem decodeName_eq (raw : List Char) : decodeName raw = some (Text.decodeName raw) := by
  unfold decodeName Text.decodeName
  split
  next => simp [nameChars_eq raw (Nat.lt_succ_self _)]
  next unescaped =>
    have plain := Option.not_isSome_iff_eq_none.mp unescaped
    rw [nameChars_of_find_none (find_eq_none_of_front ⟨['u'], rfl⟩ plain)]
    rfl

-----------------------------------------------------------------------------------------
-- Numbers
-----------------------------------------------------------------------------------------

/-- A zero and then octal digits only, looked at as bytes. -/
def isOctalLiteral (raw : List Char) : Bool :=
  1 < size raw && ['0'].isPrefixOf raw && (ofText raw).all isOctalByte

/-- The value of a number literal. -/
def numberOf (raw : List Char) : Option (Option Number) := do
  match raw with
  | '0' :: 'x' :: digits => return (Magnitude.ofDigits? 16 digits).map (Number.signed false)
  | '0' :: 'X' :: digits => return (Magnitude.ofDigits? 16 digits).map (Number.signed false)
  | raw =>
      if isOctalLiteral raw then
        let digits ← Text.drop? 1 raw
        return (Magnitude.ofDigits? 8 digits).map (Number.signed false)
      else if raw.isEmpty || !raw.all Number.isLiteralChar then
        return none
      else
        return Number.ofText? raw

/-- A literal is told to be octal by its bytes as by its characters. -/
theorem isOctalLiteral_eq (raw : List Char) : isOctalLiteral raw = isLegacyOctal raw := by
  unfold isOctalLiteral isLegacyOctal
  rw [all_isOctalByte]
  split
  next digits =>
    have zero : Text.isOctalDigit '0' = true := by decide
    have width : '0'.utf8Size = 1 := rfl
    have longer : decide (1 < size ('0' :: digits)) = !digits.isEmpty := by
      cases digits with
      | nil => rfl
      | cons c rest =>
          have positive := c.utf8Size_pos
          simp only [Text.size_cons, width, List.isEmpty_cons, Bool.not_false, decide_eq_true_eq]
          omega
    rw [longer, List.all_cons, zero]
    simp
  next other =>
    have closed : ['0'].isPrefixOf raw = false := by
      cases raw with
      | nil => rfl
      | cons c rest =>
          have differs : ¬ '0' = c := fun same => other rest (by rw [same])
          simp [List.isPrefixOf, differs]
    simp [closed]

/-- An octal literal can be cut behind its zero, which is one byte. -/
theorem drop?_one_of_octal {raw : List Char} (octal : isLegacyOctal raw)
    : Text.drop? 1 raw = some raw.tail := by
  unfold isLegacyOctal at octal
  split at octal
  next digits =>
    have width : '0'.utf8Size = 1 := rfl
    simp [Text.drop?, width]
  next => cases octal

/-- The value of a number is found by bytes as by characters. -/
theorem numberOf_eq (raw : List Char) : numberOf raw = some (Number.ofLiteral? raw) := by
  fun_cases Number.ofLiteral? raw with
  | case1 => rfl
  | case2 => rfl
  | case3 _ lower upper octal =>
      rw [numberOf, isOctalLiteral_eq, if_pos octal, drop?_one_of_octal octal]
      exacts [rfl, lower, upper]
  | case4 _ lower upper decimal malformed =>
      rw [numberOf, isOctalLiteral_eq, if_neg decimal, if_pos malformed]
      exacts [rfl, lower, upper]
  | case5 _ lower upper decimal wellFormed =>
      rw [numberOf, isOctalLiteral_eq, if_neg decimal, if_neg wellFormed]
      exacts [rfl, lower, upper]

end EcmaSyntax.Bytes
