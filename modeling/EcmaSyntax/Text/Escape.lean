import EcmaSyntax.Text.Digit
import EcmaSyntax.Text.Identifier
import EcmaSyntax.Text.Size
import EcmaSyntax.Text.Units

/-!
The escapes of string literals and of identifiers, and the texts they stand for.
-/

namespace EcmaSyntax.Text

-----------------------------------------------------------------------------------------
-- String literals
-----------------------------------------------------------------------------------------

/-- The value of a legacy octal escape, and the number of its digits: up to three, but only two where
the third would lead beyond `\377`. -/
def octalEscape? (text : List Char) : Option (Nat × Nat) :=
  let digits := (text.take 3).takeWhile isOctalDigit
  (digitsValue? 8 digits).bind fun value =>
    if value ≤ 0o377 then
      some (value, digits.length)
    else
      (digitsValue? 8 digits.dropLast).map fun value => (value, digits.length - 1)

/-- The unit that an escape with a fixed number of hexadecimal digits writes. -/
def hexEscape? (count : Nat) (text : List Char) : Option UInt16 :=
  if count ≤ text.length then
    (digitsValue? 16 (text.take count)).map Nat.toUInt16
  else
    none

/-- The escape that a text after a backslash begins with: the number of its characters and the units
it stands for. A line terminator continues the line and stands for nothing, and a character without
a meaning of its own stands for itself. -/
def stringEscape? : List Char → Option (Nat × List UInt16)
  | [] => none
  | '\r' :: '\n' :: _ => some (2, [])
  | 'b' :: _ => some (1, [0x08])
  | 'f' :: _ => some (1, [0x0C])
  | 'n' :: _ => some (1, [0x0A])
  | 'r' :: _ => some (1, [0x0D])
  | 't' :: _ => some (1, [0x09])
  | 'v' :: _ => some (1, [0x0B])
  | 'x' :: rest => (hexEscape? 2 rest).map fun unit => (3, [unit])
  | 'u' :: rest => (hexEscape? 4 rest).map fun unit => (5, [unit])
  | c :: rest =>
      if isLineTerminator c then some (1, [])
      else if isOctalDigit c then
        (octalEscape? (c :: rest)).map fun (value, length) => (length, [value.toUInt16])
      else some (1, unitsOfChar c)

/-- The units of the text between the quotes of a string literal, `escaped` being the number of
characters of an escape still to be passed over and `offset` that of the text. The error is the
offset of an escape without a meaning. -/
def stringUnits : Nat → Nat → List Char → Except Nat (List UInt16)
  | _, _, [] => .ok []
  | escaped + 1, offset, c :: rest => stringUnits escaped (offset + c.utf8Size) rest
  | 0, offset, c :: rest =>
      if c = '\\' then
        match stringEscape? rest with
        | some (length, units) =>
            (stringUnits length (offset + c.utf8Size) rest).map (units ++ ·)
        | none => .error offset
      else
        (stringUnits 0 (offset + c.utf8Size) rest).map (unitsOfChar c ++ ·)

/-- The text that a string literal stands for, given what is between its quotes. Surrogates that are
not part of a pair become U+FFFD. -/
def decodeString (body : List Char) : Except Nat String :=
  (stringUnits 0 0 body).map fun units => String.ofList (decodeUnits units)

/-- What is between the first and the last byte of a text. -/
def unquote? (raw : List Char) : Option (List Char) :=
  slice? 1 (size raw - 1) raw

-----------------------------------------------------------------------------------------
-- Identifiers
-----------------------------------------------------------------------------------------

/-- The characters of a name, `escaped` being the number of characters of an escape still to be
passed over. The four bytes after `\u` are taken for hexadecimal digits; where they are none, `\u`
stays and they are left out. -/
def nameChars : Nat → List Char → List Char
  | _, [] => []
  | escaped + 1, _ :: rest => nameChars escaped rest
  | 0, '\\' :: 'u' :: rest =>
      match take? 4 rest with
      | none => '\\' :: 'u' :: nameChars 0 rest
      | some digits =>
          match (signedHexValue? digits).bind charOfCode? with
          | some c => c :: nameChars digits.length rest
          | none => '\\' :: 'u' :: nameChars digits.length rest
  | 0, c :: rest => c :: nameChars 0 rest

/-- The name that an identifier or a word spells. -/
def decodeName (raw : List Char) : String :=
  String.ofList (nameChars 0 raw)

end EcmaSyntax.Text
