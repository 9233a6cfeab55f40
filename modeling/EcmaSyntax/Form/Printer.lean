import EcmaSyntax.Form.Basic
import EcmaSyntax.Number.Printer
import EcmaSyntax.Text.Blank

/-!
The notation of forms: `nil`, atoms after a colon, strings in double quotes, numbers, and lists in
brackets with commas. `write` puts a form on one line; `pretty` spreads lists that hold lists over
lines and indents them.
-/

namespace EcmaSyntax.Form

/-- The lower-case hexadecimal digits of a number, at least four. -/
def hexUnit (value : Nat) : List Char :=
  let digits := Nat.toDigits 16 value
  List.replicate (4 - digits.length) '0' ++ digits

/-- A character within a quoted text. Control characters without a short escape get a long one. -/
def quotedChar (c : Char) : List Char :=
  if c = '"' then ['\\', '"']
  else if c = '\\' then ['\\', '\\']
  else if c = '\n' then ['\\', 'n']
  else if c = '\r' then ['\\', 'r']
  else if c = '\t' then ['\\', 't']
  else if Text.isControl c then '\\' :: 'u' :: hexUnit c.toNat
  else [c]

/-- A text in double quotes. -/
def quoted (value : String) : List Char :=
  '"' :: (value.toList.flatMap quotedChar ++ ['"'])

mutual

/-- Writes a form on one line. -/
def write : Form → List Char
  | nil => "nil".toList
  | atom name => ':' :: name.toList
  | string value => quoted value
  | number value => value.text
  | list items => '[' :: (writeItems items ++ [']'])

/-- Writes items with commas and spaces between them. -/
def writeItems : List Form → List Char
  | [] => []
  | [item] => item.write
  | item :: next :: items => item.write ++ ',' :: ' ' :: writeItems (next :: items)

end

/-- Two spaces for each level. -/
def indentation (depth : Nat) : List Char :=
  List.replicate (2 * depth) ' '

mutual

/-- Writes a form whose first line is already indented to the depth. Lists of scalars stay on one
line. -/
def prettyAt (depth : Nat) : Form → List Char
  | list items =>
      if items.all isScalar then
        (list items).write
      else
        '[' :: '\n' :: (prettyItems (depth + 1) items ++ indentation depth ++ [']'])
  | form => form.write

/-- Writes items on lines of their own, with a comma after all but the last. -/
def prettyItems (depth : Nat) : List Form → List Char
  | [] => []
  | [item] => indentation depth ++ prettyAt depth item ++ ['\n']
  | item :: next :: items =>
      indentation depth ++ prettyAt depth item ++ ',' :: '\n' :: prettyItems depth (next :: items)

end

/-- Writes a form over several lines. -/
def pretty (form : Form) : List Char :=
  prettyAt 0 form

end EcmaSyntax.Form
