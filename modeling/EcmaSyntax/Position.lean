import EcmaSyntax.Text.Identifier

/-!
Lines and columns of a source text, both counted from one. A carriage return and the line feed
after it end one line together; every other line terminator ends a line of its own.
-/

namespace EcmaSyntax

/-- A line, and a column that counts characters. -/
structure Position where
  line : Nat
  column : Nat
  deriving DecidableEq, Repr, Inhabited

namespace Position

/-- The place of the first character of a text. -/
def origin : Position :=
  {
    line := 1
    column := 1
  }

def nextColumn (position : Position) : Position :=
  { position with column := position.column + 1 }

def nextLine (position : Position) : Position :=
  {
    line := position.line + 1
    column := 1
  }

/-- The place reached from `position` by as many whole characters as fit into the bytes. -/
def advance : Position → Nat → List Char → Position
  | position, _, [] => position
  | position, bytes, '\r' :: '\n' :: rest =>
      if 2 ≤ bytes then advance position.nextLine (bytes - 2) rest
      else if bytes = 1 then position.nextColumn
      else position
  | position, bytes, c :: rest =>
      if c.utf8Size ≤ bytes then
        advance (if Text.isLineTerminator c then position.nextLine else position.nextColumn)
          (bytes - c.utf8Size) rest
      else
        position

/-- The place of the character at the offset, or of the one that the offset lies in. Offsets past
the end stand for the end. -/
def ofOffset (source : List Char) (offset : Nat) : Position :=
  advance origin offset source

/-- The number of lines of a text: one more than its line breaks. -/
def lineCount : List Char → Nat
  | [] => 1
  | '\r' :: '\n' :: rest => lineCount rest + 1
  | c :: rest => if Text.isLineTerminator c then lineCount rest + 1 else lineCount rest

/-- The written form, such as `3:14`. -/
def text (position : Position) : String :=
  s!"{position.line}:{position.column}"

end Position

end EcmaSyntax
