import EcmaSyntax.Number.Basic

/-!
Forms: the nested lists that trees are written as. Two forms are equal if they agree up to the
equality of numbers, and what a form contributes to a hash is a sequence of words and texts.
-/

namespace EcmaSyntax

/-- A form. Atoms are tags and declared names; strings are property names, labels and other texts. -/
inductive Form where
  | nil
  | atom (name : String)
  | string (value : String)
  | number (value : Number)
  | list (items : List Form)
  deriving Repr, Inhabited

/-- A part of what is hashed. -/
inductive HashInput where
  | word (value : UInt64)
  | text (value : String)
  deriving DecidableEq, Repr

namespace Form

/-- A list that begins with a tag. -/
def tagged (tag : String) (items : List Form) : Form :=
  list (atom tag :: items)

def isNil : Form → Bool
  | nil => true
  | _ => false

/-- The items of a list. -/
def items? : Form → Option (List Form)
  | list items => some items
  | _ => none

/-- The atom that a list begins with. -/
def tag? : Form → Option String
  | list (atom name :: _) => some name
  | _ => none

/-- Not a list, or the empty list. -/
def isScalar : Form → Bool
  | list (_ :: _) => false
  | _ => true

mutual

/-- Equality up to the equality of numbers, for which NaN is itself and both zeros are one. -/
def equals : Form → Form → Bool
  | nil, nil => true
  | atom name, atom other => name == other
  | string value, string other => value == other
  | number value, number other => value.equals other
  | list items, list others => equalsItems items others
  | _, _ => false

/-- Equality of items in order. -/
def equalsItems : List Form → List Form → Bool
  | [], [] => true
  | item :: items, other :: others => item.equals other && equalsItems items others
  | _, _ => false

end

mutual

/-- What a form contributes to a hash: the number of its constructor, then its content. -/
def hashInput : Form → List HashInput
  | nil => [.word 0]
  | atom name => [.word 1, .text name]
  | string value => [.word 2, .text value]
  | number value => .word 3 :: (value.hashBits?.map HashInput.word).toList
  | list items => .word 4 :: .word items.length.toUInt64 :: hashInputItems items

/-- What items contribute to a hash, in order. -/
def hashInputItems : List Form → List HashInput
  | [] => []
  | item :: items => item.hashInput ++ hashInputItems items

end

/-- The forms contribute the same to a hash. -/
def sameHash (first second : Form) : Bool :=
  first.hashInput = second.hashInput

end Form

end EcmaSyntax
