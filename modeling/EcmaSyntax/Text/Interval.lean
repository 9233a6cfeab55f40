/-! Sets of code points given by closed intervals. Membership is a scan of the intervals. -/

namespace EcmaSyntax.Text

/-- Some interval of the table holds the code point. -/
def inIntervals (table : List (Nat × Nat)) (point : Nat) : Bool :=
  table.any fun interval => interval.1 ≤ point && point ≤ interval.2

/-- A set of characters, built up from closed intervals and from the characters of texts. -/
structure CharSet where
  intervals : List (Nat × Nat) := []
  deriving DecidableEq, Repr

namespace CharSet

def empty : CharSet := {}

/-- Adds the characters from `first` to `last`; none if `last` comes before `first`. -/
def addInterval (set : CharSet) (first last : Char) : CharSet :=
  { intervals := (first.toNat, last.toNat) :: set.intervals }

/-- Adds every character of the text. -/
def addText (set : CharSet) (text : List Char) : CharSet :=
  text.foldl (fun set c => set.addInterval c c) set

def contains (set : CharSet) (c : Char) : Bool :=
  inIntervals set.intervals c.toNat

end CharSet

end EcmaSyntax.Text
