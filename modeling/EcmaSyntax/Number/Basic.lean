/-!
The numbers of programs: binary64 values, in sign and magnitude. The magnitudes, zero and infinity
included, are numbered in increasing order, so comparing numbers is comparing integers.
-/

namespace EcmaSyntax

/-- The rank of infinity among the magnitudes. -/
def infiniteRank : Nat := 0x7FF0000000000000

/-- The rank of a non-negative number other than NaN in increasing order, from zero to infinity. It is
also the bit pattern of the number. -/
abbrev Magnitude := Fin 0x7FF0000000000001

namespace Magnitude

/-- The magnitude with the rank; infinity from the rank of infinity on. -/
def ofRank (rank : Nat) : Magnitude :=
  ⟨min rank infiniteRank, Nat.lt_succ_of_le (Nat.min_le_right ..)⟩

def zero : Magnitude := ofRank 0

def infinity : Magnitude := ofRank infiniteRank

def isInfinite (magnitude : Magnitude) : Bool :=
  magnitude.val = infiniteRank

end Magnitude

/-- A binary64 value. All NaNs are one value. -/
inductive Number where
  | nan
  | signed (negative : Bool) (magnitude : Magnitude)
  deriving DecidableEq, Repr

namespace Number

def zero : Number := signed false Magnitude.zero

instance : Inhabited Number := ⟨zero⟩

def infinity (negative : Bool) : Number := signed negative Magnitude.infinity

/-- The number with the bit pattern. -/
def ofBits (bits : UInt64) : Number :=
  if inRange : bits.toNat % Nat.pow 2 63 < 0x7FF0000000000001 then
    signed (Nat.pow 2 63 ≤ bits.toNat) ⟨bits.toNat % Nat.pow 2 63, inRange⟩
  else
    nan

/-- The bit pattern of a number. NaN has its quiet pattern without payload. -/
def toBits : Number → UInt64
  | nan => 0x7FF8000000000000
  | signed negative magnitude =>
      ((if negative then Nat.pow 2 63 else 0) + magnitude.val).toUInt64

def isNaN : Number → Bool
  | nan => true
  | signed .. => false

/-- Neither NaN nor infinite. -/
def isFinite : Number → Bool
  | nan => false
  | signed _ magnitude => !magnitude.isInfinite

/-- The place in the increasing order of the numbers other than NaN; both zeros have place zero. -/
def order? : Number → Option Int
  | nan => none
  | signed negative magnitude => some (if negative then -magnitude.val else magnitude.val)

/-- NaN equals itself, and the two zeros are equal. -/
def equals (first second : Number) : Bool :=
  first.order? == second.order?

/-- The order by value. NaN is taken for equal to everything. -/
def compare (first second : Number) : Ordering :=
  match first.order?, second.order? with
  | some place, some other => Ord.compare place other
  | _, _ => .eq

def isLess (first second : Number) : Bool :=
  first.compare second == .lt

/-- What a number contributes to a hash: its bit pattern, or nothing if it is NaN. -/
def hashBits? : Number → Option UInt64
  | nan => none
  | number => some number.toBits

end Number

end EcmaSyntax
