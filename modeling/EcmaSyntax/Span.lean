/-! Stretches of a source text, given by the byte offsets of their two ends. -/

namespace EcmaSyntax

/-- The bytes from `start` up to, and without, `stop`. -/
structure Span where
  start : Nat
  stop : Nat
  deriving DecidableEq, Repr, Inhabited

namespace Span

def length (span : Span) : Nat :=
  span.stop - span.start

def isEmpty (span : Span) : Bool :=
  span.stop ≤ span.start

/-- The least span that covers both. -/
def cover (first second : Span) : Span :=
  {
    start := min first.start second.start
    stop := max first.stop second.stop
  }

/-- The empty span at an offset. -/
def point (offset : Nat) : Span :=
  {
    start := offset
    stop := offset
  }

end Span

end EcmaSyntax
