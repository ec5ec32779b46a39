import MonkeyLang.Text.Dump

/-!
# Spans

A half-open range of byte offsets into a source text. A span may be written with its ends
exchanged; such a span counts as empty of bytes for its length, though its ends still differ.
-/

namespace MonkeyLang

/-- The bytes from `start` on and before `stop`. -/
structure Span where
  start : Nat := 0
  stop : Nat := 0
  deriving DecidableEq

namespace Span

/-- The number of bytes in a span. -/
def length (s : Span) : Nat := s.stop - s.start

/-- A span is empty when its length is zero. -/
def isEmpty (s : Span) : Bool := s.length == 0

/-- The span with both ends moved to the right by `n` bytes. -/
def shift (n : Nat) (s : Span) : Span := ⟨s.start + n, s.stop + n⟩

/-- The two ends of a span, as a dump shows them. -/
def dump (s : Span) : Dump :=
  .record "Span" [("start", .nat s.start), ("end", .nat s.stop)]

end Span

end MonkeyLang
