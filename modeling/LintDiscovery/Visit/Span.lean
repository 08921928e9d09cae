/-
Spans of source text.

A span starts at a byte and has a length. Offsets have 64 bits, so the end of a span need not be
an offset any more.
-/
import LintDiscovery.Panic

namespace LintDiscovery

/-- The largest offset, `2 ^ 64 - 1`. -/
def maxOffset : Nat := Nat.pow 2 64 - 1

/-- A range of bytes of a source text. -/
structure Span where
  start : Nat
  length : Nat
  deriving DecidableEq, Repr

namespace Span

/-- The offset behind a span. Asking for it panics when it is beyond the largest offset. -/
def finish (s : Span) : Except Panic Nat :=
  if s.start + s.length ≤ maxOffset then .ok (s.start + s.length)
  else .error (.text "attempt to add with overflow")

end Span

end LintDiscovery
