/-!
# Spans

A span is a pair of positions: offset units, bytes or lines, depending on where it stands. Spans
are half-open, so `[start, stop)` owns `start` and not `stop`. Nothing forces `start ≤ stop`: a
requested range arrives before it is checked, and a zero-width span owns no position.
-/

namespace StatementOutline

/-- The half-open interval `[start, stop)`. -/
structure Span where
  start : Nat
  stop : Nat
  deriving DecidableEq, Repr, Inhabited

namespace Span

/-- The span owns the position `offset`. -/
def contains (s : Span) (offset : Nat) : Bool :=
  s.start ≤ offset && offset < s.stop

/-- The two spans share a stretch: each starts before the other stops. -/
def overlaps (s range : Span) : Bool :=
  s.start < range.stop && range.start < s.stop

/-- `range` lies within `s`, both ends allowed to meet. -/
def encloses (s range : Span) : Bool :=
  s.start ≤ range.start && range.stop ≤ s.stop

/-- What a reduction over `range` looks at: spans that overlap the range, or enclose it. The second
case also lets an empty range keep what surrounds it. -/
def inScope (s range : Span) : Bool :=
  s.overlaps range || s.encloses range

/-- Both ends on the same line. -/
def isSingleLine (lines : Span) : Bool :=
  lines.start == lines.stop

theorem contains_iff {s : Span} {offset : Nat} :
    s.contains offset = true ↔ s.start ≤ offset ∧ offset < s.stop := by
  simp [contains]

theorem overlaps_iff {s range : Span} :
    s.overlaps range = true ↔ s.start < range.stop ∧ range.start < s.stop := by
  simp [overlaps]

theorem encloses_iff {s range : Span} :
    s.encloses range = true ↔ s.start ≤ range.start ∧ range.stop ≤ s.stop := by
  simp [encloses]

theorem inScope_iff {s range : Span} : s.inScope range = true ↔
    (s.start < range.stop ∧ range.start < s.stop) ∨
      (s.start ≤ range.start ∧ range.stop ≤ s.stop) := by
  simp [inScope, overlaps_iff, encloses_iff]

end Span

end StatementOutline
