/-!
Places in a source file. A span is a byte range together with the line it starts on.
-/

namespace Gradual

/-- A byte range and the line, counted from one, on which it starts. -/
structure Span where
  start : Nat
  stop : Nat
  line : Nat
  deriving DecidableEq, Repr

namespace Span

/-- The range from `start` to `stop`, taken to lie on the first line. -/
def ofRange (start stop : Nat) : Span := ⟨start, stop, 1⟩

/-- The empty range on a line, the span of every built node. -/
def atLine (line : Nat) : Span := ⟨0, 0, line⟩

/-- The span of a node that has no place in any file. -/
def nowhere : Span := ⟨0, 0, 0⟩

def withLine (s : Span) (line : Nat) : Span := { s with line }

/-- Bytes covered; a range that ends before it starts covers none. -/
def length (s : Span) : Nat := s.stop - s.start

def isEmpty (s : Span) : Bool := s.length == 0

instance : Inhabited Span := ⟨nowhere⟩

@[simp] theorem length_atLine (line : Nat) : (atLine line).length = 0 := rfl

@[simp] theorem isEmpty_atLine (line : Nat) : (atLine line).isEmpty = true := rfl

theorem isEmpty_iff (s : Span) : s.isEmpty = true ↔ s.stop ≤ s.start := by
  simp only [isEmpty, length, beq_iff_eq]
  omega

end Span
end Gradual
