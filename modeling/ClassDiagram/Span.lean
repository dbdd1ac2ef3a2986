set_option autoImplicit false

namespace ClassDiagram

/-- The bytes from `start` up to, not including, `stop`. -/
structure Span where
  start : Nat
  stop : Nat
  start_le_stop : start ≤ stop := by omega
deriving DecidableEq, Repr

namespace Span

/-- The stretch between two offsets; empty at the first one if they are the wrong way round. -/
def between (start stop : Nat) : Span := ⟨start, max stop start, by omega⟩

def length (span : Span) : Nat := span.stop - span.start

def isEmpty (span : Span) : Bool := span.start == span.stop

@[simp] theorem between_start (start stop : Nat) : (between start stop).start = start := rfl

theorem between_stop {start stop : Nat} (h : start ≤ stop) : (between start stop).stop = stop :=
  Nat.max_eq_left h

theorem start_add_length (span : Span) : span.start + span.length = span.stop := by
  have := span.start_le_stop
  simp only [length]
  omega

end Span
end ClassDiagram
