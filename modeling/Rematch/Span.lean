/-! # Spans of offsets -/

namespace Rematch

/-- A pair of offsets, where something starts and where it stops. Nothing orders the two. -/
@[ext]
structure Span where
  start : Nat
  stop : Nat
  deriving DecidableEq, Repr

namespace Span

def isEmpty (s : Span) : Bool := s.start == s.stop

/-- The number of units between the offsets. -/
def width (s : Span) : Nat := s.stop - s.start

/-- The same span in a text whose first `n` units are counted too. -/
def shift (s : Span) (n : Nat) : Span := ⟨n + s.start, n + s.stop⟩

@[simp] theorem shift_start (s : Span) (n : Nat) : (s.shift n).start = n + s.start := rfl
@[simp] theorem shift_stop (s : Span) (n : Nat) : (s.shift n).stop = n + s.stop := rfl

@[simp] theorem isEmpty_shift (s : Span) (n : Nat) : (s.shift n).isEmpty = s.isEmpty := by
  rw [Bool.eq_iff_iff]
  simp [isEmpty]

@[simp] theorem width_shift (s : Span) (n : Nat) : (s.shift n).width = s.width :=
  Nat.add_sub_add_left n s.stop s.start

@[simp] theorem shift_zero (s : Span) : s.shift 0 = s := by
  simp [shift]

theorem shift_shift (s : Span) (m n : Nat) : (s.shift m).shift n = s.shift (n + m) := by
  simp [shift, Nat.add_assoc]

end Span

end Rematch
