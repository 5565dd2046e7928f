/-! # Byte strings

Subjects, replacements and encoded texts are lists of bytes; offsets count bytes from the start. -/

namespace Rematch

abbrev Bytes := List UInt8

namespace Bytes

/-- The bytes from offset `start` up to offset `stop`; none if `stop` is the lesser. -/
def slice (b : Bytes) (start stop : Nat) : Bytes := (b.take stop).drop start

/-- The bytes between two offsets, if the string has both and they are in order. -/
def slice? (b : Bytes) (start stop : Nat) : Option Bytes :=
  if start ≤ stop ∧ stop ≤ b.length then some (b.slice start stop) else none

theorem length_slice (b : Bytes) (start stop : Nat) :
    (b.slice start stop).length = min stop b.length - start := by
  simp [slice]

theorem slice?_eq_some_iff {b c : Bytes} {start stop : Nat} :
    b.slice? start stop = some c ↔ (start ≤ stop ∧ stop ≤ b.length) ∧ b.slice start stop = c := by
  rw [slice?, Option.ite_none_right_eq_some, Option.some.injEq]

theorem slice_zero_length (b : Bytes) : b.slice 0 b.length = b := by
  simp [slice]

theorem slice_append_drop (b : Bytes) {start stop : Nat} (h : start ≤ stop) :
    b.slice start stop ++ b.drop stop = b.drop start := by
  rw [slice]
  conv => rhs; rw [← List.take_append_drop stop b]
  rw [List.drop_append]
  by_cases hl : stop ≤ b.length
  · have : start - min stop b.length = 0 := by omega
    simp [List.length_take, this]
  · have hd : b.drop stop = [] := List.drop_eq_nil_of_le (by omega)
    simp [hd]

end Bytes

end Rematch
