import Rematch.Captures

/-! # Groups read by words

A buffer lies in memory as one row of offsets, two for each entry, and a group is looked up by a word
that has to be doubled first. `readSpan_eq` says that no product is computed that a word cannot hold,
and that the two offsets are those of the entry. -/

namespace Rematch

namespace Word

/-- The product of two words, if a word holds it. -/
def mul (a b : UInt64) : Except Panic UInt64 :=
  if a.toNat * b.toNat < UInt64.size then .ok (a * b) else .error ⟨"attempt to multiply with overflow"⟩

def add (a b : UInt64) : Except Panic UInt64 :=
  if a.toNat + b.toNat < UInt64.size then .ok (a + b) else .error ⟨"attempt to add with overflow"⟩

theorem mul_ok {a b : UInt64} (h : a.toNat * b.toNat < UInt64.size) :
    ∃ c, mul a b = .ok c ∧ c.toNat = a.toNat * b.toNat := by
  refine ⟨a * b, by rw [mul, if_pos h], ?_⟩
  rw [UInt64.toNat_mul, Nat.mod_eq_of_lt h]

theorem add_ok {a b : UInt64} (h : a.toNat + b.toNat < UInt64.size) :
    ∃ c, add a b = .ok c ∧ c.toNat = a.toNat + b.toNat := by
  refine ⟨a + b, by rw [add, if_pos h], ?_⟩
  rw [UInt64.toNat_add, Nat.mod_eq_of_lt h]

end Word

namespace Slots

def offsets (entry : Option Span) : List (Option Nat) := [entry.map Span.start, entry.map Span.stop]

def row (s : Slots) : List (Option Nat) := s.toList.flatMap offsets

theorem flatMap_offsets_getElem? (entries : List (Option Span)) (i : Nat) :
    (entries.flatMap offsets)[2 * i]? = entries[i]?.map (·.map Span.start) ∧
    (entries.flatMap offsets)[2 * i + 1]? = entries[i]?.map (·.map Span.stop) := by
  induction entries generalizing i with
  | nil => simp
  | cons entry entries ih =>
    cases i with
    | zero => exact ⟨rfl, rfl⟩
    | succ i => exact ih i

theorem row_getElem? (s : Slots) (i : Nat) :
    (row s)[2 * i]?.join = s[i]?.join.map Span.start ∧
    (row s)[2 * i + 1]?.join = s[i]?.join.map Span.stop := by
  have h := flatMap_offsets_getElem? s.toList i
  rw [row, h.1, h.2, Array.getElem?_toList]
  cases s[i]? with
  | none => exact ⟨rfl, rfl⟩
  | some entry => exact ⟨rfl, rfl⟩

end Slots

namespace Captures
variable {κ : Type} {c : Captures κ}

/-- The span of a group that is present, read by words. -/
def readSpan (c : Captures κ) (i : UInt64) : Except Panic (Option Span) :=
  if !c.isMatch || c.pairs ≤ i.toNat then .ok none
  else do
    let first ← Word.mul 2 i
    let second ← Word.add first 1
    match (Slots.row c.slots)[first.toNat]?.join, (Slots.row c.slots)[second.toNat]?.join with
    | some start, some stop => .ok (some ⟨start, stop⟩)
    | _, _ => .ok none

/-- Did the group take part in the match? Asked by a word. -/
def readPresent (c : Captures κ) (i : UInt64) : Except Panic Bool :=
  (c.readSpan i).map Option.isSome

/-- Every word is answered: only those of entries that are set are doubled. -/
theorem readSpan_eq (h : c.pairs ≤ UInt32.size) (i : UInt64) : c.readSpan i = .ok (c.span? i.toNat) := by
  unfold readSpan span?
  by_cases hi : c.pairs ≤ i.toNat
  · have hi' : ¬ i.toNat < c.pairs := Nat.not_lt.2 hi
    simp [hi, hi']
  cases c.isMatch with
  | false => rfl
  | true =>
    have hlt : i.toNat < c.pairs := Nat.lt_of_not_le hi
    have htwo : (2 : UInt64).toNat = 2 := rfl
    have hone : (1 : UInt64).toNat = 1 := rfl
    have hroom : 2 * UInt32.size < UInt64.size := by decide
    obtain ⟨first, hfirst, hf⟩ := Word.mul_ok (a := 2) (b := i) (by rw [htwo]; omega)
    rw [htwo] at hf
    obtain ⟨second, hsecond, hs⟩ := Word.add_ok (a := first) (b := 1) (by rw [hf, hone]; omega)
    rw [hone, hf] at hs
    obtain ⟨hstart, hstop⟩ := Slots.row_getElem? c.slots i.toNat
    simp only [hfirst, hsecond, bind, Except.bind, hf, hs, hstart, hstop, hi, hlt]
    cases c.slots[i.toNat]?.join with
    | none => rfl
    | some g => rfl

theorem readPresent_eq (h : c.pairs ≤ UInt32.size) (i : UInt64) :
    c.readPresent i = .ok (c.present i.toNat) := by
  rw [readPresent, readSpan_eq h]; rfl

end Captures

end Rematch
