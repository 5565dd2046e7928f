import Rematch.Matcher

/-! # What a matcher may expect of its engine

An engine comes from outside, so that what is proved of matchers holds of those engines that keep
some promise. Each promise is made for one compiled expression: an engine may keep it for some
expressions and break it for others.

* `Engine.Buffered`: new buffers have room for all groups, and attempts leave them as large as they are.
* `Engine.Steady`: the answer does not depend on what the buffer held before.
* `Engine.Orderly`: a match lies in the subject and does not stop before it starts.
* `Engine.Faithful`: the code counts the entries that are set, the whole match is among them, and all
  of them are orderly.

None of them says anything of the entries that the code does not count, or of whether there is memory
for a buffer. -/

namespace Rematch

/-- How many entries of the buffer an attempt with this return code has set. -/
def Code.pairs (code : Int) : Nat := ((Matcher.classify code).map Prod.snd).getD 0

/-- Two offsets in order, inside of so many bytes. -/
def Span.Within (g : Span) (length : Nat) : Prop := g.start ≤ g.stop ∧ g.stop ≤ length

namespace Engine
variable {κ : Type} [Engine κ]

/-- The buffer has an entry for each group of the expression and for the whole match. -/
def Fits (c : κ) (s : Slots) : Prop := s.size = groups c + 1

/-- A buffer that is allocated for the expression fits it, and keeps its size. -/
structure Buffered (c : κ) : Prop where
  allocated : ∀ s, allocate κ (groups c + 1) = some s → Fits c s
  size : ∀ b f s, (attempt c b f s).2.size = s.size

/-- The code, and the entries that it counts, depend on the expression, the subject and the options.
-/
structure Steady (c : κ) : Prop extends Buffered c where
  code : ∀ b f s t, Fits c s → Fits c t → (attempt c b f s).1 = (attempt c b f t).1
  slots : ∀ b f s t, Fits c s → Fits c t → ∀ i < Code.pairs (attempt c b f s).1,
    (attempt c b f s).2[i]? = (attempt c b f t).2[i]?

/-- The span of every complete match that an attempt on these bytes reports has the property. -/
def Reports (c : κ) (b : Bytes) (f : MatchFlags) (P : Span → Prop) : Prop :=
  ∀ s g, 0 < (attempt c b f s).1 → (attempt c b f s).2[0]?.join = some g → P g

/-- A complete match that an attempt on these bytes reports lies within them. -/
def Orderly (c : κ) (b : Bytes) (f : MatchFlags) : Prop :=
  ∀ s g, 0 < (attempt c b f s).1 → (attempt c b f s).2[0]?.join = some g → g.Within b.length

/-- An attempt with a buffer that is large enough counts at least the whole match, and no entry
beyond the last group; the whole match is set, and what is set lies within the subject. -/
structure Faithful (c : κ) : Prop extends Buffered c where
  /-- Groups are numbered by words of 32 bits. -/
  groups_lt : groups c < UInt32.size
  count : ∀ b f s, groups c + 1 ≤ s.size → 0 ≤ (attempt c b f s).1 →
    1 ≤ (attempt c b f s).1 ∧ (attempt c b f s).1 ≤ groups c + 1
  whole : ∀ b f s, groups c + 1 ≤ s.size → 0 < Code.pairs (attempt c b f s).1 →
    ∃ g, (attempt c b f s).2[0]?.join = some g
  within : ∀ b f s, ∀ i < Code.pairs (attempt c b f s).1, ∀ g,
    (attempt c b f s).2[i]?.join = some g → g.Within b.length

end Engine

namespace Matcher

/-- What a return code says, read from the outcome: all that is not a match sets no entries, and a
partial match sets one. -/
theorem classify_cases (code : Int) :
    (0 ≤ code ∧ classify code = some (.matched, code.toNat)) ∨
    (code = Code.noMatch ∧ classify code = some (.notMatched, 0)) ∨
    (code = Code.partialMatch ∧ classify code = some (.partiallyMatched, 1)) ∨
    (code < 0 ∧ code ≠ Code.noMatch ∧ code ≠ Code.partialMatch ∧ classify code = none) := by
  unfold classify
  by_cases h0 : 0 ≤ code
  · exact .inl ⟨h0, by rw [if_pos h0]⟩
  by_cases h1 : code = Code.noMatch
  · exact .inr (.inl ⟨h1, by rw [if_neg h0, if_pos h1]⟩)
  by_cases h2 : code = Code.partialMatch
  · exact .inr (.inr (.inl ⟨h2, by rw [if_neg h0, if_neg h1, if_pos h2]⟩))
  · exact .inr (.inr (.inr ⟨by omega, h1, h2, by rw [if_neg h0, if_neg h1, if_neg h2]⟩))

theorem classify_pairs {code : Int} {o : Outcome} {n : Nat} (h : classify code = some (o, n)) :
    Code.pairs code = n := by
  simp [Code.pairs, h]

theorem classify_matched {code : Int} {n : Nat} (h : classify code = some (.matched, n)) :
    0 ≤ code ∧ code = n := by
  rcases classify_cases code with ⟨h0, hc⟩ | ⟨-, hc⟩ | ⟨-, hc⟩ | ⟨-, -, -, hc⟩
  · rw [hc] at h; simp only [Option.some.injEq, Prod.mk.injEq, true_and] at h; omega
  all_goals rw [hc] at h; simp at h

/-- A match sets entries, if a code that says so counts some. -/
theorem classify_pos {code : Int} (hcount : 0 ≤ code → 1 ≤ code) {o : Outcome} {n : Nat}
    (h : classify code = some (o, n)) (ho : o.isMatch = true) : 0 < n := by
  rcases classify_cases code with ⟨h0, hc⟩ | ⟨-, hc⟩ | ⟨-, hc⟩ | ⟨-, -, -, hc⟩ <;>
    rw [hc] at h <;> cases h
  · have := hcount h0
    omega
  · cases ho
  · exact Nat.one_pos

end Matcher

end Rematch
