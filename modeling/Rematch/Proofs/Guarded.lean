import Rematch.Proofs.Contract

/-! # Engines that are looked after

An engine can be wrapped so that what it answers is looked through first, and an answer that breaks
the contract is given as an error of the engine. The wrapped engine is faithful, whatever the engine
inside answers. -/

namespace Rematch

/-- A compiled expression whose attempts are looked through. -/
structure Guarded (κ : Type) where
  inner : κ

namespace Guarded
variable {κ : Type} [Engine κ]

/-- The return code of an error inside of the engine. -/
def internalError : Int := -44

/-- Is this what a faithful engine could answer to an attempt on so many bytes with this buffer? -/
def keeps (c : κ) (length : Nat) (s : Slots) (answer : Int × Slots) : Bool :=
  let set := Code.pairs answer.1
  let large := Engine.groups c + 1 ≤ s.size
  answer.2.size = s.size ∧
  (large → 0 ≤ answer.1 → 1 ≤ answer.1 ∧ answer.1 ≤ Engine.groups c + 1) ∧
  (large → 0 < set → (answer.2[0]?.join).isSome) ∧
  ∀ i < set, (answer.2[i]?.join).all fun g => g.start ≤ g.stop ∧ g.stop ≤ length

/-- The answer of the engine, if it may be believed. -/
def attempt (c : Guarded κ) (b : Bytes) (f : MatchFlags) (s : Slots) : Int × Slots :=
  let answer := Engine.attempt c.inner b f s
  if keeps c.inner b.length s answer then answer else (internalError, s)

instance : Engine (Guarded κ) where
  compile p := (Engine.compile p).map Guarded.mk
  size c := Engine.size c.inner
  groups c := Engine.groups c.inner
  nameRecords c := Engine.nameRecords c.inner
  allocate := Engine.allocate κ
  attempt := attempt
  explain code := if code = internalError then "internal error" else Engine.explain κ code

/-- An answer that is no internal error is that of the engine inside, and has been looked through. -/
theorem attempt_cases (c : Guarded κ) (b : Bytes) (f : MatchFlags) (s : Slots) :
    (Engine.attempt c b f s = Engine.attempt c.inner b f s ∧
      keeps c.inner b.length s (Engine.attempt c b f s) = true) ∨
    Engine.attempt c b f s = (internalError, s) := by
  show (c.attempt b f s = _ ∧ keeps c.inner b.length s (c.attempt b f s) = true) ∨
    c.attempt b f s = _
  unfold attempt
  dsimp only
  split
  · next h => exact .inl ⟨rfl, h⟩
  · exact .inr rfl

/-- Buffers are those of the engine inside. -/
theorem buffered {c : Guarded κ} (h : Engine.Buffered c.inner) : Engine.Buffered c where
  allocated := h.allocated
  size b f s := by
    rcases c.attempt_cases b f s with ⟨-, h⟩ | h
    · simp only [keeps, decide_eq_true_eq] at h
      exact h.1
    · rw [h]

theorem faithful {c : Guarded κ} (h : Engine.Buffered c.inner)
    (hg : Engine.groups c.inner < UInt32.size) : Engine.Faithful c where
  toBuffered := buffered h
  groups_lt := hg
  count b f s hs h0 := by
    rcases c.attempt_cases b f s with ⟨-, h⟩ | h
    · simp only [keeps, decide_eq_true_eq] at h
      exact h.2.1 hs h0
    · rw [h] at h0
      exact absurd h0 (show ¬ 0 ≤ internalError by decide)
  whole b f s hs h0 := by
    rcases c.attempt_cases b f s with ⟨-, h⟩ | h
    · simp only [keeps, decide_eq_true_eq] at h
      exact Option.isSome_iff_exists.1 (h.2.2.1 hs h0)
    · rw [h] at h0
      exact absurd h0 (show ¬ 0 < Code.pairs internalError by decide)
  within b f s i hi g hg := by
    rcases c.attempt_cases b f s with ⟨-, h⟩ | h
    · simp only [keeps, decide_eq_true_eq] at h
      have hall := h.2.2.2 i hi
      rw [hg] at hall
      simpa [Span.Within] using hall
    · rw [h] at hi
      exact absurd hi (Nat.not_lt_zero i)

/-- What is looked at of an answer is what the code counts. -/
theorem keeps_congr (c : κ) (length : Nat) {s t : Slots} {a b : Int × Slots} (hst : s.size = t.size)
    (ha : a.2.size = s.size) (hb : b.2.size = t.size) (hcode : a.1 = b.1)
    (hslots : ∀ i < Code.pairs a.1, a.2[i]? = b.2[i]?) :
    keeps c length s a = keeps c length t b := by
  unfold keeps
  rw [decide_eq_decide, ← hcode, hst]
  refine and_congr (iff_of_true (ha.trans hst) hb) (and_congr Iff.rfl (and_congr ?_ ?_))
  · exact imp_congr_right fun _ => imp_congr_right fun h0 => by rw [hslots 0 h0]
  · exact forall₂_congr fun i hi => by rw [hslots i hi]

/-- Looking through the answers of a steady engine leaves it steady. -/
theorem steady {c : Guarded κ} (h : Engine.Steady c.inner) : Engine.Steady c where
  toBuffered := buffered h.toBuffered
  code b f s t hs ht := by
    have hkeeps := keeps_congr c.inner b.length (hs.trans ht.symm) (h.size b f s) (h.size b f t)
      (h.code b f s t hs ht) (h.slots b f s t hs ht)
    show (c.attempt b f s).1 = (c.attempt b f t).1
    simp only [attempt, hkeeps]
    split
    · exact h.code b f s t hs ht
    · rfl
  slots b f s t hs ht := by
    have hkeeps := keeps_congr c.inner b.length (hs.trans ht.symm) (h.size b f s) (h.size b f t)
      (h.code b f s t hs ht) (h.slots b f s t hs ht)
    show ∀ i < Code.pairs (c.attempt b f s).1, (c.attempt b f s).2[i]? = (c.attempt b f t).2[i]?
    simp only [attempt, hkeeps]
    split
    · exact h.slots b f s t hs ht
    · exact fun i hi => absurd hi (Nat.not_lt_zero i)

end Guarded

end Rematch
