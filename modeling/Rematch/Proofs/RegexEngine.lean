import Mathlib.Tactic.SplitIfs
import Rematch.Build
import Rematch.Proofs.Contract
import Rematch.Regex.Search

/-! # The engine of regular expressions keeps its promise

What the engine reports is found by the search alone, which never looks at the buffer: every program
is steady. It is orderly where the matches that its searches find are (`orderly_of_search`). -/

namespace Rematch.Regex

namespace Malformed

theorem ofSequence?_ne_missing {b : UInt8} {tail : Bytes} {n : Nat} :
    ofSequence? b tail ≠ some (missing n) := by
  unfold ofSequence?
  dsimp only
  split
  · simp
  · split_ifs <;> simp

theorem missing_pos {fuel n : Nat} {b : Bytes} (h : find? fuel b = some (missing n)) : 0 < n := by
  induction fuel generalizing b with
  | zero => cases b <;> cases h
  | succ fuel ih =>
    cases b with
    | nil => cases h
    | cons x rest =>
      rw [find?] at h
      split_ifs at h with h₁ h₂ h₃
      · exact ih h
      · cases h
      · cases h
      · dsimp only at h
        split_ifs at h with hn
        · cases h; omega
        · split at h
          · next e he =>
            cases h
            exact absurd he ofSequence?_ne_missing
          · exact ih h

theorem pairs_code {b : Bytes} {e : Malformed} (h : of? b = some e) : Code.pairs e.code = 0 := by
  have hneg : e.code < 0 ∧ e.code ≠ Code.partialMatch := by
    unfold Code.partialMatch
    cases e with
    | missing n => have := missing_pos h; simp only [code]; omega
    | _ => simp only [code]; omega
  rcases Matcher.classify_cases e.code with ⟨h0, -⟩ | ⟨-, hc⟩ | ⟨h2, -⟩ | ⟨-, -, -, hc⟩
  · omega
  · rw [Code.pairs, hc]; rfl
  · exact absurd h2 hneg.2
  · rw [Code.pairs, hc]; rfl

end Malformed

/-- What of a subject has been matched. -/
def Regs.span (r : Regs) : Span := ⟨r.start, r.pos⟩

/-- What of a subject a group has matched, or the whole expression. -/
def Regs.group? (r : Regs) (i : Nat) : Option Span := if i = 0 then some r.span else r.slots[i]?.join

/-- The span of a match that a search has found. -/
def Found.span? : Found → Option Span
  | .matched r => some r.span
  | _ => none

/-- A match found by a search lies within so many bytes. -/
def Found.Within (length : Nat) : Found → Prop
  | .matched r => r.start ≤ r.pos ∧ r.pos ≤ length
  | _ => True

instance (length : Nat) : DecidablePred (Found.Within length)
  | .matched r => inferInstanceAs (Decidable (r.start ≤ r.pos ∧ r.pos ≤ length))
  | .partially _ | .nothing | .limit | .callLoop => .isTrue trivial

/-- A match found by a search has the property. -/
def Found.Meets (P : Span → Prop) : Found → Prop
  | .matched r => P ⟨r.start, r.pos⟩
  | _ => True

instance (P : Span → Prop) [DecidablePred P] : DecidablePred (Found.Meets P)
  | .matched r => inferInstanceAs (Decidable (P ⟨r.start, r.pos⟩))
  | .partially _ | .nothing | .limit | .callLoop => .isTrue trivial

namespace Program

/-- What an attempt writes into the buffer is found without it. -/
theorem attempt_cases (p : Program) (b : Bytes) (f : MatchFlags) :
    (∃ code, Code.pairs code = 0 ∧ ∀ s, p.attempt b f s = (code, s)) ∨
    (∃ start, p.search b f = .partially start ∧ ∀ s, p.attempt b f s =
      (Code.partialMatch, s.mapIdx fun i old => if i = 0 then some ⟨start, b.length⟩ else old)) ∨
    (∃ r, ∃ count : Nat, p.search b f = .matched r ∧ ∀ s, p.attempt b f s =
        ((if s.size < count then 0 else (count : Int)), s.mapIdx fun i _ => r.group? i)) := by
  unfold attempt
  dsimp only
  by_cases hbad : ((f.has .partialHard || f.has .partialSoft) && f.has .endAnchored) = true
  · exact .inl ⟨_, rfl, fun s => by rw [if_pos hbad]⟩
  simp only [if_neg hbad]
  split
  · next e he =>
    refine .inl ⟨e.code, ?_, fun s => rfl⟩
    split_ifs at he
    exact Malformed.pairs_code he
  · cases p.search b f with
    | nothing => exact .inl ⟨_, rfl, fun s => rfl⟩
    | limit => exact .inl ⟨_, rfl, fun s => rfl⟩
    | callLoop => exact .inl ⟨_, rfl, fun s => rfl⟩
    | partially start => exact .inr (.inl ⟨start, rfl, fun s => rfl⟩)
    | matched r => exact .inr (.inr ⟨r, pairs r.slots, rfl, fun s => rfl⟩)

theorem size_of_allocate {n : Nat} {s : Slots} (h : Engine.allocate Program n = some s) :
    s.size = n := by
  cases h
  exact Array.size_replicate

theorem buffered (p : Program) : Engine.Buffered p where
  allocated _ h := size_of_allocate h
  size b f s := by
    show (p.attempt b f s).2.size = s.size
    rcases p.attempt_cases b f with ⟨_, -, h⟩ | ⟨_, -, h⟩ | ⟨_, _, -, h⟩ <;> rw [h] <;> simp

theorem fits_of_allocate {p : Compiled Program} {s : Slots} (h : Matcher.allocate p = some s) :
    Engine.Fits p.code s := p.code.buffered.allocated s h

theorem steady (p : Program) : Engine.Steady p where
  toBuffered := p.buffered
  code b f s t hs ht := by
    show (p.attempt b f s).1 = (p.attempt b f t).1
    have hsize : s.size = t.size := hs.trans ht.symm
    rcases p.attempt_cases b f with ⟨_, -, h⟩ | ⟨_, -, h⟩ | ⟨_, _, -, h⟩ <;> rw [h, h]
    rw [hsize]
  slots b f s t hs ht := by
    show ∀ i < Code.pairs (p.attempt b f s).1, (p.attempt b f s).2[i]? = (p.attempt b f t).2[i]?
    have hsize : s.size = t.size := hs.trans ht.symm
    intro i hi
    rcases p.attempt_cases b f with ⟨code, hc, h⟩ | ⟨start, -, h⟩ | ⟨r, count, -, h⟩
    · rw [h, hc] at hi; exact absurd hi (Nat.not_lt_zero i)
    · rw [h] at hi
      have h0 : i = 0 := Nat.lt_one_iff.1 hi
      rw [h, h]
      subst h0
      by_cases h0 : 0 < s.size
      · simp [h0, hsize ▸ h0]
      · simp [h0, hsize ▸ h0]
    · rw [h, h]
      by_cases hlt : i < s.size
      · simp [hlt, hsize ▸ hlt]
      · simp [hlt, hsize ▸ hlt]

/-- What is reported of a complete match is where the search has found it. -/
theorem reports_of_search {p : Program} {b : Bytes} {f : MatchFlags} {P : Span → Prop}
    (h : (p.search b f).Meets P) : Engine.Reports p b f P := by
  intro s g hpos hg
  change 0 < (p.attempt b f s).1 at hpos
  change (p.attempt b f s).2[0]?.join = some g at hg
  rcases p.attempt_cases b f with ⟨code, hc, hs⟩ | ⟨start, -, hs⟩ | ⟨r, count, hr, hs⟩
  · rw [hs] at hpos
    have hm : Code.pairs code = code.toNat := by
      rw [Code.pairs, Matcher.classify, if_pos (Int.le_of_lt hpos)]; rfl
    omega
  · rw [hs] at hpos
    exact absurd hpos (show ¬ 0 < Code.partialMatch by decide)
  · rw [hs] at hg
    have hsize : 0 < s.size := by
      rcases Nat.eq_zero_or_pos s.size with hz | hz
      · simp [Array.size_eq_zero_iff.1 hz] at hg
      · exact hz
    simp only [Array.getElem?_mapIdx, Array.getElem?_eq_getElem hsize, Option.map_some, Regs.group?,
      if_true, Option.join_some, Option.some.injEq] at hg
    rw [hr] at h
    exact hg ▸ h

theorem orderly_of_search {p : Program} {b : Bytes} {f : MatchFlags}
    (h : Found.Within b.length (p.search b f)) : Engine.Orderly p b f := by
  refine reports_of_search ?_
  cases hr : p.search b f with
  | matched r => rw [hr] at h; exact h
  | _ => exact trivial

end Program

end Rematch.Regex

namespace Rematch

/-- An expression compiled for searches that try every place, if it compiles. -/
def Compiled.plain? {κ : Type} [Engine κ] (expression : String) (serial : Nat) :
    Option (Compiled κ) :=
  (Pattern.build { expression, flags := .ofList [.noStartOptimize] } serial).result.toOption

theorem eq_ok_of_toOption {ε α : Type} {x : Except ε α} {a : α} (h : x.toOption = some a) :
    x = .ok a := by
  cases x with
  | error e => cases h
  | ok b => cases h; rfl

end Rematch
