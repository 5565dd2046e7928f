import Rematch.Proofs.Failure

/-! # Searches from an offset on

To an engine, an attempt is a search: it looks for a match at one place after the other, from the first
byte of the subject on. Most engines can be asked to start behind an offset instead, with all of the
subject before their eyes. A matcher never asks for that; it hands over what stands behind the offset as
a subject of its own. `Engine.Searcher` tells of both searches, `Engine.Searches` promises that attempts
are searches from the start.

If what stands before an offset makes no difference to any place behind it (`Engine.Searcher.Ahead`), then
both searches come to the same places, and find the same match (`Engine.Searches.search_of_rest`). -/

namespace Rematch

/-- The spans of the groups of a match by their numbers, with the whole match at zero. -/
abbrev Spans := Nat → Option Span

/-- The same spans in a text whose first `d` units are counted too. -/
def Spans.shift (s : Spans) (d : Nat) : Spans := fun i => (s i).map (·.shift d)

/-- What a search has come to when it has looked for a match from one of its places on. -/
inductive Look where
  /-- An attempt at `place` has found a match. -/
  | found (place : Nat) (spans : Spans)
  /-- It goes on at another place. -/
  | onward (next : Nat)
  | ended
  /-- It was broken off with an error. -/
  | failed

/-- The same in a text whose first `d` units are counted too. -/
def Look.shift (d : Nat) : Look → Look
  | found j s => found (d + j) (s.shift d)
  | onward i => onward (d + i)
  | ended => ended
  | failed => failed

/-- A search that comes to this at each of its places finds, from the place `i` on, these spans in an
attempt at `j`. -/
inductive Finds (look : Nat → Look) : (i j : Nat) → Spans → Prop
  | here {i j : Nat} {s : Spans} (h : look i = .found j s) : Finds look i j s
  | later {i k j : Nat} {s : Spans} (h : look i = .onward k) (hs : Finds look k j s) : Finds look i j s

namespace Spans

@[simp] theorem shift_zero (s : Spans) : s.shift 0 = s := by
  funext i
  cases h : s i <;> simp [shift, h]

theorem shift_apply {s : Spans} {d i : Nat} : s.shift d i = (s i).map (·.shift d) := rfl

end Spans

namespace Look

@[simp] theorem shift_zero (l : Look) : l.shift 0 = l := by
  cases l <;> simp [shift]

theorem shift_eq_failed {l : Look} {d : Nat} : l.shift d = .failed ↔ l = .failed := by
  cases l <;> simp [shift]

theorem shift_eq_found {l : Look} {d j : Nat} {s : Spans} (h : l.shift d = .found (d + j) s) :
    ∃ t, l = .found j t ∧ s = t.shift d := by
  cases l with
  | found i t =>
    injection h with hj hs
    obtain rfl := Nat.add_left_cancel hj
    exact ⟨t, rfl, hs.symm⟩
  | _ => cases h

end Look

namespace Finds
variable {look look' : Nat → Look} {i j d : Nat} {s : Spans}

theorem exists_found (h : Finds look i j s) : ∃ k, look k = .found j s := by
  induction h with
  | @here i j s h => exact ⟨i, h⟩
  | later h hs ih => exact ih

/-- A search that comes to the same at every place behind the first `d` units finds the same behind them.
-/
theorem shift (hlook : ∀ k, look k ≠ .failed → look' (d + k) = (look k).shift d)
    (h : Finds look i j s) : Finds look' (d + i) (d + j) (s.shift d) := by
  induction h with
  | here h => exact .here (by rw [hlook _ (by rw [h]; exact nofun), h, Look.shift])
  | later h hs ih => exact .later (by rw [hlook _ (by rw [h]; exact nofun), h, Look.shift]) ih

end Finds

/-- The span that an answer of an engine gives for a group, if the code counts it. -/
def Code.span? (answer : Int × Slots) : Spans := fun i =>
  if i < Code.pairs answer.1 then answer.2[i]?.join else none

namespace Engine
variable {κ : Type}

/-- The searches of an engine, by the offset of the subject where they start: what they find, and what
they come to from each of their places on. -/
structure Searcher (κ : Type) where
  search : κ → Bytes → MatchFlags → (start : Nat) → Option Spans
  look : κ → Bytes → MatchFlags → (start : Nat) → Nat → Look

namespace Searcher
variable (o : Searcher κ) (c : κ) (b : Bytes) (f g : MatchFlags) (q : Nat)

/-- Where a search that starts at the offset comes to is what a search of the rest behind it comes to:
nothing looks at what stands before. A search that breaks off may do so later. -/
def Ahead : Prop :=
  ∀ i, o.look c (b.drop q) f 0 i ≠ .failed → o.look c b f q (q + i) = (o.look c (b.drop q) f 0 i).shift q

/-- What a search from the start finds at the offset is found there too by a search that starts there with
other options, unless that breaks off. -/
def Repeats : Prop :=
  ∀ i s, o.look c b f 0 i = .found q s → o.look c b g q q ≠ .failed → o.look c b g q q = .found q s

/-- A search finds a match where it starts, or none. -/
def Tied : Prop := ∀ j s, Finds (o.look c b f 0) 0 j s → j = 0

/-- A match starts where it is found. -/
def Unmoved : Prop :=
  ∀ b f q i j s, o.look c b f q i = .found j s → ∃ g, s 0 = some g ∧ g.start = j

variable {o c b f q}

theorem ahead_zero : o.Ahead c b f 0 := fun i _ => by simp

end Searcher

/-- A search finds what one of its places comes to. A match that an attempt reports is the one that the
search from the start finds. -/
structure Searches [Engine κ] (o : Searcher κ) (c : κ) : Prop where
  search_iff : ∀ b f q s, q ≤ b.length →
    (o.search c b f q = some s ↔ ∃ j, Finds (o.look c b f q) q j s)
  reported : ∀ b f t, 0 < (attempt c b f t).1 → ∃ s, o.search c b f 0 = some s ∧
    ∀ i < (attempt c b f t).2.size, Code.span? (attempt c b f t) i = s i

/-- What a search finds is reported, unless the attempt fails; it does if the search breaks off at its
first place. -/
structure Answers [Engine κ] (o : Searcher κ) (c : κ) : Prop extends Searches o c where
  answered : ∀ b f t s, Fits c t → o.search c b f 0 = some s →
    ¬ Code.IsFailure (attempt c b f t).1 → 0 < (attempt c b f t).1
  failed : ∀ b f t, o.look c b f 0 0 = .failed → Code.IsFailure (attempt c b f t).1

namespace Searches
variable [Engine κ] {o : Searcher κ} {c : κ} {b : Bytes} {f g : MatchFlags} {q : Nat} {s : Spans}
variable (h : Searches o c)
include h

theorem exists_finds (hs : o.search c b f 0 = some s) : ∃ j, Finds (o.look c b f 0) 0 j s :=
  (h.search_iff b f 0 s (Nat.zero_le _)).1 hs

/-- What is found in the rest of a subject is found in the subject when the search starts there. -/
theorem search_of_rest (hq : q ≤ b.length) (ha : o.Ahead c b f q)
    (hs : o.search c (b.drop q) f 0 = some s) : o.search c b f q = some (s.shift q) := by
  obtain ⟨j, hj⟩ := h.exists_finds hs
  exact (h.search_iff b f q _ hq).2 ⟨q + j, hj.shift ha⟩

/-- A match is found again by a search of what stands behind its start, unless that breaks off there. -/
theorem search_again (hu : o.Unmoved c) (hs : o.search c b f 0 = some s) {w : Span} (hw : s 0 = some w)
    (hr : o.Repeats c b f g w.start) (ha : o.Ahead c b g w.start)
    (hfail : o.look c (b.drop w.start) g 0 0 ≠ .failed) :
    ∃ t, o.search c (b.drop w.start) g 0 = some t ∧ s = t.shift w.start := by
  obtain ⟨j, hj⟩ := h.exists_finds hs
  obtain ⟨i, hi⟩ := hj.exists_found
  obtain ⟨w', hw', rfl⟩ := hu _ _ _ _ _ _ hi
  cases hw.symm.trans hw'
  have hlook : o.look c b g w.start (w.start + 0) = _ := ha 0 hfail
  have hfound : o.look c b g w.start w.start = .found w.start s :=
    hr i s hi fun hf => hfail (Look.shift_eq_failed.1 (hlook.symm.trans hf))
  obtain ⟨t, ht, hst⟩ := Look.shift_eq_found (j := 0) (hlook.symm.trans hfound)
  exact ⟨t, (h.search_iff _ g 0 t (Nat.zero_le _)).2 ⟨0, .here ht⟩, hst⟩

end Searches

end Engine

namespace Matcher
variable {κ : Type} [Engine κ] {o : Engine.Searcher κ} {m : Matcher κ} {subject : Subject}
  {flags : MatchFlags} {pos : Nat} {h : Hit}

/-- What a matcher shows behind an attempt that matched is what the engine has answered. -/
theorem span?_of_matched (ho : (m.exec subject flags).matcher.outcome = .matched) (i : Nat) :
    (m.exec subject flags).matcher.captures.span? i = Code.span? (m.answer subject flags) i := by
  rcases m.exec_cases subject flags with ⟨o, k, hk, hx⟩ | ⟨-, hx⟩
  · rw [hx] at ho ⊢
    cases ho
    simp only [captures, Captures.span?, Captures.isMatch, Outcome.isMatch, Bool.true_and, Code.span?,
      classify_pairs hk]
    split
    · next hi => rw [if_pos (of_decide_eq_true hi)]
    · next hi => rw [if_neg fun hlt => hi (decide_eq_true hlt)]
  · rw [hx] at ho; cases ho

theorem code_of_found? (hh : m.found? subject flags pos = some h) :
    0 < (m.answer (subject.tail pos) flags).1 := by
  obtain ⟨ho, g, hg, -⟩ := hit?_eq_some hh
  obtain ⟨-, hpairs, -⟩ := span?_eq_some_iff.1 hg
  rcases m.exec_cases (subject.tail pos) flags with ⟨o, k, hk, hx⟩ | ⟨-, hx⟩ <;> rw [hx] at ho hpairs
  · cases ho
    have hcode := (classify_matched hk).2
    change 0 < k at hpairs
    omega
  · cases ho

/-- What a search finds is what a matcher shows when an attempt has matched. -/
theorem search_of_matched (ho : Engine.Searches o m.pattern.code)
    (hm : (m.exec subject flags).matcher.outcome = .matched) (hcode : 0 < (m.answer subject flags).1) :
    ∃ s, o.search m.pattern.code subject.toBytes flags 0 = some s ∧
      ∀ i < (m.exec subject flags).matcher.slots.size,
        (m.exec subject flags).matcher.captures.span? i = s i := by
  obtain ⟨s, hs, hread⟩ := ho.reported subject.toBytes flags m.slots hcode
  refine ⟨s, hs, fun i hi => ?_⟩
  rw [exec_slots] at hi
  rw [span?_of_matched hm]
  exact hread i hi

/-- A hit is what the search of the rest finds. -/
theorem search_of_found? (ho : Engine.Searches o m.pattern.code) (hh : m.found? subject flags pos = some h) :
    ∃ s w, o.search m.pattern.code (subject.toBytes.drop pos) flags 0 = some s ∧ s 0 = some w ∧
      h.span = w.shift pos ∧ ∀ i < (m.exec (subject.tail pos) flags).matcher.slots.size,
        (m.exec (subject.tail pos) flags).matcher.captures.span? i = s i := by
  obtain ⟨hm, w, hw, hspan, -⟩ := hit?_eq_some hh
  obtain ⟨s, hs, hread⟩ := search_of_matched ho hm (code_of_found? hh)
  rw [Subject.toBytes_tail] at hs
  obtain ⟨-, -, hslot⟩ := span?_eq_some_iff.1 hw
  obtain ⟨hsize, -⟩ := Array.getElem?_eq_some_iff.1 (Option.join_eq_some_iff.1 hslot)
  exact ⟨s, w, hs, (hread 0 hsize).symm.trans hw, hspan, hread⟩

section
variable (ho : Engine.Answers o m.pattern.code) {found : Bool}
  (hok : (m.exec subject flags).result = .ok found)
include ho hok

theorem look_of_exec : o.look m.pattern.code subject.toBytes flags 0 0 ≠ .failed := by
  intro hfail
  rw [exec_eq_error_iff.2 ⟨ho.failed _ _ _ hfail, rfl⟩] at hok
  cases hok

/-- An attempt that does not fail finds what the search does. -/
theorem exec_of_search (hf : Engine.Fits m.pattern.code m.slots) {s : Spans}
    (hs : o.search m.pattern.code subject.toBytes flags 0 = some s) :
    (m.exec subject flags).result = .ok true ∧ (m.exec subject flags).matcher.outcome = .matched ∧
      ∀ i < (m.exec subject flags).matcher.slots.size,
        (m.exec subject flags).matcher.captures.span? i = s i := by
  have hcode : 0 < (m.answer subject flags).1 := by
    refine ho.answered _ _ _ s hf hs fun hfail => ?_
    rw [exec_eq_error_iff.2 ⟨hfail, rfl⟩] at hok
    cases hok
  have hmatched : (m.exec subject flags).result = .ok true ∧
      (m.exec subject flags).matcher.outcome = .matched := by
    have hclass : classify (m.answer subject flags).1 = some (.matched, _) :=
      if_pos (Int.le_of_lt hcode)
    rcases m.exec_cases subject flags with ⟨o, k, hk, hx⟩ | ⟨hk, -⟩
    · cases hclass.symm.trans hk
      rw [hx]
      exact ⟨rfl, rfl⟩
    · cases hclass.symm.trans hk
  obtain ⟨t, ht, hread⟩ := search_of_matched ho.toSearches hmatched.2 hcode
  cases hs.symm.trans ht
  exact ⟨hmatched.1, hmatched.2, hread⟩

end

end Matcher

end Rematch
