import Mathlib.Control.Monad.Basic
import Mathlib.Data.List.Induction
import Rematch.Proofs.GroupText
import Rematch.Proofs.Progress

/-! # What the views of an attempt tell

A group can be asked for by number and by name, as a group, as bytes and as a text, of a matcher and of its
view, and in a row from both ends. All of these go by one span, or by none (`Matcher.Shows`), and a row gives
each group once (`Cursor.Taken`, which every turn carries on). Where they part is the caller who knows that
a group is present: the offsets of one that is need not be those of a slice. -/

namespace Rematch

namespace Match
variable {g : Match}

theorem expectBytes_eq_ok {b : Bytes} (h : g.subject.toBytes.slice? g.start g.stop = some b) :
    g.toBytes = b ∧ g.expectBytes = .ok b :=
  ⟨(Bytes.slice?_eq_some_iff.1 h).2, Bytes.expectSlice_eq_ok_iff.2 h⟩

end Match

/-- The ends of a row. -/
inductive Side where
  | front | back
  deriving DecidableEq, Repr

/-- The group that a turn at this end takes behind these turns: the groups that have been taken from the
front are the first ones, those from the back the last. -/
def Side.group (groups : Nat) (turns : List Side) : Side → Nat
  | front => turns.count front
  | back => groups - turns.count back

namespace Captures
variable {κ : Type} [Engine κ] {c : Captures κ} {k : Cursor κ} {a b : Nat}

namespace Cursor

/-- Takes a group from an end of the row. -/
def turn (k : Cursor κ) : Side → Option (Option Match) × Cursor κ
  | .front => k.next
  | .back => k.nextBack

/-- The row after turns at these ends, one after the other. -/
def after (k : Cursor κ) (turns : List Side) : Cursor κ :=
  turns.foldl (fun k side => (k.turn side).2) k

/-- So many groups have been taken from the front of the row, and so many from its back. -/
structure Taken (c : Captures κ) (a b : Nat) (k : Cursor κ) : Prop where
  captures : k.captures = c
  front : k.front = a
  back : k.back + b = c.size
  le : a + b ≤ c.size

omit [Engine κ] in
theorem after_concat (k : Cursor κ) (turns : List Side) (side : Side) :
    k.after (turns ++ [side]) = ((k.after turns).turn side).2 := by
  rw [after, List.foldl_append]; rfl

omit [Engine κ] in
theorem turn_of_size_eq_zero (h : k.size = 0) (side : Side) : k.turn side = (none, k) := by
  have hlt : ¬ k.front < k.back := Nat.not_lt.2 (Nat.sub_eq_zero_iff_le.1 h)
  cases side with
  | front => exact if_neg hlt
  | back => exact if_neg hlt

namespace Taken

theorem size (h : Taken c a b k) : k.size = c.size - (a + b) := by
  have := h.front
  have := h.back
  rw [Cursor.size]
  omega

theorem next (h : Taken c a b k) (hlt : a + b < c.size) :
    (k.turn .front).1 = some (c.get? a) ∧ Taken c (a + 1) b (k.turn .front).2 := by
  obtain ⟨rfl, rfl, hback, -⟩ := h
  have hmore : k.front < k.back := by omega
  rw [turn, Cursor.next, if_pos hmore]
  exact ⟨rfl, rfl, rfl, hback, by omega⟩

theorem nextBack (h : Taken c a b k) (hlt : a + b < c.size) :
    (k.turn .back).1 = some (c.get? (c.groups - b)) ∧ Taken c a (b + 1) (k.turn .back).2 := by
  obtain ⟨rfl, rfl, hback, -⟩ := h
  have hmore : k.front < k.back := by omega
  have hlast : k.back - 1 = k.captures.groups - b := by
    rw [Captures.size] at hback
    omega
  rw [turn, Cursor.nextBack, if_pos hmore, hlast]
  refine ⟨rfl, rfl, rfl, ?_, by omega⟩
  show k.captures.groups - b + (b + 1) = _
  omega

end Taken

theorem count_sides (turns : List Side) :
    turns.count .front + turns.count .back = turns.length := by
  induction turns with
  | nil => rfl
  | cons side turns ih =>
    rw [List.length_cons, ← ih]
    cases side <;> simp <;> omega

/-- As long as there are groups left, each turn takes one from its end. -/
theorem taken_after (turns : List Side) (hle : turns.length ≤ c.size) :
    Taken c (turns.count .front) (turns.count .back) (c.cursor.after turns) := by
  induction turns using List.reverseRecOn with
  | nil => exact ⟨rfl, rfl, rfl, Nat.zero_le _⟩
  | append_singleton turns side ih =>
    rw [List.length_append, List.length_singleton] at hle
    have h := ih (Nat.le_of_succ_le hle)
    have hlt : turns.count .front + turns.count .back < c.size := by rw [count_sides]; exact hle
    rw [after_concat]
    cases side with
    | front => simpa [List.count_append] using (h.next hlt).2
    | back => simpa [List.count_append] using (h.nextBack hlt).2

/-- Then there are none, and turns change nothing. -/
theorem size_after (turns : List Side) : (c.cursor.after turns).size = c.size - turns.length := by
  induction turns using List.reverseRecOn with
  | nil => rfl
  | append_singleton turns side ih =>
    rcases Nat.lt_or_ge turns.length c.size with hlt | hge
    · have hle : (turns ++ [side]).length ≤ c.size := by
        rw [List.length_append, List.length_singleton]; exact hlt
      rw [(taken_after _ hle).size, count_sides]
    · have hzero : (c.cursor.after turns).size = 0 := by omega
      rw [after_concat, turn_of_size_eq_zero hzero, hzero, List.length_append, List.length_singleton]
      omega

theorem turn_after (turns : List Side) (hlt : turns.length < c.size) (side : Side) :
    ((c.cursor.after turns).turn side).1 = some (c.get? (side.group c.groups turns)) := by
  have h := taken_after turns (Nat.le_of_lt hlt)
  rw [← count_sides] at hlt
  cases side with
  | front => exact (h.next hlt).1
  | back => exact (h.nextBack hlt).1

end Cursor

theorem indexOf_eq_ok {name : String} {i : Nat} (h : c.pattern.names.get? name = some i) :
    c.indexOf name = .ok i := by rw [indexOf, h]

theorem indexOf_eq_error {name : String} (h : c.pattern.names.get? name = none) :
    c.indexOf name = .error (.notFound name) := by rw [indexOf, h]

omit [Engine κ] in
theorem text?_ne_notFound (i : Nat) (name : String) : c.text? i ≠ .error (.notFound name) := by
  intro h
  rw [text?] at h
  cases hg : c.get? i with
  | none => rw [hg] at h; cases h
  | some g =>
    rw [hg] at h
    dsimp only at h
    cases hr : g.text with
    | ok u => rw [hr] at h; cases h
    | error e =>
      rw [hr] at h
      cases h
      obtain ⟨_, ⟨⟩, -⟩ := Match.text_eq_error_iff.1 hr

end Captures

namespace Matcher
variable {κ : Type} [Engine κ] {m : Matcher κ} {i : Nat} {name : String}

/-- All that can be asked about a group tells of this span, or of none. A caller who knows that the group
is present is in for a panic if it is not, and if its offsets are not those of a slice. -/
structure Shows (m : Matcher κ) (i : Nat) (r : Option Span) : Prop where
  present : m.present i = r.isSome
  group : m.group? i = r.map (⟨m.subject, ·⟩)
  view : m.captures.get? i = r.map (⟨m.subject, ·⟩)
  absent : r = none → m.groupBytes? i = none ∧ m.groupText? i = .ok none
  read : ∀ g b, r = some g → m.subject.toBytes.slice? g.start g.stop = some b →
    m.groupBytes? i = some b ∧ m.groupText? i = ((Utf8.text b).mapError .utf8).map some ∧
      m.captures.expect i = .ok b
  panics : (∃ p, m.captures.expect i = .error p) ↔
    r = none ∨ ∃ g, r = some g ∧ m.subject.toBytes.slice? g.start g.stop = none

/-- What is asked by this name is asked by this number. -/
structure ShowsNamed (m : Matcher κ) (name : String) (i : Nat) : Prop where
  present : m.namedPresent name = .ok (m.present i)
  group : m.named? name = .ok (m.group? i)
  text : m.namedText? name = m.groupText? i
  panics : (∃ p, m.captures.expectNamed name = .error p) ↔ ∃ p, m.captures.expect i = .error p

omit [Engine κ] in
theorem expect_eq (i : Nat) : m.captures.expect i =
    ((m.group? i).map Match.expectBytes).getD (.error ⟨s!"no group at index '{i}'"⟩) :=
  m.captures.expect_eq i

omit [Engine κ] in
theorem shows_span? (i : Nat) : m.Shows i (m.captures.span? i) := by
  have hgroup : m.group? i = (m.captures.span? i).map (⟨m.subject, ·⟩) := rfl
  refine ⟨rfl, hgroup, hgroup, fun hr => ?_, fun g b hr hb => ?_, ?_⟩
  · rw [hr] at hgroup
    have hget : m.captures.get? i = none := hgroup
    exact ⟨by rw [groupBytes?, Captures.bytes?, hget]; rfl, by rw [groupText?, Captures.text?, hget]⟩
  · rw [hr] at hgroup
    have hget : m.captures.get? i = some ⟨m.subject, g⟩ := hgroup
    obtain ⟨hbytes, hexpect⟩ := Match.expectBytes_eq_ok (g := ⟨m.subject, g⟩) hb
    refine ⟨?_, ?_, ?_⟩
    · rw [groupBytes?, Captures.bytes?, hget, Option.map_some, hbytes]
    · rw [groupText?, Captures.text?, hget, ← hbytes, ← Match.text_eq]
    · rw [Captures.expect, hget]; exact hexpect
  · rw [expect_eq, hgroup]
    cases m.captures.span? i with
    | none => simp
    | some g =>
      cases hb : m.subject.toBytes.slice? g.start g.stop with
      | none =>
        refine iff_of_true ?_ (.inr ⟨g, rfl, hb⟩)
        exact Bytes.expectSlice_eq_error_iff.2 hb
      | some b =>
        have hexpect := (Match.expectBytes_eq_ok (g := ⟨m.subject, g⟩) hb).2
        simp [hexpect, hb]

theorem showsNamed (h : m.pattern.names.get? name = some i) : m.ShowsNamed name i := by
  have hindex : m.captures.indexOf name = .ok i := Captures.indexOf_eq_ok h
  have hnamed : m.captures.named? name = .ok (m.group? i) := by
    rw [Captures.named?, hindex]; rfl
  refine ⟨?_, hnamed, ?_, ?_⟩
  · rw [namedPresent, Captures.namedPresent, hindex]; rfl
  · rw [namedText?, Captures.namedText?, hindex]; rfl
  · rw [Captures.expectNamed, hnamed, expect_eq]
    cases m.group? i with
    | none => simp
    | some g => rfl

/-- A name that the table lacks is said to be unknown, whatever the last attempt was. -/
theorem unknown_iff (m : Matcher κ) (name : String) :
    (m.pattern.names.get? name = none ↔ m.namedPresent name = .error (.notFound name)) ∧
    (m.pattern.names.get? name = none ↔ m.named? name = .error (.notFound name)) ∧
    (m.pattern.names.get? name = none ↔ m.namedText? name = .error (.notFound name)) := by
  cases h : m.pattern.names.get? name with
  | none =>
    have hindex : m.captures.indexOf name = .error (.notFound name) := Captures.indexOf_eq_error h
    refine ⟨iff_of_true rfl ?_, iff_of_true rfl ?_, iff_of_true rfl ?_⟩
    · rw [namedPresent, Captures.namedPresent, hindex]; rfl
    · rw [named?, Captures.named?, hindex]; rfl
    · rw [namedText?, Captures.namedText?, hindex]
  | some i =>
    have hn := showsNamed h
    rw [hn.present, hn.group, hn.text]
    have hknown : ¬ some i = none := Option.some_ne_none i
    exact ⟨iff_of_false hknown (by simp), iff_of_false hknown (by simp),
      iff_of_false hknown (Captures.text?_ne_notFound i name)⟩

theorem expectNamed_of_unknown (h : m.pattern.names.get? name = none) :
    ∃ p, m.captures.expectNamed name = .error p := by
  rw [Captures.expectNamed, Captures.named?, Captures.indexOf_eq_error h]
  exact ⟨_, rfl⟩

/-- If the engine keeps to the subject, only what is absent makes for a panic. -/
theorem Counted.panics_iff (h : m.Counted) :
    (∃ p, m.captures.expect i = .error p) ↔ m.present i = false := by
  have hs := m.shows_span? i
  rw [hs.panics, hs.present, Option.isSome_eq_false_iff, Option.isNone_iff_eq_none]
  refine or_iff_left ?_
  rintro ⟨g, hg, hslice⟩
  have hgroup : m.group? i = some ⟨m.subject, g⟩ := by rw [hs.group, hg]; rfl
  obtain ⟨horder, hstop⟩ := h.group_within hgroup
  rw [Bytes.slice?, if_pos ⟨horder, hstop⟩] at hslice
  cases hslice

/-- **What the views of an attempt tell.** In any state of a matcher, every group shows one span, or none,
in all that can be asked about it by number; by a name, what the number that the table has for it shows, or
that the name is unknown, just if the table lacks it. Turns at both ends of the row of groups take each of
them once, from either end inwards, until none is left, and count down what is left. The caller who knows
that a group is present is in for a panic if it is absent, and if its offsets are not those of a slice;
if the engine keeps to the subject, only if it is absent or its name unknown. -/
theorem views_tell_alike (m : Matcher κ) :
    (∀ i, ∃ r, m.Shows i r) ∧
    (∀ name i, m.pattern.names.get? name = some i → m.ShowsNamed name i) ∧
    (∀ name, (m.pattern.names.get? name = none ↔ m.namedPresent name = .error (.notFound name)) ∧
      (m.pattern.names.get? name = none ↔ m.named? name = .error (.notFound name)) ∧
      (m.pattern.names.get? name = none ↔ m.namedText? name = .error (.notFound name)) ∧
      (m.pattern.names.get? name = none → ∃ p, m.captures.expectNamed name = .error p)) ∧
    (∀ turns side,
      let k := m.captures.cursor.after turns
      k.size = m.groups + 1 - turns.length ∧
      (turns.length ≤ m.groups → (k.turn side).1 = some (m.group? (side.group m.groups turns))) ∧
      (m.groups < turns.length → k.turn side = (none, k))) ∧
    (Reachable Engine.Faithful m →
      (∀ i, (∃ p, m.captures.expect i = .error p) ↔ m.present i = false) ∧
      ∀ name, (∃ p, m.captures.expectNamed name = .error p) ↔
        ∀ i, m.pattern.names.get? name = some i → m.present i = false) := by
  refine ⟨fun i => ⟨_, m.shows_span? i⟩, fun name i => showsNamed, fun name => ?_, fun turns side => ?_,
    fun h => ⟨fun i => h.counted.panics_iff, fun name => ?_⟩⟩
  · obtain ⟨hpresent, hnamed, htext⟩ := m.unknown_iff name
    exact ⟨hpresent, hnamed, htext, expectNamed_of_unknown⟩
  · have hsize := Captures.Cursor.size_after (c := m.captures) turns
    refine ⟨hsize, fun hle => ?_, fun hlt => ?_⟩
    · have hlt : turns.length < m.captures.size := Nat.lt_succ_of_le hle
      exact Captures.Cursor.turn_after turns hlt side
    · exact Captures.Cursor.turn_of_size_eq_zero (hsize.trans (Nat.sub_eq_zero_of_le hlt)) side
  · cases hname : m.pattern.names.get? name with
    | none => exact iff_of_true (expectNamed_of_unknown hname) (by simp)
    | some i =>
      rw [(showsNamed hname).panics, h.counted.panics_iff]
      simp

/-- The name is listed and its group has taken part; the number behind the last group is absent. -/
theorem views_tell_alike_split :
    let made : Matcher (Guarded Regex.Program) :=
      { pattern := splitCharacter, slots := Array.replicate 4 none }
    let m := (made.exec (.text "é") ∅).matcher
    Reachable Engine.Faithful m ∧
    ((∃ p, m.captures.expectNamed "head" = .error p) ↔
      ∀ i, m.pattern.names.get? "head" = some i → m.present i = false) ∧
    ((∃ p, m.captures.expect 4 = .error p) ↔ m.present 4 = false) ∧
    m.pattern.names.get? "head" = some 1 ∧ m.captures.expectNamed "head" = .ok [0xc3] ∧
    m.captures.expect 4 = .error ⟨"no group at index '4'"⟩ ∧
    ((m.captures.cursor.after [.back, .front, .back]).turn .front).1 = some (m.group? 1) := by
  intro made m
  have hfaithful : Engine.Faithful splitCharacter.code :=
    Guarded.faithful (Regex.Program.buffered _) (by decide +kernel)
  have hmade : Reachable Engine.Faithful made := .new hfaithful .new rfl
  have hm : Reachable Engine.Faithful m := hmade.exec _ _
  obtain ⟨-, -, -, hturns, hpanics⟩ := views_tell_alike m
  exact ⟨hm, (hpanics hm).2 "head", (hpanics hm).1 4, by decide +kernel, by decide +kernel,
    by decide +kernel, (hturns [.back, .front, .back] .front).2.1 (by decide +kernel)⟩

/-- The engine reports a match that stops before it starts: the whole match is present, but a caller who
relies on that is in for a panic. -/
theorem expect_panics_on_present_group :
    let made : Matcher Regex.Program := { pattern := calledAhead, slots := Array.replicate 2 none }
    let m := (made.exec (.text "axb") ∅).matcher
    Reachable Engine.Steady m ∧ m.group? 0 = some ⟨.text "axb", ⟨2, 1⟩⟩ ∧
    m.captures.expect 0 = .error ⟨"slice index starts at 2 but ends at 1"⟩ ∧
    ¬ ∀ i, (∃ p, m.captures.expect i = .error p) ↔ m.present i = false := by
  intro made m
  have hmade : Reachable Engine.Steady made := .new (Regex.Program.steady _) .new rfl
  have hpresent : m.present 0 = true := by decide +kernel
  have hpanic : m.captures.expect 0 = .error ⟨"slice index starts at 2 but ends at 1"⟩ := by
    decide +kernel
  refine ⟨hmade.exec _ _, by decide +kernel, hpanic, fun h => ?_⟩
  rw [(h 0).1 ⟨_, hpanic⟩] at hpresent
  cases hpresent

end Matcher

end Rematch
