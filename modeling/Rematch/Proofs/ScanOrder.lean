import Rematch.Proofs.RegexEngine
import Rematch.Proofs.ScanVisits

/-! # The order of the spans of a scan

`Row subject pos hits rest` says that hits lie one behind the other between two offsets of a subject.
A scan with an engine that is orderly on the rests of the subject leaves a row (`Scans.row`), and
since each attempt but the last gets on by a byte at least, it ends (`exists_scans`). What a row says
of its spans alone is `Subject.Spread`. -/

namespace Rematch

/-- A hit of an attempt at `pos`: its span is in order, between `pos` and the end of the subject. -/
structure Hit.Sound (subject : Subject) (pos : Nat) (h : Hit) : Prop where
  start : pos ≤ h.span.start
  order : h.span.start ≤ h.span.stop
  stop : h.span.stop ≤ subject.size
  next : h.next =
    if h.span.isEmpty then h.span.stop + subject.unitAt h.span.stop else h.span.stop

/-- Hits one behind the other from `pos` on; what is left behind the last of them starts at `rest`,
and nothing follows a hit at the end. -/
inductive Row (subject : Subject) : Nat → List Hit → Nat → Prop
  | nil {pos : Nat} (hpos : pos ≤ subject.size) : Row subject pos [] pos
  | cons {pos rest : Nat} {h : Hit} {hits : List Hit} (hs : h.Sound subject pos)
      (he : h.span.start = subject.size → hits = []) (hr : Row subject h.next hits rest) :
      Row subject pos (h :: hits) rest

namespace Hit.Sound
variable {subject : Subject} {pos : Nat} {h : Hit}

theorem next_bounds (hs : h.Sound subject pos) :
    h.span.stop ≤ h.next ∧ h.next ≤ subject.size ∧
      (h.span.start ≠ subject.size → h.span.start < h.next) := by
  obtain ⟨-, horder, hstop, hnext⟩ := hs
  cases he : h.span.isEmpty with
  | false =>
    rw [he] at hnext
    have hne : h.span.start ≠ h.span.stop := by simpa [Span.isEmpty] using he
    simp only [Bool.false_eq_true, if_false] at hnext
    omega
  | true =>
    rw [he, if_pos rfl] at hnext
    have heq : h.span.start = h.span.stop := by simpa [Span.isEmpty] using he
    by_cases hend : subject.size ≤ h.span.stop
    · rw [Subject.unitAt_of_le hend] at hnext
      omega
    · have hu := Subject.unitAt_bounds (Nat.lt_of_not_le hend)
      omega

theorem unit_eq_next (hs : h.Sound subject pos) (he : h.span.start = h.span.stop) :
    h.span.stop + subject.unitAt h.span.stop = h.next := by
  rw [hs.next, if_pos (by simp [Span.isEmpty, he])]

theorem pos_le_next (hs : h.Sound subject pos) : pos ≤ h.next := by
  have := hs.start
  have := hs.order
  have := hs.next_bounds
  omega

end Hit.Sound

namespace Row
variable {subject : Subject} {pos rest : Nat} {hits : List Hit}

theorem rest_le (h : Row subject pos hits rest) : rest ≤ subject.size := by
  induction h with
  | nil hpos => exact hpos
  | cons hs he hr ih => exact ih

theorem le_start (h : Row subject pos hits rest) : ∀ q ∈ hits, pos ≤ q.span.start := by
  induction h with
  | nil hpos => intro q hq; cases hq
  | cons hs he hr ih =>
    intro q hq
    rcases List.mem_cons.1 hq with rfl | hq
    · exact hs.start
    · exact Nat.le_trans hs.pos_le_next (ih q hq)

theorem sound (h : Row subject pos hits rest) : ∀ q ∈ hits, ∃ p, q.Sound subject p := by
  induction h with
  | nil hpos => intro q hq; cases hq
  | @cons pos rest h hits hs he hr ih =>
    intro q hq
    rcases List.mem_cons.1 hq with rfl | hq
    · exact ⟨pos, hs⟩
    · exact ih q hq

theorem next_le (h : Row subject pos hits rest) : ∀ q ∈ hits, q.next ≤ subject.size := by
  intro q hq
  obtain ⟨p, hs⟩ := h.sound q hq
  exact hs.next_bounds.2.1

theorem pairwise (h : Row subject pos hits rest) :
    hits.Pairwise fun p q => p.span.start < q.span.start ∧ p.span.stop ≤ q.span.start ∧
      (p.span.start = p.span.stop →
        p.span.stop + subject.unitAt p.span.stop ≤ q.span.start) := by
  induction h with
  | nil hpos => exact .nil
  | @cons pos rest h hits hs he hr ih =>
    refine .cons ?_ ih
    intro q hq
    have hne : h.span.start ≠ subject.size := fun hend => by rw [he hend] at hq; cases hq
    obtain ⟨hstop, -, hlt⟩ := hs.next_bounds
    have hle := hr.le_start q hq
    refine ⟨Nat.lt_of_lt_of_le (hlt hne) hle, Nat.le_trans hstop hle, fun hempty => ?_⟩
    rw [hs.unit_eq_next hempty]
    exact hle

theorem atEnd (h : Row subject pos hits rest) {before after : List Hit} {q : Hit}
    (hq : hits = before ++ q :: after) (hend : q.span.start = subject.size) : after = [] := by
  induction h generalizing before with
  | nil hpos => cases before <;> cases hq
  | cons hs he hr ih =>
    cases before with
    | nil => cases hq; exact he hend
    | cons b before => cases hq; exact ih rfl

end Row

/-- Spans in the order of a scan: within the subject, with increasing starts, each behind the one
before it and, if that one is empty, behind a whole unit; nothing behind a span at the end. -/
structure Subject.Spread (s : Subject) (spans : List Span) : Prop where
  within : ∀ r ∈ spans, r.Within s.size
  increasing : spans.Pairwise fun r q => r.start < q.start
  apart : spans.Pairwise fun r q => r.stop ≤ q.start
  behindEmpty : spans.Pairwise fun r q => r.start = r.stop → r.stop + s.unitAt r.stop ≤ q.start
  /-- The unit of bytes is a byte. -/
  byte : ∀ b, s = .bytes b → spans.Pairwise fun r q => r.start = r.stop → r.stop + 1 ≤ q.start
  /-- The unit of a text where a character starts is that character. -/
  character : ∀ t before c after, s = .text t → t.toList = before ++ c :: after →
    spans.Pairwise fun r q =>
      r.start = r.stop → r.stop = (Utf8.encode before).length → r.stop + c.utf8Size ≤ q.start
  atEnd : ∀ before r after, spans = before ++ r :: after → r.start = s.size →
    r.stop = s.size ∧ after = []

theorem Row.spread {subject : Subject} {pos rest : Nat} {hits : List Hit}
    (h : Row subject pos hits rest) : subject.Spread (hits.map Hit.span) := by
  have hpair := h.pairwise
  refine ⟨?_, ?_, ?_, ?_, ?_, ?_, ?_⟩
  · rintro r hr
    obtain ⟨q, hq, rfl⟩ := List.mem_map.1 hr
    obtain ⟨p, hs⟩ := h.sound q hq
    exact ⟨hs.order, hs.stop⟩
  · exact List.pairwise_map.2 (hpair.imp fun hpq => hpq.1)
  · exact List.pairwise_map.2 (hpair.imp fun hpq => hpq.2.1)
  · exact List.pairwise_map.2 (hpair.imp fun hpq => hpq.2.2)
  · rintro b -
    exact List.pairwise_map.2 (hpair.imp fun hpq hempty => hempty ▸ hpq.1)
  · rintro t before c after rfl ht
    refine List.pairwise_map.2 (hpair.imp fun hpq hempty hstop => ?_)
    have hunit := hpq.2.2 hempty
    rw [hstop, Subject.unitAt_text ht] at hunit
    rwa [hstop]
  · rintro before r after hsplit hend
    obtain ⟨hb, ha, rfl, -, hcons⟩ := List.map_eq_append_iff.1 hsplit
    obtain ⟨q, ha', rfl, rfl, rfl⟩ := List.map_eq_cons_iff.1 hcons
    obtain ⟨p, hs⟩ := h.sound q (by simp)
    have hafter := h.atEnd rfl hend
    subst hafter
    have := hs.order
    have := hs.stop
    exact ⟨by omega, rfl⟩

/-- The engine is orderly on all that can stand behind an offset of the subject. -/
def Engine.OrderlyOn {κ : Type} [Engine κ] (c : κ) (subject : Subject) (flags : MatchFlags) : Prop :=
  ∀ pos ≤ subject.size, Orderly c (subject.toBytes.drop pos) flags

theorem Regex.Program.orderlyOn {p : Regex.Program} {subject : Subject} {flags : MatchFlags}
    (h : ∀ pos ≤ subject.size, Regex.Found.Within (subject.size - pos)
      (p.search (subject.toBytes.drop pos) flags)) : Engine.OrderlyOn p subject flags := by
  intro pos hpos
  refine orderly_of_search ?_
  rw [List.length_drop]
  exact h pos hpos

namespace Matcher
variable {κ : Type} [Engine κ] {subject : Subject} {flags : MatchFlags} {m : Matcher κ} {pos : Nat}

theorem found?_sound (hc : Engine.Orderly m.pattern.code (subject.toBytes.drop pos) flags)
    (hpos : pos ≤ subject.size) {h : Hit} (hh : m.found? subject flags pos = some h) :
    h.Sound subject pos := by
  obtain ⟨g, ⟨horder, hstop⟩, hspan, hnext⟩ := found?_reports hc hh
  rw [List.length_drop] at hstop
  have hsize : subject.size = subject.toBytes.length := rfl
  refine ⟨?_, ?_, ?_, hnext⟩ <;> simp only [hspan, Span.shift_start, Span.shift_stop] <;> omega

theorem Visits.sound {n : Matcher κ} {q : Nat} {hits : List Hit}
    (hv : Visits subject flags m pos hits n q)
    (hc : Engine.OrderlyOn m.pattern.code subject flags) (hpos : pos ≤ subject.size) :
    q ≤ subject.size ∧ ∀ h, n.found? subject flags q = some h → h.Sound subject q := by
  have hq : q ≤ subject.size := by
    refine hv.invariant (I := (· ≤ subject.size)) hpos ?_
    intro n q h hp hq hh he
    exact (found?_sound (hp ▸ hc q hq) hq hh).next_bounds.2.1
  exact ⟨hq, fun h hh => found?_sound (hv.pattern ▸ hc q hq) hq hh⟩

/-- A scan that only finds sound hits leaves a row of them, up to where its last attempt was made or,
behind a hit at the end, to the end. -/
theorem Scans.row_of_sound {t : Trail κ} (ht : Scans subject flags m pos t) (hpos : pos ≤ subject.size)
    (hs : ∀ hits n q, Visits subject flags m pos hits n q →
      ∀ h, n.found? subject flags q = some h → h.Sound subject q) :
    ∃ rest, Row subject pos t.hits rest ∧ ∀ n, t.reply.result = .ok n → n = rest := by
  induction ht with
  | @fail m pos r e hx hr => exact ⟨pos, .nil hpos, fun n hn => by cases hn⟩
  | @stop m pos r b hx hr hh => exact ⟨pos, .nil hpos, fun n hn => by cases hn; rfl⟩
  | @last m pos r b h hx hr hh he =>
    subst hx
    have hs := hs [] m pos (.here m pos) h hh
    exact ⟨h.next, .cons hs (fun _ => rfl) (.nil hs.next_bounds.2.1), fun n hn => by cases hn; rfl⟩
  | @more m pos r b h t hx hr hh he ht ih =>
    subst hx
    have hsound := hs [] m pos (.here m pos) h hh
    obtain ⟨rest, hrow, hrest⟩ := ih hsound.next_bounds.2.1
      fun hits n q hv => hs (h :: hits) n q (.next hh he hv)
    exact ⟨rest, .cons hsound (fun hend => absurd hend he) hrow, hrest⟩

theorem Scans.row {t : Trail κ} (ht : Scans subject flags m pos t)
    (hc : Engine.OrderlyOn m.pattern.code subject flags) (hpos : pos ≤ subject.size) :
    ∃ rest, Row subject pos t.hits rest ∧ ∀ n, t.reply.result = .ok n → n = rest :=
  ht.row_of_sound hpos fun _ _ _ hv => (hv.sound hc hpos).2

/-- A scan ends: an attempt that does not end it gets on by a byte at least. -/
theorem exists_scans (hc : Engine.OrderlyOn m.pattern.code subject flags)
    (hpos : pos ≤ subject.size) :
    ∃ t, Scans subject flags m pos t ∧ t.attempts ≤ subject.size - pos + 1 := by
  refine exists_scans_of_measure (subject.size - ·) fun hits n q h hv hh he => ?_
  obtain ⟨hq, hsound⟩ := hv.sound hc hpos
  have hs := hsound h hh
  obtain ⟨-, hle, hlt⟩ := hs.next_bounds
  have hgain : q < h.next := Nat.lt_of_le_of_lt hs.start (hlt he)
  omega

/-- **The order of a scan.** With an engine whose matches lie within what it was given, a scan is over
after as many attempts as the subject has bytes, and one more; unless an attempt fails, its spans lie
in the subject one behind the other, no two of them at one place. -/
theorem findIter_spread (m : Matcher κ) (subject : Subject) (flags : MatchFlags)
    (hc : Engine.OrderlyOn m.pattern.code subject flags) :
    ∃ t r, Scans subject flags m 0 t ∧ t.attempts ≤ subject.size + 1 ∧
      m.findIter subject flags = some r ∧ r = t.reply.map (fun _ => t.hits.map Hit.span) ∧
      ∀ spans, r.result = .ok spans → subject.Spread spans := by
  obtain ⟨t, ht, hle⟩ := exists_scans hc (Nat.zero_le _)
  have hscan : m.scan subject flags = some t := scan_eq_some_iff.2 ⟨ht, hle⟩
  refine ⟨t, _, ht, hle, by rw [findIter, hscan]; rfl, rfl, ?_⟩
  intro spans hspans
  obtain ⟨rest, hrow, -⟩ := ht.row hc (Nat.zero_le _)
  obtain ⟨n, -, rfl⟩ : ∃ n, t.reply.result = .ok n ∧ t.hits.map Hit.span = spans := by
    cases hr : t.reply.result with
    | error e => rw [Reply.map, hr] at hspans; cases hspans
    | ok n => rw [Reply.map, hr] at hspans; cases hspans; exact ⟨n, rfl, rfl⟩
  exact hrow.spread

def letters : Compiled Regex.Program := (Compiled.plain? "x*" 0).get (by decide +kernel)

/-- An empty match behind a match, a character of two bytes behind it, and an empty match at the end. -/
theorem findIter_spread_letters :
    let m : Matcher Regex.Program := { pattern := letters, slots := Array.replicate 1 none }
    Engine.OrderlyOn letters.code (.text "xé") ∅ ∧
    (∃ t r, Scans (.text "xé") ∅ m 0 t ∧ t.attempts ≤ 4 ∧ m.findIter (.text "xé") ∅ = some r ∧
      r = t.reply.map (fun _ => t.hits.map Hit.span) ∧
      ∀ spans, r.result = .ok spans → Subject.Spread (.text "xé") spans) ∧
    (m.findIter (.text "xé") ∅).bind (·.result.toOption) = some [⟨0, 1⟩, ⟨1, 1⟩, ⟨3, 3⟩] := by
  intro m
  have hc : Engine.OrderlyOn letters.code (.text "xé") ∅ :=
    Regex.Program.orderlyOn (by decide +kernel)
  exact ⟨hc, findIter_spread m (.text "xé") ∅ hc, by decide +kernel⟩

end Matcher

end Rematch
