import Rematch.LineSearch
import Rematch.Proofs.Context
import Rematch.Proofs.Unfold

/-! # Where the entries of a search by lines come from

Every entry tells of a hit of the scan of its line, with the groups of the second attempt that is made
where the hit starts (`Entry.Tells`, `searchLines_tells`). Nobody asks whether the second attempt has
found the same match. It has if matches start where they are found, and neither what stands before the hit
nor where the search starts makes a difference (`exec_again`); the groups of the entry are then those of
the hit (`entries_tell_groups`). -/

namespace Rematch.LineSearch
open Matcher Engine

section
variable {κ : Type} [Engine κ] {p : Compiled κ} {m n k : Matcher κ} {line : Bytes} {number : Nat}

/-- The matcher is bound to the pattern and has a buffer that fits it. -/
structure Serves (p : Compiled κ) (m : Matcher κ) : Prop where
  pattern : m.pattern = p
  fits : Fits p.code m.slots

/-- The entry tells of the hit that `n` finds in the line behind the hits before it, with the groups of
what `k` finds where that starts. -/
structure Entry.Tells (p : Compiled κ) (line : Bytes) (before : List Hit) (n k : Matcher κ)
    (e : Entry) : Prop where
  visit : ∃ m, Serves p m ∧ Visits (.bytes line) ∅ m 0 before n (resume 0 before)
  found : ∃ h, n.found? (.bytes line) ∅ (resume 0 before) = some h ∧ h.span = e.span
  bytes : line.slice? e.span.start e.span.stop = some e.bytes
  serves : Serves p k
  again : ∃ b, (k.exec (.bytes (line.drop e.span.start)) atStart).result = .ok b
  groups : groupsOf (k.exec (.bytes (line.drop e.span.start)) atStart).matcher = .ok e.groups

theorem Entry.Tells.start_le {before : List Hit} {e : Entry} (h : e.Tells p line before n k) :
    e.span.start ≤ line.length := by
  obtain ⟨⟨horder, hstop⟩, -⟩ := Bytes.slice?_eq_some_iff.1 h.bytes
  exact Nat.le_trans horder hstop

theorem entryOf_eq_ok {span : Span} {e : Entry} (h : entryOf m number line span = .ok e) :
    e.line = number ∧ e.span = span ∧ line.slice? span.start span.stop = some e.bytes ∧
      groupsOf m = .ok e.groups := by
  unfold entryOf at h
  cases hg : groupsOf m with
  | error p => rw [hg] at h; cases h
  | ok groups =>
    cases hb : line.expectSlice span.start span.stop with
    | error p => rw [hg, hb] at h; cases h
    | ok bytes =>
      rw [hg, hb] at h
      cases h
      exact ⟨rfl, rfl, Bytes.expectSlice_eq_ok_iff.1 hb, rfl⟩

section
variable (hs : Buffered p.code) (hm : Serves p m)
include hs hm

theorem Serves.exec (s : Subject) (f : MatchFlags) : Serves p (m.exec s f).matcher where
  pattern := by rw [exec_pattern, hm.pattern]
  fits := by
    obtain ⟨rfl, hfits⟩ := hm
    rw [exec_slots]
    exact (hs.size _ _ _).trans hfits

theorem Serves.visits {s : Subject} {f : MatchFlags} {pos q : Nat} {hits : List Hit}
    (hv : Visits s f m pos hits n q) : Serves p n := by
  induction hv with
  | here => exact hm
  | next hh he hv ih => exact ih (hm.exec hs _ _)

theorem Serves.scans {s : Subject} {f : MatchFlags} {pos : Nat} {t : Trail κ}
    (ht : Scans s f m pos t) : Serves p t.reply.matcher := by
  induction ht with
  | fail hx | stop hx | last hx => rw [← hx]; exact hm.exec hs _ _
  | more hx hr hh he ht ih => rw [← hx] at ih; exact ih (hm.exec hs _ _)

/-- Each entry of a line tells of one of the spans that were to be described. -/
theorem describe_tells (spans : List Span)
    (hspans : ∀ g ∈ spans, ∃ before n h, (∃ m, Serves p m ∧
      Visits (.bytes line) ∅ m 0 before n (resume 0 before)) ∧
        n.found? (.bytes line) ∅ (resume 0 before) = some h ∧ h.span = g) :
    Serves p (describe m number line spans).matcher ∧
      ∀ e ∈ (describe m number line spans).entries, e.line = number ∧
        ∃ before n k, e.Tells p line before n k := by
  -- each attempt is made by the matcher that the one before has left, of which only `Serves` is known
  induction spans generalizing m with
  | nil => exact ⟨hm, fun e he => absurd he List.not_mem_nil⟩
  | cons g spans ih =>
    obtain ⟨hg, hspans⟩ := List.forall_mem_cons.1 hspans
    rw [describe]
    split
    · exact ⟨hm, fun e he => absurd he List.not_mem_nil⟩
    next rest hrest =>
      obtain ⟨-, rfl⟩ := Bytes.expectFrom_eq_ok_iff.1 hrest
      have hnext := hm.exec hs (.bytes (line.drop g.start)) atStart
      dsimp only
      split
      · exact ⟨hnext, fun e he => absurd he List.not_mem_nil⟩
      next b hb =>
        split
        · exact ⟨hnext, fun e he => absurd he List.not_mem_nil⟩
        next e he =>
          obtain ⟨hnumber, hspan, hbytes, hgroups⟩ := entryOf_eq_ok he
          obtain ⟨hlast, hall⟩ := ih hnext hspans
          refine ⟨hlast, List.forall_mem_cons.2 ⟨⟨hnumber, ?_⟩, hall⟩⟩
          obtain ⟨before, n, h, hv, hh, rfl⟩ := hg
          rw [← hspan] at hbytes hb hgroups
          exact ⟨before, n, m, hv, ⟨h, hh, hspan.symm⟩, hbytes, hm, ⟨b, hb⟩, hgroups⟩

theorem searchLine_tells {q : Progress κ} (hq : searchLine m number line = some q) :
    Serves p q.matcher ∧ ∀ e ∈ q.entries, e.line = number ∧
      ∃ before n k, e.Tells p line before n k := by
  obtain ⟨r, hr, hq⟩ := Option.map_eq_some_iff.1 hq
  obtain ⟨t, ht, rfl⟩ := Option.map_eq_some_iff.1 hr
  have hscan := (scan_eq_some_iff.1 ht).1
  have hlast := hm.scans hs hscan
  cases hresult : t.reply.result with
  | error e =>
    rw [Reply.map, hresult] at hq
    subst hq
    exact ⟨hlast, fun e he => absurd he List.not_mem_nil⟩
  | ok rest =>
    rw [Reply.map, hresult] at hq
    subst hq
    refine describe_tells hs hlast _ fun g hg => ?_
    obtain ⟨h, hmem, rfl⟩ := List.mem_map.1 hg
    obtain ⟨before, after, hsplit⟩ := List.append_of_mem hmem
    obtain ⟨n, hv, hh⟩ := hscan.visit_of_append hsplit
    exact ⟨before, n, h, ⟨m, hm, hv⟩, hh, rfl⟩

theorem searchLines_tells {ls : List Bytes} {q : Progress κ}
    (hq : searchLines m number ls = some q) {e : Entry} (he : e ∈ q.entries) :
    ∃ i line, e.line = number + i ∧ ls[i]? = some line ∧ ∃ before n k, e.Tells p line before n k := by
  induction ls generalizing m number q with
  | nil => cases hq; cases he
  | cons line ls ih =>
    rw [searchLines] at hq
    split at hq
    · cases hq
    next r hr =>
      obtain ⟨hlast, hall⟩ := searchLine_tells hs hm hr
      split at hq
      · cases hq
        obtain ⟨hnumber, htells⟩ := hall e he
        exact ⟨0, line, hnumber, rfl, htells⟩
      · obtain ⟨q', hq', rfl⟩ := Option.map_eq_some_iff.1 hq
        rcases List.mem_append.1 he with he | he
        · obtain ⟨hnumber, htells⟩ := hall e he
          exact ⟨0, line, hnumber, rfl, htells⟩
        · obtain ⟨i, line', hnumber, hline, htells⟩ := ih hlast hq' he
          exact ⟨i + 1, line', by omega, hline, htells⟩

end

theorem groupsOf_eq (m : Matcher κ) :
    groupsOf m = (List.range m.groups).mapM fun i => readGroup (m.group? (i + 1)) := by
  have hsize : m.captures.size = m.groups + 1 := rfl
  rw [groupsOf, Captures.toList, hsize, List.range_succ_eq_map, List.map_cons, List.tail_cons,
    List.map_map, List.mapM_map]
  rfl

theorem span?_of_not_found {s : Subject} {f : MatchFlags} (h : (m.exec s f).result = .ok false)
    (i : Nat) : (m.exec s f).matcher.captures.span? i = none := by
  cases hg : (m.exec s f).matcher.captures.span? i with
  | none => rfl
  | some g =>
    obtain ⟨hmatch, -, -⟩ := span?_eq_some_iff.1 hg
    rcases m.exec_cases s f with ⟨o, k, -, hx⟩ | ⟨-, hx⟩
    · rw [hx] at h hmatch
      cases h.symm.trans (congrArg Except.ok hmatch)
    · rw [hx] at h; cases h

/-- An attempt that has found nothing leaves no groups. -/
theorem groupsOf_of_not_found {s : Subject} {f : MatchFlags} (h : (m.exec s f).result = .ok false) :
    groupsOf (m.exec s f).matcher = .ok (List.replicate m.groups none) := by
  have hgroups : (m.exec s f).matcher.groups = m.groups := by rw [Matcher.groups, exec_pattern]; rfl
  have hnone : ∀ i, readGroup ((m.exec s f).matcher.group? i) = .ok none := fun i => by
    rw [group?, Captures.get?, span?_of_not_found h]
    rfl
  rw [groupsOf_eq, hgroups]
  simp only [hnone]
  exact List.mapM_pure.trans (by rw [List.map_const', List.length_range]; rfl)

theorem mapM_eq_ok_of {α β ε : Type} {f g : α → Except ε β} {l : List α} {ys : List β}
    (h : ∀ a ∈ l, ∀ y, f a = .ok y → g a = .ok y) (hf : l.mapM f = .ok ys) : l.mapM g = .ok ys := by
  induction l generalizing ys with
  | nil => exact hf
  | cons a l ih =>
    rw [List.mapM_cons] at hf ⊢
    cases hy : f a with
    | error e => rw [hy] at hf; cases hf
    | ok y =>
      cases hys : l.mapM f with
      | error e => rw [hy, hys] at hf; cases hf
      | ok zs =>
        rw [hy, hys] at hf
        rw [h a List.mem_cons_self y hy, ih (fun b hb => h b (List.mem_cons_of_mem a hb)) hys]
        exact hf

/-- A group that stands behind an offset is read there as it is read in the rest. -/
theorem readGroup_of_drop {b c : Subject} {d : Nat} (hb : c.toBytes = b.toBytes.drop d)
    (hd : d ≤ b.toBytes.length) {s : Option Span} {x : Option Bytes}
    (h : readGroup (s.map (⟨c, ·⟩)) = .ok x) :
    readGroup ((s.map (·.shift d)).map (⟨b, ·⟩)) = .ok x := by
  cases s with
  | none => exact h
  | some g =>
    change (c.toBytes.expectSlice g.start g.stop).map some = .ok x at h
    show (b.toBytes.expectSlice (d + g.start) (d + g.stop)).map some = .ok x
    rw [hb] at h
    cases hc : Bytes.expectSlice (b.toBytes.drop d) g.start g.stop with
    | error p => rw [hc] at h; cases h
    | ok y =>
      have hy := Bytes.slice?_of_drop hd (Bytes.expectSlice_eq_ok_iff.1 hc)
      rw [Bytes.expectSlice_eq_ok_iff.2 hy]
      rw [hc] at h
      exact h

/-- Two matchers of a pattern read the same groups, if what the one shows stands in what the other has
searched behind an offset. -/
theorem groupsOf_of_drop (hn : Serves p n) (hk : Serves p k) {d : Nat}
    (hb : k.subject.toBytes = n.subject.toBytes.drop d) (hd : d ≤ n.subject.toBytes.length)
    (hspans : ∀ i < groups p.code + 1, n.captures.span? i = (k.captures.span? i).map (·.shift d))
    {texts : List (Option Bytes)} (h : groupsOf k = .ok texts) : groupsOf n = .ok texts := by
  rw [groupsOf_eq] at h ⊢
  have hgroups : n.groups = k.groups := by rw [Matcher.groups, Matcher.groups, hn.pattern, hk.pattern]
  rw [hgroups]
  refine mapM_eq_ok_of (fun i hi x hx => ?_) h
  have hlt : i + 1 < groups p.code + 1 := by
    rw [← hk.pattern]
    exact Nat.succ_lt_succ (List.mem_range.1 hi)
  have hread : n.group? (i + 1) = ((k.captures.span? (i + 1)).map (·.shift d)).map (⟨n.subject, ·⟩) := by
    rw [← hspans _ hlt]
    rfl
  rw [hread]
  exact readGroup_of_drop hb hd hx

/-- What starts where another span starts is that span, seen from its start. -/
theorem eq_of_shift_start {v w : Span} (h : v.shift w.start = w) : v = ⟨0, w.width⟩ := by
  have hstart : w.start + v.start = w.start := congrArg Span.start h
  have hzero : v.start = 0 := by omega
  have hwidth : w.width = v.width := by rw [← h, Span.width_shift]
  rw [hwidth, Span.width, hzero]
  exact Span.ext hzero rfl

/-- An attempt on what stands behind the start of a hit, tied to that place, finds the same match with the
same texts of groups, if matches start where they are found, the hit is found by a search that is tied to
its place, and what stands before it makes no difference. -/
theorem exec_again {o : Searcher κ} (hs : Buffered p.code) (ho : Answers o p.code) (hu : o.Unmoved p.code)
    (hn : Serves p n) (hk : Serves p k) {pos j : Nat} {h : Hit}
    (hh : n.found? (.bytes line) ∅ pos = some h) (hj : h.span.start = pos + j)
    (hle : h.span.start ≤ line.length) (hr : o.Repeats p.code (line.drop pos) ∅ atStart j)
    (ha : o.Ahead p.code (line.drop pos) atStart j) {b : Bool}
    (hok : (k.exec (.bytes (line.drop h.span.start)) atStart).result = .ok b) :
    let first := (n.exec (Subject.tail (.bytes line) pos) ∅).matcher
    let again := k.exec (.bytes (line.drop h.span.start)) atStart
    again.result = .ok true ∧ again.matcher.outcome = .matched ∧
      again.matcher.captures.span? 0 = some ⟨0, h.span.width⟩ ∧
      ∀ texts, groupsOf again.matcher = .ok texts → groupsOf first = .ok texts := by
  intro first again
  obtain ⟨s, w, hsearch, hw, hspan, hfirst⟩ := search_of_found? (hn.pattern.symm ▸ ho.toSearches) hh
  obtain rfl : w.start = j := by
    rw [hspan, Span.shift_start] at hj
    exact Nat.add_left_cancel hj
  rw [hn.pattern] at hsearch
  have hdrop : line.drop h.span.start = (line.drop pos).drop w.start := by rw [hj, List.drop_drop]
  -- the second attempt is a search of what stands behind the start of the match
  have ho' : Answers o k.pattern.code := hk.pattern.symm ▸ ho
  have hlook := look_of_exec ho' hok
  rw [hk.pattern, Subject.toBytes, hdrop] at hlook
  obtain ⟨t, ht, hst⟩ := ho.search_again hu hsearch hw hr ha hlook
  obtain ⟨htrue, hmatched, hagain⟩ := exec_of_search ho' hok (hk.pattern.symm ▸ hk.fits)
    (by rw [hk.pattern, Subject.toBytes, hdrop]; exact ht)
  have hn' := hn.exec hs (Subject.tail (.bytes line) pos) ∅
  have hk' := hk.exec hs (.bytes (line.drop h.span.start)) atStart
  have hspans : ∀ i < groups p.code + 1,
      first.captures.span? i = (again.matcher.captures.span? i).map (·.shift w.start) := by
    intro i hi
    rw [hfirst i (by rw [hn'.fits]; exact hi), hagain i (by rw [hk'.fits]; exact hi), hst]
    rfl
  refine ⟨htrue, hmatched, ?_, fun texts htexts => ?_⟩
  · -- both matches start where the second attempt does, so what it finds starts at zero
    rw [hagain 0 (by rw [hk'.fits]; exact Nat.succ_pos _)]
    rw [hst, Spans.shift_apply] at hw
    obtain ⟨v, hv, hvw⟩ := Option.map_eq_some_iff.1 hw
    rw [hv, hspan, Span.width_shift, eq_of_shift_start hvw]
  · refine groupsOf_of_drop hn' hk' ?_ ?_ hspans htexts
    · rw [exec_subject, exec_subject, Subject.toBytes_tail, Subject.toBytes, hdrop, Subject.toBytes]
    · rw [exec_subject, Subject.toBytes_tail, Subject.toBytes, List.length_drop]
      omega

namespace Entry.Tells
variable {before : List Hit} {e : Entry} (h : e.Tells p line before n k)
include h

theorem groups_of_not_found
    (hnone : (k.exec (.bytes (line.drop e.span.start)) atStart).result = .ok false) :
    e.groups = List.replicate p.groups none := by
  have hgroups := h.groups
  rw [groupsOf_of_not_found hnone, Matcher.groups, h.serves.pattern] at hgroups
  exact (Except.ok.inj hgroups).symm

theorem groups_of_hit {o : Searcher κ} (hs : Buffered p.code) (ho : Answers o p.code)
    (hu : o.Unmoved p.code)
    (hr : o.Repeats p.code (line.drop (resume 0 before)) ∅ atStart (e.span.start - resume 0 before))
    (ha : e.span.start - resume 0 before = 0 ∨
      o.Ahead p.code (line.drop (resume 0 before)) atStart (e.span.start - resume 0 before)) :
    let first := (n.exec (Subject.tail (.bytes line) (resume 0 before)) ∅).matcher
    let again := k.exec (.bytes (line.drop e.span.start)) atStart
    again.result = .ok true ∧ again.matcher.outcome = .matched ∧
      again.matcher.captures.span? 0 = some ⟨0, e.span.width⟩ ∧
      ((List.range p.groups).mapM fun i => readGroup (first.group? (i + 1))) = .ok e.groups := by
  obtain ⟨m, hm, hv⟩ := h.visit
  obtain ⟨x, hx, hspan⟩ := h.found
  obtain ⟨b, hok⟩ := h.again
  have hn := hm.visits hs hv
  have hahead : o.Ahead p.code (line.drop (resume 0 before)) atStart
      (e.span.start - resume 0 before) := by
    rcases ha with hzero | ha
    · rw [hzero]; exact Searcher.ahead_zero
    · exact ha
  have hstart : x.span.start = resume 0 before + (e.span.start - resume 0 before) := by
    obtain ⟨-, g, -, hshift, -⟩ := hit?_eq_some hx
    rw [← hspan, hshift, Span.shift_start, Nat.add_sub_cancel_left]
  have hle := h.start_le
  rw [← hspan] at hok hle
  obtain ⟨htrue, hmatched, hwhole, hgroups⟩ :=
    exec_again hs ho hu hn h.serves hx hstart hle hr hahead hok
  rw [hspan] at htrue hmatched hwhole hgroups
  refine ⟨htrue, hmatched, hwhole, ?_⟩
  have htexts := hgroups _ h.groups
  rw [groupsOf_eq, Matcher.groups, (hn.exec hs _ _).pattern] at htexts
  exact htexts

end Entry.Tells

/-- **Whose groups an entry lists.** What is written are entries, each for a hit of the scan of a line,
with the groups of an attempt on what stands behind its start, tied to that. If that attempt finds
nothing, every group passes for absent. If matches start where they are found, the hit is found by a search
that is tied to its place too, and it starts where the scan went on or nothing that stands before it makes a
difference, then the attempt finds the whole of the hit, and each group is listed as it is in the hit. -/
theorem entries_tell_groups {o : Searcher κ} (hs : Buffered p.code) (ho : Answers o p.code)
    (hm : (Matcher.new p).result = .ok m) {file : Bytes} {read : Nat} {q : Progress κ}
    (hq : searchLines m 1 ((lines file).take read) = some q) :
    ((lines file).length ≤ read → ∃ r, search p file = some r ∧
      r.stdout = unlines (heading file.length p :: q.entries.map Entry.display)) ∧
    ∀ e ∈ q.entries, ∃ line before n k, 0 < e.line ∧ (lines file)[e.line - 1]? = some line ∧
      e.Tells p line before n k ∧
      let rest := line.drop (resume 0 before)
      let j := e.span.start - resume 0 before
      let first := (n.exec (Subject.tail (.bytes line) (resume 0 before)) ∅).matcher
      let again := k.exec (.bytes (line.drop e.span.start)) atStart
      (again.result = .ok false → e.groups = List.replicate p.groups none) ∧
      (o.Unmoved p.code → o.Repeats p.code rest ∅ atStart j → j = 0 ∨ o.Ahead p.code rest atStart j →
        again.result = .ok true ∧ again.matcher.outcome = .matched ∧
          again.matcher.captures.span? 0 = some ⟨0, e.span.width⟩ ∧
          ((List.range p.groups).mapM fun i => readGroup (first.group? (i + 1))) = .ok e.groups) := by
  have hserves : Serves p m := by
    obtain ⟨slots, hslots, rfl⟩ := new_eq_ok hm
    exact ⟨rfl, hs.allocated slots hslots⟩
  constructor
  · intro hread
    rw [List.take_of_length_le hread] at hq
    rw [search, hm]
    simp only [hq, Option.map_some, Option.some.injEq, exists_eq_left']
    rcases q.stop with - | - | - <;> rfl
  · intro e he
    obtain ⟨i, line, hnumber, hline, before, n, k, ht⟩ := searchLines_tells hs hserves hq he
    obtain rfl : i = e.line - 1 := by omega
    have hline' : (lines file)[e.line - 1]? = some line := by
      rw [List.getElem?_take] at hline
      split at hline
      · exact hline
      · cases hline
    exact ⟨line, before, n, k, by omega, hline', ht, ht.groups_of_not_found,
      fun hu hr ha => ht.groups_of_hit hs ho hu hr ha⟩

end

open Regex

def twoGroups : Compiled (Guarded Program) :=
  ((pattern "(*NO_START_OPT)(a)(b)?").build 0).result.toOption.get (by decide +kernel)

/-- Two lines with a hit each, one of them with an absent group. -/
theorem entries_tell_groups_two_lines :
    let file := Utf8.ofString "xa\nab"
    ∃ m q, ((pattern "(*NO_START_OPT)(a)(b)?").build 0).result = .ok twoGroups ∧
      (Matcher.new twoGroups).result = .ok m ∧ searchLines m 1 ((lines file).take 2) = some q ∧
      q.entries = [⟨1, ⟨1, 2⟩, [0x61], [some [0x61], none]⟩,
        ⟨2, ⟨0, 2⟩, [0x61, 0x62], [some [0x61], some [0x62]]⟩] ∧
      ∀ e ∈ q.entries, ∃ line before n k, e.Tells twoGroups line before n k ∧
        (k.exec (.bytes (line.drop e.span.start)) atStart).matcher.captures.span? 0 =
          some ⟨0, e.span.width⟩ ∧
        ((List.range 2).mapM fun i => readGroup
          ((n.exec (Subject.tail (.bytes line) (resume 0 before)) ∅).matcher.group? (i + 1))) =
            .ok e.groups := by
  intro file
  have hb := eq_ok_of_toOption (a := twoGroups) (Option.some_get _).symm
  let m : Matcher (Guarded Program) := { pattern := twoGroups, slots := Array.replicate 3 none }
  have hm : (Matcher.new twoGroups).result = .ok m := by
    have hslots : Matcher.allocate twoGroups = some (Array.replicate 3 none) := by decide +kernel
    show (Matcher.new twoGroups (Matcher.allocate twoGroups)).result = .ok m
    rw [hslots]
    rfl
  have hfound : (searchLines m 1 ((lines file).take 2)).map (·.entries) =
      some [⟨1, ⟨1, 2⟩, [0x61], [some [0x61], none]⟩,
        ⟨2, ⟨0, 2⟩, [0x61, 0x62], [some [0x61], some [0x62]]⟩] := by decide +kernel
  obtain ⟨q, hq, hentries⟩ := Option.map_eq_some_iff.1 hfound
  -- nothing in the expression looks back, moves the start of a match or asks where the search started
  let c : Program := twoGroups.code.inner
  have hfirst : c.firstLine = false := by decide +kernel
  have hplain : c.whole.mode.utf = false := by decide +kernel
  have hempty : c.notEmptyAtStart = false := by decide +kernel
  have hroot : c.whole.root.Free (Node.looksBack true) := by decide +kernel
  have hahead : c.LooksAhead atStart := ⟨by decide +kernel, fun ho => absurd ho (by decide +kernel)⟩
  obtain ⟨-, hall⟩ := entries_tell_groups (Guarded.buffered c.buffered) (Guarded.answers _) hm hq
  refine ⟨m, q, hb, hm, hq, hentries, fun e he => ?_⟩
  obtain ⟨line, before, n, k, -, -, ht, -, hsame⟩ := hall e he
  have hle : e.span.start - resume 0 before ≤ (line.drop (resume 0 before)).length := by
    rw [List.length_drop]
    exact Nat.sub_le_sub_right ht.start_le _
  obtain ⟨-, -, hwhole, hgroups⟩ := hsame (Program.unmoved (p := c) (by decide +kernel))
    (Program.repeats (p := c) hfirst (.inr ⟨hroot, hempty⟩))
    (.inr (Program.ahead hahead hle fun hutf => by cases hplain.symm.trans hutf))
  exact ⟨line, before, n, k, ht, hwhole, hgroups⟩

def insideWord : Compiled Program :=
  ((pattern "(*NO_START_OPT)\\B(b)").build 0).result.toOption.get (by decide +kernel)

/-- What stands before a hit is lost on the second attempt: it finds nothing, and a group that the hit
has is listed as absent. -/
theorem searchLines_loses_group :
    let m : Matcher Program := { pattern := insideWord, slots := Array.replicate 2 none }
    let line := Utf8.ofString "ab"
    (searchLines m 1 (lines line)).map (·.entries) = some [⟨1, ⟨1, 2⟩, [0x62], [none]⟩] ∧
    (m.findIter (.bytes line) ∅).bind (·.result.toOption) = some [⟨1, 2⟩] ∧
    (groupsOf (m.exec (.bytes line) ∅).matcher).toOption = some [some [0x62]] ∧
    (m.exec (.bytes (line.drop 1)) atStart).result.toOption = some false := by
  decide +kernel

end Rematch.LineSearch
