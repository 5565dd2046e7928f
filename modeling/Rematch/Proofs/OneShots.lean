import Mathlib.Control.Monad.Basic
import Rematch.OneShot
import Rematch.Proofs.Present
import Rematch.Proofs.Reuse

/-! # Operations on patterns and on matchers

An operation on a pattern makes one attempt, or the attempts of a scan, with a new matcher, so that all of
them answer from the attempt on the whole subject: the outcome, the span of the match and the list of the
groups are three readings of what it has left (`exec_tells`), and a scan starts with it too
(`Scans.head?`). A matcher that is bound to the pattern answers as the new one does, whatever was done with
it, since the two are twins (`Matcher.Twin`). -/

namespace Rematch

/-- An attempt that matches counts at least the whole match, and sets it. -/
structure Engine.SetsWhole {κ : Type} [Engine κ] (c : κ) : Prop where
  count : ∀ b f s, Fits c s → 0 ≤ (attempt c b f s).1 → 1 ≤ (attempt c b f s).1
  whole : ∀ b f s, Fits c s → 0 < Code.pairs (attempt c b f s).1 →
    ∃ g, (attempt c b f s).2[0]?.join = some g

theorem Engine.Faithful.setsWhole {κ : Type} [Engine κ] {c : κ} (h : Faithful c) : SetsWhole c where
  count b f s hs h0 := (h.count b f s (Nat.le_of_eq hs.symm) h0).1
  whole b f s hs := h.whole b f s (Nat.le_of_eq hs.symm)

theorem Outcome.isMatch_iff {o : Outcome} :
    o.isMatch = true ↔ o = .matched ∨ o = .partiallyMatched := by
  cases o <;> simp [isMatch]

namespace Matcher
variable {κ : Type} [Engine κ] {good : κ → Prop} {m : Matcher κ} {s : Subject} {f : MatchFlags}

/-- What an attempt answers, its outcome and the presence of the whole match tell the same. -/
theorem exec_tells (hf : Fitted good m) (hw : Engine.SetsWhole m.pattern.code) {found : Bool}
    (hr : (m.exec s f).result = .ok found) :
    found = (m.exec s f).matcher.outcome.isMatch ∧
      found = ((m.exec s f).matcher.group? 0).isSome := by
  rcases m.exec_cases s f with ⟨o, k, hk, hx⟩ | ⟨-, hx⟩
  · have hslots : (m.exec s f).matcher.slots = (m.answer s f).2 := exec_slots s f
    have hwhole := hw.whole s.toBytes f m.slots hf.fits
    rw [show Code.pairs (Engine.attempt m.pattern.code s.toBytes f m.slots).1 = k from
      classify_pairs hk] at hwhole
    rw [hx] at hr ⊢
    cases hr
    refine ⟨rfl, ?_⟩
    have hpairs : o.isMatch = true → 0 < k := classify_pos (hw.count s.toBytes f m.slots hf.fits) hk
    rw [Bool.eq_iff_iff, Option.isSome_iff_exists]
    constructor
    · intro ho
      obtain ⟨g, hg⟩ := hwhole (hpairs ho)
      exact ⟨⟨s, g⟩, group?_eq_some_iff.2 ⟨span?_eq_some_iff.2 ⟨ho, hpairs ho, hg⟩, rfl⟩⟩
    · rintro ⟨g, hg⟩
      exact (span?_eq_some_iff.1 (group?_eq_some_iff.1 hg).1).1
  · rw [hx] at hr; cases hr

/-- The first hit of a scan is that of its first attempt. -/
theorem Scans.head? {pos : Nat} {t : Trail κ} (ht : Scans s f m pos t) :
    t.hits.head? = m.found? s f pos := by
  cases ht with
  | fail hx hr => rw [← hx] at hr; exact (found?_of_error hr).symm
  | stop hx hr hh => rw [found?, hx, hh]; rfl
  | last hx hr hh he => rw [found?, hx, hh]; rfl
  | more hx hr hh he ht => rw [found?, hx, hh]; rfl

/-- A search for all matches finds first what an attempt on the whole subject finds, if that is a complete
match. -/
theorem findIter_head? {r : Reply κ (List Span)} {spans : List Span}
    (h : m.findIter s f = some r) (hr : r.result = .ok spans) :
    spans.head? = if (m.exec s f).matcher.outcome = .matched
      then ((m.exec s f).matcher.group? 0).map (·.span) else none := by
  obtain ⟨t, ht, rfl⟩ := Option.map_eq_some_iff.1 h
  have hspans : spans = t.hits.map Hit.span := by
    rw [Reply.map] at hr
    cases hres : t.reply.result with
    | error e => rw [hres] at hr; cases hr
    | ok k => rw [hres] at hr; cases hr; rfl
  rw [hspans, List.head?_map, (scan_eq_some_iff.1 ht).1.head?, found?, Subject.tail_zero, hit?]
  split
  · rw [Option.map_map]
    exact Option.map_congr fun g _ => Span.shift_zero g.span
  · rfl

theorem findIter_of_error {e : Error} (hr : (m.exec s f).result = .error e) :
    ∃ r, m.findIter s f = some r ∧ r.result = .error e := by
  have hx : m.exec (s.tail 0) f = m.exec s f := by rw [Subject.tail_zero]
  have hlen : (m.exec s f).events.length = 1 := exec_events_length s f
  have ht : m.scan s f = some ⟨[], .error e, (m.exec s f).matcher, (m.exec s f).events⟩ :=
    scan_eq_some_iff.2 ⟨.fail hx hr, by rw [Trail.attempts, hlen]; omega⟩
  exact ⟨_, findIter_of_scan ht, rfl⟩

end Matcher

namespace Compiled
variable {κ : Type} [Engine κ] {p : Compiled κ} {m : Matcher κ} {s : Subject} {f : MatchFlags} {e : Error}

/-- The operations on the pattern fail with one error. -/
structure Fails (p : Compiled κ) (s : Subject) (f : MatchFlags) (e : Error) : Prop where
  isMatch : (p.isMatch s f).result = .error e
  findIndex : (p.findIndex s f).result = .error e
  extractAll : (p.extractAll s f).result = .error e
  matcher : (p.matcher s f).result = .error e
  findIter : ∃ r, p.findIter s f = some r ∧ r.result = .error e

/-- The operations on the pattern give these answers, and the answers agree. -/
structure Tells (p : Compiled κ) (s : Subject) (f : MatchFlags) (found : Bool) (index : Option Span)
    (all : Option (List (Option Match))) (m : Matcher κ) : Prop where
  isMatch : (p.isMatch s f).result = .ok found
  findIndex : (p.findIndex s f).result = .ok index
  extractAll : (p.extractAll s f).result = .ok all
  matcher : (p.matcher s f).result = .ok m
  index_iff : found = true ↔ index.isSome = true
  all_iff : found = true ↔ all.isSome = true
  outcome_iff : found = true ↔ m.outcome = .matched ∨ m.outcome = .partiallyMatched
  length : ∀ gs, all = some gs → gs.length = p.groups + 1
  entry : ∀ gs, all = some gs → ∀ i < gs.length, gs[i]? = some (m.group? i)
  whole : ∀ gs, all = some gs → ∃ g, gs[0]? = some (some g) ∧ index = some g.span
  spans : ∀ r spans, p.findIter s f = some r → r.result = .ok spans →
    (spans ≠ [] ↔ m.outcome = .matched) ∧ (spans ≠ [] → spans.head? = index)

/-- The operations on the pattern answer as those on the matcher do. -/
structure ActsAs (p : Compiled κ) (k : Matcher κ) (s : Subject) (f : MatchFlags) : Prop where
  isMatch : (p.isMatch s f).result = (k.exec s f).result
  findIndex : (p.findIndex s f).result = (k.findIndex s f).result
  extractAll : (p.extractAll s f).result = (k.extractAll s f).result
  findIter : (p.findIter s f).map (·.result) = (k.findIter s f).map (·.result)
  matcher_error : ∀ e, (p.matcher s f).result = .error e ↔ (k.exec s f).result = .error e
  matcher_ok : ∀ m, (p.matcher s f).result = .ok m →
    m.outcome = (k.exec s f).matcher.outcome ∧ m.subject = (k.exec s f).matcher.subject ∧
      m.captures.Same (k.exec s f).matcher.captures
  replaceAll : ∀ t u, (p.replaceAll t u f).map (·.result) = (k.replaceAll t u f).map (·.result)
  replaceAllBytes : ∀ b c,
    (p.replaceAllBytes b c f).map (·.result) = (k.replaceAllBytes b c f).map (·.result)

section
variable (hnew : (Matcher.new p).result = .ok m)
include hnew

theorem withNew_result {α : Type} (g : Matcher κ → Reply κ α) :
    (p.withNew g).result = (g m).result := by
  simp only [withNew, hnew]

theorem withNew?_result {α : Type} (g : Matcher κ → Option (Reply κ α)) :
    (p.withNew? g).map (·.result) = (g m).map (·.result) := by
  simp only [withNew?, hnew, Option.map_map]
  rfl

end

/-- Without memory for a matcher, nothing can be done. -/
theorem fails_of_new (hnew : (Matcher.new p).result = .error e) (s : Subject) (f : MatchFlags) :
    p.Fails s f e := by
  have hwith : ∀ {α : Type} (g : Matcher κ → Reply κ α), (p.withNew g).result = .error e := by
    intro α g
    simp only [withNew, hnew]
  refine ⟨hwith _, hwith _, hwith _, hwith _, ⟨.error e, (Matcher.new p).events⟩, ?_, rfl⟩
  simp only [findIter, withNew?, hnew]

theorem fails_of_exec (hnew : (Matcher.new p).result = .ok m) (hr : (m.exec s f).result = .error e) :
    p.Fails s f e := by
  obtain ⟨q, hq, hqe⟩ := Matcher.findIter_of_error hr
  have hiter := withNew?_result hnew fun m => m.findIter s f
  rw [hq, Option.map_some, hqe] at hiter
  refine ⟨(withNew_result hnew _).trans hr, ?_, ?_, ?_, Option.map_eq_some_iff.1 hiter⟩
  · rw [findIndex, withNew_result hnew, Matcher.findIndex, Reply.map, hr]; rfl
  · rw [extractAll, withNew_result hnew, Matcher.extractAll, Reply.map, hr]; rfl
  · rw [matcher, withNew_result hnew, Reply.map, hr]; rfl

theorem tells_of_exec (hnew : (Matcher.new p).result = .ok m) {found : Bool}
    (hr : (m.exec s f).result = .ok found) (hp : m.pattern = p)
    (houtcome : found = (m.exec s f).matcher.outcome.isMatch)
    (hwhole : found = ((m.exec s f).matcher.group? 0).isSome) :
    p.Tells s f found (((m.exec s f).matcher.group? 0).map (·.span))
      (if found then some (m.exec s f).matcher.captures.toList else none) (m.exec s f).matcher where
  isMatch := (withNew_result hnew _).trans hr
  findIndex := by rw [findIndex, withNew_result hnew, Matcher.findIndex, Reply.map, hr]; rfl
  extractAll := by rw [extractAll, withNew_result hnew, Matcher.extractAll, Reply.map, hr]; rfl
  matcher := by rw [matcher, withNew_result hnew, Reply.map, hr]; rfl
  index_iff := by rw [Option.isSome_map, ← hwhole]
  all_iff := by cases found <;> simp
  outcome_iff := by rw [houtcome, Outcome.isMatch_iff]
  length gs hgs := by
    obtain ⟨-, ⟨⟩⟩ := Option.ite_none_right_eq_some.1 hgs
    simp [Captures.toList, Captures.size, Captures.groups, Matcher.captures, hp]
  entry gs hgs i hi := by
    obtain ⟨-, ⟨⟩⟩ := Option.ite_none_right_eq_some.1 hgs
    simp only [Captures.toList, List.length_map, List.length_range] at hi
    simp [Captures.toList, hi, Matcher.group?]
  whole gs hgs := by
    obtain ⟨rfl, ⟨⟩⟩ := Option.ite_none_right_eq_some.1 hgs
    obtain ⟨g, hg⟩ := Option.isSome_iff_exists.1 hwhole.symm
    refine ⟨g, ?_, by rw [hg]; rfl⟩
    simp [Captures.toList, Captures.size, ← hg, Matcher.group?]
  spans r spans hfind hspans := by
    have hiter := withNew?_result hnew fun m => m.findIter s f
    rw [show p.withNew? _ = some r from hfind, Option.map_some] at hiter
    obtain ⟨q, hq, hres⟩ := Option.map_eq_some_iff.1 hiter.symm
    have hhead := Matcher.findIter_head? hq (hres.trans hspans)
    have hempty : spans ≠ [] ↔ spans.head?.isSome = true := by cases spans <;> simp
    rw [hempty, hhead]
    split
    · next ho =>
      rw [Option.isSome_map, ← hwhole, houtcome, ho]
      exact ⟨iff_of_true rfl rfl, fun _ => rfl⟩
    · next ho => simp [ho]

theorem actsAs_of_twin {k : Matcher κ} (hnew : (Matcher.new p).result = .ok m)
    (h : Matcher.Twin Engine.Steady m k) (s : Subject) (f : MatchFlags) : p.ActsAs k s f := by
  have hrel : ∀ {α : Type} {x y : Option (Reply κ α)},
      Option.Rel (Reply.Agree (Matcher.Alike Engine.Steady)) x y →
        x.map (·.result) = y.map (·.result) := by
    rintro α _ _ (h | -)
    · exact congrArg some h.result
    · rfl
  have hx := Matcher.agree_exec (fun _ hc => hc) h s f
  have hmatcher : (p.matcher s f).result =
      (m.exec s f).result.map fun _ => (m.exec s f).matcher := withNew_result hnew _
  exact {
    isMatch := (withNew_result hnew _).trans hx.result
    findIndex := (withNew_result hnew _).trans (Matcher.agree_findIndex (fun _ hc => hc) h s f).result
    extractAll := (withNew_result hnew _).trans (Matcher.agree_extractAll (fun _ hc => hc) h s f).result
    findIter := (withNew?_result hnew _).trans (hrel (Matcher.agree_findIter (fun _ hc => hc) h s f))
    matcher_error := fun e => by
      rw [hmatcher, hx.result]
      cases (k.exec s f).result <;> simp [Except.map]
    matcher_ok := fun q hq => by
      rw [hmatcher] at hq
      cases hr : (m.exec s f).result with
      | error e => rw [hr] at hq; cases hq
      | ok b =>
        rw [hr] at hq
        cases hq
        exact ⟨hx.matcher.outcome, hx.matcher.subject_eq, hx.matcher.same⟩
    replaceAll := fun t u => (withNew?_result hnew _).trans
      (hrel (Matcher.agree_replaceAll (fun _ hc => hc) h t u f))
    replaceAllBytes := fun b c => (withNew?_result hnew _).trans
      (hrel (Matcher.agree_replace (fun _ hc => hc) h (.bytes b) c f)) }

/-- **Operations on a pattern agree.** Let the engine's answer depend on the expression, the bytes and the
options, and let an attempt that matches set the whole match. Then the operations on a pattern fail with
one error, or they tell of one match: it is there for each of them or for none, is where the index says,
and leads the list of the groups, which are those of the matcher; a search for all matches begins with it
if it is complete, and finds nothing else. Unless there is no memory for a new matcher, each operation
answers as on any matcher that is bound to the pattern, whatever was done with that. -/
theorem operations_agree (hsteady : Engine.Steady p.code) (hwhole : Engine.SetsWhole p.code)
    (s : Subject) (f : MatchFlags) :
    ((∃ e, p.Fails s f e) ∨ ∃ found index all m, p.Tells s f found index all m) ∧
    ((Matcher.new p).result = .error .noMemory ∧ p.Fails s f .noMemory ∨
      ∀ k, Matcher.Reachable Engine.Steady k → k.pattern = p → p.ActsAs k s f) := by
  cases hnew : (Matcher.new p).result with
  | error e =>
    obtain rfl : e = .noMemory := by
      cases hm : Matcher.allocate p <;> rw [hm] at hnew <;> cases hnew
      rfl
    have hfails := fails_of_new hnew s f
    exact ⟨.inl ⟨_, hfails⟩, .inl ⟨rfl, hfails⟩⟩
  | ok m =>
    obtain ⟨slots, hslots, rfl⟩ := Matcher.new_eq_ok hnew
    have hfitted : Matcher.Fitted Engine.Steady { pattern := p, slots } :=
      ⟨hsteady, hsteady.allocated slots hslots⟩
    refine ⟨?_, .inr fun k hk hp => ?_⟩
    · cases hr : (Matcher.exec { pattern := p, slots } s f).result with
      | error e => exact .inl ⟨e, fails_of_exec hnew hr⟩
      | ok found =>
        obtain ⟨houtcome, hpresent⟩ := Matcher.exec_tells hfitted hwhole hr
        exact .inr ⟨_, _, _, _, tells_of_exec hnew hr rfl houtcome hpresent⟩
    · exact actsAs_of_twin hnew ⟨hp.symm, hfitted, hk.fitted fun c hc => hc.toBuffered⟩ s f

/-- A partial match, on a matcher that has found a complete one before: the operations tell of it, but a
search for all matches finds nothing. -/
theorem operations_agree_partial :
    let made : Matcher (Guarded Regex.Program) :=
      { pattern := Matcher.guardedGroups, slots := Array.replicate 3 none }
    let used := (made.exec (.text "abcd") ∅).matcher
    let f : MatchFlags := .ofList [.partialHard]
    Engine.Steady Matcher.guardedGroups.code ∧ Engine.SetsWhole Matcher.guardedGroups.code ∧
    Matcher.Reachable Engine.Steady used ∧ used.present 2 = true ∧
    (∃ found index all m, Matcher.guardedGroups.Tells (.text "abc") f found index all m) ∧
    Matcher.guardedGroups.ActsAs used (.text "abc") f ∧
    (used.findIndex (.text "abc") f).result = .ok (some ⟨0, 3⟩) ∧
    (used.extractAll (.text "abc") f).result = .ok (some [some ⟨.text "abc", ⟨0, 3⟩⟩, none, none]) ∧
    (used.findIter (.text "abc") f).map (·.result) = some (.ok []) := by
  intro made used f
  have hsteady : Engine.Steady Matcher.guardedGroups.code := Guarded.steady (Regex.Program.steady _)
  have hwhole : Engine.SetsWhole Matcher.guardedGroups.code :=
    (Guarded.faithful (Regex.Program.buffered _) (by decide +kernel)).setsWhole
  have hmade : Matcher.Reachable Engine.Steady made := .new hsteady .new rfl
  have hused : Matcher.Reachable Engine.Steady used := hmade.exec _ _
  obtain ⟨hanswers, hactsAs⟩ := operations_agree hsteady hwhole (.text "abc") f
  refine ⟨hsteady, hwhole, hused, by decide +kernel, ?_, ?_, by decide +kernel,
    by decide +kernel, by decide +kernel⟩
  · refine hanswers.resolve_left fun ⟨e, he⟩ => ?_
    have hfound : (Matcher.guardedGroups.isMatch (.text "abc") f).result = .ok true := by decide +kernel
    cases hfound.symm.trans he.isMatch
  · exact hactsAs.resolve_left (fun h => by cases h.1) used hused (Matcher.exec_pattern _ _)

end Compiled

end Rematch
