import Rematch.Proofs.Operation
import Rematch.Proofs.Places

/-! # What stands before the rests of a scan

A scan hands the engine one rest of the subject after the other, each as a subject of its own
(`search_of_found?`). Its matches are matches in the subject itself, searched from where the scan goes on,
if nothing that stands before a rest makes a difference to the engine (`Engine.Searcher.Ahead`). Else the
start of each rest passes for the start of the subject, and an expression that is tied to that matches again
and again, as long as one match starts where the one before it ends. -/

namespace Rematch.Matcher
open Regex

/-- **What the spans of a scan are matches of.** The spans that are found, and replaced, are what the engine
finds when it searches the rests of the subject from where the scan goes on. It finds them in the subject
too when its search starts there, if nothing is left out before the rest, or what is left out makes no
difference. What is found at the start of a rest or not at all is found where the scan goes on. -/
theorem scan_matches_rests {κ : Type} [Engine κ] {o : Engine.Searcher κ} {m : Matcher κ}
    (ho : Engine.Searches o m.pattern.code) {subject : Subject} {flags : MatchFlags} {t : Trail κ}
    (ht : m.scan subject flags = some t) :
    m.findIter subject flags = some (t.reply.map fun _ => t.hits.map Hit.span) ∧
    (∀ replacement, m.replace subject replacement flags = t.copied subject.toBytes replacement) ∧
    ∀ before h after, t.hits = before ++ h :: after →
      let c := m.pattern.code
      let b := subject.toBytes
      let q := resume 0 before
      (∃ s w, o.search c (b.drop q) flags 0 = some s ∧ s 0 = some w ∧ h.span = w.shift q) ∧
      (q = 0 ∨ q ≤ b.length ∧ o.Ahead c b flags q →
        ∃ s, o.search c b flags q = some s ∧ s 0 = some h.span) ∧
      (o.Tied c (b.drop q) flags → o.Unmoved c → h.span.start = q) := by
  refine ⟨findIter_of_scan ht, fun replacement => by rw [replace_eq_bind, ht]; rfl, ?_⟩
  intro before h after hsplit c b q
  obtain ⟨n, hv, hh⟩ := (scan_eq_some_iff.1 ht).1.visit_of_append hsplit
  obtain ⟨s, w, hs, hw, hspan, -⟩ := search_of_found? (hv.pattern ▸ ho) hh
  rw [hv.pattern] at hs
  refine ⟨⟨s, w, hs, hw, hspan⟩, fun hahead => ?_, fun htied hunmoved => ?_⟩
  · obtain ⟨hq, ha⟩ : q ≤ b.length ∧ o.Ahead c b flags q := by
      rcases hahead with hq | hahead
      · rw [hq]; exact ⟨Nat.zero_le _, Engine.Searcher.ahead_zero⟩
      · exact hahead
    exact ⟨s.shift q, ho.search_of_rest hq ha hs, by rw [Spans.shift_apply, hw, hspan]; rfl⟩
  · obtain ⟨j, hj⟩ := ho.exists_finds hs
    obtain ⟨i, hi⟩ := hj.exists_found
    obtain ⟨w', hw', hstart⟩ := hunmoved _ _ _ _ _ _ hi
    cases hw.symm.trans hw'
    rw [hspan, Span.shift_start, hstart, htied j s hj, Nat.add_zero]

def notBehind : Compiled Program := (Compiled.plain? "b(?=c)|\\Gc" 0).get (by decide +kernel)

def atStartOnly : Compiled Program := (Compiled.plain? "\\A(?:a)" 0).get (by decide +kernel)

/-- Where a search starts is where the scan goes on, in the rest and in the subject; and so is the start
of the subject, in the rest. -/
theorem scan_matches_rests_twice :
    let o := Program.searcher
    let m : Matcher Program := { pattern := notBehind, slots := Array.replicate 1 none }
    let n : Matcher Program := { pattern := atStartOnly, slots := Array.replicate 1 none }
    (∃ t, m.scan (.text "bcc") ∅ = some t ∧ t.hits.map Hit.span = [⟨0, 1⟩, ⟨1, 2⟩, ⟨2, 3⟩] ∧
      ∀ before h after, t.hits = before ++ h :: after →
        ∃ s, o.search notBehind.code (Utf8.ofString "bcc") ∅ (resume 0 before) = some s ∧
          s 0 = some h.span) ∧
    ∃ t, n.scan (.text "aaa") ∅ = some t ∧ t.hits.map Hit.span = [⟨0, 1⟩, ⟨1, 2⟩, ⟨2, 3⟩] ∧
      ∀ before h after, t.hits = before ++ h :: after → h.span.start = resume 0 before := by
  intro o m n
  have hm : (m.scan (.text "bcc") ∅).map (·.hits) =
      some [⟨⟨0, 1⟩, 1⟩, ⟨⟨1, 2⟩, 2⟩, ⟨⟨2, 3⟩, 3⟩] := by decide +kernel
  have hn : (n.scan (.text "aaa") ∅).map (·.hits) =
      some [⟨⟨0, 1⟩, 1⟩, ⟨⟨1, 2⟩, 2⟩, ⟨⟨2, 3⟩, 3⟩] := by decide +kernel
  obtain ⟨t, ht, hhits⟩ := Option.map_eq_some_iff.1 hm
  obtain ⟨u, hu, huits⟩ := Option.map_eq_some_iff.1 hn
  refine ⟨⟨t, ht, by rw [hhits]; rfl, fun before h after hs => ?_⟩,
    u, hu, by rw [huits]; rfl, fun before h after hs => ?_⟩
  · have hahead : notBehind.code.LooksAhead ∅ :=
      ⟨by decide +kernel, fun ho => absurd ho (by decide +kernel)⟩
    have hplain : notBehind.code.whole.mode.utf = false := by decide +kernel
    have hmem : ∀ h ∈ before, h.next ≤ 3 := by
      intro h hh
      have : ∀ h ∈ t.hits, h.next ≤ 3 := by rw [hhits]; decide
      exact this h (by rw [hs]; exact List.mem_append_left _ hh)
    have hq : resume 0 before ≤ (Subject.text "bcc").toBytes.length :=
      Nat.le_trans (resume_le (Nat.zero_le 3) before hmem) (by decide)
    obtain ⟨-, -, hall⟩ := scan_matches_rests (Program.searches _) ht
    exact (hall before h after hs).2.1
      (.inr ⟨hq, Program.ahead hahead hq fun hutf => by cases hplain.symm.trans hutf⟩)
  · have hb := eq_ok_of_toOption (a := atStartOnly) (Option.some_get _).symm
    have hbegins : atStartOnly.code.whole.root.beginsAtStart = true := by decide +kernel
    obtain ⟨-, -, hall⟩ := scan_matches_rests (Program.searches _) hu
    exact (hall before h after hs).2.2
      (Program.tied_of_compile (Program.compile_of_build hb) (.inr hbegins))
      (Program.unmoved (by decide +kernel))

/-- A test for the start of the subject holds at the start of every rest: the scan finds and replaces
three matches, and the engine but one in the subject itself. -/
theorem findIter_goes_on_behind_start :
    let m : Matcher Program := { pattern := atStartOnly, slots := Array.replicate 1 none }
    let found := fun q => (Program.searcher.search atStartOnly.code (Utf8.ofString "aaa") ∅ q).bind (· 0)
    (m.findIter (.text "aaa") ∅).bind (·.result.toOption) = some [⟨0, 1⟩, ⟨1, 2⟩, ⟨2, 3⟩] ∧
    (m.replaceAll "aaa" "b" ∅).bind (·.result.toOption) = some "bbb" ∧
    found 0 = some ⟨0, 1⟩ ∧ found 1 = none ∧ found 2 = none := by
  decide +kernel

end Rematch.Matcher
