import Rematch.Proofs.Reuse

/-! # Which scans end

An engine may report a match that stops before it starts. `Hit.Ahead` is what is left of a hit then: it
lies between the place of the attempt and the end, so that every copy is in bounds, and it leads on
unless the attempt recoils: its match stops where the attempt was made and starts behind that. A scan
that never recoils ends; one that does makes the same attempt for ever (`Recoils.not_scans`). -/

namespace Rematch

/-- Two offsets inside of so many bytes, in any order. -/
def Span.Inside (g : Span) (length : Nat) : Prop := g.start ≤ length ∧ g.stop ≤ length

instance (g : Span) (length : Nat) : Decidable (g.Inside length) :=
  inferInstanceAs (Decidable (_ ∧ _))

/-- On all that can stand behind an offset of the subject, the engine reports matches inside of it. -/
def Engine.InsideOn {κ : Type} [Engine κ] (c : κ) (subject : Subject) (flags : MatchFlags) : Prop :=
  ∀ pos ≤ subject.size, Reports c (subject.toBytes.drop pos) flags (·.Inside (subject.size - pos))

theorem Regex.Program.insideOn {p : Regex.Program} {subject : Subject} {flags : MatchFlags}
    (h : ∀ pos ≤ subject.size, (p.search (subject.toBytes.drop pos) flags).Meets
      (·.Inside (subject.size - pos))) : Engine.InsideOn p subject flags :=
  fun pos hpos => reports_of_search (h pos hpos)

/-- A hit of an attempt at `pos` that lies between there and the end of the subject. -/
structure Hit.Ahead (subject : Subject) (pos : Nat) (h : Hit) : Prop where
  start : pos ≤ h.span.start
  start_le : h.span.start ≤ subject.size
  stop : pos ≤ h.span.stop
  stop_le : h.span.stop ≤ h.next
  next_le : h.next ≤ subject.size
  /-- Unless the match stops where the attempt was made and starts elsewhere. -/
  next_gt : h.span.start ≠ subject.size → ¬ (h.span.stop = pos ∧ pos < h.span.start) → pos < h.next

theorem Hit.Ahead.of_inside {subject : Subject} {pos : Nat} {h : Hit} {g : Span}
    (hpos : pos ≤ subject.size) (hg : g.Inside (subject.size - pos)) (hspan : h.span = g.shift pos)
    (hnext : h.next =
      if h.span.isEmpty then h.span.stop + subject.unitAt h.span.stop else h.span.stop) :
    h.Ahead subject pos := by
  obtain ⟨hstart, hstop⟩ := hg
  have h₁ : h.span.start = pos + g.start := by rw [hspan]; rfl
  have h₂ : h.span.stop = pos + g.stop := by rw [hspan]; rfl
  cases he : h.span.isEmpty with
  | false =>
    rw [he] at hnext
    simp only [Bool.false_eq_true, if_false] at hnext
    have hne : h.span.start ≠ h.span.stop := by simpa [Span.isEmpty] using he
    constructor <;> omega
  | true =>
    rw [he, if_pos rfl] at hnext
    have heq : h.span.start = h.span.stop := by simpa [Span.isEmpty] using he
    by_cases hend : subject.size ≤ h.span.stop
    · rw [Subject.unitAt_of_le hend] at hnext
      constructor <;> omega
    · have hu := Subject.unitAt_bounds (Nat.lt_of_not_le hend)
      constructor <;> omega

theorem Hit.Ahead.exists_add {subject : Subject} {pos : Nat} {h : Hit} (ha : h.Ahead subject pos)
    (replacement : Bytes) {c : Copy} (hc : c.last = pos) :
    ∃ d, Copy.add subject.toBytes replacement c h = some d ∧ d.last = h.next := by
  have hsize : subject.size = subject.toBytes.length := rfl
  rw [Copy.add, hc, Bytes.slice?, Bytes.slice?, if_pos ⟨ha.start, hsize ▸ ha.start_le⟩,
    if_pos ⟨ha.stop_le, hsize ▸ ha.next_le⟩]
  exact ⟨_, rfl, rfl⟩

namespace Matcher
variable {κ : Type} [Engine κ] {subject : Subject} {flags : MatchFlags} {m n : Matcher κ}
variable {pos q : Nat} {hits : List Hit} {t : Trail κ}

/-- The attempt at `q` finds a match that stops there and starts behind that, before the end. -/
def Recoils (n : Matcher κ) (subject : Subject) (flags : MatchFlags) (q : Nat) : Prop :=
  ∃ h, n.found? subject flags q = some h ∧ h.span.stop = q ∧ q < h.span.start ∧
    h.span.start < subject.size

theorem Visits.ahead (hv : Visits subject flags m pos hits n q)
    (hc : Engine.InsideOn m.pattern.code subject flags) (hpos : pos ≤ subject.size) :
    q ≤ subject.size ∧ ∀ h, n.found? subject flags q = some h → h.Ahead subject q := by
  have hahead : ∀ (n : Matcher κ) q h, n.pattern = m.pattern → q ≤ subject.size →
      n.found? subject flags q = some h → h.Ahead subject q := by
    intro n q h hp hq hh
    obtain ⟨g, hg, hspan, hnext⟩ := found?_reports (hp ▸ hc q hq) hh
    exact .of_inside hq hg hspan hnext
  have hq : q ≤ subject.size :=
    hv.invariant (I := (· ≤ subject.size)) hpos fun n q h hp hq hh _ => (hahead n q h hp hq hh).next_le
  exact ⟨hq, fun h hh => hahead n q h hv.pattern hq hh⟩

theorem exists_scans_of_not_recoils (hc : Engine.InsideOn m.pattern.code subject flags)
    (hpos : pos ≤ subject.size)
    (hr : ∀ hits n q, Visits subject flags m pos hits n q → ¬ n.Recoils subject flags q) :
    ∃ t, Scans subject flags m pos t ∧ t.attempts ≤ subject.size - pos + 1 := by
  refine exists_scans_of_measure (subject.size - ·) fun hits n q h hv hh he => ?_
  obtain ⟨hq, hahead⟩ := hv.ahead hc hpos
  have ha := hahead h hh
  have hgain : q < h.next := by
    refine ha.next_gt he fun ⟨hstop, hlt⟩ => hr hits n q hv ⟨h, hh, hstop, hlt, ?_⟩
    exact Nat.lt_of_le_of_ne ha.start_le he
  have := ha.next_le
  omega

/-- Copying along the hits of a scan is in bounds, and arrives at the rest that the scan left. -/
theorem Scans.exists_copy (ht : Scans subject flags m pos t) (replacement : Bytes) {c : Copy}
    (hc : c.last = pos) (hpos : pos ≤ subject.size)
    (hs : ∀ hits n q, Visits subject flags m pos hits n q →
      ∀ h, n.found? subject flags q = some h → h.Ahead subject q) :
    ∃ d, t.hits.foldlM (Copy.add subject.toBytes replacement) c = some d ∧
      d.last ≤ subject.size ∧ ∀ rest, t.reply.result = .ok rest → rest = d.last := by
  induction ht generalizing c with
  | fail => exact ⟨c, rfl, hc ▸ hpos, fun rest hrest => by cases hrest⟩
  | stop => exact ⟨c, rfl, hc ▸ hpos, fun rest hrest => by cases hrest; exact hc.symm⟩
  | @last m pos r b h hx hr hh he =>
    subst hx
    have ha := hs [] m pos (.here m pos) h hh
    obtain ⟨d, hd, hlast⟩ := ha.exists_add replacement hc
    refine ⟨d, ?_, hlast ▸ ha.next_le, fun rest hrest => by cases hrest; exact hlast.symm⟩
    rw [List.foldlM_cons, hd]; rfl
  | @more m pos r b h t hx hr hh he ht ih =>
    subst hx
    have ha := hs [] m pos (.here m pos) h hh
    obtain ⟨d, hd, hlast⟩ := ha.exists_add replacement hc
    obtain ⟨e, hfold, hle, hrest⟩ := ih hlast ha.next_le
      fun hits n q hv => hs (h :: hits) n q (.next hh he hv)
    refine ⟨e, ?_, hle, hrest⟩
    rw [Trail.cons, List.foldlM_cons, hd]
    exact hfold

theorem exists_copied (ht : Scans subject flags m 0 t) (replacement : Bytes)
    (hs : ∀ hits n q, Visits subject flags m 0 hits n q →
      ∀ h, n.found? subject flags q = some h → h.Ahead subject q) :
    ∃ r, t.copied subject.toBytes replacement = some r := by
  obtain ⟨d, hd, hle, hrest⟩ := ht.exists_copy replacement (c := {}) rfl (Nat.zero_le _) hs
  cases hr : t.reply.result with
  | error e => exact ⟨_, Trail.copied_eq_some_iff.2 ⟨d, hd, .inl ⟨e, hr, rfl⟩⟩⟩
  | ok rest =>
    have hfinish : ∃ out, d.finish subject.toBytes rest = some out := by
      rw [Copy.finish, if_pos (hrest rest hr), Bytes.slice?, if_pos ⟨hle, Nat.le_refl _⟩]
      exact ⟨_, rfl⟩
    obtain ⟨out, hout⟩ := hfinish
    exact ⟨_, Trail.copied_eq_some_iff.2 ⟨d, hd, .inr ⟨rest, out, hr, hout, rfl⟩⟩⟩

theorem exists_replace (hc : Engine.InsideOn m.pattern.code subject flags)
    (ht : m.scan subject flags = some t) (replacement : Bytes) :
    ∃ r, m.replace subject replacement flags = some r := by
  rw [replace_eq_bind, ht, Option.bind_some]
  exact exists_copied (scan_eq_some_iff.1 ht).1 replacement
    fun _ _ _ hv => (hv.ahead hc (Nat.zero_le _)).2

/-- Where a scan recoils, the next attempt is made in the same place and finds the same. -/
theorem Recoils.not_scans (hr : n.Recoils subject flags q) (hn : Fitted Engine.Steady n) :
    ¬ Scans subject flags n q t := by
  intro ht
  induction ht with
  | fail hx hr' =>
    subst hx
    obtain ⟨h, hh, -⟩ := hr
    rw [exec_of_found? hh] at hr'; cases hr'
  | stop hx hr' hh =>
    subst hx
    obtain ⟨h, hh', -⟩ := hr
    cases hh.symm.trans hh'
  | last hx hr' hh he =>
    subst hx
    obtain ⟨h, hh', -, -, hlt⟩ := hr
    cases hh.symm.trans hh'
    exact absurd he (Nat.ne_of_lt hlt)
  | @more n q r b h t hx hr' hh he ht ih =>
    subst hx
    obtain ⟨g, hg, hstop, hstart, hlt⟩ := hr
    cases hh.symm.trans hg
    have hne : h.span.start ≠ h.span.stop := by omega
    have hnext : h.next = q := by
      obtain ⟨-, -, -, -, hnext⟩ := hit?_eq_some hh
      rw [hnext, Span.isEmpty, beq_eq_false_iff_ne.2 hne]
      exact hstop
    -- the shorter run that is left begins with a twin of `n` at the same place
    have hfit := hn.exec (fun c hc => hc.toBuffered) (subject.tail q) flags
    have htwin : Twin Engine.Steady (n.exec (subject.tail q) flags).matcher n :=
      ⟨exec_pattern _ _, hfit, hn⟩
    rw [hnext] at ih
    refine ih ⟨h, ?_, hstop, hstart, hlt⟩ hfit
    rw [found?_eq (fun _ hc => hc) htwin]
    exact hh

/-- A scan that ends has not recoiled, so that it got on by a byte at least with every attempt. -/
theorem Scans.attempts_le (ht : Scans subject flags m pos t) (hm : Fitted Engine.Steady m)
    (hs : ∀ hits n q, Visits subject flags m pos hits n q →
      ∀ h, n.found? subject flags q = some h → h.Ahead subject q) :
    t.attempts ≤ subject.size - pos + 1 := by
  have hgain : ∀ hits n q h, Visits subject flags m pos hits n q → n.found? subject flags q = some h →
      h.span.start ≠ subject.size → subject.size - h.next < subject.size - q := by
    intro hits n q h hv hh he
    have ha := hs hits n q hv h hh
    obtain ⟨u, hu, -⟩ := ht.rest hv
    have hlt : q < h.next := ha.next_gt he fun ⟨hstop, hstart⟩ =>
      Recoils.not_scans ⟨h, hh, hstop, hstart, Nat.lt_of_le_of_ne ha.start_le he⟩
        (hv.fitted (fun c hc => hc.toBuffered) hm) hu
    have := ha.next_le
    omega
  obtain ⟨u, hu, hle⟩ := exists_scans_of_measure (subject.size - ·) hgain
  exact ht.unique hu ▸ hle

theorem Visits.scanFrom_eq_none (hv : Visits subject flags m pos hits n q)
    (hm : Fitted Engine.Steady m) (hr : n.Recoils subject flags q) (limit : Nat) :
    scanFrom subject flags limit m pos = none := by
  have hn : Fitted Engine.Steady n := hv.fitted (fun c hc => hc.toBuffered) hm
  cases hs : scanFrom subject flags limit m pos with
  | none => rfl
  | some t =>
    obtain ⟨u, hu, -⟩ := (scanFrom_eq_some_iff.1 hs).1.rest hv
    exact absurd hu (hr.not_scans hn)

/-- **Which scans end.** Let the matches that an engine reports lie inside of what it was given. A scan
that never recoils ends, after as many attempts as the subject has bytes, and one more, and so do the
search and the replacement that it is made for. If the engine is steady, a scan that once recoils makes
more attempts than any limit. -/
theorem scan_ends_unless_it_recoils (m : Matcher κ) (subject : Subject) (flags : MatchFlags)
    (hc : Engine.InsideOn m.pattern.code subject flags) :
    ((∀ hits n q, Visits subject flags m 0 hits n q → ¬ n.Recoils subject flags q) →
      (∃ t, scanFrom subject flags (subject.size + 1) m 0 = some t) ∧
      (∃ r, m.findIter subject flags = some r) ∧
      (∀ s u, subject = .text s → ∃ r, m.replaceAll s u flags = some r) ∧
      ∀ b u, subject = .bytes b → ∃ r, m.replaceAllBytes b u flags = some r) ∧
    (Fitted Engine.Steady m → ∀ hits n q, Visits subject flags m 0 hits n q →
      n.Recoils subject flags q → ∀ limit, scanFrom subject flags limit m 0 = none) := by
  constructor
  · intro hr
    obtain ⟨t, ht, hle⟩ := exists_scans_of_not_recoils hc (Nat.zero_le _) hr
    have hscan : m.scan subject flags = some t := scan_eq_some_iff.2 ⟨ht, hle⟩
    refine ⟨⟨t, hscan⟩, ⟨_, findIter_of_scan hscan⟩, ?_, ?_⟩
    · rintro s u rfl
      obtain ⟨r, hr⟩ := exists_replace hc hscan (Utf8.ofString u)
      exact ⟨_, by rw [replaceAll, hr]; rfl⟩
    · rintro b u rfl
      exact exists_replace hc hscan u
  · intro hm hits n q hv hr limit
    exact hv.scanFrom_eq_none hm hr limit

/-- The group is called from the assertion, where it takes the start of the match along. -/
def calledAhead : Compiled Regex.Program :=
  (Compiled.plain? "(x\\K)?(?=(?1))" 0).get (by decide +kernel)

/-- Every attempt behind the first starts at the `x` and finds a match from behind it back to it. -/
theorem scan_that_recoils_never_ends :
    let m : Matcher Regex.Program := { pattern := calledAhead, slots := Array.replicate 2 none }
    let b : Bytes := Utf8.ofString "axb"
    Engine.InsideOn calledAhead.code (.text "axb") ∅ ∧ Engine.InsideOn calledAhead.code (.bytes b) ∅ ∧
    (∀ limit, scanFrom (.text "axb") ∅ limit m 0 = none) ∧ m.findIter (.text "axb") ∅ = none ∧
    (∀ u, m.replaceAll "axb" u ∅ = none) ∧ ∀ u, m.replaceAllBytes b u ∅ = none := by
  intro m b
  have hm : Fitted Engine.Steady m :=
    ⟨Regex.Program.steady _, Regex.Program.fits_of_allocate (p := calledAhead) rfl⟩
  have never : ∀ s : Subject, s.size = 3 → m.found? s ∅ 0 = some ⟨⟨2, 1⟩, 1⟩ →
      (m.exec (s.tail 0) ∅).matcher.found? s ∅ 1 = some ⟨⟨2, 1⟩, 1⟩ →
      ∀ limit, scanFrom s ∅ limit m 0 = none := by
    intro s hs h₀ h₁ limit
    have hv : Visits s ∅ m 0 [⟨⟨2, 1⟩, 1⟩] (m.exec (s.tail 0) ∅).matcher 1 :=
      .next h₀ (by rw [hs]; decide) (.here _ _)
    exact hv.scanFrom_eq_none hm ⟨_, h₁, rfl, by decide, by rw [hs]; decide⟩ limit
  have htext : ∀ limit, scanFrom (.text "axb") ∅ limit m 0 = none :=
    never _ (by decide +kernel) (by decide +kernel) (by decide +kernel)
  have hbytes : ∀ limit, scanFrom (.bytes b) ∅ limit m 0 = none :=
    never _ (by decide +kernel) (by decide +kernel) (by decide +kernel)
  refine ⟨Regex.Program.insideOn (by decide +kernel), Regex.Program.insideOn (by decide +kernel),
    htext, ?_, fun u => ?_, fun u => ?_⟩
  · rw [findIter, scan, htext]; rfl
  · rw [replaceAll, replace, scan, htext]; rfl
  · rw [replaceAllBytes, replace, scan, hbytes]; rfl

/-- The same call behind an `a`. -/
def calledBehind : Compiled Regex.Program :=
  (Compiled.plain? "a(x\\K)?(?=(?1))" 1).get (by decide +kernel)

/-- A match from behind the `x` back to it is no harm where the attempt was made before it. -/
theorem scan_ends_behind_match_backwards :
    let m : Matcher Regex.Program := { pattern := calledBehind, slots := Array.replicate 2 none }
    let k : Matcher Regex.Program := { pattern := calledAhead, slots := Array.replicate 2 none }
    Engine.InsideOn calledBehind.code (.text "axb") ∅ ∧
    (∀ hits n q, Visits (.text "axb") ∅ m 0 hits n q → ¬ n.Recoils (.text "axb") ∅ q) ∧
    (∃ r, m.findIter (.text "axb") ∅ = some r) ∧
    (m.findIter (.text "axb") ∅).bind (·.result.toOption) = some [⟨2, 1⟩] ∧
    Engine.InsideOn calledAhead.code (.text "xb") ∅ ∧ Fitted Engine.Steady k ∧
    k.Recoils (.text "xb") ∅ 0 ∧ ∀ limit, scanFrom (.text "xb") ∅ limit k 0 = none := by
  intro m k
  have hc : Engine.InsideOn calledBehind.code (.text "axb") ∅ :=
    Regex.Program.insideOn (by decide +kernel)
  have h₀ : m.found? (.text "axb") ∅ 0 = some ⟨⟨2, 1⟩, 1⟩ := by decide +kernel
  have h₁ : (m.exec ((Subject.text "axb").tail 0) ∅).matcher.found? (.text "axb") ∅ 1 = none := by
    decide +kernel
  have hr : ∀ hits n q, Visits (.text "axb") ∅ m 0 hits n q → ¬ n.Recoils (.text "axb") ∅ q := by
    rintro hits n q hv ⟨h, hh, hstop, -, -⟩
    cases hv with
    | here => cases h₀.symm.trans hh; cases hstop
    | next hg he hv =>
      cases h₀.symm.trans hg
      cases hv with
      | here => cases h₁.symm.trans hh
      | next hg => cases h₁.symm.trans hg
  have hk : Fitted Engine.Steady k :=
    ⟨Regex.Program.steady _, Regex.Program.fits_of_allocate (p := calledAhead) rfl⟩
  have hkc : Engine.InsideOn calledAhead.code (.text "xb") ∅ :=
    Regex.Program.insideOn (by decide +kernel)
  have hkr : k.Recoils (.text "xb") ∅ 0 :=
    ⟨⟨⟨1, 0⟩, 0⟩, by decide +kernel, rfl, by decide, by decide +kernel⟩
  exact ⟨hc, hr, ((scan_ends_unless_it_recoils m _ _ hc).1 hr).2.1, by decide +kernel, hkc, hk, hkr,
    (scan_ends_unless_it_recoils k _ _ hkc).2 hk _ _ _ (.here _ _) hkr⟩

end Matcher

end Rematch
