import Rematch.Proofs.Aligned
import Rematch.Proofs.Failure
import Rematch.Proofs.Forms
import Rematch.Proofs.Progress
import Rematch.Proofs.Wellformed

/-! # The bytes of a text in UTF mode

In UTF mode an engine refuses what is no text, and reports offsets between characters. A scan of the
bytes of a text then stays on texts, and is that of the text itself, up to the first empty match in
front of a character of several bytes. There the one skips the character and the other its first byte,
and the next attempt is made on what is no text (`Skips.scans_bytes`). -/

namespace Rematch
open Subject

/-- On every text that can stand behind an offset of a text, the engine reports offsets between
characters, in any order. -/
def Engine.BetweenOn {κ : Type} [Engine κ] (c : κ) (t : String) (flags : MatchFlags) : Prop :=
  ∀ cs, cs <:+ t.toList → Reports c (Utf8.encode cs) flags fun g =>
    IsBoundary cs g.start ∧ IsBoundary cs g.stop

theorem Regex.Program.betweenOn {p : Regex.Program} {t : String} {flags : MatchFlags}
    (h : ∀ k ≤ t.toList.length, (p.search (Utf8.encode (t.toList.drop k)) flags).Meets
      fun g => IsBoundary (t.toList.drop k) g.start ∧ IsBoundary (t.toList.drop k) g.stop) :
    Engine.BetweenOn p t flags := by
  intro cs hcs
  rw [List.suffix_iff_eq_drop.1 hcs]
  exact reports_of_search (h _ (Nat.sub_le _ _))

/-- A match in a text that splits no character. -/
structure Hit.Between (t : String) (h : Hit) : Prop where
  start : IsBoundary t.toList h.span.start
  stop : IsBoundary t.toList h.span.stop

namespace Subject
variable {t : String} {p : Nat}

theorem isBoundary_size (t : String) : IsBoundary t.toList (Utf8.ofString t).length :=
  isBoundary_iff.2 ⟨t.toList, [], (List.append_nil _).symm, rfl⟩

/-- Behind the first byte of a character of several bytes is no boundary. -/
theorem WideAt.not_isBoundary (h : WideAt t.toList p) : ¬ IsBoundary t.toList (p + 1) := by
  obtain ⟨before, c, after, ht, rfl, hc⟩ := wideAt_iff.1 h
  rw [isBoundary_add (dropBytes_eq_some_iff.2 ⟨before, ht, rfl⟩), IsBoundary, dropBytes,
    if_neg (by omega)]
  exact Bool.false_ne_true

end Subject

namespace Copy
variable {t u : String} {c d : Copy} {h : Hit}

/-- What has been copied of a text is a text, and splits no character. -/
structure IsText (t : String) (c : Copy) : Prop where
  out : ∃ cs, c.out = Utf8.encode cs
  last : IsBoundary t.toList c.last

theorem exists_slice? {p q : Nat} {b : Bytes} (hp : IsBoundary t.toList p) (hq : IsBoundary t.toList q)
    (h : (Utf8.ofString t).slice? p q = some b) : ∃ cs, b = Utf8.encode cs := by
  obtain ⟨⟨hpq, -⟩, rfl⟩ := Bytes.slice?_eq_some_iff.1 h
  exact exists_slice hp hq hpq

theorem IsText.add (hc : c.IsText t) (hb : h.Between t) (hnext : IsBoundary t.toList h.next)
    (hd : Copy.add (Utf8.ofString t) (Utf8.ofString u) c h = some d) : d.IsText t := by
  obtain ⟨before, hbefore, hd⟩ := Option.bind_eq_some_iff.1 hd
  obtain ⟨kept, hkept, hd⟩ := Option.bind_eq_some_iff.1 hd
  cases hd
  obtain ⟨cs₀, hout⟩ := hc.out
  obtain ⟨cs₁, rfl⟩ := exists_slice? hc.last hb.start hbefore
  obtain ⟨cs₂, rfl⟩ := exists_slice? hb.stop hnext hkept
  refine ⟨⟨cs₀ ++ cs₁ ++ u.toList ++ cs₂, ?_⟩, hnext⟩
  simp only [hout, Utf8.encode_append]
  rfl

theorem IsText.foldlM {hits : List Hit} (hc : c.IsText t)
    (hs : ∀ h ∈ hits, h.Between t ∧ IsBoundary t.toList h.next)
    (hd : hits.foldlM (Copy.add (Utf8.ofString t) (Utf8.ofString u)) c = some d) : d.IsText t := by
  induction hits generalizing c with
  | nil => cases hd; exact hc
  | cons h hits ih =>
    rw [List.foldlM_cons] at hd
    obtain ⟨e, he, hd⟩ := Option.bind_eq_some_iff.1 hd
    obtain ⟨hb, hnext⟩ := hs h List.mem_cons_self
    exact ih (hc.add hb hnext he) (fun q hq => hs q (List.mem_cons_of_mem _ hq)) hd

theorem IsText.finish {rest : Nat} {out : Bytes} (hc : c.IsText t)
    (h : c.finish (Utf8.ofString t) rest = some out) : ∃ cs, out = Utf8.encode cs := by
  rw [Copy.finish] at h
  split_ifs at h
  obtain ⟨b, hb, rfl⟩ := Option.map_eq_some_iff.1 h
  obtain ⟨cs₀, hout⟩ := hc.out
  obtain ⟨cs₁, rfl⟩ := exists_slice? hc.last (isBoundary_size t) hb
  exact ⟨cs₀ ++ cs₁, by rw [hout, Utf8.encode_append]⟩

end Copy

namespace Matcher
variable {κ : Type} [Engine κ] {m n k : Matcher κ} {t : String} {flags : MatchFlags}
variable {pos q : Nat} {hits : List Hit} {h : Hit}

/-- An attempt on what is no text fails. -/
theorem exec_rejected {s : Subject} (hr : Engine.Rejects m.pattern.code flags)
    (hs : ∀ cs, s.toBytes ≠ Utf8.encode cs) : ∃ code, Code.IsMalformed code ∧
      (m.exec s flags).result = .error (.engine code (Engine.explain κ code)) := by
  have hcode := hr s.toBytes hs m.slots
  refine ⟨_, hcode, exec_eq_error_iff.2 ⟨⟨?_, ?_, ?_⟩, rfl⟩⟩ <;> unfold answer
  · obtain ⟨-, hle⟩ := hcode
    omega
  · rintro he
    rw [he] at hcode
    exact absurd hcode (by decide)
  · rintro he
    rw [he] at hcode
    exact absurd hcode (by decide)

theorem exec_inside (hr : Engine.Rejects m.pattern.code flags) (hq : q ≤ (Subject.text t).size)
    (hb : ¬ IsBoundary t.toList q) : ∃ code, Code.IsMalformed code ∧
      (m.exec ((Subject.bytes (Utf8.ofString t)).tail q) flags).result =
        .error (.engine code (Engine.explain κ code)) := by
  refine exec_rejected hr fun cs hcs => hb ?_
  rw [toBytes_tail] at hcs
  exact isBoundary_of_drop_eq hq hcs

/-- What an attempt finds on a text, in whatever form, splits no character. -/
theorem found?_between {s : Subject} (hs : s.toBytes = Utf8.ofString t)
    (hc : Engine.BetweenOn m.pattern.code t flags) (hpos : IsBoundary t.toList pos)
    (hh : m.found? s flags pos = some h) : h.Between t ∧ h.Ahead s pos := by
  obtain ⟨rest, hrest⟩ := Option.isSome_iff_exists.1 hpos
  obtain ⟨before, ht, hl⟩ := dropBytes_eq_some_iff.1 hrest
  have hbytes : s.toBytes.drop pos = Utf8.encode rest := by
    rw [hs, Utf8.ofString, ht, Utf8.encode_append, ← hl, List.drop_left]
  obtain ⟨g, ⟨hstart, hstop⟩, hspan, hnext⟩ := found?_reports (hbytes ▸ hc rest ⟨before, ht.symm⟩) hh
  have hsize : s.size - pos = (Utf8.encode rest).length := by
    rw [← hbytes, List.length_drop, size]
  have hle : pos ≤ s.size := by
    rw [size, hs, Utf8.ofString]; exact isBoundary_le hpos
  refine ⟨⟨?_, ?_⟩, .of_inside hle ⟨?_, ?_⟩ hspan hnext⟩
  · rw [hspan]; exact (isBoundary_add hrest).2 hstart
  · rw [hspan]; exact (isBoundary_add hrest).2 hstop
  · rw [hsize]; exact isBoundary_le hstart
  · rw [hsize]; exact isBoundary_le hstop

/-- Wherever a scan of a text comes is a boundary, and so are the offsets of the hit that it finds. -/
theorem Visits.between (hv : Visits (.text t) flags m pos hits n q)
    (hc : Engine.BetweenOn m.pattern.code t flags) (hpos : IsBoundary t.toList pos) :
    IsBoundary t.toList q ∧ ∀ h, n.found? (.text t) flags q = some h →
      h.Between t ∧ IsBoundary t.toList h.next := by
  have hstep : ∀ (n : Matcher κ) q h, n.pattern = m.pattern → IsBoundary t.toList q →
      n.found? (.text t) flags q = some h → h.Between t ∧ IsBoundary t.toList h.next := by
    intro n q h hp hq hh
    obtain ⟨hb, -⟩ := found?_between rfl (hp ▸ hc) hq hh
    obtain ⟨-, -, -, -, hnext⟩ := hit?_eq_some hh
    refine ⟨hb, ?_⟩
    rw [hnext]
    split
    · exact isBoundary_unitAt hb.stop
    · exact hb.stop
  have hq : IsBoundary t.toList q :=
    hv.invariant (I := IsBoundary t.toList) hpos fun n q h hp hq hh _ => (hstep n q h hp hq hh).2
  exact ⟨hq, fun h hh => hstep n q h hv.pattern hq hh⟩

/-- A replacement of text by text between characters is a text. -/
theorem replace_between {u : String} {r : Reply κ Bytes} {out : Bytes}
    (hc : Engine.BetweenOn m.pattern.code t flags)
    (hr : m.replace (.text t) (Utf8.ofString u) flags = some r) (hout : r.result = .ok out) :
    ∃ cs, out = Utf8.encode cs := by
  rw [replace_eq_bind] at hr
  obtain ⟨trail, hscan, hr⟩ := Option.bind_eq_some_iff.1 hr
  obtain ⟨c, hcopy, ⟨e, -, rfl⟩ | ⟨rest, out', -, hfinish, rfl⟩⟩ := Trail.copied_eq_some_iff.1 hr
  · cases hout
  cases hout
  have hempty : Copy.IsText t {} := ⟨⟨[], rfl⟩, isBoundary_zero _⟩
  refine (hempty.foldlM (fun h hmem => ?_) hcopy).finish hfinish
  obtain ⟨hits, n, q, hv, hfound⟩ := (scan_eq_some_iff.1 hscan).1.visit_of_mem hmem
  exact (hv.between hc (isBoundary_zero _)).2 h hfound

theorem replaceAll_between {u : String} {r : Reply κ Bytes}
    (hc : Engine.BetweenOn m.pattern.code t flags)
    (hr : m.replace (.text t) (Utf8.ofString u) flags = some r) :
    ∃ w, m.replaceAll t u flags = some w ∧ r.result = w.result.map Utf8.ofString := by
  obtain ⟨w, hw, herror, hok⟩ := replaceAll_result hr
  refine ⟨w, hw, ?_⟩
  cases hresult : r.result with
  | error e => rw [herror e hresult]; rfl
  | ok out =>
    obtain ⟨cs, rfl⟩ := replace_between hc hr hresult
    rw [((hok _ hresult).1 (String.ofList cs)).2 (Utf8.ofString_ofList cs)]
    exact congrArg Except.ok (Utf8.ofString_ofList cs).symm

/-- A scan of bytes comes only where a scan of the text comes, if that skips no character of several
bytes. -/
theorem Visits.of_bytes (hv : Visits (.bytes (Utf8.ofString t)) flags n pos hits k q)
    (h : Twin Engine.Steady m n) (hs : ¬ m.Skips t flags pos) :
    ∃ j, Visits (.text t) flags m pos hits j q ∧ Twin Engine.Steady j k := by
  induction hv generalizing m with
  | here => exact ⟨m, .here m _, h⟩
  | @next n k pos q hit hits hh he hv ih =>
    rw [found?_bytes h hs] at hh
    have ha := agree_exec_tail h t flags pos
    obtain ⟨j, hj, hjk⟩ := ih ha.matcher.toTwin fun hskips => hs (hskips.before hh he)
    exact ⟨j, .next hh he hj, hjk⟩

/-- Wherever a scan of the bytes of a text comes, a hit is ahead: inside of a character the attempt
fails. -/
theorem Visits.ahead_bytes (hv : Visits (.bytes (Utf8.ofString t)) flags m pos hits n q)
    (hr : Engine.Rejects m.pattern.code flags) (hc : Engine.BetweenOn m.pattern.code t flags)
    (hpos : pos ≤ (Subject.text t).size) :
    ∀ h, n.found? (.bytes (Utf8.ofString t)) flags q = some h →
      h.Ahead (.bytes (Utf8.ofString t)) q := by
  have hahead : ∀ (n : Matcher κ) q h, n.pattern = m.pattern → q ≤ (Subject.text t).size →
      n.found? (.bytes (Utf8.ofString t)) flags q = some h →
      h.Ahead (.bytes (Utf8.ofString t)) q := by
    intro n q h hp hq hh
    have hbound : IsBoundary t.toList q := Classical.byContradiction fun hb => by
      obtain ⟨code, -, he⟩ := exec_inside (m := n) (hp ▸ hr) hq hb
      rw [found?_of_error he] at hh
      cases hh
    exact (found?_between rfl (hp ▸ hc) hbound hh).2
  have hq : q ≤ (Subject.text t).size :=
    hv.invariant (I := (· ≤ (Subject.text t).size)) hpos
      fun n q h hp hq hh _ => (hahead n q h hp hq hh).next_le
  exact fun h hh => hahead n q h hv.pattern hq hh

theorem found?_bytes_of_found? (h : Twin Engine.Steady m n) {hit : Hit}
    (hh : m.found? (.text t) flags pos = some hit) :
    n.found? (.bytes (Utf8.ofString t)) flags pos = some (.of (.bytes (Utf8.ofString t)) hit.span) := by
  have ha := agree_exec_tail h t flags pos
  unfold found? at hh ⊢
  rw [hit?_eq_map] at hh ⊢
  rw [← ha.matcher.whole]
  obtain ⟨g, hg, rfl⟩ := Option.map_eq_some_iff.1 hh
  rw [hg]; rfl

/-- The scan of the bytes from `pos` on fails, because the engine says that they are no text. -/
def FailsAsMalformed (n : Matcher κ) (t : String) (flags : MatchFlags) (pos : Nat) : Prop :=
  ∃ u code, Scans (.bytes (Utf8.ofString t)) flags n pos u ∧ Code.IsMalformed code ∧
    u.reply.result = .error (.engine code (Engine.explain κ code))

/-- Where a scan of the text skips a character of several bytes, a scan of the bytes makes its next
attempt inside of it. -/
theorem failsAsMalformed_of_found? (h : Twin Engine.Steady m n)
    (hr : Engine.Rejects m.pattern.code flags) {hit : Hit}
    (hh : m.found? (.text t) flags pos = some hit) (hs : hit.Skips t) :
    n.FailsAsMalformed t flags pos := by
  obtain ⟨hempty, hwide⟩ := hs
  have hlt : hit.span.start < (Utf8.ofString t).length := hwide.lt_size
  have hfound := found?_bytes_of_found? h hh
  have hnext : (Hit.of (.bytes (Utf8.ofString t)) hit.span).next = hit.span.start + 1 := by
    have hisEmpty : hit.span.isEmpty = true := beq_iff_eq.2 hempty
    rw [Hit.of, if_pos hisEmpty, ← hempty, unitAt_bytes hlt]
  have hreject : Engine.Rejects
      (n.exec ((Subject.bytes (Utf8.ofString t)).tail pos) flags).matcher.pattern.code flags := by
    rwa [exec_pattern, ← h.pattern]
  obtain ⟨code, hcode, hfail⟩ :=
    exec_inside (q := hit.span.start + 1) hreject hlt hwide.not_isBoundary
  have hrest : Scans (.bytes (Utf8.ofString t)) flags _ (hit.span.start + 1) _ := .fail rfl hfail
  rw [← hnext] at hrest
  exact ⟨_, code, .more rfl (exec_of_found? hfound) hfound (Nat.ne_of_lt hlt) hrest, hcode, rfl⟩

theorem Skips.scans_bytes (hs : m.Skips t flags pos) (h : Twin Engine.Steady m n)
    (hr : Engine.Rejects m.pattern.code flags) : n.FailsAsMalformed t flags pos := by
  obtain ⟨hits, k, q, hit, hv, hh, hskips⟩ := hs
  -- the first hit that skips makes the scan of the bytes fail; the hits before are those of the text
  induction hv generalizing n with
  | here => exact failsAsMalformed_of_found? h hr hh hskips
  | @next m k pos q first hits hfirst he hv ih =>
    by_cases hskip : first.Skips t
    · exact failsAsMalformed_of_found? h hr hfirst hskip
    · have ha := agree_exec_tail h t flags pos
      have hfound : n.found? (.bytes (Utf8.ofString t)) flags pos = some first := by
        obtain ⟨g, -, rfl⟩ := Option.map_eq_some_iff.1 ((hit?_eq_map _ _).symm.trans hfirst)
        rw [found?_bytes_of_found? h hfirst]
        exact congrArg some (Hit.of_bytes hskip)
      obtain ⟨u, code, hu, hcode, hresult⟩ := ih ha.matcher.toTwin (by rwa [exec_pattern]) hh
      exact ⟨_, code, .more rfl (exec_of_found? hfound) hfound he hu, hcode, hresult⟩

theorem FailsAsMalformed.operations (hf : n.FailsAsMalformed t flags 0) (hn : Fitted Engine.Steady n)
    (hr : Engine.Rejects n.pattern.code flags) (hc : Engine.BetweenOn n.pattern.code t flags) :
    ∃ code, Code.IsMalformed code ∧
      (∃ g, n.findIter (.bytes (Utf8.ofString t)) flags = some g ∧
        g.result = .error (.engine code (Engine.explain κ code))) ∧
      ∀ u, ∃ q, n.replaceAllBytes (Utf8.ofString t) u flags = some q ∧
        q.result = .error (.engine code (Engine.explain κ code)) := by
  obtain ⟨trail, code, ht, hcode, hresult⟩ := hf
  have hahead := fun hits k q (hv : Visits (.bytes (Utf8.ofString t)) flags n 0 hits k q) =>
    hv.ahead_bytes hr hc (Nat.zero_le _)
  have hscan : n.scan (.bytes (Utf8.ofString t)) flags = some trail :=
    scan_eq_some_iff.2 ⟨ht, ht.attempts_le hn hahead⟩
  refine ⟨code, hcode, ⟨_, findIter_of_scan hscan, map_result_eq_error_iff.2 hresult⟩, fun u => ?_⟩
  obtain ⟨q, hq⟩ := exists_copied ht u hahead
  refine ⟨q, by rw [replaceAllBytes, replace_eq_bind, hscan, Option.bind_some]; exact hq, ?_⟩
  obtain ⟨c, -, ⟨e, he, rfl⟩ | ⟨rest, out, hok, -⟩⟩ := Trail.copied_eq_some_iff.1 hq
  · cases hresult.symm.trans he; rfl
  · cases hresult.symm.trans hok

/-- **The bytes of a text in UTF mode.** Let an engine refuse what is no text and report offsets between
characters. If no empty match stands in front of a character of several bytes, a scan of the bytes of a
text makes all attempts on texts, finds what a scan of the text finds, and writes the bytes of what that
writes; if the engine refuses no text, it never says that the bytes are none. Behind the first such
match the scan of the bytes fails, since the engine says that they are no text. -/
theorem scan_bytes_in_utf_mode (hm : Reachable Engine.Steady m) (hn : Reachable Engine.Steady n)
    (hp : n.pattern = m.pattern) (hr : Engine.Rejects m.pattern.code flags)
    (hc : Engine.BetweenOn m.pattern.code t flags) :
    (¬ m.Skips t flags 0 →
      Option.Rel (fun f g => g.result = f.result) (m.findIter (.text t) flags)
        (n.findIter (.bytes (Utf8.ofString t)) flags) ∧
      (∀ u, Option.Rel (fun w q => q.result = w.result.map Utf8.ofString) (m.replaceAll t u flags)
        (n.replaceAllBytes (Utf8.ofString t) (Utf8.ofString u) flags)) ∧
      (∀ hits k q, Visits (.bytes (Utf8.ofString t)) flags n 0 hits k q →
        ∃ cs, ((Subject.bytes (Utf8.ofString t)).tail q).toBytes = Utf8.encode cs) ∧
      (Engine.Passes m.pattern.code flags →
        ∀ g code message, n.findIter (.bytes (Utf8.ofString t)) flags = some g →
          g.result = .error (.engine code message) → ¬ Code.IsMalformed code)) ∧
    (m.Skips t flags 0 → ∃ code, Code.IsMalformed code ∧
      (∃ g, n.findIter (.bytes (Utf8.ofString t)) flags = some g ∧
        g.result = .error (.engine code (Engine.explain κ code))) ∧
      ∀ u, ∃ q, n.replaceAllBytes (Utf8.ofString t) u flags = some q ∧
        q.result = .error (.engine code (Engine.explain κ code))) := by
  have htwin : Twin Engine.Steady m n :=
    ⟨hp.symm, hm.fitted fun c hc => hc.toBuffered, hn.fitted fun c hc => hc.toBuffered⟩
  refine ⟨fun hs => ?_, fun hs => ?_⟩
  · have hrel := rel_scan_bytes htwin hs
    have htexts : ∀ hits k q, Visits (.bytes (Utf8.ofString t)) flags n 0 hits k q →
        ∃ cs, ((Subject.bytes (Utf8.ofString t)).tail q).toBytes = Utf8.encode cs := by
      intro hits k q hv
      obtain ⟨j, hj, -⟩ := hv.of_bytes htwin hs
      obtain ⟨rest, hrest⟩ := Option.isSome_iff_exists.1 (hj.between hc (isBoundary_zero _)).1
      refine ⟨rest, ?_⟩
      rw [toBytes_tail_bytes, tail_text hrest, toBytes, Utf8.ofString_ofList]
    refine ⟨?_, fun u => ?_, htexts, ?_⟩
    · have hfind := rel_findIter hrel
      generalize m.findIter (.text t) flags = f at hfind ⊢
      generalize n.findIter (.bytes (Utf8.ofString t)) flags = g at hfind ⊢
      cases hfind with
      | none => exact .none
      | some h => exact .some h.result.symm
    · have hreplace := rel_replace hrel rfl (Utf8.ofString u)
      unfold replaceAllBytes
      generalize n.replace (.bytes (Utf8.ofString t)) (Utf8.ofString u) flags = q at hreplace ⊢
      cases hr : m.replace (.text t) (Utf8.ofString u) flags with
      | none =>
        rw [hr] at hreplace
        rw [replaceAll, hr]
        cases hreplace
        exact .none
      | some r =>
        rw [hr] at hreplace
        obtain ⟨w, hw, hresult⟩ := replaceAll_between hc hr
        rw [hw]
        cases hreplace with
        | some h => exact .some (h.result.symm.trans hresult)
    · intro hpass g code message hg hresult
      obtain ⟨trail, hscan, rfl⟩ := Option.map_eq_some_iff.1 hg
      obtain ⟨k, q, hv, herror, -⟩ :=
        (scan_eq_some_iff.1 hscan).1.error_visit (map_result_eq_error_iff.1 hresult)
      obtain ⟨cs, hcs⟩ := htexts _ _ _ hv
      have he := (exec_eq_error_iff.1 herror).2
      cases he
      rw [answer, hcs, hv.pattern, hp]
      exact hpass cs k.slots
  · exact (hs.scans_bytes htwin hr).operations htwin.right (hp ▸ hr) (hp ▸ hc)

def accents : Compiled Regex.Program := (Compiled.plain? "(*UTF)é*" 0).get (by decide +kernel)

def accentsMatcher : Matcher Regex.Program := { pattern := accents, slots := Array.replicate 1 none }

theorem reachable_accentsMatcher : Reachable Engine.Steady accentsMatcher :=
  .new (Regex.Program.steady _) .new rfl

theorem rejects_accents : Engine.Rejects accents.code ∅ :=
  Regex.Program.rejects (by decide +kernel) (by decide) (by decide)

/-- The empty match in front of `x` does no harm, the one in front of `ä` does. -/
theorem scan_bytes_in_utf_mode_accents :
    Engine.BetweenOn accents.code "xé" ∅ ∧ ¬ accentsMatcher.Skips "xé" ∅ 0 ∧
    Option.Rel (fun f g => g.result = f.result) (accentsMatcher.findIter (.text "xé") ∅)
      (accentsMatcher.findIter (.bytes (Utf8.ofString "xé")) ∅) ∧
    (accentsMatcher.findIter (.bytes (Utf8.ofString "xé")) ∅).bind (·.result.toOption) =
      some [⟨0, 0⟩, ⟨1, 3⟩, ⟨3, 3⟩] ∧
    Engine.BetweenOn accents.code "ä" ∅ ∧ accentsMatcher.Skips "ä" ∅ 0 ∧
    ∃ code, Code.IsMalformed code ∧
      ∃ g, accentsMatcher.findIter (.bytes (Utf8.ofString "ä")) ∅ = some g ∧
        g.result = .error (.engine code (Engine.explain Regex.Program code)) := by
  have hm := reachable_accentsMatcher
  have hc : Engine.BetweenOn accents.code "xé" ∅ := Regex.Program.betweenOn (by decide +kernel)
  have hc' : Engine.BetweenOn accents.code "ä" ∅ := Regex.Program.betweenOn (by decide +kernel)
  have hs : ¬ accentsMatcher.Skips "xé" ∅ 0 := by
    have hall : (accentsMatcher.scan (.text "xé") ∅).any fun t =>
        t.hits.all fun h => !decide (h.Skips "xé") := by decide +kernel
    obtain ⟨trail, hscan, hhits⟩ := (Option.any_eq_true _ _).1 hall
    rw [(scan_eq_some_iff.1 hscan).1.skips_iff]
    simpa using hhits
  have hs' : accentsMatcher.Skips "ä" ∅ 0 :=
    skips_of_found? (h := ⟨⟨0, 0⟩, 2⟩) (by decide +kernel) (by decide +kernel)
  obtain ⟨code, hcode, hfails, -⟩ :=
    (scan_bytes_in_utf_mode hm hm rfl rejects_accents hc').2 hs'
  exact ⟨hc, hs, ((scan_bytes_in_utf_mode hm hm rfl rejects_accents hc).1 hs).1, by decide +kernel,
    hc', hs', code, hcode, hfails⟩

/-- The first attempt finds nothing wrong with the bytes of `ä`, the second is made inside of it. -/
theorem findIter_bytes_fails_inside :
    Reachable Engine.Steady accentsMatcher ∧ Engine.Rejects accents.code ∅ ∧
    Engine.Passes accents.code ∅ ∧ Engine.BetweenOn accents.code "ä" ∅ ∧
    (accentsMatcher.exec (.bytes (Utf8.ofString "ä")) ∅).result.toOption = some true ∧
    (accentsMatcher.findIter (.text "ä") ∅).bind (·.result.toOption) = some [⟨0, 0⟩, ⟨2, 2⟩] ∧
    (accentsMatcher.findIter (.bytes (Utf8.ofString "ä")) ∅).any
      (·.result matches .error (.engine (-22) "UTF-8 error: isolated byte with 0x80 bit set")) ∧
    (accentsMatcher.replaceAll "ä" "-" ∅).bind (·.result.toOption) = some "-ä-" ∧
    (accentsMatcher.replaceAllBytes (Utf8.ofString "ä") (Utf8.ofString "-") ∅).any
      (·.result matches .error (.engine (-22) "UTF-8 error: isolated byte with 0x80 bit set")) :=
  ⟨reachable_accentsMatcher, rejects_accents, Regex.Program.passes _ _,
    Regex.Program.betweenOn (by decide +kernel), by decide +kernel, by decide +kernel,
    by decide +kernel, by decide +kernel, by decide +kernel⟩

end Matcher

end Rematch
