import Rematch.Proofs.Splice

/-! # A text and its bytes

A text can be scanned as such or as its bytes. The engine is given the same bytes either way, also where
a tail of the text is no text, so that the two scans can part in one place only: behind an empty match in
front of a character of several bytes, which the one skips as a whole and the other byte by byte
(`Hit.Skips`). Up to there they take the same course (`rel_scan_bytes`). -/

namespace Rematch

namespace Subject
variable {t : String} {cs : List Char} {p : Nat}

/-- A character of several bytes starts at the offset. -/
def WideAt (cs : List Char) (p : Nat) : Prop :=
  match dropBytes cs p with
  | some (c :: _) => 1 < c.utf8Size
  | _ => False

instance (cs : List Char) (p : Nat) : Decidable (WideAt cs p) := by
  unfold WideAt
  split <;> infer_instance

theorem wideAt_iff : WideAt cs p ↔ ∃ before c after,
    cs = before ++ c :: after ∧ (Utf8.encode before).length = p ∧ 1 < c.utf8Size := by
  unfold WideAt
  constructor
  · intro h
    split at h
    · next c after hd =>
      obtain ⟨before, hcs, hl⟩ := dropBytes_eq_some_iff.1 hd
      exact ⟨before, c, after, hcs, hl, h⟩
    · exact h.elim
  · rintro ⟨before, c, after, hcs, hl, hc⟩
    rw [dropBytes_eq_some_iff.2 ⟨before, hcs, hl⟩]
    exact hc

theorem WideAt.lt_size (h : WideAt t.toList p) : p < (Subject.text t).size := by
  obtain ⟨before, c, after, ht, rfl, hc⟩ := wideAt_iff.1 h
  simp only [size, toBytes, Utf8.ofString, ht, Utf8.encode_append, Utf8.encode_cons,
    List.length_append, String.length_utf8EncodeChar]
  omega

theorem not_wideAt_of_ascii (h : ∀ c ∈ cs, c.toNat < 0x80) : ¬ WideAt cs p := by
  rintro hw
  obtain ⟨before, c, after, rfl, -, hc⟩ := wideAt_iff.1 hw
  have hlt := h c (by simp)
  have hone : c.utf8Size = 1 := Char.utf8Size_eq_one_iff.2 (by
    rw [UInt32.le_iff_toNat_le]; exact Nat.le_of_lt_succ hlt)
  omega

/-- The unit of a text is a byte except where a character of several starts. -/
theorem unitAt_bytes_eq (h : ¬ WideAt t.toList p) :
    (Subject.bytes (Utf8.ofString t)).unitAt p = (Subject.text t).unitAt p := by
  by_cases hend : (Subject.text t).size ≤ p
  · exact (unitAt_of_le (s := .bytes (Utf8.ofString t)) hend).trans (unitAt_of_le hend).symm
  have hlt : p < (Utf8.ofString t).length := Nat.lt_of_not_le hend
  rw [unitAt_bytes hlt]
  cases hd : dropBytes t.toList p with
  | none => rw [unitAt_inside hlt hd]
  | some rest =>
    obtain ⟨before, ht, rfl⟩ := dropBytes_eq_some_iff.1 hd
    cases rest with
    | nil => exact absurd (Nat.le_of_eq (by simp [size, toBytes, Utf8.ofString, ht])) hend
    | cons c after =>
      have hc := c.utf8Size_pos
      have hone : ¬ 1 < c.utf8Size := fun hw => h (wideAt_iff.2 ⟨before, c, after, ht, rfl, hw⟩)
      rw [unitAt_text ht]
      omega

theorem toBytes_tail_bytes (t : String) (p : Nat) :
    ((Subject.bytes (Utf8.ofString t)).tail p).toBytes = ((Subject.text t).tail p).toBytes := by
  rw [toBytes_tail, toBytes_tail]
  rfl

end Subject

open Subject

/-- The hit of a match with this span: where the scan of the subject goes on behind it. -/
def Hit.of (subject : Subject) (span : Span) : Hit :=
  ⟨span, if span.isEmpty then span.stop + subject.unitAt span.stop else span.stop⟩

/-- The match is empty, and a character of several bytes stands behind it. -/
def Hit.Skips (t : String) (h : Hit) : Prop :=
  h.span.start = h.span.stop ∧ WideAt t.toList h.span.start

instance (t : String) : DecidablePred (Hit.Skips t) :=
  fun _ => inferInstanceAs (Decidable (_ ∧ _))

theorem Hit.of_bytes {t : String} {span : Span} (h : ¬ (Hit.of (.text t) span).Skips t) :
    Hit.of (.bytes (Utf8.ofString t)) span = Hit.of (.text t) span := by
  unfold Hit.of
  cases he : span.isEmpty with
  | false => rfl
  | true =>
    have heq : span.start = span.stop := by simpa [Span.isEmpty] using he
    rw [unitAt_bytes_eq fun hw => h ⟨heq, heq.symm ▸ hw⟩]

namespace Matcher
variable {κ : Type} [Engine κ] {m n : Matcher κ} {s s' : Subject} {t : String} {flags : MatchFlags}
variable {pos : Nat}

/-- The span of the last attempt, if it found a complete match. -/
def whole? (m : Matcher κ) : Option Span :=
  if m.outcome = .matched then m.captures.span? 0 else none

omit [Engine κ] in
theorem hit?_eq_map (subject : Subject) (pos : Nat) :
    m.hit? subject pos = m.whole?.map fun g => .of subject (g.shift pos) := by
  unfold hit? whole?
  split
  · show Option.map _ (Option.map _ (m.captures.span? 0)) = _
    rw [Option.map_map]; rfl
  · rfl

/-- An attempt on the same bytes in another form differs in the subject that it leaves and in nothing
else. -/
theorem exec_of_toBytes_eq (h : s'.toBytes = s.toBytes) :
    m.exec s' flags = ⟨(m.exec s flags).result, { (m.exec s flags).matcher with subject := s' },
      (m.exec s flags).events⟩ := by
  unfold exec
  simp only [h, Subject.size]
  cases classify (Engine.attempt m.pattern.code s.toBytes flags m.slots).1 <;> rfl

/-- The scan of the text from `pos` on finds a hit at which it skips a character of several bytes. -/
def Skips (m : Matcher κ) (t : String) (flags : MatchFlags) (pos : Nat) : Prop :=
  ∃ hits k q h, Visits (.text t) flags m pos hits k q ∧ k.found? (.text t) flags q = some h ∧ h.Skips t

theorem skips_of_found? {h : Hit} (hh : m.found? (.text t) flags pos = some h) (hs : h.Skips t) :
    m.Skips t flags pos :=
  ⟨[], m, pos, h, .here m pos, hh, hs⟩

theorem Scans.skips_iff {trail : Trail κ} (ht : Scans (.text t) flags m pos trail) :
    m.Skips t flags pos ↔ ∃ h ∈ trail.hits, h.Skips t := by
  constructor
  · rintro ⟨hits, k, q, h, hv, hh, hs⟩
    exact ⟨h, ht.mem_of_visit hv hh, hs⟩
  · rintro ⟨h, hmem, hs⟩
    obtain ⟨hits, k, q, hv, hh⟩ := ht.visit_of_mem hmem
    exact ⟨hits, k, q, h, hv, hh, hs⟩

theorem Skips.before {h : Hit} (hh : m.found? (.text t) flags pos = some h)
    (he : h.span.start ≠ (Subject.text t).size)
    (hs : (m.exec ((Subject.text t).tail pos) flags).matcher.Skips t flags h.next) :
    m.Skips t flags pos := by
  obtain ⟨hits, k, q, hit, hv, hfound, hskips⟩ := hs
  exact ⟨h :: hits, k, q, hit, .next hh he hv, hfound, hskips⟩

/-- Twins that found the same complete match, if any. -/
structure Abreast (m n : Matcher κ) : Prop extends Twin Engine.Steady m n where
  whole : m.whole? = n.whole?

theorem agree_exec_of_toBytes_eq (h : Twin Engine.Steady m n) (hs : s'.toBytes = s.toBytes) :
    (m.exec s flags).Agree Abreast (n.exec s' flags) := by
  obtain ⟨hresult, hevents, ha⟩ := agree_exec (fun _ h => h) h s flags
  rw [exec_of_toBytes_eq hs]
  refine ⟨hresult, hevents, ⟨⟨ha.pattern, ha.left, ha.right.good, ha.right.fits⟩, ?_⟩⟩
  show whole? _ = whole? (n.exec s flags).matcher
  rw [whole?, whole?, ha.outcome, ha.toShown.span? 0]

theorem agree_exec_tail (h : Twin Engine.Steady m n) (t : String) (flags : MatchFlags) (pos : Nat) :
    (m.exec ((Subject.text t).tail pos) flags).Agree Abreast
      (n.exec ((Subject.bytes (Utf8.ofString t)).tail pos) flags) :=
  agree_exec_of_toBytes_eq h (toBytes_tail_bytes t pos)

theorem found?_bytes (h : Twin Engine.Steady m n) (hs : ¬ m.Skips t flags pos) :
    n.found? (.bytes (Utf8.ofString t)) flags pos = m.found? (.text t) flags pos := by
  have ha := agree_exec_tail h t flags pos
  unfold found?
  rw [hit?_eq_map, hit?_eq_map, ← ha.matcher.whole]
  refine Option.map_congr fun g hg => Hit.of_bytes fun hskips => hs ?_
  exact skips_of_found? (by rw [found?, hit?_eq_map, hg]; rfl) hskips

/-- A scan of a text that skips no character of several bytes takes the course of that of its bytes. -/
theorem rel_scan_bytes (h : Twin Engine.Steady m n) (hs : ¬ m.Skips t flags 0) :
    Option.Rel (TrailAgree Abreast) (m.scan (.text t) flags)
      (n.scan (.bytes (Utf8.ofString t)) flags) := by
  show Option.Rel _ (scanFrom (.text t) flags ((Subject.text t).size + 1) m 0)
    (scanFrom (.bytes (Utf8.ofString t)) flags ((Subject.text t).size + 1) n 0)
  refine rel_scanFrom (I := fun m n pos => Twin Engine.Steady m n ∧ ¬ m.Skips t flags pos)
    ?_ ?_ ?_ _ ⟨h, hs⟩
  · rfl
  · rintro m n pos ⟨h, hs⟩
    exact ⟨agree_exec_tail h t flags pos, found?_bytes h hs⟩
  · rintro m n pos hit ⟨h, hs⟩ hh he
    have ha := agree_exec_tail h t flags pos
    exact ⟨ha.matcher.toTwin, fun hskips => hs (hskips.before hh he)⟩

/-- **A text and its bytes.** Of two matchers bound to one pattern, whatever was done with them, let one
work on a text and the other on its bytes. If no empty match stands in front of a character of several
bytes, as in a text of ASCII alone, they find the same spans or fail with the same error, and write the
same bytes; and what replaces all matches in the text is the text with these bytes, or the error that
describes them. -/
theorem scan_bytes_eq_scan_text (hm : Reachable Engine.Steady m) (hn : Reachable Engine.Steady n)
    (hp : n.pattern = m.pattern) (hc : Engine.OrderlyOn m.pattern.code (.text t) flags) :
    ∃ trail, m.scan (.text t) flags = some trail ∧
      ((∀ c ∈ t.toList, c.toNat < 0x80) → ∀ h ∈ trail.hits, ¬ h.Skips t) ∧
      ((∀ h ∈ trail.hits, ¬ h.Skips t) →
        (∃ f g, m.findIter (.text t) flags = some f ∧
          n.findIter (.bytes (Utf8.ofString t)) flags = some g ∧ g.result = f.result) ∧
        ∀ replacement, ∃ r q, m.replace (.text t) replacement flags = some r ∧
          n.replaceAllBytes (Utf8.ofString t) replacement flags = some q ∧ q.result = r.result ∧
          ∀ u, replacement = Utf8.ofString u → ∃ w, m.replaceAll t u flags = some w ∧
            (∀ e, q.result = .error e → w.result = .error e) ∧
            ∀ out, q.result = .ok out → (∀ v, w.result = .ok v ↔ Utf8.ofString v = out) ∧
              ∀ e, w.result = .error e ↔ ∃ i, e = .utf8 i ∧ i.Describes out) := by
  have htwin : Twin Engine.Steady m n :=
    ⟨hp.symm, hm.fitted fun c hc => hc.toBuffered, hn.fitted fun c hc => hc.toBuffered⟩
  obtain ⟨trail, ht, hle⟩ := exists_scans hc (Nat.zero_le _)
  have hscan : m.scan (.text t) flags = some trail := scan_eq_some_iff.2 ⟨ht, hle⟩
  refine ⟨trail, hscan, fun hascii h _ hs => not_wideAt_of_ascii hascii hs.2, fun hs => ?_⟩
  have hrel : Option.Rel (TrailAgree Abreast) _ _ := rel_scan_bytes htwin fun hskips =>
    let ⟨h, hmem, hskip⟩ := ht.skips_iff.1 hskips; hs h hmem hskip
  constructor
  · have hfind := rel_findIter hrel
    rw [findIter_of_scan hscan] at hfind ⊢
    generalize n.findIter (.bytes (Utf8.ofString t)) flags = g at hfind ⊢
    cases hfind with
    | some h => exact ⟨_, _, rfl, rfl, h.result.symm⟩
  · intro replacement
    obtain ⟨c, -, -, -, hreplace⟩ := replace_of_scan hc hscan replacement
    have hbytes := rel_replace hrel rfl replacement
    rw [hreplace] at hbytes
    unfold replaceAllBytes
    generalize n.replace (.bytes (Utf8.ofString t)) replacement flags = q at hbytes ⊢
    cases hbytes with
    | some h =>
      refine ⟨_, _, hreplace, rfl, h.result.symm, ?_⟩
      rintro u rfl
      obtain ⟨w, hw, herror, hok⟩ := replaceAll_result hreplace
      exact ⟨w, hw, fun e he => herror e (h.result.trans he), fun out ho => hok out (h.result.trans ho)⟩

def firstByteOrNone : Compiled Regex.Program := (Compiled.plain? "\\xc3|" 0).get (by decide +kernel)

/-- The first byte of the second character is a match, so that the third attempt is made inside of it. -/
theorem scan_bytes_eq_scan_text_inside :
    let m : Matcher Regex.Program := { pattern := firstByteOrNone, slots := Array.replicate 1 none }
    let n := (m.exec (.text "é") ∅).matcher
    Reachable Engine.Steady m ∧ Reachable Engine.Steady n ∧ n.pattern = firstByteOrNone ∧
    Engine.OrderlyOn firstByteOrNone.code (.text "xé") ∅ ∧
    (∃ trail, m.scan (.text "xé") ∅ = some trail ∧ (∀ h ∈ trail.hits, ¬ h.Skips "xé") ∧
      ∃ f g, m.findIter (.text "xé") ∅ = some f ∧
        n.findIter (.bytes (Utf8.ofString "xé")) ∅ = some g ∧ g.result = f.result) ∧
    (n.findIter (.bytes (Utf8.ofString "xé")) ∅).bind (·.result.toOption) =
      some [⟨0, 0⟩, ⟨1, 2⟩, ⟨2, 2⟩, ⟨3, 3⟩] := by
  intro m n
  have hm : Reachable Engine.Steady m :=
    .new (Regex.Program.steady _) .new rfl
  have hn : Reachable Engine.Steady n := hm.exec _ _
  have hc : Engine.OrderlyOn firstByteOrNone.code (.text "xé") ∅ :=
    Regex.Program.orderlyOn (by decide +kernel)
  obtain ⟨trail, ht, -, hsame⟩ := scan_bytes_eq_scan_text hm hn rfl hc
  have hs : ∀ h ∈ trail.hits, ¬ h.Skips "xé" := by
    have hall : (m.scan (.text "xé") ∅).all (fun t => t.hits.all fun h => !decide (h.Skips "xé")) := by
      decide +kernel
    rw [ht] at hall
    simpa using hall
  exact ⟨hm, hn, rfl, hc, ⟨trail, ht, hs, (hsame hs).1⟩, by decide +kernel⟩

end Matcher

end Rematch
