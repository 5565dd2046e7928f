import Rematch.Proofs.Failure
import Rematch.Proofs.Splice

/-! # Scans of a text keep to its characters

If an engine reports matches between characters only, a scan of a text is made of texts: wherever it
comes there is a boundary (`Visits.aligned`), so that each tail is a text again, and what a hit skips is
a character. Characters are then what limits the attempts, and pieces between boundaries are texts that
a replacement puts together to a text (`Row.exists_text`). -/

namespace Rematch

namespace Subject
variable {t : String} {cs rest : List Char} {p q : Nat}

theorem isBoundary_add (h : dropBytes cs p = some rest) :
    IsBoundary cs (p + q) ↔ IsBoundary rest q := by
  rw [IsBoundary, IsBoundary, dropBytes_add h]

theorem isBoundary_zero (cs : List Char) : IsBoundary cs 0 :=
  isBoundary_iff.2 ⟨[], cs, rfl, rfl⟩

theorem isBoundary_le (h : IsBoundary cs p) : p ≤ (Utf8.encode cs).length := by
  obtain ⟨before, after, rfl, rfl⟩ := isBoundary_iff.1 h
  simp

theorem tail_text (h : dropBytes t.toList p = some rest) :
    (Subject.text t).tail p = .text (String.ofList rest) := by
  simp only [tail, h]

theorem isBoundary_unitAt (h : IsBoundary t.toList p) :
    IsBoundary t.toList (p + (Subject.text t).unitAt p) := by
  obtain ⟨before, after, ht, rfl⟩ := isBoundary_iff.1 h
  cases after with
  | nil =>
    rw [List.append_nil] at ht
    rwa [unitAt_of_le (Nat.le_of_eq (by rw [size, toBytes, Utf8.ofString, ht]))]
  | cons c after =>
    rw [unitAt_text ht]
    exact isBoundary_iff.2 ⟨before ++ [c], after, by simp [ht], by simp⟩

theorem exists_slice (hp : IsBoundary cs p) (hq : IsBoundary cs q) (hpq : p ≤ q) :
    ∃ mid, (Utf8.encode cs : Bytes).slice p q = Utf8.encode mid := by
  obtain ⟨rest, hrest⟩ := Option.isSome_iff_exists.1 hp
  have hbound : IsBoundary rest (q - p) :=
    (isBoundary_add hrest).1 (by rwa [Nat.add_sub_cancel' hpq])
  obtain ⟨before, rfl, rfl⟩ := dropBytes_eq_some_iff.1 hrest
  obtain ⟨mid, after, rfl, hl⟩ := isBoundary_iff.1 hbound
  have hq' : q = (Utf8.encode before ++ Utf8.encode mid).length := by
    rw [List.length_append, hl]; omega
  refine ⟨mid, ?_⟩
  rw [Bytes.slice, Utf8.encode_append, Utf8.encode_append, ← List.append_assoc, hq',
    List.take_left, List.drop_left]

/-- How many characters stand behind an offset that splits none. -/
def charsLeft (t : String) (pos : Nat) : Nat := ((dropBytes t.toList pos).getD []).length

@[simp] theorem charsLeft_zero (t : String) : charsLeft t 0 = t.length := by
  rw [charsLeft, dropBytes, Option.getD_some, String.length_toList]

theorem length_le_size (t : String) : t.length ≤ (Subject.text t).size := by
  have hle : ∀ cs : List Char, cs.length ≤ (Utf8.encode cs).length := by
    intro cs
    induction cs with
    | nil => exact Nat.zero_le _
    | cons c cs ih =>
      have := c.utf8Size_pos
      simp only [Utf8.encode_cons, List.length_append, String.length_utf8EncodeChar, List.length_cons]
      omega
  rw [← String.length_toList]
  exact hle t.toList

theorem charsLeft_lt (hp : IsBoundary t.toList p) (hq : IsBoundary t.toList q) (hpq : p < q) :
    charsLeft t q < charsLeft t p := by
  obtain ⟨rest, hrest⟩ := Option.isSome_iff_exists.1 hp
  obtain ⟨after, hafter⟩ := Option.isSome_iff_exists.1 hq
  rw [charsLeft, charsLeft, hrest, hafter]
  rw [← Nat.add_sub_cancel' (Nat.le_of_lt hpq), dropBytes_add hrest] at hafter
  obtain ⟨mid, rfl, hl⟩ := dropBytes_eq_some_iff.1 hafter
  cases mid with
  | nil => rw [Utf8.encode_nil, List.length_nil] at hl; omega
  | cons c mid =>
    rw [Option.getD_some, Option.getD_some, List.length_append, List.length_cons]
    omega

end Subject

open Subject

/-- The offsets are in order, and neither splits a character. -/
def Span.Aligned (cs : List Char) (g : Span) : Prop :=
  g.start ≤ g.stop ∧ IsBoundary cs g.start ∧ IsBoundary cs g.stop

instance (cs : List Char) : DecidablePred (Span.Aligned cs) :=
  fun _ => inferInstanceAs (Decidable (_ ∧ _))

/-- On every text that can stand behind an offset of a text, the engine reports matches between
characters. -/
def Engine.AlignedOn {κ : Type} [Engine κ] (c : κ) (t : String) (flags : MatchFlags) : Prop :=
  ∀ cs, cs <:+ t.toList → Reports c (Utf8.encode cs) flags (Span.Aligned cs)

theorem Regex.Program.alignedOn {p : Regex.Program} {t : String} {flags : MatchFlags}
    (h : ∀ k ≤ t.toList.length, (p.search (Utf8.encode (t.toList.drop k)) flags).Meets
      (Span.Aligned (t.toList.drop k))) : Engine.AlignedOn p t flags := by
  intro cs hcs
  rw [List.suffix_iff_eq_drop.1 hcs]
  exact reports_of_search (h _ (Nat.sub_le _ _))

/-- A sound hit of an attempt in a text that splits no character. -/
structure Hit.Aligned (t : String) (pos : Nat) (h : Hit) : Prop extends h.Sound (.text t) pos where
  start_boundary : IsBoundary t.toList h.span.start
  stop_boundary : IsBoundary t.toList h.span.stop
  next_boundary : IsBoundary t.toList h.next

theorem Hit.Aligned.of_span {t : String} {pos : Nat} {rest : List Char} {h : Hit} {g : Span}
    (hrest : dropBytes t.toList pos = some rest) (hg : g.Aligned rest) (hspan : h.span = g.shift pos)
    (hnext : h.next =
      if h.span.isEmpty then h.span.stop + (Subject.text t).unitAt h.span.stop else h.span.stop) :
    h.Aligned t pos := by
  obtain ⟨horder, hstart, hstop⟩ := hg
  have hstart' : IsBoundary t.toList h.span.start := by
    rw [hspan]; exact (isBoundary_add hrest).2 hstart
  have hstop' : IsBoundary t.toList h.span.stop := by
    rw [hspan]; exact (isBoundary_add hrest).2 hstop
  refine ⟨⟨?_, ?_, isBoundary_le hstop', hnext⟩, hstart', hstop', ?_⟩
  · rw [hspan]; exact Nat.le_add_right _ _
  · rw [hspan]; exact Nat.add_le_add_left horder pos
  · rw [hnext]
    split
    · exact isBoundary_unitAt hstop'
    · exact hstop'

/-- A text with texts in the place of spans between its characters is a text. -/
theorem Row.exists_text {t u : String} {pos rest : Nat} {hits : List Hit}
    (h : Row (.text t) pos hits rest)
    (ha : ∀ q ∈ hits, IsBoundary t.toList q.span.start ∧ IsBoundary t.toList q.span.stop)
    {last : Nat} (hl : last ≤ pos) (hb : IsBoundary t.toList last) :
    ∃ cs, (Utf8.ofString t).splice (Utf8.ofString u) last (hits.map Hit.span) = Utf8.encode cs := by
  induction h generalizing last with
  | nil =>
    obtain ⟨before, after, ht, rfl⟩ := isBoundary_iff.1 hb
    refine ⟨after, ?_⟩
    rw [List.map_nil, Bytes.splice, Utf8.ofString, ht, Utf8.encode_append, List.drop_left]
  | @cons pos rest h hits hs he hr ih =>
    obtain ⟨hstart, hstop⟩ := ha h List.mem_cons_self
    obtain ⟨mid, hmid⟩ := exists_slice hb hstart (Nat.le_trans hl hs.start)
    obtain ⟨cs, hcs⟩ := ih (fun q hq => ha q (List.mem_cons_of_mem _ hq)) hs.next_bounds.1 hstop
    refine ⟨mid ++ u.toList ++ cs, ?_⟩
    rw [List.map_cons, Bytes.splice, hcs, Utf8.encode_append, Utf8.encode_append, ← hmid]
    rfl

namespace Matcher
variable {κ : Type} [Engine κ] {t : String} {flags : MatchFlags} {m n : Matcher κ}
variable {pos q : Nat} {hits : List Hit} {h : Hit}

theorem found?_aligned (hc : Engine.AlignedOn m.pattern.code t flags) (hpos : IsBoundary t.toList pos)
    (hh : m.found? (.text t) flags pos = some h) : h.Aligned t pos := by
  obtain ⟨rest, hrest⟩ := Option.isSome_iff_exists.1 hpos
  obtain ⟨before, ht, -⟩ := dropBytes_eq_some_iff.1 hrest
  have hbytes : (Subject.text t).toBytes.drop pos = Utf8.encode rest := by
    rw [← Subject.toBytes_tail, tail_text hrest, toBytes, Utf8.ofString_ofList]
  obtain ⟨g, hg, hspan, hnext⟩ := found?_reports (hbytes ▸ hc rest ⟨before, ht.symm⟩) hh
  exact .of_span hrest hg hspan hnext

/-- Wherever a scan of a text comes is a boundary, and so is where the hit leads that it finds. -/
theorem Visits.aligned (hv : Visits (.text t) flags m pos hits n q)
    (hc : Engine.AlignedOn m.pattern.code t flags) (hpos : IsBoundary t.toList pos) :
    IsBoundary t.toList q ∧ ∀ h, n.found? (.text t) flags q = some h → h.Aligned t q := by
  have hq : IsBoundary t.toList q :=
    hv.invariant (I := IsBoundary t.toList) hpos fun n q h hp hq hh _ =>
      (found?_aligned (hp ▸ hc) hq hh).next_boundary
  exact ⟨hq, fun h hh => found?_aligned (hv.pattern ▸ hc) hq hh⟩

theorem Visits.charsLeft_lt (hv : Visits (.text t) flags m pos hits n q)
    (hc : Engine.AlignedOn m.pattern.code t flags) (hpos : IsBoundary t.toList pos)
    (hh : n.found? (.text t) flags q = some h) (he : h.span.start ≠ (Subject.text t).size) :
    charsLeft t h.next < charsLeft t q := by
  obtain ⟨hq, haligned⟩ := hv.aligned hc hpos
  have ha := haligned h hh
  refine Subject.charsLeft_lt hq ha.next_boundary ?_
  exact Nat.lt_of_le_of_lt ha.start (ha.toSound.next_bounds.2.2 he)

theorem Visits.length_add_charsLeft (hv : Visits (.text t) flags m pos hits n q)
    (hc : Engine.AlignedOn m.pattern.code t flags) (hpos : IsBoundary t.toList pos) :
    hits.length + charsLeft t q ≤ charsLeft t pos := by
  induction hv with
  | here => exact Nat.le_of_eq (Nat.zero_add _)
  | @next m n pos q h hits hh he hv ih =>
    have hlt := Visits.charsLeft_lt (.here m pos) hc hpos hh he
    have hle := ih (by rwa [exec_pattern]) (found?_aligned hc hpos hh).next_boundary
    rw [List.length_cons]
    omega

/-- A scan of a text ends after as many attempts as it has characters, and one more, and leaves a row of
hits that split none of them. -/
theorem exists_scan_aligned (hc : Engine.AlignedOn m.pattern.code t flags) :
    ∃ trail rest, m.scan (.text t) flags = some trail ∧ trail.attempts ≤ t.length + 1 ∧
      Row (.text t) 0 trail.hits rest ∧ (∀ k, trail.reply.result = .ok k → k = rest) ∧
      ∀ h ∈ trail.hits, ∃ q, h.Aligned t q := by
  have hzero := isBoundary_zero t.toList
  obtain ⟨trail, ht, hle⟩ : ∃ u, Scans (.text t) flags m 0 u ∧ u.attempts ≤ charsLeft t 0 + 1 :=
    exists_scans_of_measure (charsLeft t) fun hits n q h hv hh he => hv.charsLeft_lt hc hzero hh he
  rw [charsLeft_zero] at hle
  obtain ⟨rest, hrow, hrest⟩ := ht.row_of_sound (Nat.zero_le _)
    fun hits n q hv h hh => ((hv.aligned hc hzero).2 h hh).toSound
  have hlimit : trail.attempts ≤ (Subject.text t).size + 1 :=
    Nat.le_trans hle (Nat.succ_le_succ (length_le_size t))
  refine ⟨trail, rest, scan_eq_some_iff.2 ⟨ht, hlimit⟩, hle, hrow, hrest, fun h hmem => ?_⟩
  obtain ⟨hits, n, q, hv, hfound⟩ := ht.visit_of_mem hmem
  exact ⟨q, (hv.aligned hc hzero).2 h hfound⟩

/-- A replacement of text by text along characters is a text, unless the engine fails. -/
theorem exists_replaceAll_aligned (hc : Engine.AlignedOn m.pattern.code t flags) (u : String) :
    ∃ r, m.replaceAll t u flags = some r ∧ r.events.length ≤ t.length + 1 ∧
      ∀ e, r.result ≠ .error (.utf8 e) := by
  obtain ⟨trail, rest, hscan, hle, hrow, hrest, haligned⟩ := exists_scan_aligned hc
  obtain ⟨c, -, -, hreplace⟩ := replace_of_row hscan hrow hrest (Utf8.ofString u)
  obtain ⟨r, hr, herror, hok⟩ := replaceAll_result hreplace
  have hevents : r.events = trail.reply.events := by
    rw [replaceAll, hreplace] at hr
    cases hr; rfl
  refine ⟨r, hr, hevents ▸ hle, fun e he => ?_⟩
  cases hresult : trail.reply.result with
  | error e' =>
    -- the scan's own errors are those of the engine
    have hfails : r.result = .error e' := herror e' (map_result_eq_error_iff.2 hresult)
    obtain ⟨n, q, -, hx, -⟩ := (scan_eq_some_iff.1 hscan).1.error_visit hresult
    rw [hfails, (exec_eq_error_iff.1 hx).2] at he
    cases he
  | ok k =>
    obtain ⟨cs, hcs⟩ := hrow.exists_text (u := u)
      (fun h hmem => (haligned h hmem).elim fun _ ha => ⟨ha.start_boundary, ha.stop_boundary⟩)
      (Nat.le_refl 0) (isBoundary_zero t.toList)
    have htext : r.result = .ok (String.ofList cs) := by
      refine ((hok _ (by rw [Reply.map, hresult]; rfl)).1 _).2 ?_
      rw [Utf8.ofString_ofList]
      exact hcs.symm
    rw [htext] at he
    cases he

/-- **Scans of a text keep to its characters.** Let an engine report matches between characters. Then a
search or a replacement in a text makes all attempts on texts, each from a boundary on, no more than the
text has characters, and one; every hit leads to a boundary; and what a replacement writes is a text. -/
theorem scan_keeps_to_characters (m : Matcher κ) (t u : String) (flags : MatchFlags)
    (hc : Engine.AlignedOn m.pattern.code t flags) :
    (∃ trail, m.scan (.text t) flags = some trail ∧ trail.attempts ≤ t.length + 1 ∧
      ∀ h ∈ trail.hits, IsBoundary t.toList h.next) ∧
    (∀ op, op = .findIter (.text t) flags ∨ op = .replaceAll t u flags →
      ∀ k n s, Tries m op k n s → k ≤ t.length ∧
        ∃ q rest, IsBoundary t.toList q ∧ s = (Subject.text t).tail q ∧ s = .text rest) ∧
    (∃ r, m.findIter (.text t) flags = some r ∧ r.events.length ≤ t.length + 1) ∧
    ∃ r, m.replaceAll t u flags = some r ∧ r.events.length ≤ t.length + 1 ∧
      ∀ e, r.result ≠ .error (.utf8 e) := by
  have hzero := isBoundary_zero t.toList
  obtain ⟨trail, -, hscan, hle, -, -, haligned⟩ := exists_scan_aligned hc
  refine ⟨⟨trail, hscan, hle, fun h hmem => ?_⟩, ?_, ?_, exists_replaceAll_aligned hc u⟩
  · obtain ⟨q, ha⟩ := haligned h hmem
    exact ha.next_boundary
  · have htries : ∀ hits n q, Visits (.text t) flags m 0 hits n q → hits.length ≤ t.length ∧
        ∃ p rest, IsBoundary t.toList p ∧ (Subject.text t).tail q = (Subject.text t).tail p ∧
          (Subject.text t).tail q = .text rest := by
      intro hits n q hv
      have hlen := hv.length_add_charsLeft hc hzero
      rw [charsLeft_zero] at hlen
      have hq := (hv.aligned hc hzero).1
      obtain ⟨rest, hrest⟩ := Option.isSome_iff_exists.1 hq
      exact ⟨by omega, q, _, hq, rfl, tail_text hrest⟩
    rintro op (rfl | rfl) k n s ht
    · cases ht with | findIter hv => exact htries _ _ _ hv
    · cases ht with | replaceAll hv => exact htries _ _ _ hv
  · exact ⟨_, findIter_of_scan hscan, hle⟩

/-- Characters of one to four bytes: there is an attempt before each of them, and one at the end. -/
theorem scan_keeps_to_characters_letters :
    let m : Matcher Regex.Program := { pattern := letters, slots := Array.replicate 1 none }
    Engine.AlignedOn letters.code "yé€😀" ∅ ∧
    (∃ r, m.replaceAll "yé€😀" "ß" ∅ = some r ∧ r.events.length ≤ 5 ∧
      ∀ e, r.result ≠ .error (.utf8 e)) ∧
    (m.replaceAll "yé€😀" "ß" ∅).map (fun r => (r.result.toOption, r.events.length)) =
      some (some "ßyßéß€ß😀ß", 5) := by
  intro m
  have hc : Engine.AlignedOn letters.code "yé€😀" ∅ := Regex.Program.alignedOn (by decide +kernel)
  exact ⟨hc, (scan_keeps_to_characters m "yé€😀" "ß" ∅ hc).2.2.2, by decide +kernel⟩

end Matcher

end Rematch
