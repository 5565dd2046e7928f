import Rematch.Proofs.Splice

/-! # Scanning from one match to the next

A scan goes on in the subject that it was given, and counts from its start. It might as well be made
anew on the tail behind each hit: hits, spans and copies of a tail are those of the subject, shifted by
the length of what was cut off (`Scans.of_tail`), provided that the cut splits no character. The first
attempt and the scan of the tail behind it make up the whole (`scan_unfolds`). -/

namespace Rematch

/-- The same hit in a subject whose first `n` bytes are counted too. -/
def Hit.shift (h : Hit) (n : Nat) : Hit := ⟨h.span.shift n, n + h.next⟩

theorem Hit.map_span_shift (hits : List Hit) (n : Nat) :
    (hits.map (·.shift n)).map Hit.span = (hits.map Hit.span).map (·.shift n) := by
  rw [List.map_map, List.map_map]; rfl

namespace Bytes

theorem slice_drop (b : Bytes) (p start stop : Nat) :
    slice (b.drop p) start stop = b.slice (p + start) (p + stop) := by
  rw [slice, slice, List.take_drop, List.drop_drop]

theorem slice?_of_drop {b c : Bytes} {p start stop : Nat} (hp : p ≤ b.length)
    (h : slice? (b.drop p) start stop = some c) : b.slice? (p + start) (p + stop) = some c := by
  obtain ⟨⟨horder, hstop⟩, rfl⟩ := slice?_eq_some_iff.1 h
  rw [List.length_drop] at hstop
  exact slice?_eq_some_iff.2 ⟨⟨by omega, by omega⟩, (slice_drop b p start stop).symm⟩

theorem splice_drop (b replacement : Bytes) (p last : Nat) (spans : List Span) :
    splice (b.drop p) replacement last spans =
      b.splice replacement (p + last) (spans.map (·.shift p)) := by
  induction spans generalizing last with
  | nil => simp only [List.map_nil, splice, List.drop_drop]
  | cons r spans ih =>
    simp only [List.map_cons, splice, Span.shift_start, Span.shift_stop, slice_drop, ih]

end Bytes

theorem Engine.OrderlyOn.tail {κ : Type} [Engine κ] {c : κ} {subject : Subject} {flags : MatchFlags}
    (hc : OrderlyOn c subject flags) {p : Nat} (hp : p ≤ subject.size) :
    OrderlyOn c (subject.tail p) flags := by
  intro q hq
  rw [Subject.size_tail] at hq
  rw [Subject.toBytes_tail, List.drop_drop]
  exact hc (p + q) (by omega)

namespace Matcher
variable {κ : Type} [Engine κ] {subject : Subject} {flags : MatchFlags} {m n : Matcher κ}
variable {p q : Nat} {t u : Trail κ}

omit [Engine κ] in
theorem hit?_tail (hs : subject.Splits p) (q : Nat) :
    m.hit? subject (p + q) = (m.hit? (subject.tail p) q).map (·.shift p) := by
  unfold hit?
  split
  · cases m.group? 0 with
    | none => rfl
    | some g =>
      have hspan : g.span.shift (p + q) = (g.span.shift q).shift p := (Span.shift_shift _ _ _).symm
      simp only [Option.map_some, Hit.shift, hspan, Span.isEmpty_shift, Span.shift_stop,
        Subject.unitAt_tail hs, Nat.add_assoc, Option.some.injEq, Hit.mk.injEq, true_and]
      split <;> rfl
  · rfl

/-- A scan of a tail is a scan of the subject from there on, whatever the matchers did before. -/
theorem Scans.of_tail (hs : subject.Splits p) (hp : p ≤ subject.size)
    (hu : Scans (subject.tail p) flags n q u) (hmn : Twin Engine.Steady m n) :
    ∃ t, Scans subject flags m (p + q) t ∧ t.hits = u.hits.map (·.shift p) ∧
      t.reply.result = u.reply.result.map (p + ·) := by
  -- the attempts are made on the same tails, so that twins answer them alike
  have hx : ∀ {m n : Matcher κ} {q : Nat} {r : Reply κ Bool}, Twin Engine.Steady m n →
      n.exec ((subject.tail p).tail q) flags = r →
      (m.exec (subject.tail (p + q)) flags).Agree (Alike Engine.Steady) r := by
    intro m n q r hmn hr
    rw [← hr, Subject.tail_tail hs]
    exact agree_exec (fun _ h => h) hmn _ flags
  have hhit : ∀ {m n : Matcher κ} {q : Nat} {h? : Option Hit}, Alike Engine.Steady m n →
      n.hit? (subject.tail p) q = h? → m.hit? subject (p + q) = h?.map (·.shift p) := by
    intro m n q h? ha hh
    rw [hit?_tail hs, ha.hit?, hh]
  have hend : ∀ h : Hit, (h.shift p).span.start = subject.size ↔
      h.span.start = (subject.tail p).size := by
    intro h
    rw [Subject.size_tail]
    show p + h.span.start = subject.size ↔ _
    omega
  induction hu generalizing m with
  | fail hr he =>
    have ha := hx hmn hr
    exact ⟨_, .fail rfl (ha.result.trans he), rfl, rfl⟩
  | stop hr hb hh =>
    have ha := hx hmn hr
    exact ⟨_, .stop rfl (ha.result.trans hb) (hhit ha.matcher hh), rfl, rfl⟩
  | last hr hb hh he =>
    have ha := hx hmn hr
    exact ⟨_, .last rfl (ha.result.trans hb) (hhit ha.matcher hh) ((hend _).2 he), rfl, rfl⟩
  | more hr hb hh he hu ih =>
    have ha := hx hmn hr
    obtain ⟨t, ht, hhits, hresult⟩ := ih ha.matcher.toTwin
    refine ⟨_, .more rfl (ha.result.trans hb) (hhit ha.matcher hh) (mt (hend _).1 he) ht, ?_, hresult⟩
    simp only [Trail.cons, List.map_cons, hhits]

theorem exists_scan (hc : Engine.OrderlyOn m.pattern.code subject flags) :
    ∃ t, Scans subject flags m 0 t ∧ m.scan subject flags = some t := by
  obtain ⟨t, ht, hle⟩ := exists_scans hc (Nat.zero_le _)
  exact ⟨t, ht, scan_eq_some_iff.2 ⟨ht, hle⟩⟩

/-- Behind its first hit, a scan is that of the tail, if the hit leads to a character. -/
theorem scan_behind {h : Hit} (hc : Engine.OrderlyOn m.pattern.code subject flags)
    (hmn : Twin Engine.Steady m n) (hh : m.found? subject flags 0 = some h)
    (he : h.span.start ≠ subject.size) (hs : subject.Splits h.next) :
    ∃ t u, m.scan subject flags = some t ∧ n.scan (subject.tail h.next) flags = some u ∧
      t.hits = h :: u.hits.map (·.shift h.next) ∧
      t.reply.result = u.reply.result.map (h.next + ·) := by
  have hnext : h.next ≤ subject.size :=
    (found?_sound (hc 0 (Nat.zero_le _)) (Nat.zero_le _) hh).next_bounds.2.1
  have hbehind : Twin Engine.Steady (m.exec (subject.tail 0) flags).matcher n :=
    ⟨by rw [exec_pattern, hmn.pattern], hmn.left.exec (fun c hc => hc.toBuffered) _ _, hmn.right⟩
  obtain ⟨t, ht, hscan⟩ := exists_scan hc
  obtain ⟨u, hu, hscan'⟩ := exists_scan (m := n) (hmn.pattern ▸ hc.tail hnext)
  obtain ⟨v, hv, rfl⟩ := ht.of_found? hh he
  obtain ⟨w, hw, hhits, hresult⟩ := hu.of_tail hs hnext hbehind
  obtain rfl := hw.unique hv
  exact ⟨_, u, hscan, hscan', congrArg (h :: ·) hhits, hresult⟩

theorem splice_behind {h : Hit} {hits : List Hit} {rest : Nat} (replacement : Bytes)
    (hrow : Row subject 0 (h :: hits.map (·.shift h.next)) rest) :
    subject.toBytes.splice replacement 0 ((h :: hits.map (·.shift h.next)).map Hit.span) =
      subject.toBytes.slice 0 h.span.start ++ replacement ++
        subject.toBytes.slice h.span.stop h.next ++
        (subject.tail h.next).toBytes.splice replacement 0 (hits.map Hit.span) := by
  cases hrow with
  | cons hs he hr =>
    rw [List.map_cons, Bytes.splice, ← hr.slice_append_splice hs.next_bounds.1,
      Hit.map_span_shift, Subject.toBytes_tail, Bytes.splice_drop, Nat.add_zero]
    simp only [List.append_assoc]

/-- **A scan unfolds.** The first attempt of a search or a replacement says how it goes on. An error is
that of the whole; without a complete match nothing is found or replaced; behind a match at the end
nothing follows. Behind any other match that leads to a character, what is found and written is what
the same does on the tail, or its error. -/
theorem scan_unfolds (hm : Reachable Engine.Steady m) (hn : Reachable Engine.Steady n)
    (hp : n.pattern = m.pattern) (hc : Engine.OrderlyOn m.pattern.code subject flags)
    {a : Reply κ Bool} (ha : m.exec subject flags = a) (replacement : Bytes) :
    ∃ f r, m.findIter subject flags = some f ∧ m.replace subject replacement flags = some r ∧
      (∀ e, a.result = .error e → f.result = .error e ∧ r.result = .error e) ∧
      (∀ b, a.result = .ok b → a.matcher.outcome ≠ .matched ∨ a.matcher.group? 0 = none →
        f.result = .ok [] ∧ r.result = .ok subject.toBytes) ∧
      ∀ g, a.matcher.outcome = .matched → a.matcher.group? 0 = some g →
        (g.start = subject.size →
          f.result = .ok [g.span] ∧ r.result = .ok (subject.toBytes ++ replacement)) ∧
        ∀ next, g.start ≠ subject.size →
          next = (if g.isEmpty then g.stop + subject.unitAt g.stop else g.stop) →
          subject.Splits next →
          ∃ f' r', n.findIter (subject.tail next) flags = some f' ∧
            n.replace (subject.tail next) replacement flags = some r' ∧
            f.result = f'.result.map (fun spans => g.span :: spans.map (·.shift next)) ∧
            r.result = r'.result.map (fun out => subject.toBytes.slice 0 g.start ++ replacement ++
              subject.toBytes.slice g.stop next ++ out) := by
  have hmn : Twin Engine.Steady m n :=
    ⟨hp.symm, hm.fitted fun c hc => hc.toBuffered, hn.fitted fun c hc => hc.toBuffered⟩
  obtain ⟨t, ht, hscan⟩ := exists_scan hc
  obtain ⟨c, -, -, -, hreplace⟩ := replace_of_scan hc hscan replacement
  obtain ⟨rest, hrow, -⟩ := ht.row hc (Nat.zero_le _)
  have hx : m.exec (subject.tail 0) flags = a := by rw [Subject.tail_zero, ha]
  refine ⟨_, _, findIter_of_scan hscan, hreplace, ?_, ?_, ?_⟩
  · intro e he
    obtain rfl := ht.unique (.fail hx he)
    exact ⟨rfl, rfl⟩
  · intro b hb hnone
    have hh : a.matcher.hit? subject 0 = none := by
      unfold hit?
      split
      · next ho => rw [hnone.resolve_left (not_not_intro ho)]; rfl
      · rfl
    obtain rfl := ht.unique (.stop hx hb hh)
    exact ⟨rfl, rfl⟩
  · intro g ho hg
    have hh : m.found? subject flags 0 = some
        ⟨g.span, if g.isEmpty then g.stop + subject.unitAt g.stop else g.stop⟩ := by
      rw [found?, hx, hit?, if_pos ho, hg, Option.map_some, Span.shift_zero]; rfl
    constructor
    · intro hend
      obtain rfl := ht.unique (.last rfl (exec_of_found? hh) hh hend)
      have hsound := found?_sound (hc 0 (Nat.zero_le _)) (Nat.zero_le _) hh
      have hstop : subject.size ≤ g.stop := Nat.le_trans (Nat.le_of_eq hend.symm) hsound.order
      refine ⟨rfl, congrArg Except.ok ?_⟩
      show subject.toBytes.slice 0 g.start ++ replacement ++ subject.toBytes.drop g.stop = _
      rw [hend, List.drop_eq_nil_of_le hstop, List.append_nil]
      exact congrArg (· ++ replacement) (Bytes.slice_zero_length _)
    · intro next he hnext hs
      rw [← hnext] at hh
      obtain ⟨t', u, ht', hu, hhits, hresult⟩ := scan_behind hc hmn hh he hs
      obtain rfl := Option.some.inj (hscan.symm.trans ht')
      rw [hhits] at hrow
      have hct := hc.tail (hrow.next_le _ List.mem_cons_self)
      obtain ⟨-, -, -, -, hreplace'⟩ := replace_of_scan (hp ▸ hct) hu replacement
      refine ⟨_, _, findIter_of_scan hu, hreplace', ?_, ?_⟩
      · simp only [Reply.map, hresult, hhits, List.map_cons, Hit.map_span_shift]
        cases u.reply.result <;> rfl
      · simp only [Reply.map, hresult, hhits, splice_behind replacement hrow]
        cases u.reply.result <;> rfl

def firstByteThenTwo : Compiled Regex.Program :=
  (Compiled.plain? "\\xc3(?=\\xa9\\xc3)|" 0).get (by decide +kernel)

/-- Inside of a character the scan of the tail would not do: as bytes, it finds an empty match inside of
the second character, which a scan of the text skips. -/
example :
    let m : Matcher Regex.Program := { pattern := firstByteThenTwo, slots := Array.replicate 1 none }
    (m.findIter (.text "éé") ∅).bind (·.result.toOption) = some [⟨0, 1⟩, ⟨1, 1⟩, ⟨2, 2⟩, ⟨4, 4⟩] ∧
    (m.findIter ((Subject.text "éé").tail 1) ∅).bind (·.result.toOption) =
      some [⟨0, 0⟩, ⟨1, 1⟩, ⟨2, 2⟩, ⟨3, 3⟩] := by decide +kernel

/-- Behind the match of the `x` goes on what another matcher finds and writes for the `é` alone. -/
theorem scan_unfolds_letters :
    let m : Matcher Regex.Program := { pattern := letters, slots := Array.replicate 1 none }
    let n := (m.exec (.text "y") ∅).matcher
    let a := m.exec (.text "xé") ∅
    Reachable Engine.Steady m ∧ Reachable Engine.Steady n ∧ n.pattern = letters ∧
    Engine.OrderlyOn letters.code (.text "xé") ∅ ∧
    a.matcher.outcome = .matched ∧ a.matcher.group? 0 = some ⟨.text "xé", ⟨0, 1⟩⟩ ∧
    (Subject.text "xé").Splits 1 ∧
    (∃ f r f' r', m.findIter (.text "xé") ∅ = some f ∧ n.findIter (.text "é") ∅ = some f' ∧
      m.replace (.text "xé") [0x2d] ∅ = some r ∧ n.replace (.text "é") [0x2d] ∅ = some r' ∧
      f.result = f'.result.map (fun spans => ⟨0, 1⟩ :: spans.map (·.shift 1)) ∧
      r.result = r'.result.map ([0x2d] ++ ·)) ∧
    (n.findIter (.text "é") ∅).bind (·.result.toOption) = some [⟨0, 0⟩, ⟨2, 2⟩] := by
  intro m n a
  have hm : Reachable Engine.Steady m :=
    .new (Regex.Program.steady _) .new rfl
  have hn : Reachable Engine.Steady n := hm.exec _ _
  have hc : Engine.OrderlyOn letters.code (.text "xé") ∅ :=
    Regex.Program.orderlyOn (by decide +kernel)
  have ho : a.matcher.outcome = .matched := by decide +kernel
  have hg : a.matcher.group? 0 = some ⟨.text "xé", ⟨0, 1⟩⟩ := by decide +kernel
  have hs : (Subject.text "xé").Splits 1 := by decide +kernel
  have ht : (Subject.text "xé").tail 1 = .text "é" := by decide +kernel
  obtain ⟨f, r, hf, hr, -, -, hmatch⟩ := scan_unfolds hm hn rfl hc (a := a) rfl [0x2d]
  obtain ⟨f', r', hf', hr', hfind, hreplace⟩ :=
    (hmatch _ ho hg).2 1 (by decide +kernel) (by decide +kernel) hs
  rw [ht] at hf' hr'
  exact ⟨hm, hn, rfl, hc, ho, hg, hs, ⟨f, r, f', r', hf, hf', hr, hr', hfind, hreplace⟩,
    by decide +kernel⟩

end Matcher

end Rematch
