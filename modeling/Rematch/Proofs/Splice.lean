import Rematch.Proofs.Decoding
import Rematch.Proofs.Reuse
import Rematch.Proofs.ScanOrder

/-! # Replacing is splicing

`Bytes.splice` puts something else in the place of each of some spans. A replacement copies the
subject in pieces while it scans, from where the scan went on up to where it goes on next;
`foldlM_add` carries along that what has been written, followed by the splice of what has not been
copied, stays the splice of the whole. -/

namespace Rematch

namespace Bytes

/-- The bytes from `last` on with the replacement in the place of each span. -/
def splice (b replacement : Bytes) : (last : Nat) → List Span → Bytes
  | last, [] => b.drop last
  | last, r :: spans => b.slice last r.start ++ replacement ++ splice b replacement r.stop spans

theorem slice?_eq {b : Bytes} {start stop : Nat} (h : start ≤ stop) (hs : stop ≤ b.length) :
    b.slice? start stop = some (b.slice start stop) := if_pos ⟨h, hs⟩

theorem slice_length (b : Bytes) (start : Nat) : b.slice start b.length = b.drop start := by
  rw [slice, List.take_length]

theorem slice_append_slice (b : Bytes) {i j k : Nat} (hij : i ≤ j) (hjk : j ≤ k) :
    b.slice i j ++ b.slice j k = b.slice i k := by
  have h := slice_append_drop (b.take k) hij
  rw [slice, List.take_take, Nat.min_eq_left hjk] at h
  exact h

end Bytes

namespace Row
variable {subject : Subject} {pos rest : Nat} {hits : List Hit} {replacement : Bytes}

theorem slice_append_splice (h : Row subject pos hits rest) {last : Nat} (hl : last ≤ pos) :
    subject.toBytes.slice last pos ++ subject.toBytes.splice replacement pos (hits.map Hit.span) =
      subject.toBytes.splice replacement last (hits.map Hit.span) := by
  cases h with
  | nil hpos => exact Bytes.slice_append_drop _ hl
  | @cons pos rest h hits hs he hr =>
    simp only [List.map_cons, Bytes.splice]
    rw [← Bytes.slice_append_slice _ hl hs.start]
    simp only [List.append_assoc]

/-- Copying along a row is in bounds, arrives where the row ends, and writes the splice. -/
theorem foldlM_add (h : Row subject pos hits rest) (c : Copy) (hc : c.last = pos) :
    ∃ d, hits.foldlM (Copy.add subject.toBytes replacement) c = some d ∧ d.last = rest ∧
      d.out ++ subject.toBytes.drop rest =
        c.out ++ subject.toBytes.splice replacement pos (hits.map Hit.span) := by
  -- what is kept behind a hit has been copied with it, so the splice of the rest starts behind that
  induction h generalizing c with
  | nil hpos => exact ⟨c, rfl, hc, rfl⟩
  | @cons pos rest h hits hs he hr ih =>
    obtain ⟨hstop, hnext, -⟩ := hs.next_bounds
    have hsize : subject.size = subject.toBytes.length := rfl
    have hbefore := Bytes.slice?_eq hs.start (by rw [← hsize]; exact Nat.le_trans hs.order hs.stop)
    have hkept := Bytes.slice?_eq hstop (hsize ▸ hnext)
    let c' : Copy := ⟨c.out ++ subject.toBytes.slice pos h.span.start ++ replacement ++
      subject.toBytes.slice h.span.stop h.next, h.next⟩
    have hadd : Copy.add subject.toBytes replacement c h = some c' := by
      rw [Copy.add, hc, hbefore, hkept]; rfl
    obtain ⟨d, hd, hlast, hout⟩ := ih c' rfl
    refine ⟨d, by rw [List.foldlM_cons, hadd]; exact hd, hlast, ?_⟩
    rw [hout]
    show c.out ++ subject.toBytes.slice pos h.span.start ++ replacement ++
      subject.toBytes.slice h.span.stop h.next ++ _ = _
    rw [List.map_cons, Bytes.splice, ← hr.slice_append_splice hstop]
    simp only [List.append_assoc]

theorem finish_eq (h : Row subject pos hits rest) {d : Copy} (hd : d.last = rest) :
    d.finish subject.toBytes rest = some (d.out ++ subject.toBytes.drop rest) := by
  have hle : rest ≤ subject.toBytes.length := h.rest_le
  have hslice := Bytes.slice?_eq hle (Nat.le_refl _)
  rw [Copy.finish, if_pos hd.symm, hd, hslice, Bytes.slice_length]
  rfl

end Row

namespace Matcher
variable {κ : Type} [Engine κ] {m n : Matcher κ}

/-- A replacement whose scan has left a row copies along it, in bounds, up to the rest that the scan
left, and writes the splice at its spans. -/
theorem replace_of_row {subject : Subject} {flags : MatchFlags} {t : Trail κ} {rest : Nat}
    (ht : m.scan subject flags = some t) (hrow : Row subject 0 t.hits rest)
    (hrest : ∀ k, t.reply.result = .ok k → k = rest) (replacement : Bytes) :
    ∃ c, t.hits.foldlM (Copy.add subject.toBytes replacement) {} = some c ∧
      (∀ rest, t.reply.result = .ok rest → rest = c.last) ∧
      m.replace subject replacement flags = some (t.reply.map fun _ =>
        subject.toBytes.splice replacement 0 (t.hits.map Hit.span)) := by
  obtain ⟨c, hcopy, hlast, hout⟩ := hrow.foldlM_add {} rfl
  refine ⟨c, hcopy, fun k hk => by rw [hrest k hk, hlast], ?_⟩
  rw [replace_eq_bind, ht, Option.bind_some]
  refine Trail.copied_eq_some_iff.2 ⟨c, hcopy, ?_⟩
  cases hr : t.reply.result with
  | error e => exact .inl ⟨e, rfl, by rw [Reply.map, hr]; rfl⟩
  | ok k =>
    obtain rfl := hrest k hr
    refine .inr ⟨k, _, rfl, hrow.finish_eq hlast, ?_⟩
    rw [Reply.map, hr, hout]; rfl

theorem replace_of_scan {subject : Subject} {flags : MatchFlags} {t : Trail κ}
    (hc : Engine.OrderlyOn m.pattern.code subject flags) (ht : m.scan subject flags = some t)
    (replacement : Bytes) :
    ∃ c, (∀ h ∈ t.hits, h.next ≤ subject.size) ∧
      t.hits.foldlM (Copy.add subject.toBytes replacement) {} = some c ∧
      (∀ rest, t.reply.result = .ok rest → rest = c.last) ∧
      m.replace subject replacement flags = some (t.reply.map fun _ =>
        subject.toBytes.splice replacement 0 (t.hits.map Hit.span)) := by
  obtain ⟨rest, hrow, hrest⟩ := (scan_eq_some_iff.1 ht).1.row hc (Nat.zero_le _)
  obtain ⟨c, hc⟩ := replace_of_row ht hrow hrest replacement
  exact ⟨c, hrow.next_le, hc⟩

theorem replaceAll_result {subject replacement : String} {flags : MatchFlags} {r : Reply κ Bytes}
    (h : m.replace (.text subject) (Utf8.ofString replacement) flags = some r) :
    ∃ q, m.replaceAll subject replacement flags = some q ∧
      (∀ e, r.result = .error e → q.result = .error e) ∧
      ∀ out, r.result = .ok out → (∀ v, q.result = .ok v ↔ Utf8.ofString v = out) ∧
        ∀ e, q.result = .error e ↔ ∃ i, e = .utf8 i ∧ i.Describes out := by
  refine ⟨_, by rw [replaceAll, h]; rfl, ?_, ?_⟩
  · intro e he
    simp [he, Except.bind]
  · intro out hout
    simp only [hout, Except.bind]
    cases ht : Utf8.text out with
    | ok w =>
      refine ⟨fun v => ?_, fun e => ?_⟩
      · rw [← Utf8.text_eq_ok_iff, ht]
        constructor <;> rintro ⟨⟩ <;> rfl
      · constructor
        · rintro ⟨⟩
        · rintro ⟨i, -, hi⟩
          rw [Utf8.text_eq_error_iff.2 hi] at ht; cases ht
    | error i =>
      refine ⟨fun v => ?_, fun e => ?_⟩
      · rw [← Utf8.text_eq_ok_iff, ht]
        constructor <;> rintro ⟨⟩
      · constructor
        · rintro ⟨⟩
          exact ⟨i, rfl, Utf8.text_eq_error_iff.1 ht⟩
        · rintro ⟨j, rfl, hj⟩
          rw [Utf8.text_eq_error_iff.2 hj] at ht; cases ht; rfl

/-- **Replacing is splicing.** Of two matchers bound to one pattern, whatever was done with them, let
one find all matches and the other replace them. The replacement makes no attempt beyond the end and
its copy in bounds and up to the rest; its bytes are the splice at the spans that were found, and its
error is that of the search. As a text it is the one with these bytes, or the error that describes
them. -/
theorem replace_eq_splice (hm : Reachable Engine.Steady m) (hn : Reachable Engine.Steady n)
    (hp : n.pattern = m.pattern) {subject : Subject} {flags : MatchFlags}
    (hc : Engine.OrderlyOn m.pattern.code subject flags) (replacement : Bytes) :
    ∃ f t c r, m.findIter subject flags = some f ∧
      n.scan subject flags = some t ∧ (∀ h ∈ t.hits, h.next ≤ subject.size) ∧
      t.hits.foldlM (Copy.add subject.toBytes replacement) {} = some c ∧
      (∀ rest, t.reply.result = .ok rest → rest = c.last) ∧
      n.replace subject replacement flags = some r ∧
      r.result = f.result.map (subject.toBytes.splice replacement 0) ∧
      (∀ b, subject = .bytes b → n.replaceAllBytes b replacement flags = some r) ∧
      ∀ s u, subject = .text s → replacement = Utf8.ofString u →
        ∃ q, n.replaceAll s u flags = some q ∧
          (∀ e, f.result = .error e → q.result = .error e) ∧
          ∀ spans, f.result = .ok spans →
            (∀ v, q.result = .ok v ↔
              Utf8.ofString v = subject.toBytes.splice replacement 0 spans) ∧
            ∀ e, q.result = .error e ↔
              ∃ i, e = .utf8 i ∧ i.Describes (subject.toBytes.splice replacement 0 spans) := by
  have hfit : Twin Engine.Steady m n :=
    ⟨hp.symm, hm.fitted fun c hc => hc.toBuffered, hn.fitted fun c hc => hc.toBuffered⟩
  have hcn : Engine.OrderlyOn n.pattern.code subject flags := hp ▸ hc
  obtain ⟨t, hscans, hle⟩ := exists_scans hcn (Nat.zero_le _)
  have hscan : n.scan subject flags = some t := scan_eq_some_iff.2 ⟨hscans, hle⟩
  obtain ⟨c, hnext, hcopy, hlast, hreplace⟩ := replace_of_scan hcn hscan replacement
  obtain ⟨u, hu, hhits, hresult⟩ : ∃ u, m.scan subject flags = some u ∧ u.hits = t.hits ∧
      u.reply.result = t.reply.result := by
    have hagree := agree_scan (fun _ h => h) hfit subject flags
    rw [hscan] at hagree
    generalize m.scan subject flags = s at hagree ⊢
    cases hagree with
    | some h => exact ⟨_, rfl, h.hits, h.reply.result⟩
  have hfind : m.findIter subject flags = some (u.reply.map fun _ => u.hits.map Hit.span) := by
    rw [findIter, hu]; rfl
  have hspliced : (t.reply.map fun _ =>
      subject.toBytes.splice replacement 0 (t.hits.map Hit.span)).result =
      (u.reply.map fun _ => u.hits.map Hit.span).result.map
        (subject.toBytes.splice replacement 0) := by
    simp only [Reply.map, hhits, hresult]
    cases t.reply.result <;> rfl
  refine ⟨_, t, c, _, hfind, hscan, hnext, hcopy, hlast, hreplace, hspliced, ?_, ?_⟩
  · rintro b rfl
    exact hreplace
  · rintro s v rfl rfl
    obtain ⟨q, hq, herror, hok⟩ := replaceAll_result hreplace
    refine ⟨q, hq, fun e he => herror e ?_, fun spans hspans => hok _ ?_⟩
    · rw [hspliced, he]; rfl
    · rw [hspliced, hspans]; rfl

def firstByte : Compiled Regex.Program := (Compiled.plain? "\\xc3" 0).get (by decide +kernel)

/-- A replacement of the first byte of a character leaves the second, and no text. -/
theorem replace_splits_character :
    let m : Matcher Regex.Program := { pattern := firstByte, slots := Array.replicate 1 none }
    Reachable Engine.Steady m ∧ Engine.OrderlyOn firstByte.code (.text "é") ∅ ∧
    (∃ f r q, m.findIter (.text "é") ∅ = some f ∧ f.result = .ok [⟨0, 1⟩] ∧
      m.replace (.text "é") (Utf8.ofString "-") ∅ = some r ∧
      r.result = f.result.map ((Subject.text "é").toBytes.splice (Utf8.ofString "-") 0) ∧
      m.replaceAll "é" "-" ∅ = some q ∧
      ∀ e, q.result = .error e ↔ ∃ i, e = .utf8 i ∧ i.Describes [0x2d, 0xa9]) ∧
    (m.replaceAll "é" "-" ∅).map (·.events.length) = some 2 := by
  intro m
  have hm : Reachable Engine.Steady m :=
    .new (Regex.Program.steady _) .new rfl
  have hc : Engine.OrderlyOn firstByte.code (.text "é") ∅ :=
    Regex.Program.orderlyOn (by decide +kernel)
  refine ⟨hm, hc, ?_, by decide +kernel⟩
  obtain ⟨f, t, c, r, hf, -, -, -, -, hr, hspliced, -, htext⟩ :=
    replace_eq_splice hm hm rfl hc (Utf8.ofString "-")
  obtain ⟨q, hq, -, hok⟩ := htext "é" "-" rfl rfl
  have hspans : f.result = .ok [⟨0, 1⟩] := by
    have hfound : (m.findIter (.text "é") ∅).bind (·.result.toOption) = some [⟨0, 1⟩] := by
      decide +kernel
    rw [hf] at hfound
    change f.result.toOption = _ at hfound
    cases hres : f.result with
    | error e => rw [hres] at hfound; cases hfound
    | ok spans => rw [hres] at hfound; cases hfound; rfl
  exact ⟨f, r, q, hf, hspans, hr, hspliced, hq, (hok _ hspans).2⟩

end Matcher

end Rematch
