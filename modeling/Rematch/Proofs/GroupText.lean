import Mathlib.Control.Monad.Basic
import Rematch.Proofs.Aligned
import Rematch.Proofs.Forms
import Rematch.Proofs.Guarded
import Rematch.Proofs.Present
import Rematch.Proofs.Wellformed

/-! # The text of a group

A group of a text is read by cutting the text at two characters, and where that cannot be done, by
decoding bytes. Both ways lead to one answer (`Match.text_eq`), which is a text just if the group is
empty or splits no character (`Match.text_isOk_iff`). So nothing that an attempt leaves tells whether its
subject was a text or the bytes of one (`exec_text_eq_exec_bytes`). -/

namespace Rematch

namespace Utf8

/-- A text that begins with the bytes of another one begins with its characters. -/
theorem exists_append_of_encode {cs ds : List Char} {more : Bytes}
    (h : encode cs = encode ds ++ more) : ∃ rest, cs = ds ++ rest := by
  induction ds generalizing cs with
  | nil => exact ⟨cs, rfl⟩
  | cons d ds ih =>
    rw [encode_cons, List.append_assoc] at h
    cases cs with
    | nil =>
      have hlen := congrArg List.length h
      have := d.utf8Size_pos
      simp only [encode_nil, List.length_nil, List.length_append, String.length_utf8EncodeChar] at hlen
      omega
    | cons c cs =>
      rw [encode_cons] at h
      obtain rfl := char_eq_of_append h
      obtain ⟨rest, rfl⟩ := ih (List.append_cancel_left h)
      exact ⟨rest, rfl⟩

end Utf8

namespace Subject
variable {t u : String} {cs ds front : List Char} {n p q : Nat}

/-- A character is taken with all of its bytes. -/
theorem takeBytes_cons (c : Char) (cs : List Char) (n : Nat) :
    takeBytes (c :: cs) (c.utf8Size + n) = (takeBytes cs n).map (c :: ·) := by
  have hc := c.utf8Size_pos
  obtain ⟨k, hk⟩ : ∃ k, c.utf8Size + n = k + 1 := ⟨c.utf8Size + n - 1, by omega⟩
  rw [hk, takeBytes, if_pos (by omega), show k + 1 - c.utf8Size = n by omega]

theorem takeBytes_append (front rest : List Char) :
    takeBytes (front ++ rest) (Utf8.encode front).length = some front := by
  induction front with
  | nil => simp [takeBytes]
  | cons c front ih =>
    rw [List.cons_append, Utf8.encode_cons, List.length_append, String.length_utf8EncodeChar,
      takeBytes_cons, ih, Option.map_some]

theorem takeBytes_eq_some_iff :
    takeBytes cs n = some front ↔ ∃ rest, cs = front ++ rest ∧ (Utf8.encode front).length = n := by
  constructor
  · intro h
    fun_induction takeBytes cs n generalizing front with
    | case1 cs => cases h; exact ⟨cs, rfl, rfl⟩
    | case2 => cases h
    | case3 c cs n hle ih =>
      obtain ⟨mid, hmid, rfl⟩ := Option.map_eq_some_iff.1 h
      obtain ⟨rest, rfl, hl⟩ := ih hmid
      exact ⟨rest, rfl, by simp [hl]; omega⟩
    | case4 => cases h
  · rintro ⟨rest, rfl, rfl⟩
    exact takeBytes_append front rest

/-- What is cut out of a text at two characters has the bytes between them. -/
theorem ofString_of_slice? (s : Subject) (h : s.slice? p q = some u) :
    Utf8.ofString u = s.toBytes.slice p q := by
  cases s with
  | bytes b => cases h
  | text t =>
    simp only [slice?] at h
    split at h
    · next hpq =>
      obtain ⟨rest, hrest, hu⟩ := Option.bind_eq_some_iff.1 h
      obtain ⟨mid, hmid, rfl⟩ := Option.map_eq_some_iff.1 hu
      obtain ⟨before, ht, hp⟩ := dropBytes_eq_some_iff.1 hrest
      obtain ⟨after, rfl, hl⟩ := takeBytes_eq_some_iff.1 hmid
      have hq : q = (Utf8.encode before ++ Utf8.encode mid).length := by
        rw [List.length_append]; omega
      rw [Utf8.ofString_ofList, toBytes, Utf8.ofString, ht, Utf8.encode_append, Utf8.encode_append,
        ← List.append_assoc, Bytes.slice, hq, List.take_left, ← hp, List.drop_left]
    · cases h

/-- If some of the bytes of a text are a text, they are cut out at two characters. -/
theorem isBoundary_of_slice_eq (hpq : p < q) (hq : q ≤ (Utf8.encode cs).length)
    (h : (Utf8.encode cs : Bytes).slice p q = Utf8.encode ds) :
    IsBoundary cs p ∧ IsBoundary cs q := by
  have hlen := congrArg List.length h
  rw [Bytes.length_slice] at hlen
  have hdrop := Bytes.slice_append_drop (Utf8.encode cs) (Nat.le_of_lt hpq)
  rw [h] at hdrop
  have hp : IsBoundary cs p := by
    cases ds with
    | nil => rw [Utf8.encode_nil, List.length_nil] at hlen; omega
    | cons d ds =>
      rw [Utf8.encode_cons, List.append_assoc] at hdrop
      exact isBoundary_of_drop_cons (by omega) hdrop.symm
  refine ⟨hp, ?_⟩
  obtain ⟨before, rest, rfl, rfl⟩ := isBoundary_iff.1 hp
  rw [Utf8.encode_append, List.drop_left] at hdrop
  obtain ⟨after, rfl⟩ := Utf8.exists_append_of_encode hdrop.symm
  refine isBoundary_iff.2 ⟨before ++ ds, after, by rw [List.append_assoc], ?_⟩
  rw [Utf8.encode_append, List.length_append]
  omega

end Subject

open Subject

namespace Match
variable {g h : Match} {t u : String}

/-- To cut a text and to decode its bytes comes to the same. -/
theorem text_eq (g : Match) : g.text = (Utf8.text g.toBytes).mapError .utf8 := by
  unfold text
  split
  · next u hu =>
    have hbytes : Utf8.ofString u = g.toBytes := ofString_of_slice? g.subject hu
    rw [Utf8.text_eq_ok_iff.2 hbytes]; rfl
  · rfl

theorem text_eq_ok_iff : g.text = .ok u ↔ Utf8.ofString u = g.toBytes := by
  rw [text_eq, ← Utf8.text_eq_ok_iff]
  cases Utf8.text g.toBytes with
  | ok v => simp [Except.mapError]
  | error e => simp [Except.mapError]

theorem text_eq_error_iff {e : Error} :
    g.text = .error e ↔ ∃ i : Utf8.Invalid, e = .utf8 i ∧ i.Describes g.toBytes := by
  simp only [← Utf8.text_eq_error_iff, text_eq]
  cases Utf8.text g.toBytes with
  | ok v => simp [Except.mapError]
  | error i => simp [Except.mapError, eq_comm]

/-- A group of a text is a text just if it is empty or splits no character. -/
theorem text_isOk_iff (hg : g.span.Within g.subject.size) (ht : g.subject = .text t) :
    (∃ u, g.text = .ok u) ↔
      g.isEmpty = true ∨ IsBoundary t.toList g.start ∧ IsBoundary t.toList g.stop := by
  have hempty : g.isEmpty = true ↔ g.start = g.stop := by simp [isEmpty, Span.isEmpty, start, stop]
  have hle : g.start ≤ g.stop := hg.1
  have hstop : g.stop ≤ (Utf8.encode t.toList).length := by
    have := hg.2
    rwa [ht] at this
  have hbytes : g.toBytes = (Utf8.encode t.toList : Bytes).slice g.start g.stop := by
    rw [toBytes, ht]; rfl
  simp only [text_eq_ok_iff, hbytes, hempty]
  constructor
  · rintro ⟨u, hu⟩
    rcases Nat.eq_or_lt_of_le hle with heq | hlt
    · exact .inl heq
    · exact .inr (isBoundary_of_slice_eq hlt hstop hu.symm)
  · rintro (heq | ⟨hstart, hstop⟩)
    · exact ⟨"", by rw [heq, Bytes.slice, List.drop_eq_nil_of_le (List.length_take_le _ _)]; rfl⟩
    · obtain ⟨mid, hmid⟩ := exists_slice hstart hstop hle
      exact ⟨String.ofList mid, by rw [Utf8.ofString_ofList, hmid]⟩

/-- Groups of one span, in subjects with the same bytes. -/
structure SameBytes (g h : Match) : Prop where
  span : g.span = h.span
  subject : g.subject.toBytes = h.subject.toBytes

namespace SameBytes
variable (hs : g.SameBytes h)
include hs

theorem start : g.start = h.start := congrArg Span.start hs.span

theorem stop : g.stop = h.stop := congrArg Span.stop hs.span

theorem toBytes : g.toBytes = h.toBytes := by
  rw [Match.toBytes, Match.toBytes, hs.start, hs.stop, hs.subject]

theorem text : g.text = h.text := by rw [text_eq, text_eq, hs.toBytes]

theorem expectBytes : g.expectBytes = h.expectBytes := by
  rw [Match.expectBytes, Match.expectBytes, hs.subject, hs.start, hs.stop]

theorem inspect : g.inspect = h.inspect := by
  unfold Match.inspect
  rw [hs.toBytes, hs.start, hs.stop]

end SameBytes

/-- What is told alike of groups is told alike of those that may be absent. -/
theorem map_eq_of_rel {α : Type} {f : Match → α} (hf : ∀ {g h : Match}, g.SameBytes h → f g = f h)
    {x y : Option Match} (hxy : Option.Rel SameBytes x y) : x.map f = y.map f := by
  cases hxy with
  | none => rfl
  | some hs => exact congrArg some (hf hs)

end Match

namespace Captures
variable {κ : Type} [Engine κ] {c d : Captures κ}

/-- Nothing that is read of the two views differs, but for the form of the subject. -/
structure SameBytes (c d : Captures κ) : Prop where
  isMatch : c.isMatch = d.isMatch
  isPartial : c.isPartial = d.isPartial
  groups : c.groups = d.groups
  present : ∀ i, c.present i = d.present i
  span : ∀ i, (c.get? i).map Match.span = (d.get? i).map Match.span
  bytes : ∀ i, c.bytes? i = d.bytes? i
  text : ∀ i, c.text? i = d.text? i
  namedPresent : ∀ name, c.namedPresent name = d.namedPresent name
  namedSpan : ∀ name,
    (c.named? name).map (Option.map Match.span) = (d.named? name).map (Option.map Match.span)
  namedBytes : ∀ name,
    (c.named? name).map (Option.map Match.toBytes) = (d.named? name).map (Option.map Match.toBytes)
  namedText : ∀ name, c.namedText? name = d.namedText? name
  expect : ∀ i, c.expect i = d.expect i
  expectNamed : ∀ name, c.expectNamed name = d.expectNamed name
  spans : c.toList.map (Option.map Match.span) = d.toList.map (Option.map Match.span)
  inspect : c.inspect = d.inspect

omit [Engine κ] in
theorem text?_eq (c : Captures κ) (i : Nat) :
    c.text? i = ((c.get? i).map Match.text).elim (.ok none) (·.map some) := by
  rw [text?]
  cases c.get? i <;> rfl

omit [Engine κ] in
theorem expect_eq (c : Captures κ) (i : Nat) : c.expect i =
    ((c.get? i).map Match.expectBytes).getD (.error ⟨s!"no group at index '{i}'"⟩) := by
  rw [expect]
  cases c.get? i <;> rfl

theorem expectNamed_eq (c : Captures κ) (name : String) : c.expectNamed name =
    ((c.named? name).toOption.join.map Match.expectBytes).getD
      (.error ⟨s!"no group named '{name}'"⟩) := by
  rw [expectNamed]
  rcases c.named? name with e | g
  · rfl
  · cases g <;> rfl

theorem inspect_eq (c : Captures κ) : c.inspect =
    Quoted.items (c.toList.map fun g => (g.map Match.inspect).elim "None" ("Some(" ++ · ++ ")")) := by
  rw [inspect]
  refine congrArg Quoted.items (List.map_congr_left fun g _ => ?_)
  cases g <;> rfl

theorem map_named?_congr {α : Type} (hp : c.pattern = d.pattern) {f : Match → α}
    (hf : ∀ i, (c.get? i).map f = (d.get? i).map f) (name : String) :
    (c.named? name).map (Option.map f) = (d.named? name).map (Option.map f) := by
  have hindex : c.indexOf name = d.indexOf name := by rw [indexOf, indexOf, hp]
  rw [named?, named?, hindex]
  cases d.indexOf name with
  | error e => rfl
  | ok i => exact congrArg Except.ok (hf i)

theorem map_toList_congr {α : Type} (hp : c.pattern = d.pattern) {f : Option Match → α}
    (hf : ∀ i, f (c.get? i) = f (d.get? i)) : c.toList.map f = d.toList.map f := by
  have hgroups : c.groups = d.groups := by rw [groups, groups, hp]
  rw [toList, toList, List.map_map, List.map_map, size, size, hgroups]
  exact List.map_congr_left fun i _ => hf i

/-- Views of one pattern and outcome are read alike if their groups are. -/
theorem sameBytes_of_rel (hp : c.pattern = d.pattern) (ho : c.outcome = d.outcome)
    (hg : ∀ i, Option.Rel Match.SameBytes (c.get? i) (d.get? i)) : c.SameBytes d := by
  have hmap : ∀ {α : Type} (f : Match → α), (∀ {g h : Match}, g.SameBytes h → f g = f h) →
      ∀ i, (c.get? i).map f = (d.get? i).map f := fun f hf i => Match.map_eq_of_rel hf (hg i)
  have hspan := hmap Match.span fun hs => hs.span
  have hbytes := hmap Match.toBytes fun hs => hs.toBytes
  have htext := hmap Match.text fun hs => hs.text
  have hexpect := hmap Match.expectBytes fun hs => hs.expectBytes
  have hinspect := hmap Match.inspect fun hs => hs.inspect
  have hpresent : ∀ i, c.present i = d.present i := fun i => by
    rw [present_eq_isSome_get?, present_eq_isSome_get?, ← Option.isSome_map (f := Match.span), hspan,
      Option.isSome_map]
  have htext? : ∀ i, c.text? i = d.text? i := fun i => by rw [text?_eq, text?_eq, htext]
  have hgroups : c.groups = d.groups := by rw [groups, groups, hp]
  have hindex : c.indexOf = d.indexOf := funext fun name => by rw [indexOf, indexOf, hp]
  exact {
    isMatch := by rw [isMatch, isMatch, ho]
    isPartial := by rw [isPartial, isPartial, ho]
    groups := hgroups
    present := hpresent
    span := hspan
    bytes := hbytes
    text := htext?
    namedPresent := fun name => by rw [namedPresent, namedPresent, hindex, funext hpresent]
    namedSpan := map_named?_congr hp hspan
    namedBytes := map_named?_congr hp hbytes
    namedText := fun name => by rw [namedText?, namedText?, hindex, funext htext?]
    expect := fun i => by rw [expect_eq, expect_eq, hexpect]
    expectNamed := fun name => by
      rw [expectNamed_eq, expectNamed_eq, named?, named?, hindex]
      cases d.indexOf name with
      | error e => rfl
      | ok i => exact congrArg (Option.getD · _) (hexpect i)
    spans := map_toList_congr hp hspan
    inspect := by
      rw [inspect_eq, inspect_eq]
      exact congrArg Quoted.items
        (map_toList_congr hp fun i => congrArg (Option.elim · _ _) (hinspect i)) }

end Captures

/-- What an attempt on these bytes sets lies within them, if the buffer fits. -/
def Engine.Bounded {κ : Type} [Engine κ] (c : κ) (b : Bytes) (flags : MatchFlags) : Prop :=
  ∀ s, Fits c s → ∀ i < Code.pairs (attempt c b flags s).1, ∀ g,
    (attempt c b flags s).2[i]?.join = some g → g.Within b.length

namespace Matcher
variable {κ : Type} [Engine κ] {good : κ → Prop} {m n : Matcher κ} {t : String} {flags : MatchFlags}

theorem Fitted.group_within {s : Subject} (hf : Fitted good m)
    (hb : Engine.Bounded m.pattern.code s.toBytes flags) {i : Nat} {g : Match}
    (hg : (m.exec s flags).matcher.group? i = some g) :
    g.subject = s ∧ g.span.Within g.subject.size := by
  obtain ⟨hspan, hsubject⟩ := group?_eq_some_iff.1 hg
  obtain ⟨ho, hi, hslot⟩ := span?_eq_some_iff.1 hspan
  rcases m.exec_cases s flags with ⟨o, k, hk, hx⟩ | ⟨-, hx⟩ <;> rw [hx] at hsubject ho hi hslot
  · refine ⟨hsubject, ?_⟩
    rw [hsubject]
    have hlt : i < Code.pairs (m.answer s flags).1 := by rw [classify_pairs hk]; exact hi
    exact hb m.slots hf.fits i hlt g.span hslot
  · cases ho

/-- Attempts on the same bytes answer alike, and leave groups of the same spans and bytes. -/
theorem sameBytes_exec (h : Twin Engine.Steady m n) {s s' : Subject} (hs : s'.toBytes = s.toBytes)
    (flags : MatchFlags) :
    (m.exec s flags).result = (n.exec s' flags).result ∧
    (m.exec s flags).events = (n.exec s' flags).events ∧
    (m.exec s flags).matcher.outcome = (n.exec s' flags).matcher.outcome ∧
    (m.exec s flags).matcher.captures.SameBytes (n.exec s' flags).matcher.captures := by
  have ha := agree_exec (fun _ hc => hc) h s flags
  have hm : (m.exec s flags).matcher.captures.subject = s := exec_subject s flags
  have hn : (n.exec s' flags).matcher.captures.subject = s' := exec_subject s' flags
  have hn' : n.exec s' flags = ⟨(n.exec s flags).result,
      { (n.exec s flags).matcher with subject := s' }, (n.exec s flags).events⟩ := exec_of_toBytes_eq hs
  have hspan : ∀ i, (m.exec s flags).matcher.captures.span? i =
      (n.exec s' flags).matcher.captures.span? i := by
    intro i
    rw [ha.matcher.toShown.span? i, hn']
    rfl
  have hpattern : (m.exec s flags).matcher.pattern = (n.exec s' flags).matcher.pattern := by
    rw [exec_pattern, exec_pattern, h.pattern]
  have houtcome : (m.exec s flags).matcher.outcome = (n.exec s' flags).matcher.outcome := by
    rw [ha.matcher.outcome, hn']
  refine ⟨by rw [hn', ha.result], by rw [hn', ha.events], houtcome,
    Captures.sameBytes_of_rel hpattern houtcome fun i => ?_⟩
  rw [Captures.get?, Captures.get?, hspan, hm, hn]
  cases (n.exec s' flags).matcher.captures.span? i with
  | none => exact .none
  | some g => exact .some ⟨rfl, hs.symm⟩

/-- **An attempt on a text and one on its bytes.** Let the engine's answer depend on the expression, the
bytes and the options, and keep to the bytes. Of two matchers bound to one pattern, whatever was done with
them, let one make an attempt on a text and the other on its bytes. They answer alike, and leave the same
to be read, errors included. The groups of the text can be read, as texts just if they are empty or split
no character: then as the text that their bytes are, and else with the error that describes these. -/
theorem exec_text_eq_exec_bytes (hm : Reachable Engine.Steady m) (hn : Reachable Engine.Steady n)
    (hp : n.pattern = m.pattern) (hb : Engine.Bounded m.pattern.code (Utf8.ofString t) flags) :
    let r := m.exec (.text t) flags
    let q := n.exec (.bytes (Utf8.ofString t)) flags
    r.result = q.result ∧ r.events = q.events ∧ r.matcher.outcome = q.matcher.outcome ∧
    r.matcher.captures.SameBytes q.matcher.captures ∧
    (∀ i g, q.matcher.group? i = some g → g.Readable) ∧
    ∀ i g, r.matcher.group? i = some g → g.Readable ∧
      ((∃ u, g.text = .ok u) ↔
        g.isEmpty = true ∨ IsBoundary t.toList g.start ∧ IsBoundary t.toList g.stop) ∧
      (∀ u, g.text = .ok u ↔ Utf8.ofString u = g.toBytes) ∧
      ∀ e, g.text = .error e ↔ ∃ i, e = .utf8 i ∧ i.Describes g.toBytes := by
  intro r q
  have htwin : Twin Engine.Steady m n :=
    ⟨hp.symm, hm.fitted fun c hc => hc.toBuffered, hn.fitted fun c hc => hc.toBuffered⟩
  have hbytes : (Subject.bytes (Utf8.ofString t)).toBytes = (Subject.text t).toBytes := rfl
  obtain ⟨hresult, hevents, houtcome, hsame⟩ := sameBytes_exec htwin hbytes flags
  refine ⟨hresult, hevents, houtcome, hsame, fun i g hg => ?_, fun i g hg => ?_⟩
  · have hb' : Engine.Bounded n.pattern.code (Subject.bytes (Utf8.ofString t)).toBytes flags := by
      rw [hp]; exact hb
    exact Match.readable_of_within (htwin.right.group_within (s := .bytes (Utf8.ofString t)) hb' hg).2
  · obtain ⟨hsubject, hwithin⟩ := htwin.left.group_within (s := .text t) hb hg
    exact ⟨Match.readable_of_within hwithin, Match.text_isOk_iff hwithin hsubject,
      fun u => Match.text_eq_ok_iff, fun e => Match.text_eq_error_iff⟩

/-- The bytes of a character in two groups, with an empty one between them. -/
def splitCharacter : Compiled (Guarded Regex.Program) :=
  (Compiled.plain? "(?<head>\\xc3)(x*)(.)" 0).get (by decide +kernel)

/-- The whole match is a text and so is the empty group inside of the character; neither half is. -/
theorem exec_text_eq_exec_bytes_split :
    let m : Matcher (Guarded Regex.Program) :=
      { pattern := splitCharacter, slots := Array.replicate 4 none }
    let n := (m.exec (.text "x") ∅).matcher
    let r := m.exec (.text "é") ∅
    let q := n.exec (.bytes (Utf8.ofString "é")) ∅
    Reachable Engine.Steady m ∧ Reachable Engine.Steady n ∧ n.pattern = m.pattern ∧
    Engine.Bounded splitCharacter.code (Utf8.ofString "é") ∅ ∧
    r.result = q.result ∧ r.matcher.captures.SameBytes q.matcher.captures ∧
    q.result = .ok true ∧
    (List.range 4).map q.matcher.groupText? =
      [.ok (some "é"), .error (.utf8 ⟨0, none⟩), .ok (some ""), .error (.utf8 ⟨0, some 1⟩)] ∧
    q.matcher.namedText? "head" = .error (.utf8 ⟨0, none⟩) := by
  intro m n r q
  have hsteady : Engine.Steady splitCharacter.code := Guarded.steady (Regex.Program.steady _)
  have hm : Reachable Engine.Steady m := .new hsteady .new rfl
  have hn : Reachable Engine.Steady n := hm.exec _ _
  have hfaithful : Engine.Faithful splitCharacter.code :=
    Guarded.faithful (Regex.Program.buffered _) (by decide +kernel)
  have hb : Engine.Bounded splitCharacter.code (Utf8.ofString "é") ∅ :=
    fun s _ => hfaithful.within _ _ s
  obtain ⟨hresult, -, -, hsame, -⟩ := exec_text_eq_exec_bytes hm hn rfl hb
  exact ⟨hm, hn, rfl, hb, hresult, hsame, by decide +kernel, by decide +kernel, by decide +kernel⟩

end Matcher

end Rematch
