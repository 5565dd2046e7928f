import Rematch.Proofs.Places
import Rematch.Proofs.TextSearch
import Rematch.Proofs.UtfMode

/-! # Views of a text

If no offset that an attempt on a text leaves lies outside of the text, a group whose offsets are in order
can be read: as a text if it is empty or splits no character. If an engine sets no offset inside of a
character at all (`Engine.SetsBetween`), whatever can be cut out of a text is a text, and so is what a
replacement writes (`views_of_text`).

The engine of regular expressions stays inside of texts (`Regex.Program.sets_inside`), and in UTF mode it
keeps to their characters, if the expression has no item for a single byte (`Regex.Program.sets_between`).
One such item is enough to leave the halves of a character (`views_of_text_fail_at_byte`). -/

namespace Rematch
open Subject

/-- Both offsets in all entries that an attempt on these bytes sets have the property. -/
def Engine.Sets {κ : Type} [Engine κ] (c : κ) (b : Bytes) (flags : MatchFlags) (P : Nat → Prop) : Prop :=
  ∀ s, ∀ i < Code.pairs (attempt c b flags s).1, ∀ g,
    (attempt c b flags s).2[i]?.join = some g → P g.start ∧ P g.stop

/-- On every text that can stand behind an offset of a text, the engine sets offsets between characters. -/
def Engine.SetsBetween {κ : Type} [Engine κ] (c : κ) (t : String) (flags : MatchFlags) : Prop :=
  ∀ cs, cs <:+ t.toList → Sets c (Utf8.encode cs) flags (IsBoundary cs)

theorem Engine.SetsBetween.betweenOn {κ : Type} [Engine κ] {c : κ} {t : String} {flags : MatchFlags}
    (h : SetsBetween c t flags) : BetweenOn c t flags := by
  intro cs hcs s g hpos hg
  refine h cs hcs s 0 ?_ g hg
  rw [Code.pairs, Matcher.classify, if_pos (Int.le_of_lt hpos)]
  show 0 < Int.toNat _
  omega

namespace Regex

theorem Regs.Holds.group? {P : Nat → Prop} {r : Regs} (h : r.Holds P P) {i : Nat} {g : Span}
    (hg : r.group? i = some g) : P g.start ∧ P g.stop := by
  rw [Regs.group?] at hg
  split at hg
  · cases hg; exact ⟨h.start, h.pos⟩
  · exact h.slots.getElem? hg

namespace Program
variable {p : Program} {b : Bytes} {f : MatchFlags} {cs : List Char}

theorem exists_of_mapIdx {s : Slots} {write : Nat → Option Span → Option Span} {i : Nat} {g : Span}
    (h : (s.mapIdx write)[i]?.join = some g) : ∃ old, write i old = some g := by
  rw [Option.join_eq_some_iff, Array.getElem?_mapIdx] at h
  obtain ⟨old, -, hold⟩ := Option.map_eq_some_iff.1 h
  exact ⟨old, hold⟩

/-- What holds of the offsets that a search comes to holds of all that are reported. -/
theorem sets_of_search {P : Nat → Prop} (h : (p.search b f).Holds P) (hend : P b.length) :
    Engine.Sets p b f P := by
  intro s i hi g hg
  change i < Code.pairs (p.attempt b f s).1 at hi
  change (p.attempt b f s).2[i]?.join = some g at hg
  rcases p.attempt_cases b f with ⟨code, hc, hs⟩ | ⟨start, hr, hs⟩ | ⟨r, count, hr, hs⟩ <;>
    rw [hs] at hi hg
  · rw [hc] at hi
    exact absurd hi (Nat.not_lt_zero i)
  · obtain rfl : i = 0 := Nat.lt_one_iff.1 hi
    obtain ⟨_, hwhole⟩ := exists_of_mapIdx hg
    cases hwhole
    rw [hr] at h
    exact ⟨h, hend⟩
  · obtain ⟨_, hgroup⟩ := exists_of_mapIdx hg
    rw [hr] at h
    exact Regs.Holds.group? h hgroup

/-- An attempt on a text stays inside of it, in UTF mode and without. -/
theorem sets_inside (p : Program) (cs : List Char) (f : MatchFlags) :
    Engine.Sets p (Utf8.encode cs) f (· ≤ (Utf8.encode cs).length) := by
  have hends : (p.machine (Utf8.encode cs).toArray f 0).subject.Ends := by
    show Units.Ends ⟨(Utf8.encode cs).toArray, p.whole.mode.utf⟩
    cases p.whole.mode.utf with
    | true => exact Units.ends_ofText cs
    | false => exact Units.ends_of_bytes _
  exact sets_of_search ((Search.keeps_le _).run_holds (Machine.carried_le hends) p.whole.root.free_false
    (Nat.zero_le _)) (Nat.le_refl _)

/-- In UTF mode an attempt on a text keeps to its characters, unless an item matches a single byte. -/
theorem sets_between {pattern : Pattern} (h : compile pattern = .ok p) (hutf : p.whole.mode.utf = true)
    (hbyte : p.whole.root.Free Node.isByte) (cs : List Char) (f : MatchFlags) :
    Engine.Sets p (Utf8.encode cs) f (IsBoundary cs) := by
  obtain ⟨-, optimize, dotStar, hstart⟩ := options_of_compile h
  have hsubject : (p.machine (Utf8.encode cs).toArray f 0).subject = .ofText cs :=
    congrArg (Units.mk _) hutf
  have hs : Search.OnText
      ⟨p, p.machine (Utf8.encode cs).toArray f 0, p.start.anchored || f.has .anchored⟩ cs :=
    ⟨hsubject, hutf, hstart ▸ Start.of_atCharacter hutf _ optimize dotStar⟩
  exact sets_of_search (hs.keeps_isBoundary.run_holds (Machine.carried_isBoundary hsubject) hbyte
    (isBoundary_zero cs)) (isBoundary_iff.2 ⟨cs, [], (List.append_nil cs).symm, rfl⟩)

end Program

end Regex

namespace Match
variable {g : Match} {t : String}

theorem text?_of_lt (h : g.stop < g.start) : g.text? = none := by
  have hslice : g.subject.slice? g.start g.stop = none := by
    cases g.subject with
    | bytes b => rfl
    | text t => rw [slice?, if_neg (Nat.not_le.2 h)]
  have hbytes : g.bytes? = none := if_neg fun hle => absurd hle.1 (Nat.not_le.2 h)
  rw [text?, hslice, hbytes]
  rfl

theorem text?_of_le (hle : g.start ≤ g.stop) (hin : g.span.Inside g.subject.size) :
    g.text? = some g.text ∧ g.bytes? = some g.toBytes :=
  have hread := readable_of_within ⟨hle, hin.2⟩
  ⟨hread.text, hread.bytes⟩

theorem text?_eq_none_iff (hin : g.span.Inside g.subject.size) : g.text? = none ↔ g.stop < g.start := by
  refine ⟨fun h => Nat.lt_of_not_le fun hle => ?_, text?_of_lt⟩
  cases h.symm.trans (text?_of_le hle hin).1

theorem text?_isOk_iff (ht : g.subject = .text t) (hin : g.span.Inside g.subject.size) :
    (∃ v, g.text? = some (.ok v)) ↔ g.start ≤ g.stop ∧
      (g.isEmpty = true ∨ IsBoundary t.toList g.start ∧ IsBoundary t.toList g.stop) := by
  rcases Nat.lt_or_ge g.stop g.start with hlt | hle
  · rw [text?_of_lt hlt]
    exact iff_of_false (fun ⟨v, hv⟩ => nomatch hv) fun h => absurd h.1 (Nat.not_le.2 hlt)
  · simp only [(text?_of_le hle hin).1, Option.some.injEq, text_isOk_iff ⟨hle, hin.2⟩ ht, hle, true_and]

/-- What there is between two boundaries of a text is a text, if they are in order. -/
theorem exists_text_of_between (ht : g.subject = .text t) (hstart : IsBoundary t.toList g.start)
    (hstop : IsBoundary t.toList g.stop) (hle : g.start ≤ g.stop) :
    ∃ v, g.text? = some (.ok v) ∧ g.text = .ok v ∧ g.bytes? = some (Utf8.ofString v) := by
  have hin : g.span.Inside g.subject.size := by
    rw [ht]; exact ⟨isBoundary_le hstart, isBoundary_le hstop⟩
  obtain ⟨htext, hbytes⟩ := text?_of_le hle hin
  obtain ⟨v, hv⟩ := (text?_isOk_iff ht hin).2 ⟨hle, .inr ⟨hstart, hstop⟩⟩
  have hok : g.text = .ok v := Option.some.inj (htext.symm.trans hv)
  exact ⟨v, hv, hok, by rw [hbytes, text_eq_ok_iff.1 hok]⟩

end Match

namespace Matcher

theorem group_of_sets {κ : Type} [Engine κ] {m : Matcher κ} {flags : MatchFlags} {P : Nat → Prop}
    (subject : Subject) (hc : Engine.Sets m.pattern.code subject.toBytes flags P) {i : Nat} {g : Match}
    (hg : (m.exec subject flags).matcher.group? i = some g) :
    g.subject = subject ∧ P g.start ∧ P g.stop := by
  obtain ⟨hspan, hsubject⟩ := group?_eq_some_iff.1 hg
  obtain ⟨ho, hi, hslot⟩ := span?_eq_some_iff.1 hspan
  rw [exec_subject] at hsubject
  rcases m.exec_cases subject flags with ⟨o, k, hk, hx⟩ | ⟨-, hx⟩ <;> rw [hx] at ho hi hslot
  · have hlt : i < Code.pairs (m.answer subject flags).1 := by rw [classify_pairs hk]; exact hi
    exact ⟨hsubject, hc m.slots i hlt g.span hslot⟩
  · cases ho

/-- A group that is a text if it is present is not refused as such. -/
theorem groupText?_ne_utf8 {κ : Type} [Engine κ] {m : Matcher κ} {i : Nat}
    (h : ∀ g, m.group? i = some g → ∃ v, g.text = .ok v) (e : Utf8.Invalid) :
    m.groupText? i ≠ .error (.utf8 e) := by
  rw [groupText?, Captures.text?_eq]
  cases hg : m.captures.get? i with
  | none => exact nofun
  | some g =>
    obtain ⟨v, hv⟩ := h g hg
    rw [Option.map_some, hv]
    exact nofun

theorem namedText?_ne_utf8 {κ : Type} [Engine κ] {m : Matcher κ} {name : String} {e : Utf8.Invalid}
    (h : ∀ i, m.pattern.names.get? name = some i → m.groupText? i ≠ .error (.utf8 e)) :
    m.namedText? name ≠ .error (.utf8 e) := by
  rw [namedText?, Captures.namedText?, Captures.indexOf]
  cases hi : m.captures.pattern.names.get? name with
  | none => intro hname; cases hname
  | some i => exact h i hi

/-- Before the outcome is read as a text, only the engine fails. -/
theorem replace_ne_utf8 {κ : Type} [Engine κ] {m : Matcher κ} {subject : Subject} {u : Bytes}
    {flags : MatchFlags} {r : Reply κ Bytes} (h : m.replace subject u flags = some r)
    (e : Utf8.Invalid) : r.result ≠ .error (.utf8 e) := by
  rw [replace_eq_bind] at h
  obtain ⟨trail, hscan, h⟩ := Option.bind_eq_some_iff.1 h
  obtain ⟨c, -, ⟨e', herror, rfl⟩ | ⟨rest, out, -, -, rfl⟩⟩ := Trail.copied_eq_some_iff.1 h
  · obtain ⟨n, q, -, hx, -⟩ := (scan_eq_some_iff.1 hscan).1.error_visit herror
    intro he
    cases he
    cases (exec_eq_error_iff.1 hx).2
  · exact nofun

/-- The outcome of a replacement between characters is read as a text. -/
theorem replaceAll_ne_utf8 {κ : Type} [Engine κ] {m : Matcher κ} {t u : String} {flags : MatchFlags}
    {w : Reply κ String} (hc : Engine.BetweenOn m.pattern.code t flags)
    (hw : m.replaceAll t u flags = some w) (e : Utf8.Invalid) : w.result ≠ .error (.utf8 e) := by
  obtain ⟨r, hr, -⟩ := Option.map_eq_some_iff.1 hw
  obtain ⟨w', hw', hresult⟩ := replaceAll_between hc hr
  cases hw.symm.trans hw'
  intro he
  rw [he] at hresult
  exact replace_ne_utf8 hr e hresult

/-- **Views of a text.** After an attempt on a text that sets no offset outside of it, the groups that start
behind their end cannot be read. All others can, and are texts just if they are empty or split no character.
If the engine sets no offset inside of a character, every group that can be read is the text that its bytes
are, and is not refused for them, by number or by name; nor is a replacement by a text. -/
theorem views_of_text {κ : Type} [Engine κ] {m : Matcher κ} (t u : String) (flags : MatchFlags)
    (hin : Engine.Sets m.pattern.code (Utf8.ofString t) flags (· ≤ (Utf8.ofString t).length)) :
    let n := (m.exec (.text t) flags).matcher
    (∀ i g, n.group? i = some g → g.span.Inside (Subject.text t).size ∧
      (g.text? = none ↔ g.stop < g.start) ∧
      ((∃ v, g.text? = some (.ok v)) ↔ g.start ≤ g.stop ∧
        (g.isEmpty = true ∨ IsBoundary t.toList g.start ∧ IsBoundary t.toList g.stop))) ∧
    (Engine.SetsBetween m.pattern.code t flags →
      (∀ i g, n.group? i = some g → IsBoundary t.toList g.start ∧ IsBoundary t.toList g.stop ∧
        (g.start ≤ g.stop → ∃ v, g.text? = some (.ok v) ∧ g.bytes? = some (Utf8.ofString v))) ∧
      (∀ i, (∀ g, n.group? i = some g → g.start ≤ g.stop) → ∀ e, n.groupText? i ≠ .error (.utf8 e)) ∧
      (∀ name, (∀ i g, n.pattern.names.get? name = some i → n.group? i = some g → g.start ≤ g.stop) →
        ∀ e, n.namedText? name ≠ .error (.utf8 e)) ∧
      ∀ w, m.replaceAll t u flags = some w → ∀ e, w.result ≠ .error (.utf8 e)) := by
  intro n
  refine ⟨fun i g hg => ?_, fun hsets => ?_⟩
  · obtain ⟨ht, hinside⟩ := group_of_sets (.text t) hin hg
    have hinside' : g.span.Inside g.subject.size := by rw [ht]; exact hinside
    exact ⟨hinside, Match.text?_eq_none_iff hinside', Match.text?_isOk_iff ht hinside'⟩
  · have hgroup : ∀ i g, n.group? i = some g → IsBoundary t.toList g.start ∧
        IsBoundary t.toList g.stop ∧ (g.start ≤ g.stop → ∃ v, g.text? = some (.ok v) ∧
          g.text = .ok v ∧ g.bytes? = some (Utf8.ofString v)) := by
      intro i g hg
      obtain ⟨ht, hstart, hstop⟩ := group_of_sets (.text t) (hsets t.toList List.suffix_rfl) hg
      exact ⟨hstart, hstop, Match.exists_text_of_between ht hstart hstop⟩
    have htext : ∀ i, (∀ g, n.group? i = some g → g.start ≤ g.stop) →
        ∀ e, n.groupText? i ≠ .error (.utf8 e) := fun i hle => groupText?_ne_utf8 fun g hg =>
      ((hgroup i g hg).2.2 (hle g hg)).imp fun v hv => hv.2.1
    refine ⟨fun i g hg => ?_, htext, fun name hle e => ?_, fun w hw => ?_⟩
    · obtain ⟨hstart, hstop, hview⟩ := hgroup i g hg
      exact ⟨hstart, hstop, fun hle => (hview hle).imp fun v hv => ⟨hv.1, hv.2.2⟩⟩
    · exact namedText?_ne_utf8 fun i hi => htext i (fun g => hle i g hi) e
    · exact replaceAll_ne_utf8 hsets.betweenOn hw

open Regex

def headAndRest : Compiled Program :=
  (Compiled.plain? "(*UTF)(.)\\K[é-€]+(?=(.?))" 0).get (by decide +kernel)

/-- Characters of one to four bytes, in the groups and around what is replaced. -/
theorem views_of_text_characters :
    let m : Matcher Program := { pattern := headAndRest, slots := Array.replicate 3 none }
    let n := (m.exec (.text "yé€😀") ∅).matcher
    headAndRest.code.whole.mode.utf = true ∧ headAndRest.code.whole.root.Free Node.isByte ∧
    (∃ g, n.group? 0 = some g ∧ g.span.Inside 10 ∧ IsBoundary "yé€😀".toList g.start ∧
      IsBoundary "yé€😀".toList g.stop ∧ ∃ v, g.text? = some (.ok v) ∧
        g.bytes? = some (Utf8.ofString v)) ∧
    (List.range 4).map n.groupText? =
      [.ok (some "é€"), .ok (some "y"), .ok (some "😀"), .ok none] ∧
    (∀ i < 3, ∀ e, n.groupText? i ≠ .error (.utf8 e)) ∧ (∀ e, n.namedText? "a" ≠ .error (.utf8 e)) ∧
    ∃ w, m.replaceAll "yé€😀" "ß" ∅ = some w ∧ w.result = .ok "yß😀" ∧
      ∀ e, w.result ≠ .error (.utf8 e) := by
  intro m n
  have hb := eq_ok_of_toOption (a := headAndRest) (Option.some_get _).symm
  have hutf : headAndRest.code.whole.mode.utf = true := by decide +kernel
  have hbyte : headAndRest.code.whole.root.Free Node.isByte := by decide +kernel
  have hsets : Engine.SetsBetween headAndRest.code "yé€😀" ∅ := fun cs _ =>
    Program.sets_between (Program.compile_of_build hb) hutf hbyte cs ∅
  obtain ⟨hread, htotal⟩ := views_of_text (m := m) "yé€😀" "ß" ∅
    (headAndRest.code.sets_inside "yé€😀".toList ∅)
  obtain ⟨hgroup, htext, hnamed, hreplace⟩ := htotal hsets
  have hzero : n.group? 0 = some ⟨.text "yé€😀", ⟨1, 6⟩⟩ := by decide +kernel
  obtain ⟨hstart, hstop, hview⟩ := hgroup 0 _ hzero
  have hresult : (m.replaceAll "yé€😀" "ß" ∅).map (·.result) = some (.ok "yß😀") := by decide +kernel
  obtain ⟨w, hw, hok⟩ := Option.map_eq_some_iff.1 hresult
  have horder : ∀ i < 3, ∀ g, n.group? i = some g → g.start ≤ g.stop := by
    have hspans : ∀ i < 3, (n.group? i).all fun g => decide (g.start ≤ g.stop) := by decide +kernel
    intro i hi g hg
    have := hspans i hi
    rw [hg] at this
    exact of_decide_eq_true this
  have hnone : n.pattern.names.get? "a" = none := by decide +kernel
  exact ⟨hutf, hbyte, ⟨_, hzero, (hread 0 _ hzero).1, hstart, hstop, hview (by decide)⟩,
    by decide +kernel, fun i hi => htext i (horder i hi),
    hnamed "a" (fun i _ hi => nomatch hnone.symm.trans hi), w, hw, hok, hreplace w hw⟩

def byteByByte : Compiled Program :=
  (Compiled.plain? "(*UTF)(\\C)\\K\\C" 0).get (by decide +kernel)

/-- In UTF mode too a group can be one byte of a character, and what replaces the other byte leaves no
text. -/
theorem views_of_text_fail_at_byte :
    let m : Matcher Program := { pattern := byteByByte, slots := Array.replicate 2 none }
    let n := (m.exec (.text "é") ∅).matcher
    byteByByte.code.whole.mode.utf = true ∧ (∅ : MatchFlags).has .noUtfCheck = false ∧
    (m.exec (.text "é") ∅).result = .ok true ∧
    n.group? 0 = some ⟨.text "é", ⟨1, 2⟩⟩ ∧ n.group? 1 = some ⟨.text "é", ⟨0, 1⟩⟩ ∧
    (List.range 2).map n.groupText? = [.error (.utf8 ⟨0, some 1⟩), .error (.utf8 ⟨0, none⟩)] ∧
    (m.replaceAll "é" "x" ∅).map (·.result) = some (.error (.utf8 ⟨0, some 1⟩)) := by
  decide +kernel

end Matcher

end Rematch
