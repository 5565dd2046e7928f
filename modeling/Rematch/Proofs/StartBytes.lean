import Mathlib.Tactic.SplitIfs
import Rematch.Proofs.Decoding
import Rematch.Regex.Start

/-! # The bytes that matches start with

What is known of where matches start comes from the expression alone. Of the bytes of a character only the
first is ever taken for one that a match starts with, in the pass for landmarks (`Node.trail`), in tests of
what comes (`Node.asserted`) and in the sets of bytes (`Node.leads`). So in UTF mode no place inside of a
character is singled out (`Start.of_atCharacter`). -/

namespace Rematch.Regex
variable {m : Mode}

theorem Mode.head_bytes (hm : m.utf = true) (c : Nat) :
    ∃ b tail, m.bytes c = b :: tail ∧ b / 64 ≠ 2 := by
  obtain ⟨b, tail, hc⟩ := List.exists_cons_of_ne_nil (String.utf8EncodeChar_ne_nil (c := Char.ofNat c))
  have hrange := Utf8.first_range hc
  refine ⟨b.toNat, tail.map UInt8.toNat, ?_, by omega⟩
  rw [bytes, if_pos hm, Utf8.encode_cons, Utf8.encode_nil, List.append_nil, hc, List.map_cons]

theorem Mode.headD_bytes (hm : m.utf = true) (c : Nat) : (m.bytes c).headD 0 / 64 ≠ 2 := by
  obtain ⟨b, tail, hc, hb⟩ := head_bytes hm c
  rwa [hc]

/-! ### The first byte -/

/-- The byte is not one that goes on with a character. -/
def Mark.AtCharacter : Mark → Prop
  | .byte b _ _ => b / 64 ≠ 2
  | .unset | .unknown => True

theorem Mark.AtCharacter.settle {k : Mark} (h : k.AtCharacter) : k.settle.AtCharacter := by
  cases k with
  | unset => trivial
  | _ => exact h

theorem Landmarks.join_atCharacter {a : Landmarks} (h : a.first.AtCharacter) (b : Landmarks) :
    (a.join b).first.AtCharacter := by
  show Mark.AtCharacter (if _ then _ else _)
  split
  · trivial
  · exact h

/-- The first byte starts a character, with the last item and without it. -/
structure Trail.AtCharacter (t : Trail) : Prop where
  marks : t.marks.first.AtCharacter
  without : t.without.first.AtCharacter

namespace Trail.AtCharacter
variable {t : Trail}

theorem empty (vary : Bool) : Trail.AtCharacter { vary } := ⟨trivial, trivial⟩

theorem opaqueItem (h : t.AtCharacter) : t.opaqueItem.AtCharacter := ⟨h.marks.settle, h.marks.settle⟩

theorem settle (h : t.AtCharacter) : t.settle.AtCharacter := by
  unfold Trail.settle
  split
  · exact ⟨trivial, trivial⟩
  · exact h

theorem literal (h : t.AtCharacter) {bytes : List Nat} (hb : bytes.headD 0 / 64 ≠ 2) (caseless : Bool) :
    (t.literal bytes caseless).AtCharacter := by
  unfold Trail.literal
  dsimp only
  split
  · refine ⟨?_, trivial⟩
    dsimp only
    split
    · trivial
    · exact hb
  · exact ⟨h.marks, h.marks⟩

theorem piece (hm : m.utf = true) (h : t.AtCharacter) (p : Piece) : (t.piece m p).AtCharacter := by
  unfold Trail.piece
  split
  · split
    · exact h.settle
    · exact h.literal (Mode.headD_bytes hm _) _
  · exact h.opaqueItem

theorem group (h : t.AtCharacter) (sub : Landmarks) (hs : sub.first.AtCharacter) (vary : Bool) :
    (t.group sub vary).AtCharacter := by
  refine ⟨?_, ?_⟩
  · show Mark.AtCharacter (if _ then _ else _)
    split
    · exact hs
    · exact h.marks
  · show Mark.AtCharacter (Landmarks.first (if _ then _ else _))
    split
    · trivial
    · exact h.marks

theorem times (h : t.AtCharacter) (q : Repeat) (byte : Option (Nat × Bool)) (isGroup : Bool) :
    (t.times q byte isGroup).AtCharacter := by
  unfold Trail.times
  dsimp only
  split
  · exact ⟨h.without, h.without⟩
  · exact ⟨h.marks, h.without⟩

/-- An item without a byte of its own leaves what came before it. -/
theorem pass (h : t.AtCharacter) : Trail.AtCharacter { t with without := t.marks } :=
  ⟨h.marks, h.marks⟩

theorem varied (h : t.AtCharacter) (vary : Bool) : Trail.AtCharacter { t with vary } :=
  ⟨h.marks, h.without⟩

end Trail.AtCharacter

namespace Node

theorem trail_anchor (a : Anchor) (t : Trail) : trail m (.anchor a) t = t.settle ∨
    trail m (.anchor a) t = t ∨ trail m (.anchor a) t = { t with without := t.marks } := by
  cases a with
  | lineStart multiline => cases multiline <;> simp [trail]
  | _ => simp [trail]

theorem trail_verb (v : Verb) (t : Trail) : trail m (.verb v) t = t ∨
    trail m (.verb v) t = { t with marks := { t.marks with first := t.marks.first.settle } } := by
  cases v <;> simp [trail]

-- A branch is passed through from marks of its own, so the two go round with `trail` and `landmarks`.
mutual

theorem trail_atCharacter (hm : m.utf = true) (n : Node) {t : Trail} (h : t.AtCharacter) :
    (n.trail m t).AtCharacter := by
  match n with
  | .seq a b =>
    rw [trail]
    exact trail_atCharacter hm b (trail_atCharacter hm a h)
  | .piece p =>
    rw [trail]
    exact h.piece hm p
  | .anchor a =>
    rcases trail_anchor (m := m) a t with ha | ha | ha <;> rw [ha]
    · exact h.settle
    · exact h
    · exact h.pass
  | .reference _ _ => rw [trail]; exact h.settle
  | .empty | .missing _ => rw [trail]; exact h
  | .keep => rw [trail]; exact h.pass
  | .verb v =>
    rcases trail_verb (m := m) v t with hv | hv <;> rw [hv]
    · exact h
    · exact ⟨h.marks.settle, h.without⟩
  | .call _ =>
    rw [trail]
    exact ⟨h.marks.settle, h.marks.settle⟩
  | .alt a b =>
    rw [trail]
    have ha := landmarks_atCharacter hm a none nofun t.vary
    have hb := landmarks_atCharacter hm b (some _) (by rintro _ ⟨⟩; exact ha)
      (landmarks m a none t.vary).2
    exact (h.group _ hb t.vary).varied _
  | .group _ body =>
    rw [trail]
    exact (h.group _ (landmarks_atCharacter hm body none nofun t.vary) t.vary).varied _
  | .behind _ body =>
    rw [trail]
    exact trail_atCharacter hm body h
  | .look d _ body =>
    rw [trail]
    dsimp only
    split <;> exact ⟨h.marks, h.marks⟩
  | .choice c two yes no =>
    rw [trail]
    have hyes := landmarks_atCharacter hm yes none nofun t.vary
    have hno := landmarks_atCharacter hm no (some _) (by rintro _ ⟨⟩; exact hyes)
      (landmarks m yes none t.vary).2
    dsimp only
    split
    · exact h.varied _
    · split
      · exact (h.group _ hno t.vary).varied _
      · exact (h.group ⟨.unknown, .unknown⟩ trivial t.vary).varied _
  | .lookChoice d o two test yes no =>
    rw [trail]
    have htest := trail_atCharacter hm (.look d o test) (.empty t.vary)
    have hyes := trail_atCharacter hm yes htest
    have hno := landmarks_atCharacter hm no (some _) (by rintro _ ⟨⟩; exact hyes.marks)
      (trail m yes (trail m (.look d o test) { vary := t.vary })).vary
    dsimp only
    split
    · exact (h.group _ hno t.vary).varied _
    · exact (h.group ⟨.unknown, .unknown⟩ trivial t.vary).varied _
  | .repeated q body =>
    rw [trail]
    exact (trail_atCharacter hm body h).times q _ _
termination_by (sizeOf n, 0)

theorem landmarks_atCharacter (hm : m.utf = true) (n : Node) (before : Option Landmarks)
    (hb : ∀ l ∈ before, l.first.AtCharacter) (vary : Bool) :
    (n.landmarks m before vary).1.first.AtCharacter := by
  have hjoin : ∀ t : Trail, t.AtCharacter →
      (match before with | some l => l.join t.marks | none => t.marks).first.AtCharacter := by
    intro t h
    cases before with
    | none => exact h.marks
    | some l => exact Landmarks.join_atCharacter (hb l rfl) t.marks
  unfold landmarks
  dsimp only
  split
  · next a b =>
    have ha := hjoin _ (trail_atCharacter hm a (.empty vary))
    exact landmarks_atCharacter hm b (some _) (by rintro _ ⟨⟩; exact ha) _
  · exact hjoin _ (trail_atCharacter hm n (.empty vary))
termination_by (sizeOf n, 1)

end

/-! ### Tests of what comes -/

def Asserted.AtCharacter : Asserted → Prop
  | .byte b _ => b / 64 ≠ 2
  | .unknown | .next => True

namespace Asserted.AtCharacter
variable {a : Asserted}

theorem closed (h : a.AtCharacter) : a.closed.AtCharacter := by
  cases a with
  | next => trivial
  | _ => exact h

theorem both (h : a.AtCharacter) (b : Asserted) : (Asserted.both a b).AtCharacter := by
  unfold Asserted.both
  split
  · exact h.closed
  · trivial

end Asserted.AtCharacter

theorem asserted_atCharacter (hm : m.utf = true) (n : Node) (inLook : Bool) :
    (n.asserted m inLook).AtCharacter := by
  induction n generalizing inLook with
  | seq a b iha ihb =>
    rw [asserted]
    split
    · exact ihb inLook
    · exact iha inLook
  | alt a b iha ihb => exact (iha inLook).both _
  | group g body ih => exact (ih inLook).closed
  | look d offset body ih =>
    rw [asserted]
    split
    · trivial
    · exact (ih true).closed
  | anchor a => cases a <;> trivial
  | choice c two yes no =>
    rw [asserted.eq_def]
    split <;> trivial
  | piece p =>
    rw [asserted]
    split
    · split
      · trivial
      · exact Mode.headD_bytes hm _
    · trivial
  | repeated q body ih =>
    rw [asserted]
    split_ifs
    · trivial
    · trivial
    · exact (ih inLook).closed
  | _ => trivial

end Node

/-! ### Sets of bytes -/

/-- No byte of the set goes on with a character. -/
def ByteSet.AtCharacter (s : ByteSet) : Prop := ∀ b, b / 64 = 2 → s b = false

theorem ByteSet.AtCharacter.array {s : ByteSet} (h : s.AtCharacter) (b : Nat) (hb : b / 64 = 2) :
    ((Array.range 256).map s)[b]?.getD false = false := by
  have hlt : b < 256 := by omega
  simp [hlt, h b hb]

def Leads.AtCharacter : Leads → Prop
  | .some s | .orNext s => s.AtCharacter
  | .unknown => True

namespace Leads.AtCharacter
variable {k l : Leads}

theorem union {s t : ByteSet} (hs : s.AtCharacter) (ht : t.AtCharacter) :
    (Leads.union s t).AtCharacter := fun b hb => by
  rw [Leads.union, hs b hb, ht b hb]; rfl

theorem none : Leads.none.AtCharacter := fun _ _ => rfl

theorem both (hk : k.AtCharacter) (hl : l.AtCharacter) : (k.both l).AtCharacter := by
  cases k <;> cases l <;> first | trivial | exact union hk hl

theorem andThen (hk : k.AtCharacter) (hl : l.AtCharacter) : (k.andThen l).AtCharacter := by
  cases k <;> cases l <;> first | trivial | exact hk | exact union hk hl

theorem optional (hk : k.AtCharacter) : k.optional.AtCharacter := by
  cases k <;> exact hk

theorem of_ite {c : Prop} [Decidable c] {s : ByteSet} (hk : k.AtCharacter)
    (h : (if c then Leads.unknown else k) = .some s) : s.AtCharacter := by
  split at h
  · cases h
  · rwa [h] at hk

end Leads.AtCharacter

theorem leadsWhere_atCharacter (hm : m.utf = true) (p : Nat → Bool) :
    ByteSet.AtCharacter (leadsWhere m p) := by
  intro b hb
  have hascii : ¬ b < 0x80 := by omega
  have hcont : b < 0xc2 := by omega
  simp [leadsWhere, hm, hascii, hcont]

theorem CharClass.leads?_atCharacter (hm : m.utf = true) {k : CharClass} {s : ByteSet}
    (h : k.leads? m = some s) : s.AtCharacter := by
  rw [leads?] at h
  split_ifs at h
  cases h
  intro b hb
  have hcont : ¬ 0xc4 ≤ b := by omega
  simp only [hcont, decide_false, Bool.and_false, Bool.false_eq_true, if_false]
  exact leadsWhere_atCharacter hm _ b hb

theorem Piece.leads?_atCharacter (hm : m.utf = true) {p : Piece} {s : ByteSet}
    (h : p.leads? m = some s) : s.AtCharacter := by
  rw [leads?] at h
  split at h
  · cases h
    intro b hb
    refine List.any_eq_false.2 fun d _ => ?_
    obtain ⟨x, tail, hd, hx⟩ := Mode.head_bytes hm d
    rw [hd, List.head?_cons, decide_eq_true_eq, Option.some.injEq]
    rintro rfl
    exact hx hb
  · have hspaces : ∀ (k : Kind) (wide : List Nat), (∀ b ∈ wide, b / 64 ≠ 2) →
        ByteSet.AtCharacter fun b => if m.utf && 0x80 ≤ b then wide.contains b else k.holds m b := by
      intro k wide hwide b hb
      have hle : 0x80 ≤ b := by omega
      have hnot : b ∉ wide := fun hmem => hwide b hmem hb
      simp [hm, hle, hnot]
    dsimp only at h
    split at h
    · cases h; exact hspaces _ _ (by decide)
    · cases h; exact hspaces _ _ (by decide)
    · cases h; exact hspaces _ _ (by decide)
    · cases h
    · cases h
    · split_ifs at h
      cases h
      intro b hb
      have hle : 0x80 ≤ b := by omega
      have hlt : ¬ 0xc0 ≤ b := by omega
      simp [hm, hle, hlt]
    · exact CharClass.leads?_atCharacter hm h
    · cases h

theorem Node.leads_atCharacter (hm : m.utf = true) (n : Node) : (n.leads m).AtCharacter := by
  induction n with
  | empty => exact .none
  | seq a b iha ihb => exact iha.andThen ihb
  | alt a b iha ihb => exact iha.both ihb
  | group g body ih => exact ih
  | piece p =>
    rw [leads]
    split
    · next s hs => exact Piece.leads?_atCharacter hm hs
    · trivial
  | look d offset body ih =>
    rw [leads]
    split
    · exact .none
    · exact ih
  | repeated q body ih =>
    rw [leads]
    split_ifs
    · exact .none
    · exact ih.optional
    · exact ih
  | anchor a =>
    rw [leads.eq_def]
    split <;> first | exact .none | trivial
  | _ => trivial

/-! ### What is known of an expression -/

/-- Where the search looks for starts of matches is at characters only. -/
structure Start.AtCharacter (st : Start) : Prop where
  first : ∀ b caseless, st.first = some (b, caseless) → b / 64 ≠ 2
  leads : ∀ leads, st.leads = some leads → ∀ b, b / 64 = 2 → leads[b]?.getD false = false

theorem Start.of_atCharacter {w : Whole} (hw : w.mode.utf = true) (anchored optimize dotStar : Bool) :
    (Start.of w anchored optimize dotStar).AtCharacter := by
  have hmarks := Node.landmarks_atCharacter hw w.root none nofun false
  have hasserted := w.root.asserted_atCharacter hw false
  have hleads := w.root.leads_atCharacter hw
  unfold Start.of
  dsimp only
  split
  · exact ⟨nofun, nofun⟩
  refine ⟨fun b caseless h => ?_, fun leads h => ?_⟩
  · dsimp only at h
    split at h
    · next hfirst =>
      cases h
      rw [hfirst] at hmarks
      exact hmarks
    · split at h
      · next hfirst =>
        cases h
        rw [hfirst] at hasserted
        exact hasserted
      · cases h
  · dsimp only at h
    split at h
    · next s hs =>
      cases h
      exact (hleads.of_ite hs).array
    · cases h

end Rematch.Regex
