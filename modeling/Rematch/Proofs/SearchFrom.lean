import Rematch.Proofs.Shifted
import Rematch.Proofs.Wellformed

/-! # The places of a search behind an offset

A search goes from place to place: it seeks the next one (`Search.place?`), makes an attempt there, and the
verdict on that tells whether and where it goes on (`Search.tryFrom_succ`). Behind an offset of a subject
it goes the way of a search of what stands there (`place?_behind`, `onward_behind`, `advance_behind`), if
the search for places does not look back from its start (`Search.SeeksAhead`). -/

namespace Rematch.Regex

theorem Units.lt_next (u : Units) (i : Nat) : i < u.next i := by
  have hskip : ∀ fuel i, i ≤ Units.next.skip u i fuel := by
    intro fuel
    induction fuel with
    | zero => exact fun i => Nat.le_refl i
    | succ fuel ih =>
      intro i
      rw [Units.next.skip]
      split
      · exact Nat.le_trans (Nat.le_succ i) (ih (i + 1))
      · exact Nat.le_refl i
  unfold Units.next
  split
  · exact hskip 6 (i + 1)
  · exact Nat.lt_succ_self i

/-- The first unit begins a character. -/
def Units.Starts (u : Units) : Prop := u.utf = true → u.byte 0 / 64 ≠ 2

namespace Units.Extends
variable {d : Nat} {u v : Units} (h : Extends d u v)
include h

theorem prev (hs : v.Starts) {i : Nat} (hi : 0 < i) : u.prev (d + i) = d + v.prev i := by
  have hfloor : v.byte 0 / 64 ≠ 2 → ∀ fuel i, u.floor (d + i) fuel = d + v.floor i fuel := by
    intro hlead fuel
    induction fuel with
    | zero => intro i; simp only [Units.floor]
    | succ fuel ih =>
      intro i
      cases i with
      | zero =>
        have hbyte : u.byte d / 64 ≠ 2 := by rw [← Nat.add_zero d, h.byte]; exact hlead
        cases d with
        | zero => rfl
        | succ d => simp only [Units.floor, Nat.add_zero, if_neg hbyte]
      | succ j =>
        have hbyte : u.byte (d + j + 1) = v.byte (j + 1) := h.byte (j + 1)
        rw [← Nat.add_assoc]
        simp only [Units.floor, hbyte]
        split
        · exact ih j
        · rfl
  have hpred : d + i - 1 = d + (i - 1) := by omega
  simp only [Units.prev, h.utf, hpred]
  split
  · next hutf => exact hfloor (hs hutf) 6 (i - 1)
  · rfl

theorem newlineBefore (hs : v.Starts) {n : Newline} (hn : n ≠ .crlf) {i : Nat} (hi : 0 < i) :
    u.newlineBefore n (d + i) = v.newlineBefore n i := by
  obtain ⟨j, rfl⟩ : ∃ j, i = j + 1 := ⟨i - 1, by omega⟩
  have hget : (u.get (u.prev (d + j + 1))).1 = (v.get (v.prev (j + 1))).1 := by
    rw [Nat.add_assoc, h.prev hs hi, h.get]
  rw [← Nat.add_assoc]
  cases n with
  | crlf => exact absurd rfl hn
  | _ => simp only [Units.newlineBefore, hget]

end Units.Extends

namespace Machine

/-- What an attempt comes to. -/
def verdict (m : Machine) (i : Nat) : Verdict := (m.attempt i).1

/-- Has an attempt run into the end of the subject? -/
def hitsEnd (m : Machine) (i : Nat) : Bool := (m.attempt i).2.hitEnd

end Machine

namespace Search

theorem le_go (p : Nat → Bool) (i fuel : Nat) : i ≤ scanTo.go p i fuel := by
  induction fuel generalizing i with
  | zero => exact Nat.le_refl i
  | succ fuel ih =>
    rw [scanTo.go]
    split
    · exact Nat.le_refl i
    · exact Nat.le_trans (Nat.le_succ i) (ih (i + 1))

theorem le_scanTo (p : Nat → Bool) (i stop : Nat) : i ≤ scanTo p i stop := le_go p i (stop - i)

/-- A scan ends where the property holds, or where it was to end. -/
theorem scanTo_cases (p : Nat → Bool) (i stop : Nat) : scanTo p i stop ≤ max i stop ∧
    (p (scanTo p i stop) = true ∨ scanTo p i stop = max i stop) := by
  have hgo : ∀ fuel i, scanTo.go p i fuel ≤ i + fuel ∧
      (p (scanTo.go p i fuel) = true ∨ scanTo.go p i fuel = i + fuel) := by
    intro fuel
    induction fuel with
    | zero => exact fun i => ⟨Nat.le_refl i, .inr rfl⟩
    | succ fuel ih =>
      intro i
      rw [scanTo.go]
      split
      · next hp => exact ⟨Nat.le_add_right i _, .inl hp⟩
      · have h := ih (i + 1)
        rwa [Nat.add_right_comm, Nat.add_assoc] at h
  have hmax : i + (stop - i) = max i stop := by omega
  rw [← hmax]
  exact hgo (stop - i) i

theorem scanTo_of_lt {p : Nat → Bool} {i stop : Nat} (h : scanTo p i stop < stop) :
    p (scanTo p i stop) = true :=
  (scanTo_cases p i stop).2.resolve_right fun hend =>
    absurd (hend ▸ Nat.le_max_right i stop) (Nat.not_le.2 h)

theorem scanTo_shift {d : Nat} {p q : Nat → Bool} {i : Nat} (hpq : ∀ j, i ≤ j → q (d + j) = p j)
    (stop : Nat) : scanTo q (d + i) (d + stop) = d + scanTo p i stop := by
  have hgo : ∀ fuel i, (∀ j, i ≤ j → q (d + j) = p j) →
      scanTo.go q (d + i) fuel = d + scanTo.go p i fuel := by
    intro fuel
    induction fuel with
    | zero => exact fun i _ => rfl
    | succ fuel ih =>
      intro i hpq
      rw [scanTo.go, scanTo.go, hpq i (Nat.le_refl i)]
      split
      · rfl
      · exact ih (i + 1) fun j hj => hpq j (by omega)
  rw [scanTo, scanTo, Nat.add_sub_add_left]
  exact hgo _ i hpq

theorem ite_succ_add (d i : Nat) (c : Prop) [Decidable c] :
    (if c then d + i + 1 else d + i) = d + if c then i + 1 else i := by
  split <;> rfl

/-- The search on a longer subject, from where the shorter one begins in it. -/
@[simps]
def behind (s : Search) (u : Units) (d : Nat) : Search := { s with machine := s.machine.on u d }

/-- The search for places of an expression that is tied to the starts of lines looks back for the ends of
lines, but not farther than to where it began. -/
structure SeeksAhead (s : Search) : Prop where
  origin : s.machine.origin = 0
  line : s.program.optimize = true → s.anchored = false → s.program.start.atLine = true →
    s.program.newline ≠ .crlf ∧ s.machine.subject.Starts

variable {s : Search} {u : Units} {d : Nat} (h : u.Extends d s.machine.subject)
include h

theorem size_behind : (s.behind u d).size = d + s.size := h.size

theorem hasByte_behind (b : Nat × Bool) (i : Nat) :
    (s.behind u d).hasByte b (d + i) = s.hasByte b i := by
  simp only [hasByte, behind_machine, behind_program, Machine.on_subject, h.byte]

theorem newlineAt_behind (i : Nat) : (s.behind u d).newlineAt (d + i) = s.newlineAt i := by
  simp only [newlineAt, atCharacter, behind_machine, behind_program, Machine.on_subject, h.byte, h.utf,
    h.newlineAt]

theorem scanEnd_behind (i : Nat) : (s.behind u d).scanEnd (d + i) = d + s.scanEnd i := by
  unfold scanEnd
  simp only [size_behind h, behind_program, behind_anchored]
  split
  · exact scanTo_shift (fun j _ => newlineAt_behind h j) s.size
  · rfl

theorem hasRest_behind (i : Nat) : (s.behind u d).hasRest (d + i) = s.hasRest i := by
  have hscan : ∀ b j, scanTo ((s.behind u d).hasByte b) (d + j) (d + s.size) =
      d + scanTo (s.hasByte b) j s.size := fun b j => scanTo_shift (fun j _ => hasByte_behind h b j) s.size
  have hle : d + i + s.program.start.minLength ≤ d + s.size ↔
      i + s.program.start.minLength ≤ s.size := by omega
  unfold hasRest
  simp only [size_behind h, behind_machine, behind_program, Machine.on_part, hle]
  cases s.program.start.required with
  | none => rfl
  | some b =>
    have hfrom : (if s.program.start.first.isSome then d + i + 1 else d + i) =
        d + if s.program.start.first.isSome then i + 1 else i := by
      split <;> rfl
    simp only [hfrom, hscan, Nat.add_lt_add_iff_left]

theorem lineFrom_behind (horigin : s.machine.origin = 0) (hn : s.program.newline ≠ .crlf)
    (hstarts : s.machine.subject.Starts) (i stop : Nat) :
    (s.behind u d).lineFrom (d + i) (d + stop) = d + s.lineFrom i stop := by
  have hstart : d + i = d ↔ i = 0 := by omega
  unfold lineFrom
  simp only [behind_machine, Machine.on_origin, horigin, hstart]
  split
  · rfl
  next hi =>
    have hscan : scanTo (s.behind u d).newlineBefore (d + i) (d + stop) =
        d + scanTo s.newlineBefore i stop := by
      refine scanTo_shift (fun j hj => ?_) stop
      simp only [newlineBefore, atCharacter, behind_machine, behind_program, Machine.on_subject, h.byte,
        h.utf]
      rw [h.newlineBefore hstarts hn (by omega)]
    have hj : i ≤ scanTo s.newlineBefore i stop := le_scanTo _ _ _
    rw [hscan]
    generalize scanTo s.newlineBefore i stop = j at hj
    have hpred : d + j - 1 = d + (j - 1) := by omega
    simp only [pairsNewlines, behind_program, Machine.on_subject, hpred, h.byte, Nat.add_lt_add_iff_left]
    exact ite_succ_add d j _

theorem startFrom_behind (hs : s.SeeksAhead) (ho : s.program.optimize = true) (i : Nat) :
    (s.behind u d).startFrom (d + i) = (s.startFrom i).map (d + ·) := by
  have hscan : ∀ b, scanTo ((s.behind u d).hasByte b) (d + i) (d + s.scanEnd i) =
      d + scanTo (s.hasByte b) i (s.scanEnd i) :=
    fun b => scanTo_shift (fun j _ => hasByte_behind h b j) _
  unfold startFrom
  simp only [size_behind h, scanEnd_behind h, behind_machine, behind_program, behind_anchored,
    Machine.on_part, Machine.on_subject, h.byte, hasByte_behind h, hscan, Nat.add_lt_add_iff_left]
  split
  · split
    · split_ifs <;> rfl
    · split_ifs <;> rfl
    · rfl
  next ha =>
    split
    · simp only [Nat.add_le_add_iff_left]
      split_ifs <;> rfl
    · next leads _ _ =>
      have hleads : scanTo (fun i => leads[u.byte i]?.getD false) (d + i) (d + s.scanEnd i) =
          d + scanTo (fun i => leads[s.machine.subject.byte i]?.getD false) i (s.scanEnd i) :=
        scanTo_shift (fun j _ => by rw [h.byte]) _
      simp only [hleads, Nat.add_le_add_iff_left]
      split_ifs <;> rfl
    · cases hl : s.program.start.atLine with
      | false => rfl
      | true =>
        obtain ⟨hn, hstarts⟩ := hs.line ho (Bool.eq_false_iff.2 ha) hl
        exact congrArg some (lineFrom_behind h hs.origin hn hstarts i _)

theorem place?_behind (hs : s.SeeksAhead) (i : Nat) :
    (s.behind u d).place? (d + i) = (s.place? i).map (d + ·) := by
  cases ho : s.program.optimize with
  | false => simp only [place?, behind_program, ho, Bool.false_eq_true, if_false, Option.map_some]
  | true =>
    have hrest : (s.behind u d).hasRest ∘ (d + ·) = s.hasRest := funext fun j => hasRest_behind h j
    simp only [place?, behind_program, ho, if_true, startFrom_behind h hs ho, Option.filter_map, hrest]

theorem advance_behind {i : Nat} (hi : 0 < i) : (s.behind u d).advance (d + i) = d + s.advance i := by
  have hpred : d + i - 1 = d + (i - 1) := by omega
  have hpos : 0 < d + i := by omega
  unfold advance
  simp only [size_behind h, behind_machine, behind_program, pairsNewlines, Machine.on_subject, hpred,
    h.byte, Nat.add_lt_add_iff_left, hi, hpos]
  exact ite_succ_add d i _

/-! ### What a search does at its first place -/

section
omit h

/-- Where a search would go on after an attempt at `i` that came to this. -/
def onward (s : Search) (i : Nat) : Verdict → Option Nat
  | .matched _ | .limit | .callLoop | .ended | .verb .commit _ => none
  | .verb .skip pos => some (if i < pos then pos else s.machine.subject.next i)
  | .verb _ _ | .noMatch => some (s.machine.subject.next i)

/-- Does a search go on at `next` after an attempt at `i`? -/
def goesOn (s : Search) (i next : Nat) : Bool :=
  !(s.program.firstLine && !s.anchored && s.newlineAt i) && !(s.anchored || s.size < next)

theorem le_of_goesOn {i n : Nat} (h : s.goesOn i n = true) : n ≤ s.size := by
  simp only [goesOn, Bool.and_eq_true, Bool.not_eq_true', Bool.or_eq_false_iff, decide_eq_false_iff_not,
    Nat.not_lt] at h
  exact h.2.2

theorem anchored_of_goesOn {i n : Nat} (h : s.goesOn i n = true) : s.anchored = false := by
  simp only [goesOn, Bool.and_eq_true, Bool.not_eq_true', Bool.or_eq_false_iff] at h
  exact h.2.1

theorem lt_onward {i n : Nat} {v : Verdict} (hv : s.onward i v = some n) : i < n := by
  have hnext := s.machine.subject.lt_next i
  unfold onward at hv
  split at hv <;> cases hv
  · split <;> omega
  · exact hnext
  · exact hnext

/-- What a search comes to if it does not go on behind an attempt that came to this. -/
def settled (c : Option Nat) : Verdict → Found
  | .matched r => .matched r
  | .limit => .limit
  | .callLoop => .callLoop
  | .ended | .noMatch | .verb .. => giveUp c

/-- The search stops with what its attempt came to, or goes on where the attempt has left it to. -/
theorem tryFrom_succ (i fuel : Nat) (c : Option Nat) : s.tryFrom i c (fuel + 1) =
    (s.place? i).elim (giveUp c) fun j =>
      let cut := c.or (if s.machine.hitsEnd j then some j else none)
      (s.onward j (s.machine.verdict j)).elim (settled cut (s.machine.verdict j)) fun n =>
        if s.goesOn j n then s.tryFrom (s.advance n) cut fuel else giveUp cut := by
  rw [tryFrom]
  cases s.place? i with
  | none => rfl
  | some j =>
    have hgo : ∀ n c, (if s.program.firstLine && !s.anchored && s.newlineAt j then giveUp c
        else if s.anchored || s.size < n then giveUp c else s.tryFrom (s.advance n) c fuel) =
        if s.goesOn j n then s.tryFrom (s.advance n) c fuel else giveUp c := by
      intro n c
      rw [goesOn]
      cases s.program.firstLine && !s.anchored && s.newlineAt j <;>
        cases s.anchored || decide (s.size < n) <;> rfl
    rcases hx : s.machine.attempt j with ⟨v, st⟩
    simp only [Option.elim_some, Machine.verdict, Machine.hitsEnd, hx]
    cases v with
    | matched | limit | callLoop | ended => rfl
    | noMatch => exact hgo _ _
    | verb v pos =>
      cases v with
      | commit => rfl
      | skip =>
        simp only [onward, Option.elim_some]
        split <;> exact hgo _ _
      | _ => exact hgo _ _

theorem giveUp_ne_matched (c : Option Nat) (r : Regs) : giveUp c ≠ .matched r := by
  cases c <;> exact nofun

theorem settled_eq_matched_iff {c : Option Nat} {v : Verdict} {r : Regs} :
    settled c v = .matched r ↔ v = .matched r := by
  cases v <;> simp [settled, giveUp_ne_matched]

theorem tryFrom_succ_eq_matched {i fuel : Nat} {c : Option Nat} {r : Regs} :
    s.tryFrom i c (fuel + 1) = .matched r ↔ ∃ j, s.place? i = some j ∧
      (s.machine.verdict j = .matched r ∨
        ∃ n, s.onward j (s.machine.verdict j) = some n ∧ s.goesOn j n = true ∧
          s.tryFrom (s.advance n) (c.or (if s.machine.hitsEnd j then some j else none)) fuel =
            .matched r) := by
  rw [tryFrom_succ]
  cases s.place? i with
  | none => simp [giveUp_ne_matched]
  | some j =>
    simp only [Option.elim_some, Option.some.injEq, exists_eq_left']
    cases hv : s.onward j (s.machine.verdict j) with
    | none => simp [settled_eq_matched_iff]
    | some n =>
      have hne : s.machine.verdict j ≠ .matched r := by
        intro hm
        rw [hm] at hv
        cases hv
      simp only [Option.elim_some, hne, false_or, Option.some.injEq, exists_eq_left']
      split
      · next hgo => simp [hgo]
      · next hgo => simp [hgo, giveUp_ne_matched]

end

theorem onward_behind (i : Nat) (v : Verdict) :
    (s.behind u d).onward (d + i) (v.shift d) = (s.onward i v).map (d + ·) := by
  have hnext : u.next (d + i) = d + s.machine.subject.next i := h.next i
  cases v with
  | verb v pos =>
    cases v with
    | skip =>
      simp only [Verdict.shift, onward, behind_machine, Machine.on_subject, hnext, Nat.add_lt_add_iff_left,
        Option.map_some, apply_ite (d + ·)]
    | commit => rfl
    | _ => exact congrArg some hnext
  | noMatch => exact congrArg some hnext
  | _ => rfl

theorem goesOn_behind (i n : Nat) : (s.behind u d).goesOn (d + i) (d + n) = s.goesOn i n := by
  simp only [goesOn, behind_program, behind_anchored, newlineAt_behind h, size_behind h,
    Nat.add_lt_add_iff_left]

/-! ### The place of a match -/

section
omit h

theorem startFrom_anchored (ha : s.anchored = true) {i j : Nat} (hj : s.startFrom i = some j) :
    j = i := by
  simp only [startFrom, ha, if_true] at hj
  split at hj
  · split_ifs at hj; exact (Option.some.inj hj).symm
  · split_ifs at hj; exact (Option.some.inj hj).symm
  · exact (Option.some.inj hj).symm

/-- A search that is tied to its start attempts no match elsewhere. -/
theorem place?_anchored (ha : s.anchored = true) {i j : Nat} (hj : s.place? i = some j) : j = i := by
  rw [place?] at hj
  split at hj
  · exact startFrom_anchored ha (Option.filter_eq_some_iff.1 hj).1
  · exact (Option.some.inj hj).symm

theorem advance_le {n : Nat} (h : n ≤ s.size) : s.advance n ≤ s.size := by
  unfold advance
  dsimp only
  split
  · next hpair =>
    simp only [Bool.and_eq_true, decide_eq_true_eq] at hpair
    exact hpair.1.1.1.1.2
  · exact h

end

end Search

namespace Node

/-- The node moves the start of the match. -/
def isKeep : Node → Bool
  | .keep => true
  | _ => false

end Node

/-- A match starts where the attempt that has found it was made, if nothing moves its start. -/
theorem Machine.start_of_attempt {m : Machine} (hroot : m.whole.root.Free Node.isKeep) {i : Nat}
    {r : Regs} (h : (m.attempt i).1 = .matched r) : r.start = i := by
  have hc : Carried m Node.isKeep (fun _ => True) (· = i) := .of_nodes (fun _ _ => rfl) nofun
  have hholds := attempt_holds hc hroot trivial rfl
  rw [h] at hholds
  exact hholds.start

theorem Units.extends_drop {b : Bytes} {q : Nat} (hq : q ≤ b.length) (utf : Bool) :
    Extends q ⟨b.toArray, utf⟩ ⟨(b.drop q).toArray, utf⟩ where
  utf := rfl
  size := by
    show b.length = q + (b.drop q).length
    rw [List.length_drop]; omega
  byte i := by simp [Units.byte]

theorem Units.starts_of_wellformed {b : Bytes} {utf : Bool} (h : utf = true → Malformed.of? b = none) :
    Units.Starts ⟨b.toArray, utf⟩ := by
  intro hutf
  obtain ⟨cs, rfl⟩ := Malformed.of?_eq_none_iff.1 (h hutf)
  cases cs with
  | nil => exact show 0 / 64 ≠ 2 by decide
  | cons c cs =>
    obtain ⟨x, tail, hx⟩ := List.exists_cons_of_ne_nil (String.utf8EncodeChar_ne_nil (c := c))
    have hrange := Utf8.first_range hx
    have hbyte : Units.byte ⟨(Utf8.encode (c :: cs)).toArray, utf⟩ 0 = x.toNat := by
      simp [Units.byte, Utf8.encode_cons, hx]
    rw [hbyte]
    omega

/-- The search for the starts of lines can go on at an offset as if nothing stood before it: it asks
for no newlines of two bytes, and in UTF mode the engine is to see to it that no character is split. -/
def Program.SeeksAhead (p : Program) (f : MatchFlags) : Prop :=
  p.optimize = true → p.start.atLine = true →
    p.newline ≠ .crlf ∧ (p.whole.mode.utf = true → f.has .noUtfCheck = false)

end Rematch.Regex
