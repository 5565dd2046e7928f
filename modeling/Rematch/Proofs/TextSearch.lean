import Rematch.Proofs.StartBytes
import Rematch.Proofs.TextUnits

/-! # The offsets that a search comes to

A search makes its attempts at places that it has from others in few ways. What they all keep (`Keeps`), and
the machine too, holds of all offsets in what the search finds (`Keeps.run_holds`). No search leaves its
subject, and in UTF mode one of a text makes its attempts at boundaries: where it looks for a byte, it looks
for one that starts a character, and where it goes on, it passes over whole characters
(`OnText.keeps_isBoundary`). -/

namespace Rematch.Regex
open Subject

/-- The offsets in what a search comes to have the property. -/
def Found.Holds (P : Nat → Prop) : Found → Prop
  | .matched r => r.Holds P P
  | .partially start => P start
  | .nothing | .limit | .callLoop => True

theorem flipAscii_atCharacter {b : Nat} (hb : b / 64 ≠ 2) : flipAscii b / 64 ≠ 2 := by
  have ha : 'a'.toNat = 97 := rfl
  have hz : 'z'.toNat = 122 := rfl
  have hA : 'A'.toNat = 65 := rfl
  have hZ : 'Z'.toNat = 90 := rfl
  simp only [flipAscii, Kind.inRange, ha, hz, hA, hZ, Bool.and_eq_true, decide_eq_true_eq]
  split_ifs <;> omega

namespace Search
variable {s : Search} {cs : List Char} {i j : Nat}

/-- What holds of a place holds of those where the search goes on. -/
structure Keeps (s : Search) (P : Nat → Prop) : Prop where
  place : ∀ i j, P i → s.place? i = some j → P j
  next : ∀ i, P i → s.machine.subject.next i ≤ s.size → P (s.machine.subject.next i)
  advance : ∀ i, P i → i ≤ s.size → P (s.advance i)

theorem giveUp_holds {P : Nat → Prop} {c : Option Nat} (hc : ∀ i ∈ c, P i) : (giveUp c).Holds P := by
  cases c with
  | none => trivial
  | some i => exact hc i rfl

theorem settled_holds {P : Nat → Prop} {c : Option Nat} {v : Verdict} (hv : v.Holds P P)
    (hc : ∀ i ∈ c, P i) : (settled c v).Holds P := by
  cases v with
  | matched r => exact hv
  | limit | callLoop => trivial
  | ended | noMatch | verb => exact giveUp_holds hc

namespace Keeps
variable {P : Nat → Prop} {bad : Node → Bool}

theorem onward_holds (hk : s.Keeps P) (hi : P i) {v : Verdict} (hv : v.Holds P P) {n : Nat}
    (hn : s.onward i v = some n) (hle : n ≤ s.size) : P n := by
  unfold onward at hn
  split at hn <;> cases hn
  · split at hle
    · rw [if_pos ‹_›]; exact hv
    · rw [if_neg ‹_›]; exact hk.next i hi hle
  · exact hk.next i hi hle
  · exact hk.next i hi hle

theorem tryFrom_holds (hk : s.Keeps P) (hm : Carried s.machine bad P P)
    (hroot : s.machine.whole.root.Free bad) {fuel : Nat} {c : Option Nat} (hi : P i)
    (hc : ∀ j ∈ c, P j) : (s.tryFrom i c fuel).Holds P := by
  induction fuel generalizing i c with
  | zero => exact giveUp_holds hc
  | succ fuel ih =>
    rw [tryFrom_succ]
    cases hj : s.place? i with
    | none => exact giveUp_holds hc
    | some j =>
      have hplace : P j := hk.place i j hi hj
      have hverdict : (s.machine.verdict j).Holds P P := Machine.attempt_holds hm hroot hplace hplace
      -- the search may have been cut off at this place or at an earlier one
      have hcut : ∀ k ∈ c.or (if s.machine.hitsEnd j then some j else none), P k := by
        intro k hk
        rcases Option.or_eq_some_iff.1 hk with hk | ⟨-, hk⟩
        · exact hc k hk
        · split at hk
          · cases hk; exact hplace
          · cases hk
      dsimp only [Option.elim_some]
      cases hn : s.onward j (s.machine.verdict j) with
      | none => exact settled_holds hverdict hcut
      | some n =>
        dsimp only [Option.elim_some]
        split
        · next hgo =>
          have hle := le_of_goesOn hgo
          exact ih (hk.advance n (hk.onward_holds hplace hverdict hn hle) hle) hcut
        · exact giveUp_holds hcut

theorem run_holds (hk : s.Keeps P) (hm : Carried s.machine bad P P)
    (hroot : s.machine.whole.root.Free bad) (horigin : P s.machine.origin) : s.run.Holds P :=
  hk.tryFrom_holds hm hroot horigin nofun

end Keeps

/-! ### Places inside of the subject -/

theorem scanTo_le {p : Nat → Bool} {stop : Nat} (hi : i ≤ s.size) (hstop : stop ≤ s.size) :
    scanTo p i stop ≤ s.size :=
  Nat.le_trans (scanTo_cases p i stop).1 (Nat.max_le.2 ⟨hi, hstop⟩)

theorem scanEnd_le (hi : i ≤ s.size) : s.scanEnd i ≤ s.size := by
  unfold scanEnd
  split
  · exact scanTo_le hi (Nat.le_refl _)
  · exact Nat.le_refl _

theorem lineFrom_le {stop : Nat} (hi : i ≤ s.size) (hstop : stop ≤ s.size) : s.lineFrom i stop ≤ s.size := by
  unfold lineFrom
  dsimp only
  split
  · exact hi
  split
  · next hpair =>
    simp only [Bool.and_eq_true, decide_eq_true_eq] at hpair
    exact Nat.lt_of_lt_of_le hpair.1.2 hstop
  · exact scanTo_le hi hstop

theorem startFrom_le (hi : i ≤ s.size) (h : s.startFrom i = some j) : j ≤ s.size := by
  cases ha : s.anchored with
  | true => rwa [startFrom_anchored ha h]
  | false =>
    have hscan : ∀ p, scanTo p i (s.scanEnd i) ≤ s.size := fun p => scanTo_le hi (scanEnd_le hi)
    simp only [startFrom, ha, Bool.false_eq_true, if_false] at h
    split at h
    · split at h
      · cases h
      · cases h; exact hscan _
    · split at h
      · cases h
      · cases h; exact hscan _
    · cases h
      split
      · exact lineFrom_le hi (scanEnd_le hi)
      · exact hi

theorem keeps_le (s : Search) : s.Keeps (· ≤ s.size) where
  place i j hi h := by
    rw [place?] at h
    split at h
    · exact startFrom_le hi (Option.filter_eq_some_iff.1 h).1
    · cases h; exact hi
  next _ _ h := h
  advance _ _ h := advance_le h

/-! ### Places between characters -/

/-- The search is one of a text, in UTF mode. -/
structure OnText (s : Search) (cs : List Char) : Prop where
  subject : s.machine.subject = .ofText cs
  utf : s.program.whole.mode.utf = true
  start : s.program.start.AtCharacter

namespace OnText
variable (hs : s.OnText cs)
include hs

theorem isBoundary_of_byte (hi : i ≤ (Units.ofText cs).size) (hb : s.machine.subject.byte i / 64 ≠ 2) :
    IsBoundary cs i := by
  rw [hs.subject] at hb
  exact (Units.isBoundary_iff_byte hi).2 hb

theorem size_eq : s.size = (Units.ofText cs).size := by
  rw [size, Machine.size, hs.subject]

theorem isBoundary_size : IsBoundary cs s.size := by
  rw [hs.size_eq]
  exact isBoundary_iff.2 ⟨cs, [], (List.append_nil _).symm, rfl⟩

/-- Behind a byte of ASCII at a boundary is another one. -/
theorem isBoundary_succ (hi : IsBoundary cs i) (hlt : i < s.size) (hb : s.machine.subject.byte i < 0x80) :
    IsBoundary cs (i + 1) := by
  rw [hs.size_eq] at hlt
  rw [hs.subject] at hb
  exact Units.isBoundary_succ hi hlt hb

theorem isBoundary_scanTo {p : Nat → Bool} {stop : Nat}
    (hp : ∀ j, p j = true → s.machine.subject.byte j / 64 ≠ 2) (hi : IsBoundary cs i)
    (hstop : IsBoundary cs stop) : IsBoundary cs (scanTo p i stop) := by
  obtain ⟨hle, hfound | hend⟩ := scanTo_cases p i stop
  · have hmax : max i stop ≤ (Units.ofText cs).size := Nat.max_le.2 ⟨isBoundary_le hi, isBoundary_le hstop⟩
    exact hs.isBoundary_of_byte (Nat.le_trans hle hmax) (hp _ hfound)
  · rw [hend]
    rcases Nat.le_total i stop with h | h
    · rwa [Nat.max_eq_right h]
    · rwa [Nat.max_eq_left h]

theorem byte_of_hasByte {b : Nat × Bool} (hb : b.1 / 64 ≠ 2) (h : s.hasByte b i = true) :
    s.machine.subject.byte i / 64 ≠ 2 := by
  simp only [hasByte, hs.utf, Bool.not_true, Bool.and_false, Bool.false_and, Bool.or_false,
    Bool.or_eq_true, Bool.and_eq_true, decide_eq_true_eq] at h
  rcases h with h | ⟨-, h⟩
  · rwa [h]
  · rw [h]; exact flipAscii_atCharacter hb

theorem byte_of_atCharacter (h : s.atCharacter i = true) : s.machine.subject.byte i / 64 ≠ 2 := by
  simpa [atCharacter, hs.subject, Units.ofText] using h

theorem isBoundary_scanEnd (hi : IsBoundary cs i) : IsBoundary cs (s.scanEnd i) := by
  unfold scanEnd
  split
  · refine hs.isBoundary_scanTo (fun j hj => ?_) hi hs.isBoundary_size
    exact hs.byte_of_atCharacter ((Bool.and_eq_true _ _).mp hj).1
  · exact hs.isBoundary_size

theorem isBoundary_lineFrom {stop : Nat} (hi : IsBoundary cs i) (hstop : IsBoundary cs stop) :
    IsBoundary cs (s.lineFrom i stop) := by
  unfold lineFrom
  dsimp only
  split
  · exact hi
  have hj : IsBoundary cs (scanTo s.newlineBefore i stop) :=
    hs.isBoundary_scanTo (fun j hj => hs.byte_of_atCharacter ((Bool.and_eq_true _ _).mp hj).1) hi hstop
  split
  · next hpair =>
    simp only [Bool.and_eq_true, decide_eq_true_eq] at hpair
    obtain ⟨⟨-, hlt⟩, hlf⟩ := hpair
    have hle : stop ≤ s.size := by rw [hs.size_eq]; exact isBoundary_le hstop
    exact hs.isBoundary_succ hj (Nat.lt_of_lt_of_le hlt hle) (by omega)
  · exact hj

theorem isBoundary_startFrom (hi : IsBoundary cs i) (h : s.startFrom i = some j) : IsBoundary cs j := by
  cases ha : s.anchored with
  | true => rwa [startFrom_anchored ha h]
  | false =>
    have hstop := hs.isBoundary_scanEnd hi
    simp only [startFrom, ha, Bool.false_eq_true, if_false] at h
    split at h
    · next b hfirst =>
      have hb := hs.start.first b.1 b.2 hfirst
      have hj := hs.isBoundary_scanTo (fun j hj => hs.byte_of_hasByte hb hj) hi hstop
      split at h
      · cases h
      · cases h; exact hj
    · next leads _ hleads =>
      have hj := hs.isBoundary_scanTo (p := fun i => leads[s.machine.subject.byte i]?.getD false)
        (fun j hj hb => by rw [hs.start.leads leads hleads _ hb] at hj; cases hj) hi hstop
      split at h
      · cases h
      · cases h; exact hj
    · cases h
      split
      · exact hs.isBoundary_lineFrom hi hstop
      · exact hi

theorem isBoundary_place? (hi : IsBoundary cs i) (h : s.place? i = some j) : IsBoundary cs j := by
  rw [place?] at h
  split at h
  · exact hs.isBoundary_startFrom hi (Option.filter_eq_some_iff.1 h).1
  · cases h; exact hi

theorem isBoundary_advance (hi : IsBoundary cs i) : IsBoundary cs (s.advance i) := by
  unfold advance
  dsimp only
  split
  · next hpair =>
    simp only [Bool.and_eq_true, decide_eq_true_eq] at hpair
    obtain ⟨⟨⟨⟨⟨-, hlt⟩, -⟩, hlf⟩, -⟩, -⟩ := hpair
    exact hs.isBoundary_succ hi hlt (by omega)
  · exact hi

theorem isBoundary_next (hi : IsBoundary cs i) (hle : s.machine.subject.next i ≤ s.size) :
    IsBoundary cs (s.machine.subject.next i) := by
  have hlt : i < s.size := Nat.lt_of_lt_of_le (s.machine.subject.lt_next i) hle
  rw [hs.size_eq] at hlt
  rw [hs.subject]
  exact Units.isBoundary_next hi hlt

theorem keeps_isBoundary : s.Keeps (IsBoundary cs) where
  place _ _ hi h := hs.isBoundary_place? hi h
  next _ hi h := hs.isBoundary_next hi h
  advance _ hi _ := hs.isBoundary_advance hi

end OnText

end Search

end Rematch.Regex
