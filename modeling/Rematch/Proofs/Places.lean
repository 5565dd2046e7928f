import Rematch.LineSearch
import Rematch.Proofs.Guarded
import Rematch.Proofs.Offsets
import Rematch.Proofs.SearchFrom

/-! # Searches of regular expressions from an offset on

The engine of regular expressions is a searcher (`Regex.Program.searcher`): its searches go from place to
place as `Regex.Search.look` says, and its attempts are searches from the start (`Regex.Program.answers`).
What stands before an offset makes no difference to it if no part of the expression looks back from where
the search starts (`Regex.Program.LooksAhead`). -/

namespace Rematch.Regex

theorem Regs.group?_shift (r : Regs) (d : Nat) : (r.shift d).group? = Spans.shift r.group? d := by
  funext i
  rw [Spans.shift_apply, Regs.group?, Regs.group?]
  split
  · rfl
  · exact Machine.slots_shift r i

namespace Search
variable {s : Search} {u : Units} {i j k n d fuel : Nat} {g : Spans} {r : Regs} {c : Option Nat}

/-- What the search comes to when an attempt at `j` has come to this. -/
def comesTo (s : Search) (j : Nat) : Verdict → Look
  | .matched r => .found j r.group?
  | .limit | .callLoop => .failed
  | v => ((s.onward j v).filter (s.goesOn j)).elim .ended fun n => .onward (s.advance n)

/-- What the search comes to from a place on. -/
def look (s : Search) (i : Nat) : Look :=
  (s.place? i).elim .ended fun j => s.comesTo j (s.machine.verdict j)

theorem comesTo_of_onward {v : Verdict} (hn : s.onward j v = some n) (hgo : s.goesOn j n = true) :
    s.comesTo j v = .onward (s.advance n) := by
  cases v with
  | matched | limit | callLoop | ended => cases hn
  | noMatch | verb => simp only [comesTo, hn, Option.filter_some, hgo, if_true, Option.elim_some]

theorem comesTo_eq_found {v : Verdict} (h : s.comesTo j v = .found k g) :
    k = j ∧ ∃ r : Regs, v = .matched r ∧ g = r.group? := by
  unfold comesTo at h
  split at h
  · cases h; exact ⟨rfl, _, rfl, rfl⟩
  · cases h
  · cases h
  · cases hn : (s.onward j v).filter (s.goesOn j) <;> rw [hn] at h <;> cases h

theorem comesTo_eq_onward {v : Verdict} (h : s.comesTo j v = .onward k) :
    ∃ n, s.onward j v = some n ∧ s.goesOn j n = true ∧ k = s.advance n := by
  unfold comesTo at h
  split at h
  · cases h
  · cases h
  · cases h
  · cases hn : (s.onward j v).filter (s.goesOn j) with
    | none => rw [hn] at h; cases h
    | some n =>
      rw [hn] at h
      cases h
      obtain ⟨hn, hgo⟩ := Option.filter_eq_some_iff.1 hn
      exact ⟨n, hn, hgo, rfl⟩

theorem comesTo_eq_failed {v : Verdict} (h : s.comesTo j v = .failed) : v = .limit ∨ v = .callLoop := by
  unfold comesTo at h
  split at h
  · cases h
  · exact .inl rfl
  · exact .inr rfl
  · cases hn : (s.onward j v).filter (s.goesOn j) <;> rw [hn] at h <;> cases h

theorem look_of_place? (hj : s.place? i = some j) : s.look i = s.comesTo j (s.machine.verdict j) := by
  rw [look, hj, Option.elim_some]

theorem look_of_matched (hj : s.place? i = some j) (hr : s.machine.verdict j = .matched r) :
    s.look i = .found j r.group? := by
  rw [look_of_place? hj, hr, comesTo]

theorem look_eq_found (h : s.look i = .found j g) :
    s.place? i = some j ∧ ∃ r : Regs, s.machine.verdict j = .matched r ∧ g = r.group? := by
  cases hj : s.place? i with
  | none => rw [look, hj] at h; cases h
  | some j' =>
    obtain ⟨rfl, hr⟩ := comesTo_eq_found ((look_of_place? hj).symm.trans h)
    exact ⟨rfl, hr⟩

theorem look_eq_onward (h : s.look i = .onward k) : ∃ j n, s.place? i = some j ∧
    s.onward j (s.machine.verdict j) = some n ∧ s.goesOn j n = true ∧ k = s.advance n := by
  cases hj : s.place? i with
  | none => rw [look, hj] at h; cases h
  | some j =>
    obtain ⟨n, hn⟩ := comesTo_eq_onward ((look_of_place? hj).symm.trans h)
    exact ⟨j, n, rfl, hn⟩

/-! ### Searches by places -/

theorem finds_of_tryFrom (hr : s.tryFrom i c fuel = .matched r) : ∃ j, Finds s.look i j r.group? := by
  induction fuel generalizing i c with
  | zero => exact absurd hr (giveUp_ne_matched c r)
  | succ fuel ih =>
    obtain ⟨j, hj, hm | ⟨n, hn, hgo, hr⟩⟩ := tryFrom_succ_eq_matched.1 hr
    · exact ⟨j, .here (look_of_matched hj hm)⟩
    · obtain ⟨j', hj'⟩ := ih hr
      exact ⟨j', .later ((look_of_place? hj).trans (comesTo_of_onward hn hgo)) hj'⟩

theorem le_lineFrom (i stop : Nat) : i ≤ s.lineFrom i stop := by
  have hj := le_scanTo s.newlineBefore i stop
  unfold lineFrom
  dsimp only
  split_ifs
  · exact Nat.le_refl i
  · exact Nat.le_succ_of_le hj
  · exact hj

theorem le_startFrom (h : s.startFrom i = some j) : i ≤ j := by
  cases ha : s.anchored with
  | true => exact Nat.le_of_eq (startFrom_anchored ha h).symm
  | false =>
    simp only [startFrom, ha, Bool.false_eq_true, if_false] at h
    split at h
    · split at h <;> cases h
      exact le_scanTo _ i _
    · split at h <;> cases h
      exact le_scanTo _ i _
    · cases h
      split
      · exact le_lineFrom i _
      · exact Nat.le_refl i

theorem le_place? (h : s.place? i = some j) : i ≤ j := by
  rw [place?] at h
  split at h
  · exact le_startFrom (Option.filter_eq_some_iff.1 h).1
  · exact Nat.le_of_eq (Option.some.inj h)

theorem le_advance (n : Nat) : n ≤ s.advance n := by
  unfold advance
  dsimp only
  split
  · exact Nat.le_succ n
  · exact Nat.le_refl n

/-- A search that is given an attempt for each place that is left finds what its places come to. -/
theorem tryFrom_of_finds (h : Finds s.look i j g) (hi : i ≤ s.size) (hfuel : s.size < i + fuel) :
    ∃ r : Regs, s.tryFrom i c fuel = .matched r ∧ g = r.group? := by
  -- each place lies behind the one before it, so that no place is visited twice
  induction h generalizing fuel c with
  | @here i j g h =>
    obtain ⟨fuel, rfl⟩ : ∃ n, fuel = n + 1 := ⟨fuel - 1, by omega⟩
    obtain ⟨hj, r, hr, hg⟩ := look_eq_found h
    exact ⟨r, tryFrom_succ_eq_matched.2 ⟨j, hj, .inl hr⟩, hg⟩
  | @later i k j g h hs ih =>
    obtain ⟨fuel, rfl⟩ : ∃ n, fuel = n + 1 := ⟨fuel - 1, by omega⟩
    obtain ⟨j', n, hj', hn, hgo, rfl⟩ := look_eq_onward h
    have hplace := le_place? hj'
    have hnext := lt_onward hn
    have hle := le_advance (s := s) n
    have hfuel' : s.size < s.advance n + fuel := by omega
    obtain ⟨r, hr, hg⟩ := ih (advance_le (le_of_goesOn hgo)) hfuel'
    exact ⟨r, tryFrom_succ_eq_matched.2 ⟨j', hj', .inr ⟨n, hn, hgo, hr⟩⟩, hg⟩

/-- A search is broken off if it is at its first place. -/
theorem run_of_failed (h : s.look s.machine.origin = .failed) : s.run = .limit ∨ s.run = .callLoop := by
  cases hj : s.place? s.machine.origin with
  | none => rw [look, hj] at h; cases h
  | some j =>
    rw [look_of_place? hj] at h
    rw [run, tryFrom_succ, hj, Option.elim_some]
    exact (comesTo_eq_failed h).imp (fun hv => by rw [hv]; rfl) fun hv => by rw [hv]; rfl

theorem run_iff (horigin : s.machine.origin ≤ s.size) :
    (∃ r : Regs, s.run = .matched r ∧ g = r.group?) ↔ ∃ j, Finds s.look s.machine.origin j g := by
  constructor
  · rintro ⟨r, hr, rfl⟩
    exact finds_of_tryFrom hr
  · rintro ⟨j, hj⟩
    exact tryFrom_of_finds hj horigin (by omega)

theorem comesTo_behind (h : u.Extends d s.machine.subject) (j : Nat) (v : Verdict) :
    (s.behind u d).comesTo (d + j) (v.shift d) = (s.comesTo j v).shift d := by
  have hnext : ∀ v : Verdict, ((s.behind u d).onward (d + j) (v.shift d)).filter
      ((s.behind u d).goesOn (d + j)) = ((s.onward j v).filter (s.goesOn j)).map (d + ·) := by
    intro v
    rw [onward_behind h, Option.filter_map]
    exact congrArg (fun p => ((s.onward j v).filter p).map (d + ·)) (funext fun n => goesOn_behind h j n)
  have hgo : (((s.behind u d).onward (d + j) (v.shift d)).filter ((s.behind u d).goesOn (d + j))).elim
      Look.ended (fun n => .onward ((s.behind u d).advance n)) =
      (((s.onward j v).filter (s.goesOn j)).elim Look.ended fun n => .onward (s.advance n)).shift d := by
    rw [hnext]
    cases hn : (s.onward j v).filter (s.goesOn j) with
    | none => rfl
    | some n =>
      have hpos := Nat.zero_lt_of_lt (lt_onward (Option.filter_eq_some_iff.1 hn).1)
      exact congrArg Look.onward (advance_behind h hpos)
  cases v with
  | matched r => exact congrArg (Look.found (d + j)) (Regs.group?_shift r d)
  | limit | callLoop => rfl
  | noMatch | verb | ended => exact hgo

/-- The places of a search of what stands behind other bytes come to the same there, if nothing looks back
from where the search starts. -/
theorem look_behind (h : u.Extends d s.machine.subject) (hs : s.SeeksAhead)
    (hroot : s.machine.whole.root.Free (Node.looksBack false)) (hlook : s.look i ≠ .failed) :
    (s.behind u d).look (d + i) = (s.look i).shift d := by
  have hplace := place?_behind h hs i
  cases hj : s.place? i with
  | none =>
    rw [hj] at hplace
    rw [look, look, hplace, hj]
    rfl
  | some j =>
    rw [hj] at hplace
    rw [look_of_place? hj] at hlook ⊢
    have hlimit : s.machine.verdict j ≠ .limit := fun hl => hlook (by rw [hl, comesTo])
    have hattempt : (s.behind u d).machine.verdict (d + j) = (s.machine.verdict j).shift d :=
      congrArg Prod.fst
        (Machine.attempt_shift h (.inl (by rw [hs.origin, Nat.add_zero])) hroot rfl hlimit)
    rw [look_of_place? hplace, hattempt, comesTo_behind h]

/-! ### A search for one place -/

/-- The same search made for one place only. -/
def tied (s : Search) (origin : Nat) : Search :=
  { s with machine := s.machine.on s.machine.subject origin, anchored := true }

theorem startFrom_tied (hpart : s.machine.part = .off) (hfirst : s.program.firstLine = false)
    (hj : s.startFrom k = some j) (origin : Nat) : (s.tied origin).startFrom j = some j := by
  have hend : s.scanEnd k = s.size := by simp [scanEnd, hfirst]
  have hsize : (s.tied origin).size = s.size := rfl
  have hbyte : ∀ b i, (s.tied origin).hasByte b i = s.hasByte b i := fun _ _ => rfl
  have hscan : ∀ {test : Nat → Bool}, (if s.size ≤ scanTo test k s.size then none
      else some (scanTo test k s.size)) = some j → j < s.size ∧ test j = true := by
    intro test ht
    split at ht
    · cases ht
    · next hlt =>
      cases ht
      exact ⟨Nat.lt_of_not_le hlt, scanTo_of_lt (Nat.lt_of_not_le hlt)⟩
  cases ha : s.anchored with
  | true =>
    obtain rfl := startFrom_anchored ha hj
    simp only [startFrom, ha, if_true] at hj
    exact hj
  | false =>
    simp only [startFrom, ha, hend, hpart, decide_true, Bool.true_and, decide_eq_true_eq,
      Bool.false_eq_true, if_false] at hj
    simp only [startFrom, hsize, hbyte]
    simp only [tied, if_true, Machine.on_subject]
    split at hj
    · obtain ⟨hlt, htest⟩ := hscan hj
      simp [hlt, htest]
    · obtain ⟨hlt, htest⟩ := hscan hj
      simp [hlt, htest]
    · rfl

/-- A search for one place starts there if another one has come to it. -/
theorem place?_tied (hpart : s.machine.part = .off) (hfirst : s.program.firstLine = false)
    (hj : s.place? k = some j) (origin : Nat) : (s.tied origin).place? j = some j := by
  have hprogram : (s.tied origin).program = s.program := rfl
  rw [place?] at hj ⊢
  rw [hprogram]
  split at hj
  · next ho =>
    obtain ⟨hstart, hrest⟩ := Option.filter_eq_some_iff.1 hj
    rw [if_pos ho]
    exact Option.filter_eq_some_iff.2 ⟨startFrom_tied hpart hfirst hstart origin, hrest⟩
  · next ho => rw [if_neg ho]

/-- A match is found again by a search for its place, if nothing looks at where a search starts and the
attempt is not broken off. -/
theorem look_tied (hpart : s.machine.part = .off) (hfirst : s.program.firstLine = false)
    (hstart : j = s.machine.origin ∨
      s.machine.whole.root.Free (Node.looksBack true) ∧ s.machine.notEmptyAtStart = false)
    (hi : s.look i = .found j g) (hlook : (s.tied j).look j ≠ .failed) :
    (s.tied j).look j = .found j g := by
  obtain ⟨hj, r, hr, rfl⟩ := look_eq_found hi
  have hplace := place?_tied hpart hfirst hj j
  rw [look_of_place? hplace] at hlook
  rcases hstart with rfl | ⟨hroot, hempty⟩
  · exact look_of_matched hplace hr
  · have hlimit : (s.tied j).machine.verdict j ≠ .limit := fun hl => hlook (by rw [hl, comesTo])
    -- back to where the search has started, in the same subject
    have hext : Units.Extends 0 s.machine.subject (s.tied j).machine.subject :=
      ⟨rfl, (Nat.zero_add _).symm, fun i => by rw [Nat.zero_add]; rfl⟩
    have hsame : s.machine.verdict (0 + j) = ((s.tied j).machine.verdict j).shift 0 :=
      congrArg Prod.fst
        (Machine.attempt_shift hext (o := s.machine.origin) (.inr ⟨rfl, hempty⟩) hroot rfl hlimit)
    rw [Nat.zero_add, hr] at hsame
    cases hv : (s.tied j).machine.verdict j with
    | matched r' =>
      rw [hv] at hsame
      cases hsame
      rw [look_of_matched hplace hv, Regs.group?_shift, Spans.shift_zero]
    | _ => rw [hv] at hsame; cases hsame

/-- A search that is tied to its start finds a match there or none. -/
theorem place_of_finds (ha : s.anchored = true) (h : Finds s.look i j g) : j = i := by
  cases h with
  | here h => exact place?_anchored ha (look_eq_found h).1
  | later h hs =>
    obtain ⟨k, n, -, -, hgo, -⟩ := look_eq_onward h
    cases ha.symm.trans (anchored_of_goesOn hgo)

end Search

/-- The spans of a match that a search has found. -/
def Found.spans? : Found → Option Spans
  | .matched r => some r.group?
  | _ => none

theorem Found.spans?_eq_some_iff {x : Found} {g : Spans} :
    x.spans? = some g ↔ ∃ r : Regs, x = .matched r ∧ g = r.group? := by
  cases x <;> simp [spans?, eq_comm]

/-- The expression begins with a test for the start of the subject. -/
def Node.beginsAtStart : Node → Bool
  | .seq (.anchor .subjectStart) _ | .seq (.anchor (.lineStart false)) _ => true
  | _ => false

theorem Node.Ties.subject_of_beginsAtStart {n : Node} (t : Ties) (p : Place)
    (h : n.beginsAtStart = true) : t.subject p n = .tied := by
  unfold beginsAtStart at h
  split at h
  · rfl
  · rfl
  · cases h

theorem Start.of_anchored (w : Whole) (anchored optimize dotStar : Bool) :
    (Start.of w anchored optimize dotStar).anchored = (anchored ||
      Node.Ties.subject ⟨w.root, dotStar && !w.root.hasJump⟩ {} w.root = .tied) := by
  unfold Start.of
  dsimp only
  split <;> rfl

namespace Program
variable {p : Program} {b : Bytes} {f : MatchFlags} {q : Nat} {r : Regs} {s : Slots}

/-- The search of a subject from an offset on. -/
def searchOf (p : Program) (b : Bytes) (f : MatchFlags) (q : Nat) : Search :=
  ⟨p, p.machine b.toArray f q, p.start.anchored || f.has .anchored⟩

/-- The searches of the engine of regular expressions. -/
def searcher : Engine.Searcher Program where
  search p b f q := (p.searchFrom b f q).spans?
  look p b f q := (p.searchOf b f q).look

/-! ### Attempts are searches from the start -/

theorem foldl_greatest (p : Nat → Bool) (n : Nat) :
    1 ≤ (List.range n).foldl (fun k i => if p i then i + 1 else k) 1 ∧
      ∀ i < n, p i = true → i < (List.range n).foldl (fun k i => if p i then i + 1 else k) 1 := by
  induction n with
  | zero => exact ⟨Nat.le_refl 1, fun i hi => absurd hi (Nat.not_lt_zero i)⟩
  | succ n ih =>
    rw [List.range_succ, List.foldl_append, List.foldl_cons, List.foldl_nil]
    split
    · exact ⟨Nat.succ_pos n, fun i hi _ => hi⟩
    · next hnone =>
      refine ⟨ih.1, fun i hi hsome => ih.2 i ?_ hsome⟩
      have hne : i ≠ n := fun heq => hnone (heq ▸ hsome)
      omega

/-- The span of the whole match counts, and every group that has matched. -/
theorem pairs_bounds (slots : Slots) :
    1 ≤ pairs slots ∧ ∀ i, (slots[i]?.join).isSome = true → i < pairs slots := by
  obtain ⟨hone, hgreatest⟩ := foldl_greatest (fun i => (slots[i]?.join).isSome) slots.size
  refine ⟨hone, fun i hsome => hgreatest i ?_ hsome⟩
  rcases Nat.lt_or_ge i slots.size with hlt | hge
  · exact hlt
  · rw [Array.getElem?_eq_none hge] at hsome; cases hsome

theorem lt_pairs {i : Nat} {g : Span} (hg : r.group? i = some g) : i < pairs r.slots := by
  obtain ⟨hone, hlt⟩ := pairs_bounds r.slots
  rw [Regs.group?] at hg
  split at hg
  · omega
  · exact hlt i (by rw [hg]; rfl)

/-- An attempt that has not failed reports what its search has found, which was not broken off. -/
theorem attempt_of_not_isFailure (h : ¬ Code.IsFailure (p.attempt b f s).1) :
    p.search b f ≠ .limit ∧ p.search b f ≠ .callLoop ∧
      ∀ r, p.search b f = .matched r → p.attempt b f s =
        (if s.size < pairs r.slots then 0 else (pairs r.slots : Int),
          s.mapIdx fun i _ => r.group? i) := by
  unfold attempt at h ⊢
  dsimp only at h ⊢
  split at h
  · exact absurd (show Code.IsFailure Failure.badOption.code by decide) h
  next hbad =>
    rw [if_neg hbad]
    split at h
    · next e he =>
      split at he
      · exact absurd (Matcher.classify_eq_none_iff.1 (Malformed.isMalformed_of_find? he).classify) h
      · cases he
    next hgood =>
      refine ⟨fun hl => ?_, fun hc => ?_, fun r hr => ?_⟩
      · rw [hl] at h
        exact h (show Code.IsFailure Failure.matchLimit.code by decide)
      · rw [hc] at h
        exact h (show Code.IsFailure Failure.callLoop.code by decide)
      · rw [hr]; rfl

theorem span?_of_search (hr : p.search b f = .matched r) (hpos : 0 < (p.attempt b f s).1) {i : Nat}
    (hi : i < (p.attempt b f s).2.size) : Code.span? (p.attempt b f s) i = r.group? i := by
  obtain ⟨-, -, hx⟩ := attempt_of_not_isFailure fun hf => Int.not_lt.2 (Int.le_of_lt hpos) hf.1
  rw [hx r hr] at hpos hi ⊢
  rw [Array.size_mapIdx] at hi
  have hcount : Code.pairs (if s.size < pairs r.slots then 0 else (pairs r.slots : Int)) =
      pairs r.slots := by
    split at hpos
    · exact absurd hpos (Int.lt_irrefl 0)
    · next hle =>
      rw [if_neg hle, Code.pairs, Matcher.classify, if_pos (Int.natCast_nonneg _)]
      rfl
  simp only [Code.span?, hcount, Array.getElem?_mapIdx, Array.getElem?_eq_getElem hi, Option.map_some,
    Option.join_some]
  split
  · rfl
  · next hge =>
    cases hg : r.group? i with
    | none => rfl
    | some g => exact absurd (lt_pairs hg) hge

/-- An attempt fails if the search is broken off at its first place. -/
theorem isFailure_of_look (h : (p.searchOf b f 0).look 0 = .failed) :
    Code.IsFailure (p.attempt b f s).1 := by
  by_contra hf
  obtain ⟨hlimit, hloop, -⟩ := attempt_of_not_isFailure hf
  rcases Search.run_of_failed h with hr | hr
  · exact hlimit hr
  · exact hloop hr

theorem searches (p : Program) : Engine.Searches searcher p where
  search_iff b f q g hq := by
    show (p.searchOf b f q).run.spans? = some g ↔ _
    rw [Found.spans?_eq_some_iff]
    exact Search.run_iff (s := p.searchOf b f q) hq
  reported b f t hpos := by
    change 0 < (p.attempt b f t).1 at hpos
    show ∃ g, (p.search b f).spans? = some g ∧
      ∀ i < (p.attempt b f t).2.size, Code.span? (p.attempt b f t) i = g i
    rcases p.attempt_cases b f with ⟨code, hc, hs⟩ | ⟨start, -, hs⟩ | ⟨r, -, hr, -⟩
    · rw [hs] at hpos
      have hm : Code.pairs code = code.toNat := by
        rw [Code.pairs, Matcher.classify, if_pos (Int.le_of_lt hpos)]; rfl
      omega
    · rw [hs] at hpos
      exact absurd hpos (show ¬ 0 < Code.partialMatch by decide)
    · exact ⟨r.group?, by rw [hr]; rfl, fun i hi => span?_of_search hr hpos hi⟩

/-! ### What is known of a compiled expression -/

theorem compile_of_build {pattern : Pattern} {serial : Nat} {c : Compiled Program}
    (h : (pattern.build serial).result = .ok c) : compile pattern = .ok c.code := by
  unfold Pattern.build at h
  split at h
  · cases h
  split at h
  · cases h
  · next code hcode =>
    cases h
    change (compile pattern).mapError _ = .ok code at hcode
    cases hc : compile pattern with
    | error e => rw [hc] at hcode; cases hcode
    | ok p => rw [hc] at hcode; cases hcode; rfl

theorem exists_of_bind_eq_ok {α β : Type} {x : Read α} {g : α → Read β} {y : β}
    (h : x >>= g = .ok y) : ∃ a, x = .ok a ∧ g a = .ok y := by
  cases x with
  | error e => cases h
  | ok a => exact ⟨a, rfl, h⟩

/-- What a compiled expression takes from the options of its pattern. -/
theorem options_of_compile {pattern : Pattern} (h : compile pattern = .ok p) :
    p.firstLine = pattern.flags.has .firstLine ∧
      ∃ optimize dotStar, p.start = .of p.whole (pattern.flags.has .anchored) optimize dotStar := by
  unfold compile at h
  obtain ⟨pre, -, h⟩ := exists_of_bind_eq_ok h
  obtain ⟨tokens, -, h⟩ := exists_of_bind_eq_ok h
  obtain ⟨root, -, h⟩ := exists_of_bind_eq_ok h
  split at h
  · cases h
  · cases h
    exact ⟨rfl, _, _, rfl⟩

theorem anchored_of_compile {pattern : Pattern} (h : compile pattern = .ok p)
    (ha : pattern.flags.has .anchored = true ∨ p.whole.root.beginsAtStart = true) :
    p.start.anchored = true := by
  obtain ⟨-, optimize, dotStar, hstart⟩ := options_of_compile h
  rw [hstart, Start.of_anchored, Bool.or_eq_true, decide_eq_true_eq]
  exact ha.imp_right (Node.Ties.subject_of_beginsAtStart _ _)

/-! ### What makes no difference to a search -/

/-- Neither the expression nor the search for places looks at what stands before the start of a
search. -/
structure LooksAhead (p : Program) (f : MatchFlags) : Prop where
  root : p.whole.root.Free (Node.looksBack false)
  seeks : p.SeeksAhead f

/-- What stands before an offset makes no difference, if the rest is well formed where it has to be. -/
theorem ahead (h : p.LooksAhead f) (hq : q ≤ b.length)
    (hcheck : p.whole.mode.utf = true → f.has .noUtfCheck = false → Malformed.of? (b.drop q) = none) :
    searcher.Ahead p b f q := by
  intro i hi
  have hs : (p.searchOf (b.drop q) f 0).SeeksAhead :=
    { origin := rfl
      line := fun ho _ hl => ⟨(h.seeks ho hl).1,
        Units.starts_of_wellformed fun hutf => hcheck hutf ((h.seeks ho hl).2 hutf)⟩ }
  exact Search.look_behind (Units.extends_drop hq p.whole.mode.utf) hs h.root hi

theorem unmoved (hkeep : p.whole.root.Free Node.isKeep) : searcher.Unmoved p := by
  intro b f q i j g hg
  obtain ⟨-, r, hr, rfl⟩ := Search.look_eq_found hg
  exact ⟨r.span, if_pos rfl, Machine.start_of_attempt hkeep hr⟩

theorem tied (ha : (p.start.anchored || f.has .anchored) = true) : searcher.Tied p b f :=
  fun _ _ hj => Search.place_of_finds ha hj

theorem tied_of_compile {pattern : Pattern} (h : compile pattern = .ok p)
    (ha : pattern.flags.has .anchored = true ∨ p.whole.root.beginsAtStart = true) :
    searcher.Tied p b f :=
  tied (by rw [anchored_of_compile h ha, Bool.true_or])

/-- A match is found again by a search that is tied to its place, if that is where the first one has
started too or nothing looks at where a search starts. -/
theorem repeats (hfirst : p.firstLine = false)
    (hstart : q = 0 ∨ p.whole.root.Free (Node.looksBack true) ∧ p.notEmptyAtStart = false) :
    searcher.Repeats p b ∅ LineSearch.atStart q := by
  intro i g hi hfail
  have htied : p.searchOf b LineSearch.atStart q = (p.searchOf b ∅ 0).tied q := by
    rw [searchOf, show LineSearch.atStart.has .anchored = true by decide, Bool.or_true]
    rfl
  change (p.searchOf b LineSearch.atStart q).look q ≠ .failed at hfail
  show (p.searchOf b LineSearch.atStart q).look q = .found q g
  rw [htied] at hfail ⊢
  exact Search.look_tied (s := p.searchOf b ∅ 0) rfl hfirst hstart hi hfail

end Program

end Rematch.Regex

namespace Rematch.Guarded
variable {κ : Type} [Engine κ]

/-- The searches of an engine that is looked after are those of the engine inside. -/
def searcher (o : Engine.Searcher κ) : Engine.Searcher (Guarded κ) where
  search c := o.search c.inner
  look c := o.look c.inner

theorem searches {o : Engine.Searcher κ} {c : Guarded κ} (h : Engine.Searches o c.inner) :
    Engine.Searches (searcher o) c where
  search_iff := h.search_iff
  reported b f t hpos := by
    rcases c.attempt_cases b f t with ⟨hx, -⟩ | hx <;> rw [hx] at hpos ⊢
    · exact h.reported b f t hpos
    · exact absurd hpos (show ¬ 0 < internalError by decide)

theorem answers (c : Guarded Regex.Program) : Engine.Answers (searcher Regex.Program.searcher) c where
  toSearches := searches c.inner.searches
  answered b f t g ht hg hfail := by
    obtain ⟨r, hr, -⟩ := Regex.Found.spans?_eq_some_iff.1 hg
    rcases c.attempt_cases b f t with ⟨hx, hkeeps⟩ | hx <;> rw [hx] at hfail ⊢
    · -- the code is zero for a buffer that is too small, and that is what is looked for
      rw [hx] at hkeeps
      obtain ⟨-, -, hcode⟩ := Regex.Program.attempt_of_not_isFailure hfail
      have hnonneg : 0 ≤ (Engine.attempt c.inner b f t).1 := by
        show 0 ≤ (c.inner.attempt b f t).1
        rw [hcode r hr]
        dsimp only
        split <;> omega
      simp only [keeps, decide_eq_true_eq] at hkeeps
      have hone := (hkeeps.2.1 (Nat.le_of_eq ht.symm) hnonneg).1
      omega
    · exact absurd (show Code.IsFailure internalError by decide) hfail
  failed b f t hl := by
    have hfail : Code.IsFailure (Engine.attempt c.inner b f t).1 :=
      Regex.Program.isFailure_of_look hl
    rcases c.attempt_cases b f t with ⟨hx, -⟩ | hx <;> rw [hx]
    · exact hfail
    · show Code.IsFailure internalError
      decide

end Rematch.Guarded
