import Rematch.Proofs.Guarded
import Rematch.Proofs.Operation
import Rematch.Proofs.RegexEngine
import Rematch.Proofs.Splice
import Rematch.Proofs.Words

/-! # Which groups are present

`Counted` ties the number of entries that are set to the outcome, the buffer, the pattern and the
subject. New matchers have it, a change of pattern that is cut short has it since the outcome is
taken back first, and an attempt brings it about anew from what a faithful engine answers. What can
be asked of a matcher follows from it (`Settled`). -/

namespace Rematch

namespace Match

/-- The length in bytes, if the offsets are in order. -/
def size? (g : Match) : Option Nat := if g.start ≤ g.stop then some (g.stop - g.start) else none

/-- The bytes of the group, if its offsets are those of a slice. -/
def bytes? (g : Match) : Option Bytes := g.subject.toBytes.slice? g.start g.stop

/-- The text of the group, or why its bytes are none, if its offsets are those of a slice. -/
def text? (g : Match) : Option (Except Error String) :=
  match g.subject.slice? g.start g.stop with
  | some s => some (.ok s)
  | none => g.bytes?.map fun b => (Utf8.text b).mapError .utf8

/-- Nothing that can be asked of the group is out of bounds. -/
structure Readable (g : Match) : Prop where
  size : g.size? = some g.size
  bytes : g.bytes? = some g.toBytes
  text : g.text? = some g.text

theorem readable_of_within {g : Match} (h : g.span.Within g.subject.size) : g.Readable := by
  obtain ⟨horder, hstop⟩ := h
  have hbytes : g.bytes? = some g.toBytes := if_pos ⟨horder, hstop⟩
  refine ⟨if_pos horder, hbytes, ?_⟩
  rw [text?, text, hbytes]
  cases g.subject.slice? g.start g.stop <;> rfl

end Match

namespace Matcher
variable {κ : Type} [Engine κ] {m n : Matcher κ}

/-- The entries that count are those that the outcome says, and lie in the subject. -/
structure Counted (m : Matcher κ) : Prop where
  fitted : Fitted Engine.Faithful m
  idle : m.outcome.isMatch = false → m.pairs = 0
  part : m.outcome = .partiallyMatched → m.pairs = 1
  le : m.pairs ≤ m.groups + 1
  whole : m.outcome.isMatch = true → 0 < m.pairs ∧ ∃ g, m.slots[0]?.join = some g
  within : ∀ i < m.pairs, ∀ g, m.slots[i]?.join = some g → g.Within m.subject.size

namespace Counted

/-- A matcher that no attempt is kept of. -/
theorem blank (hf : Fitted Engine.Faithful m) (ho : m.outcome = .noAttempt) (hp : m.pairs = 0) :
    m.Counted where
  fitted := hf
  idle _ := hp
  part h := by rw [ho] at h; cases h
  le := by rw [hp]; exact Nat.zero_le _
  whole h := by rw [ho] at h; cases h
  within i hi := by rw [hp] at hi; exact absurd hi (Nat.not_lt_zero i)

theorem bind (h : m.Counted) {p : Compiled κ} {memory : Option Slots} (hp : Engine.Faithful p.code)
    (hm : Allocation p memory) : (m.bind p memory).matcher.Counted := by
  obtain ⟨ho, hpairs⟩ := m.bind_outcome p memory
  exact blank (h.fitted.bind (fun c hc => hc.toBuffered) hp hm) ho hpairs

theorem classify_counts {c : κ} (hc : Engine.Faithful c) {b : Bytes} {f : MatchFlags} {s : Slots}
    (hs : Engine.groups c + 1 ≤ s.size) {o : Outcome} {k : Nat}
    (hk : classify (Engine.attempt c b f s).1 = some (o, k)) :
    (o.isMatch = false ∧ k = 0) ∨ (o = .partiallyMatched ∧ k = 1) ∨
      (o = .matched ∧ 0 < k ∧ k ≤ Engine.groups c + 1) := by
  rcases classify_cases (Engine.attempt c b f s).1 with ⟨h0, h⟩ | ⟨-, h⟩ | ⟨-, h⟩ | ⟨-, -, -, h⟩ <;>
    rw [h] at hk <;> cases hk
  · have hcount := hc.count b f s hs h0
    exact .inr (.inr ⟨rfl, by omega, by omega⟩)
  · exact .inl ⟨rfl, rfl⟩
  · exact .inr (.inl ⟨rfl, rfl⟩)

theorem exec (h : m.Counted) (subject : Subject) (flags : MatchFlags) :
    (m.exec subject flags).matcher.Counted := by
  have hc : Engine.Faithful m.pattern.code := h.fitted.good
  have hfit : Engine.groups m.pattern.code + 1 ≤ m.slots.size := Nat.le_of_eq h.fitted.fits.symm
  have hf := h.fitted.exec (fun c hc => hc.toBuffered) subject flags
  rcases m.exec_cases subject flags with ⟨o, k, hk, hx⟩ | ⟨-, hx⟩
  · have hset := hc.whole subject.toBytes flags m.slots hfit
    have hwithin := hc.within subject.toBytes flags m.slots
    rw [show Code.pairs (Engine.attempt m.pattern.code subject.toBytes flags m.slots).1 = k from
      classify_pairs hk] at hset hwithin
    rw [hx] at hf ⊢
    -- whatever counted before, the code alone says what counts now
    have hcount := classify_counts hc hfit hk
    refine ⟨hf, ?_, ?_, ?_, ?_, hwithin⟩
    · intro hi
      change o.isMatch = false at hi
      rcases hcount with ⟨-, h0⟩ | ⟨rfl, -⟩ | ⟨rfl, -⟩
      · exact h0
      · cases hi
      · cases hi
    · rintro rfl
      rcases hcount with ⟨hi, -⟩ | ⟨-, h1⟩ | ⟨ho, -⟩
      · cases hi
      · exact h1
      · cases ho
    · show k ≤ Engine.groups m.pattern.code + 1
      rcases hcount with ⟨-, h0⟩ | ⟨-, h1⟩ | ⟨-, -, hle⟩ <;> omega
    · intro hi
      have h0 : 0 < k := classify_pos (fun h => (hc.count _ _ _ hfit h).1) hk hi
      exact ⟨h0, hset h0⟩
  · rw [hx] at hf ⊢
    exact blank hf rfl rfl

end Counted

theorem Reachable.counted (h : Reachable Engine.Faithful m) : m.Counted := by
  refine h.invariant (fun p slots hp hs => ?_) ?_
  · exact .blank (.new (fun c hc => hc.toBuffered) hp hs) rfl rfl
  intro m n hm hmove
  cases hmove with
  | bind p memory hp hs => exact hm.bind hp hs
  | exec subject flags => exact hm.exec subject flags

/-- What can be asked of a matcher in any state. -/
structure Settled (m : Matcher κ) : Prop where
  /-- The buffer has an entry for each group of the bound pattern and for the whole match. -/
  size : m.slots.size = m.groups + 1
  isMatch_iff : m.isMatch = true ↔ m.present 0 = true
  part : m.outcome = .partiallyMatched → ∀ i, m.present i = true → i = 0
  idle : m.outcome = .noAttempt ∨ m.outcome = .notMatched →
    (∀ i, m.present i = false) ∧ ∀ name, m.namedPresent name ≠ .ok true
  le : ∀ i, m.present i = true → i ≤ m.groups
  /-- A group can be asked for by any word. -/
  answered : ∀ i : UInt64, m.captures.readPresent i = .ok (m.present i.toNat)
  within : ∀ i g, m.group? i = some g → g.start ≤ g.stop ∧ g.stop ≤ m.subject.size
  readable : ∀ i g, m.group? i = some g → g.Readable

namespace Counted

omit [Engine κ] in
theorem lt_pairs {i : Nat} (hi : m.present i = true) : m.outcome.isMatch = true ∧ i < m.pairs := by
  obtain ⟨s, hs⟩ := present_iff.1 hi
  obtain ⟨hm, hlt, -⟩ := span?_eq_some_iff.1 hs
  exact ⟨hm, hlt⟩

theorem group_within (h : m.Counted) {i : Nat} {g : Match} (hg : m.group? i = some g) :
    g.span.Within m.subject.size := by
  obtain ⟨-, hlt, hslot⟩ := span?_eq_some_iff.1 (group?_eq_some_iff.1 hg).1
  exact h.within i hlt g.span hslot

theorem toSettled (h : m.Counted) : m.Settled where
  size := h.fitted.fits
  isMatch_iff := by
    refine ⟨fun hm => ?_, fun hi => (lt_pairs hi).1⟩
    obtain ⟨h0, g, hg⟩ := h.whole hm
    exact present_iff.2 ⟨g, span?_eq_some_iff.2 ⟨hm, h0, hg⟩⟩
  part ho i hi := by
    have hlt := (lt_pairs hi).2
    rw [h.part ho] at hlt
    exact Nat.lt_one_iff.1 hlt
  idle ho := by
    have habsent : ∀ i, m.present i = false := by
      intro i
      refine Bool.eq_false_iff.2 fun hi => ?_
      have hm := (lt_pairs hi).1
      rcases ho with ho | ho <;> rw [ho] at hm <;> cases hm
    refine ⟨habsent, fun name hname => ?_⟩
    unfold namedPresent Captures.namedPresent at hname
    cases hindex : m.captures.indexOf name with
    | error e => rw [hindex] at hname; cases hname
    | ok i =>
      rw [hindex] at hname
      have hi : m.present i = true := Except.ok.inj hname
      rw [habsent i] at hi
      cases hi
  le i hi := by
    have := (lt_pairs hi).2
    have := h.le
    omega
  answered i := by
    refine Captures.readPresent_eq ?_ i
    have hg := h.fitted.good.groups_lt
    exact Nat.le_trans h.le hg
  within i g hg := h.group_within hg
  readable i g hg := by
    refine Match.readable_of_within ?_
    rw [(group?_eq_some_iff.1 hg).2]
    exact h.group_within hg

end Counted

theorem orderlyOn_of_faithful {c : κ} (hc : Engine.Faithful c) (subject : Subject)
    (flags : MatchFlags) : Engine.OrderlyOn c subject flags := by
  intro pos hpos s g hpos hg
  refine hc.within _ _ _ 0 ?_ g hg
  rcases classify_cases (Engine.attempt c (subject.toBytes.drop pos) flags s).1 with
    ⟨h0, h⟩ | ⟨h, -⟩ | ⟨h, -⟩ | ⟨h, -⟩
  · rw [classify_pairs h]; omega
  · rw [h] at hpos; exact absurd hpos (by decide)
  · rw [h] at hpos; exact absurd hpos (by decide)
  · omega

theorem exists_run (hc : Engine.Faithful m.pattern.code) (op : Op κ) : ∃ r, op.run m = some r := by
  have scanned : ∀ subject flags, ∃ t, m.scan subject flags = some t := by
    intro subject flags
    obtain ⟨t, ht, hle⟩ := exists_scans (orderlyOn_of_faithful hc subject flags) (Nat.zero_le _)
    exact ⟨t, scan_eq_some_iff.2 ⟨ht, hle⟩⟩
  have replaced : ∀ subject replacement flags, ∃ r, m.replace subject replacement flags = some r := by
    intro subject replacement flags
    obtain ⟨t, ht⟩ := scanned subject flags
    obtain ⟨c, -, -, -, hr⟩ :=
      replace_of_scan (orderlyOn_of_faithful hc subject flags) ht replacement
    exact ⟨_, hr⟩
  cases op with
  | exec | reset | findIndex | extractAll => exact ⟨_, rfl⟩
  | findIter subject flags =>
    obtain ⟨t, ht⟩ := scanned subject flags
    exact ⟨_, by rw [Op.run, findIter, ht]; rfl⟩
  | replaceAll subject replacement flags =>
    obtain ⟨r, hr⟩ := replaced (.text subject) (Utf8.ofString replacement) flags
    exact ⟨_, by rw [Op.run, replaceAll, hr]; rfl⟩
  | replaceAllBytes subject replacement flags =>
    obtain ⟨r, hr⟩ := replaced (.bytes subject) replacement flags
    exact ⟨_, by rw [Op.run, replaceAllBytes, hr]; rfl⟩

/-- **What holds in every state of a matcher.** Whatever was done with a matcher, whether it succeeded
or failed, its buffer fits the bound pattern, a group is present only where the last attempt says so,
and all that is present lies in the subject; and anything can be done with it next. -/
theorem Reachable.settled (h : Reachable Engine.Faithful m) :
    m.Settled ∧ ∀ op : Op κ, ∃ r, op.run m = some r :=
  ⟨h.counted.toSettled, exists_run h.counted.fitted.good⟩

def guardedGroups : Compiled (Guarded Regex.Program) :=
  (Compiled.plain? "^(a)(b)cd" 0).get (by decide +kernel)

def guardedLetter : Compiled (Guarded Regex.Program) :=
  (Compiled.plain? "a" 1).get (by decide +kernel)

/-- A match sets two groups. A change of pattern that finds no memory behind it leaves them in the
buffer, but none of them present. -/
theorem settled_behind_failed_reset :
    let made : Matcher (Guarded Regex.Program) :=
      { pattern := guardedGroups, slots := Array.replicate 3 none }
    let found := (made.exec (.text "abcd") ∅).matcher
    let failed := (found.reset guardedLetter (.text "ab") ∅ none).matcher
    Reachable Engine.Faithful failed ∧ failed.Settled ∧
    found.present 2 = true ∧ failed.slots = #[some ⟨0, 4⟩, some ⟨0, 1⟩, some ⟨1, 2⟩] ∧
    failed.present 2 = false ∧ failed.groups = 2 := by
  intro made found failed
  have hgroups : Engine.Faithful guardedGroups.code :=
    Guarded.faithful (Regex.Program.buffered _) (by decide +kernel)
  have hletter : Engine.Faithful guardedLetter.code :=
    Guarded.faithful (Regex.Program.buffered _) (by decide +kernel)
  have hmade : Reachable Engine.Faithful made := .new hgroups .new rfl
  have hfailed : Reachable Engine.Faithful failed :=
    (hmade.exec (.text "abcd") ∅).reset hletter .none (.text "ab") ∅
  exact ⟨hfailed, (Reachable.settled hfailed).1, by decide +kernel, by decide +kernel,
    by decide +kernel, by decide +kernel⟩

end Matcher

end Rematch
