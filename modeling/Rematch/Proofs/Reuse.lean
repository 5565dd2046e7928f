import Mathlib.Data.Option.Basic
import Rematch.Proofs.Operation
import Rematch.Proofs.RegexEngine

/-! # A used matcher and a new one

A matcher goes on with the buffer of its last attempt, which may hold anything that earlier attempts
left there. `Twin` relates matchers that may differ in all of that, `Shown` those of which nothing
that can be read differs. An attempt makes twins into look-alikes (`agree_exec`), and so does every
operation (`agree_run`). Only what finds no memory for another pattern ends before any attempt is made, and
leaves each of them its subject (`run_starved`). -/

namespace Rematch

namespace Captures
variable {κ : Type} [Engine κ] {c d : Captures κ}

/-- No accessor tells the two views apart. -/
structure Same (c d : Captures κ) : Prop where
  isMatch : c.isMatch = d.isMatch
  isPartial : c.isPartial = d.isPartial
  groups : c.groups = d.groups
  present : ∀ i, c.present i = d.present i
  get : ∀ i, c.get? i = d.get? i
  bytes : ∀ i, c.bytes? i = d.bytes? i
  text : ∀ i, c.text? i = d.text? i
  namedPresent : ∀ name, c.namedPresent name = d.namedPresent name
  named : ∀ name, c.named? name = d.named? name
  namedText : ∀ name, c.namedText? name = d.namedText? name
  expect : ∀ i, c.expect i = d.expect i
  expectNamed : ∀ name, c.expectNamed name = d.expectNamed name
  toList : c.toList = d.toList
  inspect : c.inspect = d.inspect

omit [Engine κ] in
theorem present_eq_isSome_get? (i : Nat) : c.present i = (c.get? i).isSome := by
  simp [present, get?]

/-- The accessors read the pattern, the outcome and the groups, and nothing else. -/
theorem same_of_get? (hp : c.pattern = d.pattern) (ho : c.outcome = d.outcome)
    (hg : ∀ i, c.get? i = d.get? i) : c.Same d := by
  have hget : c.get? = d.get? := funext hg
  have hpresent : c.present = d.present :=
    funext fun i => by rw [present_eq_isSome_get?, present_eq_isSome_get?, hg]
  have hgroups : c.groups = d.groups := by rw [groups, groups, hp]
  have hbytes : c.bytes? = d.bytes? := funext fun i => by rw [bytes?, bytes?, hg]
  have htext : c.text? = d.text? := funext fun i => by rw [text?, text?, hg]
  have hindex : c.indexOf = d.indexOf := funext fun name => by rw [indexOf, indexOf, hp]
  have hnamed : c.named? = d.named? := funext fun name => by rw [named?, named?, hindex, hget]
  have hlist : c.toList = d.toList := by rw [toList, toList, size, size, hgroups, hget]
  exact {
    isMatch := by rw [isMatch, isMatch, ho]
    isPartial := by rw [isPartial, isPartial, ho]
    groups := hgroups
    present := congrFun hpresent
    get := hg
    bytes := congrFun hbytes
    text := congrFun htext
    namedPresent := fun name => by rw [namedPresent, namedPresent, hindex, hpresent]
    named := congrFun hnamed
    namedText := fun name => by rw [namedText?, namedText?, hindex, htext]
    expect := fun i => by rw [expect, expect, hg]
    expectNamed := fun name => by rw [expectNamed, expectNamed, hnamed]
    toList := hlist
    inspect := by rw [inspect, inspect, hlist] }

end Captures

/-- The same operation. A new buffer may hold something else, if there is memory for it at all. -/
inductive Op.Like {κ : Type} : Op κ → Op κ → Prop
  | same (op : Op κ) : Like op op
  | reset (p : Compiled κ) {s t : Option Slots} {subject : Subject} {flags : MatchFlags}
      (hst : s.isSome = t.isSome) : Like (.reset p s subject flags) (.reset p t subject flags)

/-- The operation brings in another pattern than the one that is bound, and finds no memory for it. -/
def Op.Starves {κ : Type} (q : Compiled κ) : Op κ → Prop
  | .reset p memory _ _ => q.isSame p = false ∧ memory = none
  | _ => False

/-- The same answer and the same reports, from matchers that are related. -/
structure Reply.Agree {κ α : Type} (R : Matcher κ → Matcher κ → Prop) (r s : Reply κ α) : Prop where
  result : r.result = s.result
  events : r.events = s.events
  matcher : R r.matcher s.matcher

theorem Reply.Agree.map {κ α β : Type} {R : Matcher κ → Matcher κ → Prop} {r s : Reply κ α}
    (h : r.Agree R s) (f : α → β) : (r.map f).Agree R (s.map f) :=
  ⟨congrArg (Except.map f) h.result, h.events, h.matcher⟩

theorem Reply.Agree.mono {κ α : Type} {R S : Matcher κ → Matcher κ → Prop} {r s : Reply κ α}
    (h : r.Agree R s) (hRS : ∀ m n, R m n → S m n) : r.Agree S s :=
  ⟨h.result, h.events, hRS _ _ h.matcher⟩

namespace Matcher
variable {κ : Type} [Engine κ] {good : κ → Prop} {m n : Matcher κ}

/-- Bound to the same pattern, with buffers that fit it and may hold anything. -/
structure Twin (good : κ → Prop) (m n : Matcher κ) : Prop where
  pattern : m.pattern = n.pattern
  left : Fitted good m
  right : Fitted good n

/-- Twins whose last attempts set the same entries. -/
structure Shown (good : κ → Prop) (m n : Matcher κ) : Prop extends Twin good m n where
  outcome : m.outcome = n.outcome
  pairs : m.pairs = n.pairs
  slots : ∀ i < m.pairs, m.slots[i]? = n.slots[i]?
  subject : m.outcome ≠ .noAttempt → m.subject = n.subject

/-- Twins whose last attempts set the same entries, on the same subject. -/
structure Alike (good : κ → Prop) (m n : Matcher κ) : Prop extends Shown good m n where
  subject_eq : m.subject = n.subject

namespace Shown

theorem span? (h : Shown good m n) (i : Nat) : m.captures.span? i = n.captures.span? i := by
  have hm : m.captures.isMatch = n.captures.isMatch := congrArg Outcome.isMatch h.outcome
  unfold Captures.span?
  rw [hm]
  show (if n.captures.isMatch && i < m.pairs then m.slots[i]?.join else none) =
    if n.captures.isMatch && i < n.pairs then n.slots[i]?.join else none
  by_cases hi : i < m.pairs
  · rw [h.slots i hi, h.pairs]
  · have hi' : ¬ i < n.pairs := h.pairs ▸ hi
    simp [hi, hi']

theorem group? (h : Shown good m n) (i : Nat) : m.group? i = n.group? i := by
  unfold Matcher.group? Captures.get?
  rw [h.span? i]
  by_cases ho : m.outcome = .noAttempt
  · have hn : n.captures.isMatch = false := by
      show n.outcome.isMatch = false
      rw [← h.outcome, ho]; rfl
    simp [Captures.span?, hn]
  · have hsub : m.captures.subject = n.captures.subject := h.subject ho
    rw [hsub]

theorem same (h : Shown good m n) : m.captures.Same n.captures :=
  Captures.same_of_get? h.pattern h.outcome h.group?

theorem hit? (h : Shown good m n) (subject : Subject) (pos : Nat) :
    m.hit? subject pos = n.hit? subject pos := by
  rw [Matcher.hit?, Matcher.hit?, h.outcome, h.group? 0]

end Shown

section steady
variable (hgood : ∀ c, good c → Engine.Steady c)
include hgood

/-- An attempt shows the same whatever the buffer held before. -/
theorem agree_exec (h : Twin good m n) (subject : Subject) (flags : MatchFlags) :
    (m.exec subject flags).Agree (Alike good) (n.exec subject flags) := by
  have hs := hgood _ h.left.good
  have hfit : Engine.Fits m.pattern.code n.slots := by rw [h.pattern]; exact h.right.fits
  have hcode : (n.answer subject flags).1 = (m.answer subject flags).1 := by
    unfold answer; rw [← h.pattern]; exact hs.code _ _ _ _ hfit h.left.fits
  have hslots : ∀ i < Code.pairs (m.answer subject flags).1,
      (m.answer subject flags).2[i]? = (n.answer subject flags).2[i]? := by
    unfold answer; rw [← h.pattern]; exact hs.slots _ _ _ _ h.left.fits hfit
  have hbuffered : ∀ c, good c → Engine.Buffered c := fun c hc => (hgood c hc).toBuffered
  have hl := h.left.exec hbuffered subject flags
  have hr := h.right.exec hbuffered subject flags
  rcases m.exec_cases subject flags with ⟨o, k, hk, hm⟩ | ⟨hk, hm⟩
  · rcases n.exec_cases subject flags with ⟨o', k', hk', hn⟩ | ⟨hk', hn⟩
    · rw [hcode, hk] at hk'
      cases hk'
      rw [classify_pairs hk] at hslots
      rw [hm] at hl ⊢
      rw [hn] at hr ⊢
      exact ⟨rfl, by rw [h.pattern], ⟨⟨⟨h.pattern, hl, hr⟩, rfl, rfl, hslots, fun _ => rfl⟩, rfl⟩⟩
    · rw [hcode, hk] at hk'; cases hk'
  · rcases n.exec_cases subject flags with ⟨o', k', hk', hn⟩ | ⟨hk', hn⟩
    · rw [hcode, hk] at hk'; cases hk'
    · rw [hm] at hl ⊢
      rw [hn] at hr ⊢
      refine ⟨by rw [hcode], by rw [hcode, h.pattern], ⟨⟨⟨h.pattern, hl, hr⟩, rfl, rfl, ?_, ?_⟩, rfl⟩⟩
      · intro i hi; exact absurd hi (Nat.not_lt_zero i)
      · intro ho; exact absurd rfl ho

theorem agree_findIndex (h : Twin good m n) (subject : Subject) (flags : MatchFlags) :
    (m.findIndex subject flags).Agree (Alike good) (n.findIndex subject flags) := by
  have hx := agree_exec hgood h subject flags
  unfold findIndex
  dsimp only
  rw [hx.matcher.group? 0]
  exact hx.map _

theorem agree_extractAll (h : Twin good m n) (subject : Subject) (flags : MatchFlags) :
    (m.extractAll subject flags).Agree (Alike good) (n.extractAll subject flags) := by
  have hx := agree_exec hgood h subject flags
  unfold extractAll
  dsimp only
  rw [hx.matcher.same.toList]
  exact hx.map _

theorem found?_eq (h : Twin good m n) (subject : Subject) (flags : MatchFlags) (pos : Nat) :
    m.found? subject flags pos = n.found? subject flags pos :=
  (agree_exec hgood h (subject.tail pos) flags).matcher.hit? subject pos

/-- A change of pattern leaves nothing to be read, if there is memory on both sides or on none. -/
theorem agree_bind (h : Twin good m n) {p : Compiled κ} {s t : Option Slots} (hp : good p.code)
    (hs : Allocation p s) (ht : Allocation p t) (hst : s.isSome = t.isSome) :
    (m.bind p s).Agree (Shown good) (n.bind p t) := by
  have hbuffered : ∀ c, good c → Engine.Buffered c := fun c hc => (hgood c hc).toBuffered
  have hl := h.left.bind hbuffered hp hs
  have hr := h.right.bind hbuffered hp ht
  have blank : ∀ {m' n' : Matcher κ}, m'.pattern = n'.pattern → Fitted good m' → Fitted good n' →
      m'.outcome = .noAttempt ∧ m'.pairs = 0 → n'.outcome = .noAttempt ∧ n'.pairs = 0 →
      Shown good m' n' := by
    intro m' n' hpat hl hr hm hn
    refine ⟨⟨hpat, hl, hr⟩, hm.1.trans hn.1.symm, hm.2.trans hn.2.symm, ?_, fun ho => absurd hm.1 ho⟩
    intro i hi; rw [hm.2] at hi; exact absurd hi (Nat.not_lt_zero i)
  have hbm := m.bind_outcome p s
  have hbn := n.bind_outcome p t
  cases hn : n.pattern.isSame p with
  | true =>
    have hm : m.pattern.isSame p = true := h.pattern ▸ hn
    rw [bind_same hm] at hl hbm ⊢; rw [bind_same hn] at hr hbn ⊢
    exact ⟨rfl, rfl, blank h.pattern hl hr hbm hbn⟩
  | false =>
    have hm : m.pattern.isSame p = false := h.pattern ▸ hn
    match s, t, hst with
    | none, none, _ =>
      rw [bind_none hm] at hl hbm ⊢; rw [bind_none hn] at hr hbn ⊢
      exact ⟨rfl, rfl, blank h.pattern hl hr hbm hbn⟩
    | some a, some b, _ =>
      rw [bind_some hm] at hl hbm ⊢; rw [bind_some hn] at hr hbn ⊢
      exact ⟨rfl, rfl, blank rfl hl hr hbm hbn⟩

structure TrailAgree (R : Matcher κ → Matcher κ → Prop) (t u : Trail κ) : Prop where
  hits : t.hits = u.hits
  reply : t.reply.Agree R u.reply

section rel
omit hgood
variable {R : Matcher κ → Matcher κ → Prop} {s s' : Subject} {flags : MatchFlags}

omit [Engine κ] in
theorem TrailAgree.cons {t u : Trail κ} (h : TrailAgree R t u) (hit : Hit) (events : List Event) :
    TrailAgree R (t.cons hit events) (u.cons hit events) :=
  ⟨congrArg (hit :: ·) h.hits,
    ⟨h.reply.result, congrArg (events ++ ·) h.reply.events, h.reply.matcher⟩⟩

omit [Engine κ] in
theorem TrailAgree.copied {t u : Trail κ} (h : TrailAgree R t u) (b replacement : Bytes) :
    Option.Rel (Reply.Agree R) (t.copied b replacement) (u.copied b replacement) := by
  simp only [Trail.copied, Option.bind_eq_bind, h.hits, ← h.reply.result]
  cases u.hits.foldlM (Copy.add b replacement) {} with
  | none => exact .none
  | some c =>
    simp only [Option.bind_some]
    cases t.reply.result with
    | error e => exact .some ⟨rfl, h.reply.events, h.reply.matcher⟩
    | ok rest =>
      dsimp only
      cases c.finish b rest with
      | none => exact .none
      | some out => exact .some ⟨rfl, h.reply.events, h.reply.matcher⟩

/-- Two scans, of subjects of one length, whose attempts answer alike and find the same wherever they
come, take the same course, under any limit. `I` is what relates the matchers at each place. -/
theorem rel_scanFrom {I : Matcher κ → Matcher κ → Nat → Prop} (hsize : s'.size = s.size)
    (hexec : ∀ m n pos, I m n pos →
      (m.exec (s.tail pos) flags).Agree R (n.exec (s'.tail pos) flags) ∧
      n.found? s' flags pos = m.found? s flags pos)
    (hnext : ∀ m n pos h, I m n pos → m.found? s flags pos = some h → h.span.start ≠ s.size →
      I (m.exec (s.tail pos) flags).matcher (n.exec (s'.tail pos) flags).matcher h.next)
    (fuel : Nat) {pos : Nat} (h : I m n pos) :
    Option.Rel (TrailAgree R) (scanFrom s flags fuel m pos) (scanFrom s' flags fuel n pos) := by
  induction fuel generalizing m n pos with
  | zero => exact .none
  | succ fuel ih =>
    obtain ⟨⟨hr, he, ha⟩, hfound⟩ := hexec m n pos h
    have hrest := hnext m n pos
    unfold found? at hfound hrest
    rw [scanFrom, scanFrom, hfound, hsize, ← hr, ← he]
    -- both now branch on the same answer and the same hit
    cases hres : (m.exec (s.tail pos) flags).result with
    | error e => exact .some ⟨rfl, rfl, rfl, ha⟩
    | ok b =>
      cases hh : (m.exec (s.tail pos) flags).matcher.hit? s pos with
      | none => exact .some ⟨rfl, rfl, rfl, ha⟩
      | some hit =>
        dsimp only
        by_cases hend : hit.span.start = s.size
        · rw [if_pos hend, if_pos hend]
          exact .some ⟨rfl, rfl, rfl, ha⟩
        · rw [if_neg hend, if_neg hend]
          have hrel := ih (hrest hit h hh hend)
          generalize scanFrom s flags fuel (m.exec (s.tail pos) flags).matcher hit.next = t at hrel ⊢
          generalize scanFrom s' flags fuel (n.exec (s'.tail pos) flags).matcher hit.next = u at hrel ⊢
          cases hrel with
          | none => exact .none
          | some htu => exact .some (htu.cons hit _)

theorem rel_findIter (h : Option.Rel (TrailAgree R) (m.scan s flags) (n.scan s' flags)) :
    Option.Rel (Reply.Agree R) (m.findIter s flags) (n.findIter s' flags) := by
  unfold findIter
  generalize m.scan s flags = t at h ⊢
  generalize n.scan s' flags = u at h ⊢
  cases h with
  | none => exact .none
  | some htu =>
    refine .some ?_
    dsimp only
    rw [htu.hits]
    exact htu.reply.map _

theorem rel_replace (h : Option.Rel (TrailAgree R) (m.scan s flags) (n.scan s' flags))
    (hb : s'.toBytes = s.toBytes) (replacement : Bytes) :
    Option.Rel (Reply.Agree R) (m.replace s replacement flags) (n.replace s' replacement flags) := by
  rw [replace_eq_bind, replace_eq_bind, hb]
  generalize m.scan s flags = t at h ⊢
  generalize n.scan s' flags = u at h ⊢
  cases h with
  | none => exact .none
  | some htu => exact htu.copied _ _

end rel

/-- Scans of twins take the same course, under any limit. -/
theorem agree_scanFrom (subject : Subject) (flags : MatchFlags) (fuel : Nat) (h : Twin good m n)
    (pos : Nat) :
    Option.Rel (TrailAgree (Alike good)) (scanFrom subject flags fuel m pos)
      (scanFrom subject flags fuel n pos) := by
  -- an attempt makes twins look alike, and look-alikes are twins for the next one
  refine rel_scanFrom (I := fun m n _ => Twin good m n) rfl ?_ ?_ fuel h
  · intro m n pos h
    exact ⟨agree_exec hgood h _ flags, (found?_eq hgood h subject flags pos).symm⟩
  · intro m n pos hit h _ _
    exact (agree_exec hgood h _ flags).matcher.toTwin

theorem agree_scan (h : Twin good m n) (subject : Subject) (flags : MatchFlags) :
    Option.Rel (TrailAgree (Alike good)) (m.scan subject flags) (n.scan subject flags) :=
  agree_scanFrom hgood subject flags (subject.size + 1) h 0

theorem agree_findIter (h : Twin good m n) (subject : Subject) (flags : MatchFlags) :
    Option.Rel (Reply.Agree (Alike good)) (m.findIter subject flags) (n.findIter subject flags) :=
  rel_findIter (agree_scan hgood h subject flags)

theorem agree_replace (h : Twin good m n) (subject : Subject) (replacement : Bytes)
    (flags : MatchFlags) :
    Option.Rel (Reply.Agree (Alike good)) (m.replace subject replacement flags)
      (n.replace subject replacement flags) :=
  rel_replace (agree_scan hgood h subject flags) rfl replacement

theorem agree_replaceAll (h : Twin good m n) (subject replacement : String) (flags : MatchFlags) :
    Option.Rel (Reply.Agree (Alike good)) (m.replaceAll subject replacement flags)
      (n.replaceAll subject replacement flags) := by
  have hx := agree_replace hgood h (.text subject) (Utf8.ofString replacement) flags
  unfold replaceAll
  generalize m.replace (.text subject) (Utf8.ofString replacement) flags = r at hx
  generalize n.replace (.text subject) (Utf8.ofString replacement) flags = s at hx
  cases hx with
  | none => exact .none
  | some h =>
    refine .some ⟨?_, h.events, h.matcher⟩
    dsimp only
    rw [h.result]

/-- An attempt behind a change of pattern is made with twins again, if the pattern could be changed. -/
theorem agree_reset (h : Twin good m n) {p : Compiled κ} {s t : Option Slots} (hp : good p.code)
    (hs : Allocation p s) (ht : Allocation p t) (hst : s.isSome = t.isSome)
    (hmem : ¬ (m.pattern.isSame p = false ∧ s = none)) (subject : Subject) (flags : MatchFlags) :
    (m.reset p subject flags s).Agree (Alike good) (n.reset p subject flags t) := by
  have hb := agree_bind hgood h hp hs ht hst
  have hok : (m.bind p s).result = .ok () := by
    rcases m.bind_cases p s with ⟨-, hx⟩ | ⟨hp, hs, -⟩ | ⟨_, -, -, hx⟩
    · rw [hx]
    · exact absurd ⟨hp, hs⟩ hmem
    · rw [hx]
  have hx := agree_exec hgood hb.matcher.toTwin subject flags
  have hok' : (n.bind p t).result = .ok () := hb.result ▸ hok
  unfold reset
  simp only [hok, hok']
  exact ⟨hx.result, by rw [hb.events, hx.events], hx.matcher⟩

/-- All that can be seen of an operation, from its answer to the groups that it leaves, is the same,
except perhaps the subject. -/
structure Similar (r s : Reply κ Answer) : Prop where
  result : r.result = s.result
  events : r.events = s.events
  outcome : r.matcher.outcome = s.matcher.outcome
  groups : r.matcher.groups = s.matcher.groups
  present : ∀ i, r.matcher.present i = s.matcher.present i
  group : ∀ i, r.matcher.group? i = s.matcher.group? i
  named : ∀ name, r.matcher.named? name = s.matcher.named? name
  captures : r.matcher.captures.Same s.matcher.captures

/-- All that can be seen of an operation is the same. -/
structure Indistinct (r s : Reply κ Answer) : Prop extends Similar r s where
  subject : r.matcher.subject = s.matcher.subject

omit hgood in
theorem similar_of_shown {r s : Reply κ Answer} (h : r.Agree (Shown good) s) : Similar r s := by
  have hsame := h.matcher.same
  exact ⟨h.result, h.events, h.matcher.outcome, hsame.groups, hsame.present, hsame.get, hsame.named,
    hsame⟩

omit hgood in
theorem indistinct_of_alike {r s : Reply κ Answer} (h : r.Agree (Alike good) s) : Indistinct r s :=
  ⟨similar_of_shown (h.mono fun _ _ h => h.toShown), h.matcher.subject_eq⟩

omit hgood in
theorem rel_indistinct {α : Type} {r s : Option (Reply κ α)} (f : α → Answer)
    (h : Option.Rel (Reply.Agree (Alike good)) r s) :
    Option.Rel Indistinct (r.map (·.map f)) (s.map (·.map f)) := by
  cases h with
  | none => exact .none
  | some h => exact .some (indistinct_of_alike (h.map f))

theorem agree_run (h : Twin good m n) {op op' : Op κ} (hop : op.Like op') (ho : op.Takes good)
    (ho' : op'.Takes good) (hmem : ¬ op.Starves m.pattern) :
    Option.Rel Indistinct (op.run m) (op'.run n) := by
  cases hop with
  | reset p hst =>
    exact .some (indistinct_of_alike
      ((agree_reset hgood h ho.1 ho.2 ho'.2 hst hmem _ _).map Answer.truth))
  | same =>
    cases op with
    | exec subject flags =>
      exact .some (indistinct_of_alike ((agree_exec hgood h subject flags).map Answer.truth))
    | reset p memory subject flags =>
      exact .some (indistinct_of_alike
        ((agree_reset hgood h ho.1 ho.2 ho.2 rfl hmem subject flags).map Answer.truth))
    | findIndex subject flags =>
      exact .some (indistinct_of_alike ((agree_findIndex hgood h subject flags).map Answer.span))
    | extractAll subject flags =>
      exact .some (indistinct_of_alike ((agree_extractAll hgood h subject flags).map Answer.groups))
    | findIter subject flags => exact rel_indistinct _ (agree_findIter hgood h subject flags)
    | replaceAll subject replacement flags =>
      exact rel_indistinct _ (agree_replaceAll hgood h subject replacement flags)
    | replaceAllBytes subject replacement flags =>
      exact rel_indistinct _ (agree_replace hgood h (.bytes subject) replacement flags)

omit hgood in
/-- Without memory for another pattern no attempt is made: nothing is left to be read of the last one,
but its subject is still there. -/
theorem reset_starved {p : Compiled κ} (h : m.pattern.isSame p = false) (subject : Subject)
    (flags : MatchFlags) : m.reset p subject flags none =
      ⟨.error .noMemory, { m with outcome := .noAttempt, pairs := 0 }, []⟩ := by
  rw [reset, bind_none h]

/-- Without memory for another pattern twins fail alike, and each keeps its subject. -/
theorem run_starved (h : Twin good m n) {op op' : Op κ} (hop : op.Like op') (ho : op.Takes good)
    (hmem : op.Starves m.pattern) : ∃ r s, op.run m = some r ∧ op'.run n = some s ∧
      r.result = .error .noMemory ∧ Similar r s ∧
      r.matcher.subject = m.subject ∧ s.matcher.subject = n.subject := by
  cases op with
  | reset p memory subject flags =>
    obtain ⟨hm, rfl⟩ := hmem
    have hn : n.pattern.isSame p = false := h.pattern ▸ hm
    obtain rfl : op' = .reset p none subject flags := by
      cases hop with
      | same => rfl
      | @reset _ _ t _ _ hst => cases t with
        | none => rfl
        | some b => cases hst
    have hb := (agree_bind hgood h ho.1 ho.2 ho.2 rfl).matcher
    rw [bind_none hm, bind_none hn] at hb
    refine ⟨_, _, rfl, rfl, ?_⟩
    rw [reset_starved hm, reset_starved hn]
    have hagree : Reply.Agree (Shown good)
        ⟨.error .noMemory, { m with outcome := .noAttempt, pairs := 0 }, []⟩
        (⟨.error .noMemory, { n with outcome := .noAttempt, pairs := 0 }, []⟩ : Reply κ Answer) :=
      ⟨rfl, rfl, hb⟩
    exact ⟨rfl, similar_of_shown hagree, rfl, rfl⟩
  | _ => exact hmem.elim

end steady

/-- **A used matcher is as good as a new one.** After any operations on a matcher, whether they
succeeded or failed, the next operation does what it does on a new matcher bound to the same
pattern, and leaves the same to be seen. Only where it brings in another pattern and finds no memory
for it does the used matcher keep the subject of its last attempt, and the new one has none; all else
is the same then too. -/
theorem run_used_eq_run_new {used fresh : Matcher κ} {memory : Option Slots}
    (hu : Reachable Engine.Steady used) (hm : Allocation used.pattern memory)
    (hf : (new used.pattern memory).result = .ok fresh) {op op' : Op κ} (hop : op.Like op')
    (ho : op.Takes Engine.Steady) (ho' : op'.Takes Engine.Steady) :
    (¬ op.Starves used.pattern → Option.Rel Indistinct (op.run used) (op'.run fresh)) ∧
    (op.Starves used.pattern → ∃ r s, op.run used = some r ∧ op'.run fresh = some s ∧
      r.result = .error .noMemory ∧ Similar r s ∧
      r.matcher.subject = used.subject ∧ s.matcher.subject = default) := by
  have hbuffered : ∀ c : κ, Engine.Steady c → Engine.Buffered c := fun c hc => hc.toBuffered
  have hused : Fitted Engine.Steady used := hu.fitted hbuffered
  obtain ⟨slots, rfl, rfl⟩ := new_eq_ok hf
  have htwin : Twin Engine.Steady used { pattern := used.pattern, slots } :=
    ⟨rfl, hused, .new hbuffered hused.good hm⟩
  exact ⟨agree_run (fun _ hc => hc) htwin hop ho ho', run_starved (fun _ hc => hc) htwin hop ho⟩

def twoGroups : Compiled Regex.Program :=
  (Compiled.plain? "^(a)(b)cd" 0).get (by decide +kernel)

/-- A match leaves both groups in the buffer. The partial match behind it covers neither of them, and
is the same as on a new matcher, whose buffer is empty. -/
theorem run_behind_match_eq_run_new :
    let made : Matcher Regex.Program := { pattern := twoGroups, slots := Array.replicate 3 none }
    let used := (made.exec (.text "abcd") ∅).matcher
    let op : Op Regex.Program := .exec (.text "abc") (.ofList [.partialHard])
    Reachable Engine.Steady used ∧
    used.slots = #[some ⟨0, 4⟩, some ⟨0, 1⟩, some ⟨1, 2⟩] ∧
    (new used.pattern).result = .ok made ∧ op.Takes Engine.Steady ∧
    Option.Rel Indistinct (op.run used) (op.run made) ∧
    (op.run used).map (fun r => (r.matcher.isPartial, r.matcher.slots)) =
      some (true, #[some ⟨0, 3⟩, some ⟨0, 1⟩, some ⟨1, 2⟩]) := by
  intro made used op
  have hmade : Reachable Engine.Steady made := .new (Regex.Program.steady _) .new rfl
  have hused : Reachable Engine.Steady used := hmade.exec _ _
  have hpattern : used.pattern = twoGroups := exec_pattern _ _
  have hnew : (new used.pattern).result = .ok made := hpattern ▸ rfl
  refine ⟨hused, by decide +kernel, hnew, trivial, ?_, by decide +kernel⟩
  exact (run_used_eq_run_new hused .new hnew (.same op) trivial trivial).1 id

def oneLetter : Compiled Regex.Program := (Compiled.plain? "x" 1).get (by decide +kernel)

/-- Behind a match, a change of pattern that finds no memory leaves the subject of the match, where a new
matcher has none: a used matcher and a new one can be told apart. -/
theorem failed_reset_keeps_subject :
    let made : Matcher Regex.Program := { pattern := twoGroups, slots := Array.replicate 3 none }
    let used := (made.exec (.text "abcd") ∅).matcher
    let op : Op Regex.Program := .reset oneLetter none (.text "xy") ∅
    Reachable Engine.Steady used ∧ (new used.pattern).result = .ok made ∧ op.Takes Engine.Steady ∧
    (∃ r s, op.run used = some r ∧ op.run made = some s ∧ r.result = .error .noMemory ∧
      r.matcher.subject = .text "abcd" ∧ s.matcher.subject = .bytes []) ∧
    ¬ Option.Rel Indistinct (op.run used) (op.run made) := by
  intro made used op
  have hmade : Reachable Engine.Steady made := .new (Regex.Program.steady _) .new rfl
  have hused : Reachable Engine.Steady used := hmade.exec _ _
  have hpattern : used.pattern = twoGroups := exec_pattern _ _
  have ho : op.Takes Engine.Steady := ⟨Regex.Program.steady _, .none⟩
  have hbuffered : ∀ c : Regex.Program, Engine.Steady c → Engine.Buffered c :=
    fun c hc => hc.toBuffered
  have htwin : Twin Engine.Steady used made :=
    ⟨hpattern, hused.fitted hbuffered, hmade.fitted hbuffered⟩
  have hstarves : op.Starves used.pattern := by
    rw [hpattern]
    exact ⟨by decide +kernel, rfl⟩
  obtain ⟨r, s, hr, hs, hresult, -, hold, hnone⟩ :=
    run_starved (fun _ hc => hc) htwin (.same op) ho hstarves
  have hsubject : used.subject = .text "abcd" := by decide +kernel
  refine ⟨hused, hpattern ▸ rfl, ho,
    ⟨r, s, hr, hs, hresult, hold.trans hsubject, hnone⟩, fun h => ?_⟩
  rw [hr, hs] at h
  cases h with
  | some h =>
    rw [h.subject, hnone] at hold
    cases hold.trans hsubject

end Matcher

end Rematch
