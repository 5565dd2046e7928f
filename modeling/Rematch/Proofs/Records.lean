import Mathlib.Data.List.Chain
import Rematch.Proofs.Failure
import Rematch.Proofs.Splice

/-! # What an operation reports

The attempts of an operation can be listed (`Course`): each is reported once, in their order, with what
became of it; before them stands what the operation reports of a change of pattern. Each attempt is made
in the buffer that the one before it has left, and the first of them in a new one only where the pattern
changes. Where an engine's matches lie within what it was given, every attempt of a scan but the first is
made on less than the one before it (`Scans.course`). -/

namespace Rematch

/-- How many bytes an event says that an attempt was made on. -/
def Event.length : Event → Nat
  | attempted _ n _ | failed _ n _ => n
  | _ => 0

/-- An attempt: what is tried, and with which matcher. -/
structure Attempt (κ : Type) where
  matcher : Matcher κ
  subject : Subject

variable {κ : Type} [Engine κ]

namespace Attempt

def answer (f : MatchFlags) (a : Attempt κ) : Int × Slots := a.matcher.answer a.subject f

/-- The event of an attempt: its outcome, or the error that its code stands for. -/
def record (f : MatchFlags) (a : Attempt κ) : Event :=
  match Matcher.classify (a.answer f).1 with
  | some (outcome, _) => .attempted a.matcher.pattern.display a.subject.size outcome
  | none =>
    .failed a.matcher.pattern.display a.subject.size
      (.engine (a.answer f).1 (Engine.explain κ (a.answer f).1))

theorem length_record (f : MatchFlags) (a : Attempt κ) : (a.record f).length = a.subject.size := by
  unfold record
  split <;> rfl

theorem lengths_records (f : MatchFlags) (attempts : List (Attempt κ)) :
    (attempts.map (record f)).map Event.length = attempts.map (·.subject.size) := by
  rw [List.map_map]
  exact List.map_congr_left fun a _ => length_record f a

theorem level_record (f : MatchFlags) (a : Attempt κ) :
    (a.record f).level = if Code.IsFailure (a.answer f).1 then .warn else .trace := by
  unfold record
  split
  · next hc =>
    rw [if_neg fun hf => by rw [Matcher.classify_eq_none_iff.2 hf] at hc; cases hc]; rfl
  · next hc => rw [if_pos (Matcher.classify_eq_none_iff.1 hc)]; rfl

/-- The attempts are made in one buffer, one after the other: each finds what the one before it has
left there. -/
def InBuffer (f : MatchFlags) : Slots → List (Attempt κ) → Slots → Prop
  | before, [], behind => before = behind
  | before, a :: attempts, behind =>
    a.matcher.slots = before ∧ InBuffer f (a.answer f).2 attempts behind

end Attempt

namespace Op
variable (q : Compiled κ)

/-- The operation brings in a pattern that stems from another compilation than the one that is bound,
whatever their expressions are. -/
def Rebinds : Op κ → Prop
  | reset p _ _ _ => q.isSame p = false
  | _ => False

/-- The operation as it is where there is no memory. -/
def starved : Op κ → Op κ
  | reset p _ s f => reset p none s f
  | op => op

/-- What the operation reports before it makes attempts. -/
def opening : Op κ → List Event
  | reset p _ _ _ =>
    if q.isSame p then [] else [Matcher.allocated p, .rebound p.display p.groups]
  | _ => []

/-- The buffer of the operation, if there is one. -/
def buffer (m : Matcher κ) : Op κ → Option Slots
  | reset p memory _ _ => if m.pattern.isSame p then some m.slots else memory
  | _ => some m.slots

/-- There is memory where the pattern changes, and the matches that the engine finds in a scan lie in
what it was given. -/
def Regular : Op κ → Prop
  | reset p memory _ _ => q.isSame p = false → memory.isSome
  | findIter s f => Engine.OrderlyOn q.code s f
  | replaceAll s _ f => Engine.OrderlyOn q.code (.text s) f
  | replaceAllBytes b _ f => Engine.OrderlyOn q.code (.bytes b) f
  | _ => True

end Op

namespace Matcher
variable {m n : Matcher κ} {s x : Subject} {f : MatchFlags} {pos q k : Nat} {hits : List Hit} {t : Trail κ}
variable {attempts : List (Attempt κ)} {op : Op κ}

theorem exec_events (m : Matcher κ) (s : Subject) (f : MatchFlags) :
    (m.exec s f).events = [Attempt.record f ⟨m, s⟩] := by
  rcases m.exec_cases s f with ⟨o, k, hc, h⟩ | ⟨hc, h⟩
  all_goals
    rw [h, Attempt.record, show (Attempt.answer f ⟨m, s⟩).1 = (m.answer s f).1 from rfl, hc]

/-- Attempt number `k` of the scan is made with the matcher `n` on `x`. -/
def Comes (s : Subject) (f : MatchFlags) (m : Matcher κ) (pos k : Nat) (n : Matcher κ) (x : Subject) :
    Prop :=
  ∃ hits q, Visits s f m pos hits n q ∧ hits.length = k ∧ s.tail q = x

theorem comes_zero_iff : Comes s f m pos 0 n x ↔ m = n ∧ s.tail pos = x := by
  constructor
  · rintro ⟨hits, q, hv, hk, rfl⟩
    cases hv with
    | here => exact ⟨rfl, rfl⟩
    | next => cases hk
  · rintro ⟨rfl, rfl⟩
    exact ⟨[], pos, .here m pos, rfl, rfl⟩

/-- Behind a hit from which the scan goes on, the attempts are counted anew. -/
theorem comes_succ_iff {h : Hit} (hh : m.found? s f pos = some h) (he : h.span.start ≠ s.size) :
    Comes s f m pos (k + 1) n x ↔ Comes s f (m.exec (s.tail pos) f).matcher h.next k n x := by
  constructor
  · rintro ⟨hits, q, hv, hk, rfl⟩
    cases hv with
    | here => cases hk
    | next hh' he' hv =>
      cases hh.symm.trans hh'
      exact ⟨_, q, hv, Nat.succ.inj hk, rfl⟩
  · rintro ⟨hits, q, hv, rfl, rfl⟩
    exact ⟨h :: hits, q, .next hh he hv, rfl, rfl⟩

theorem not_comes_succ (hstop : ∀ h, m.found? s f pos = some h → h.span.start = s.size) :
    ¬ Comes s f m pos (k + 1) n x := by
  rintro ⟨hits, q, hv, hk, rfl⟩
  cases hv with
  | here => cases hk
  | next hh he hv => exact he (hstop _ hh)

/-- The attempts of a scan, from the one at `pos` on, and what it leaves. -/
structure ScanCourse (s : Subject) (f : MatchFlags) (m : Matcher κ) (pos : Nat) (r : Reply κ Nat)
    (attempts : List (Attempt κ)) : Prop where
  numbered : ∀ k n x, Comes s f m pos k n x ↔ attempts[k]? = some ⟨n, x⟩
  events : r.events = attempts.map (Attempt.record f)
  pattern : r.matcher.pattern = m.pattern
  inBuffer : Attempt.InBuffer f m.slots attempts r.matcher.slots
  first : attempts.head? = some ⟨m, s.tail pos⟩
  shrinking : (attempts.map (·.subject.size)).IsChain (· > ·)

/-- The attempt at `pos` is the last if nothing is found there from which the scan goes on. -/
theorem ScanCourse.single {result : Except Error Nat}
    (hstop : ∀ h, m.found? s f pos = some h → h.span.start = s.size) :
    ScanCourse s f m pos ⟨result, (m.exec (s.tail pos) f).matcher, (m.exec (s.tail pos) f).events⟩
      [⟨m, s.tail pos⟩] := by
  refine ⟨fun k n x => ?_, exec_events m _ f, exec_pattern _ _, ⟨rfl, (exec_slots _ _).symm⟩, rfl,
    .singleton _⟩
  cases k with
  | zero => rw [comes_zero_iff, List.getElem?_cons_zero, Option.some_inj, Attempt.mk.injEq]
  | succ k => exact ⟨fun h => absurd h (not_comes_succ hstop), nofun⟩

theorem ScanCourse.cons {h : Hit} (hh : m.found? s f pos = some h)
    (he : h.span.start ≠ s.size) (hlt : s.size - h.next < s.size - pos)
    (ht : ScanCourse s f (m.exec (s.tail pos) f).matcher h.next t.reply attempts) :
    ScanCourse s f m pos (t.cons h (m.exec (s.tail pos) f).events).reply
      (⟨m, s.tail pos⟩ :: attempts) := by
  obtain ⟨a, rest, rfl⟩ : ∃ a rest, attempts = a :: rest :=
    List.exists_cons_of_ne_nil fun hnil => by simpa [hnil] using ht.first
  obtain rfl := Option.some.inj ht.first
  refine ⟨fun k n x => ?_, ?_, ht.pattern.trans (exec_pattern _ _), ⟨rfl, ?_⟩, rfl, ?_⟩
  · cases k with
    | zero => rw [comes_zero_iff, List.getElem?_cons_zero, Option.some_inj, Attempt.mk.injEq]
    | succ k => rw [comes_succ_iff hh he, List.getElem?_cons_succ, ht.numbered]
  · rw [List.map_cons, ← ht.events, ← List.singleton_append, ← exec_events]; rfl
  · exact exec_slots (m := m) (s.tail pos) f ▸ ht.inBuffer
  · refine .cons_cons ?_ ht.shrinking
    simpa using hlt

/-- Each attempt but the last gets on by a byte at least, so that the next one has less before it. -/
theorem Scans.course (ht : Scans s f m pos t) (hc : Engine.OrderlyOn m.pattern.code s f)
    (hpos : pos ≤ s.size) : ∃ attempts, ScanCourse s f m pos t.reply attempts := by
  induction ht with
  | @fail m pos r e hx hr =>
    subst hx
    exact ⟨_, .single fun h hh => by rw [found?_of_error hr] at hh; cases hh⟩
  | @stop m pos r b hx hr hh =>
    subst hx
    exact ⟨_, .single fun h hfound => by cases hh.symm.trans hfound⟩
  | @last m pos r b h hx hr hh he =>
    subst hx
    exact ⟨_, .single fun h' hfound => by cases hh.symm.trans hfound; exact he⟩
  | @more m pos r b h t hx hr hh he ht ih =>
    subst hx
    have hsound := found?_sound (hc pos hpos) hpos hh
    obtain ⟨-, hle, hlt⟩ := hsound.next_bounds
    have hgain : pos < h.next := Nat.lt_of_le_of_lt hsound.start (hlt he)
    obtain ⟨attempts, hcourse⟩ := ih (by rw [exec_pattern]; exact hc) hle
    exact ⟨_, hcourse.cons hh he (by omega)⟩

theorem Visits.row (hv : Visits s f m pos hits n q) (hc : Engine.OrderlyOn m.pattern.code s f)
    (hpos : pos ≤ s.size) : Row s pos hits q := by
  induction hv with
  | here => exact .nil hpos
  | next hh he hv ih =>
    have hsound := found?_sound (hc _ hpos) hpos hh
    exact .cons hsound (fun hend => absurd hend he)
      (ih (by rw [exec_pattern]; exact hc) hsound.next_bounds.2.1)

/-- The attempts of an operation in their order, what it reports, and the buffer in which it is done. -/
structure Course (m : Matcher κ) (op : Op κ) (r : Reply κ Answer) (attempts : List (Attempt κ)) :
    Prop where
  numbered : ∀ k n x, Tries m op k n x ↔ attempts[k]? = some ⟨n, x⟩
  events : r.events = op.opening m.pattern ++ attempts.map (Attempt.record op.flags)
  pattern : r.matcher.pattern = op.bound m
  inBuffer : ∃ first, op.buffer m = some first ∧
    Attempt.InBuffer op.flags first attempts r.matcher.slots
  /-- The first attempt is reported on all of the subject, and each further one on fewer bytes. -/
  whole : ((attempts.map (Attempt.record op.flags)).map Event.length).head? = some op.subject.size
  shrinking : ((attempts.map (Attempt.record op.flags)).map Event.length).Pairwise (· > ·)

/-- An operation that makes one attempt, with the matcher `n`. -/
theorem Course.of_exec {r : Reply κ Answer} (htries : Tries m op 0 n op.subject)
    (honly : ∀ k n' x, Tries m op k n' x → k = 0 ∧ n' = n ∧ x = op.subject)
    (hevents : r.events = op.opening m.pattern ++ (n.exec op.subject op.flags).events)
    (hmatcher : r.matcher = (n.exec op.subject op.flags).matcher) (hpattern : n.pattern = op.bound m)
    (hbuffer : op.buffer m = some n.slots) : Course m op r [⟨n, op.subject⟩] where
  numbered k n' x := by
    constructor
    · intro h
      obtain ⟨rfl, rfl, rfl⟩ := honly k n' x h
      rfl
    · intro h
      cases k with
      | zero => cases h; exact htries
      | succ k => cases h
  events := by rw [hevents, exec_events]; rfl
  pattern := by rw [hmatcher, exec_pattern, hpattern]
  inBuffer := ⟨n.slots, hbuffer, rfl, by rw [hmatcher, exec_slots]; rfl⟩
  whole := congrArg some (Attempt.length_record _ _)
  shrinking := List.pairwise_singleton _ _

/-- An operation that scans its subject. -/
theorem Course.of_scan (op : Op κ) {r : Reply κ Answer} {u : Reply κ Nat}
    (hc : ScanCourse op.subject op.flags m 0 u attempts)
    (hnum : ∀ k n x, Tries m op k n x ↔ Comes op.subject op.flags m 0 k n x)
    (hevents : r.events = u.events) (hmatcher : r.matcher = u.matcher)
    (hopening : op.opening m.pattern = []) (hpattern : op.bound m = m.pattern)
    (hbuffer : op.buffer m = some m.slots) : Course m op r attempts where
  numbered k n x := (hnum k n x).trans (hc.numbered k n x)
  events := by rw [hopening, hevents, hc.events, List.nil_append]
  pattern := by rw [hmatcher, hc.pattern, hpattern]
  inBuffer := ⟨m.slots, hbuffer, hmatcher ▸ hc.inBuffer⟩
  whole := by rw [Attempt.lengths_records, List.head?_map, hc.first, Subject.tail_zero]; rfl
  shrinking := by rw [Attempt.lengths_records]; exact List.isChain_iff_pairwise.1 hc.shrinking

theorem bind_of_memory {p : Compiled κ} {memory : Option Slots}
    (h : m.pattern.isSame p = false → memory.isSome) (s : Subject) (f : MatchFlags) :
    (m.bind p memory).result = .ok () ∧
      (m.bind p memory).events = (Op.reset p memory s f).opening m.pattern ∧
      (m.bind p memory).matcher.pattern = (Op.reset p memory s f).bound m ∧
      (Op.reset p memory s f).buffer m = some (m.bind p memory).matcher.slots := by
  unfold Op.opening Op.bound Op.buffer
  rcases m.bind_cases p memory with ⟨hs, hb⟩ | ⟨hs, rfl, -⟩ | ⟨slots, hs, rfl, hb⟩
  · simp [hb, hs]
  · cases h hs
  · simp [hb, hs]

theorem tries_findIter_iff : Tries m (.findIter s f) k n x ↔ Comes s f m 0 k n x := by
  constructor
  · rintro ⟨⟩
    exact ⟨_, _, ‹_›, rfl, rfl⟩
  · rintro ⟨hits, q, hv, rfl, rfl⟩
    exact .findIter hv

/-- The copying between the attempts of a replacement does not fail. -/
theorem Visits.exists_copy (hv : Visits s f m 0 hits n q)
    (hc : Engine.OrderlyOn m.pattern.code s f) (u : Bytes) :
    ∃ c, hits.foldlM (Copy.add s.toBytes u) {} = some c :=
  let ⟨c, hcopy, _⟩ := (hv.row hc (Nat.zero_le _)).foldlM_add {} rfl
  ⟨c, hcopy⟩

theorem tries_replaceAll_iff {t u : String} (hc : Engine.OrderlyOn m.pattern.code (.text t) f) :
    Tries m (.replaceAll t u f) k n x ↔ Comes (.text t) f m 0 k n x := by
  constructor
  · rintro ⟨⟩
    exact ⟨_, _, ‹_›, rfl, rfl⟩
  · rintro ⟨hits, q, hv, rfl, rfl⟩
    obtain ⟨c, hcopy⟩ := hv.exists_copy hc (Utf8.ofString u)
    exact .replaceAll hv hcopy

theorem tries_replaceAllBytes_iff {b u : Bytes} (hc : Engine.OrderlyOn m.pattern.code (.bytes b) f) :
    Tries m (.replaceAllBytes b u f) k n x ↔ Comes (.bytes b) f m 0 k n x := by
  constructor
  · rintro ⟨⟩
    exact ⟨_, _, ‹_›, rfl, rfl⟩
  · rintro ⟨hits, q, hv, rfl, rfl⟩
    obtain ⟨c, hcopy⟩ := hv.exists_copy hc u
    exact .replaceAllBytes hv hcopy

theorem exists_scanCourse (hc : Engine.OrderlyOn m.pattern.code s f) :
    ∃ t attempts, m.scan s f = some t ∧ ScanCourse s f m 0 t.reply attempts := by
  obtain ⟨t, ht, hle⟩ := exists_scans hc (Nat.zero_le _)
  obtain ⟨attempts, hcourse⟩ := ht.course hc (Nat.zero_le _)
  exact ⟨t, attempts, scan_eq_some_iff.2 ⟨ht, hle⟩, hcourse⟩

/-- **The course of an operation.** It ends, its attempts are reported one by one in their order, and
those of a scan are made on less and less. -/
theorem exists_course (h : op.Regular m.pattern) :
    ∃ r attempts, op.run m = some r ∧ Course m op r attempts := by
  cases op with
  | exec s f =>
    exact ⟨_, _, rfl, .of_exec (.exec s f) (by rintro _ _ _ ⟨⟩; exact ⟨rfl, rfl, rfl⟩) rfl rfl rfl rfl⟩
  | findIndex s f =>
    exact ⟨_, _, rfl,
      .of_exec (.findIndex s f) (by rintro _ _ _ ⟨⟩; exact ⟨rfl, rfl, rfl⟩) rfl rfl rfl rfl⟩
  | extractAll s f =>
    exact ⟨_, _, rfl,
      .of_exec (.extractAll s f) (by rintro _ _ _ ⟨⟩; exact ⟨rfl, rfl, rfl⟩) rfl rfl rfl rfl⟩
  | reset p memory s f =>
    obtain ⟨hok, hevents, hpattern, hbuffer⟩ := bind_of_memory h s f
    have hreset : m.reset p s f memory = _ :=
      ((m.reset_cases p s f memory).resolve_left fun hbad => by rw [hok] at hbad; cases hbad.1).2
    refine ⟨_, _, rfl, .of_exec (.reset hok s f) (by rintro _ _ _ ⟨⟩; exact ⟨rfl, rfl, rfl⟩) ?_ ?_
      hpattern hbuffer⟩
    · rw [hreset, ← hevents]; rfl
    · rw [hreset]; rfl
  | findIter s f =>
    obtain ⟨t, attempts, hscan, hcourse⟩ := exists_scanCourse h
    refine ⟨(t.reply.map fun _ => t.hits.map Hit.span).map .spans, attempts,
      by rw [Op.run, findIter_of_scan hscan]; rfl, ?_⟩
    exact .of_scan (.findIter s f) hcourse (fun k n x => tries_findIter_iff) rfl rfl rfl rfl rfl
  | replaceAll s u f =>
    obtain ⟨t, attempts, hscan, hcourse⟩ := exists_scanCourse h
    obtain ⟨-, -, -, -, hreplace⟩ := replace_of_scan h hscan (Utf8.ofString u)
    refine ⟨_, attempts, by rw [Op.run, replaceAll, hreplace]; rfl, ?_⟩
    exact .of_scan (.replaceAll s u f) hcourse (fun k n x => tries_replaceAll_iff h) rfl rfl rfl rfl rfl
  | replaceAllBytes b u f =>
    obtain ⟨t, attempts, hscan, hcourse⟩ := exists_scanCourse h
    obtain ⟨-, -, -, -, hreplace⟩ := replace_of_scan h hscan u
    refine ⟨_, attempts, by rw [Op.run, replaceAllBytes, hreplace]; rfl, ?_⟩
    exact .of_scan (.replaceAllBytes b u f) hcourse (fun k n x => tries_replaceAllBytes_iff h)
      rfl rfl rfl rfl rfl

theorem exec_ne_noMemory (m : Matcher κ) (s : Subject) (f : MatchFlags) :
    (m.exec s f).result ≠ .error .noMemory :=
  fun h => nomatch (exec_eq_error_iff.1 h).2

theorem Scans.ne_noMemory (ht : Scans s f m pos t) : t.reply.result ≠ .error .noMemory :=
  fun h => let ⟨n, _, _, hx, _⟩ := ht.error_visit h; exec_ne_noMemory n _ f hx

theorem Scans.copied_ne_noMemory {b u : Bytes} {r : Reply κ Bytes} (ht : Scans s f m pos t)
    (hr : t.copied b u = some r) : r.result ≠ .error .noMemory := by
  intro h
  obtain ⟨c, -, ⟨e, hx, rfl⟩ | ⟨rest, out, -, -, rfl⟩⟩ := Trail.copied_eq_some_iff.1 hr
  · cases h; exact ht.ne_noMemory hx
  · cases h

/-- Only a change of pattern fails for want of memory. -/
theorem bind_of_noMemory {r : Reply κ Answer} (h : op.run m = some r)
    (he : r.result = .error .noMemory) :
    ∃ p memory s f, op = .reset p memory s f ∧ (m.bind p memory).result = .error .noMemory := by
  cases run_ends h with
  | exec s f => exact absurd (map_result_eq_error_iff.1 he) (exec_ne_noMemory m s f)
  | findIndex s f =>
    exact absurd (map_result_eq_error_iff.1 (map_result_eq_error_iff.1 he)) (exec_ne_noMemory m s f)
  | extractAll s f =>
    exact absurd (map_result_eq_error_iff.1 (map_result_eq_error_iff.1 he)) (exec_ne_noMemory m s f)
  | findIter ht => exact absurd (map_result_eq_error_iff.1 (map_result_eq_error_iff.1 he)) ht.ne_noMemory
  | replaceAll ht hr =>
    exact absurd (text_result_eq_error (map_result_eq_error_iff.1 he) nofun) (ht.copied_ne_noMemory hr)
  | replaceAllBytes ht hr => exact absurd (map_result_eq_error_iff.1 he) (ht.copied_ne_noMemory hr)
  | reset p memory s f =>
    refine ⟨p, memory, s, f, rfl, ?_⟩
    rcases m.reset_cases p s f memory with ⟨hb, -⟩ | ⟨-, hr⟩
    · exact hb
    · rw [hr] at he; exact absurd (map_result_eq_error_iff.1 he) (exec_ne_noMemory _ s f)

/-- An operation asks for memory just if the pattern changes. -/
theorem starved_iff : (∃ r, op.starved.run m = some r ∧ r.result = .error .noMemory) ↔
    op.Rebinds m.pattern := by
  constructor
  · rintro ⟨r, hr, he⟩
    obtain ⟨p, memory, s, f, hop, hb⟩ := bind_of_noMemory hr he
    cases op with
    | reset =>
      cases hop
      rcases m.bind_cases p none with ⟨-, h⟩ | ⟨hs, -, -⟩ | ⟨slots, -, h, -⟩
      · rw [h] at hb; cases hb
      · exact hs
      · cases h
    | _ => cases hop
  · intro h
    cases op with
    | reset p memory s f =>
      refine ⟨_, rfl, ?_⟩
      rw [map_result_eq_error_iff, reset, bind_none h]
    | _ => cases h

end Matcher

end Rematch
