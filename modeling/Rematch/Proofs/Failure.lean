import Rematch.Proofs.RegexEngine
import Rematch.Proofs.Operation

/-! # Failures of the engine

`Tries` numbers the attempts that an operation makes and says on which tail and with what matcher
each of them is made. `Ends` is what an operation answers, however many attempts that takes, so that
an engine that keeps no promise at all is covered: a limited run leaves out the answers that take more
attempts than the subject has bytes, and one more (`run_eq_some_iff`).
A failure is the last attempt (`Tries.last_of_failure`), it is the answer
(`Tries.ends_of_failure`), and there is no other error of the engine (`Ends.exists_failure`). -/

namespace Rematch

/-- Neither a match of any kind nor the absence of one. -/
def Code.IsFailure (code : Int) : Prop :=
  code < 0 ∧ code ≠ Code.noMatch ∧ code ≠ Code.partialMatch

instance (code : Int) : Decidable (Code.IsFailure code) := inferInstanceAs (Decidable (_ ∧ _))

/-- Was the event an attempt? -/
def Event.isAttempt : Event → Bool
  | attempted .. | failed .. => true
  | _ => false

variable {κ : Type} [Engine κ]

/-- The reply as a text, or with what keeps its bytes from being one. -/
def Reply.text (r : Reply κ Bytes) : Reply κ String :=
  ⟨r.result.bind fun out => (Utf8.text out).mapError .utf8, r.matcher, r.events⟩

namespace Op

def flags : Op κ → MatchFlags
  | exec _ f | reset _ _ _ f | findIndex _ f | extractAll _ f | findIter _ f | replaceAll _ _ f
  | replaceAllBytes _ _ f => f

/-- The whole subject of the operation. -/
def subject : Op κ → Subject
  | exec s _ | reset _ _ s _ | findIndex s _ | extractAll s _ | findIter s _ => s
  | replaceAll s _ _ => .text s
  | replaceAllBytes b _ _ => .bytes b

/-- The pattern that a matcher is bound to in the operation. -/
def bound (m : Matcher κ) : Op κ → Compiled κ
  | reset p _ _ _ => if m.pattern.isSame p then m.pattern else p
  | _ => m.pattern

end Op

namespace Matcher
variable {m n n' : Matcher κ} {op : Op κ} {s s' : Subject} {f : MatchFlags} {t : Trail κ}
variable {pos q q' k k' : Nat} {hits hits' : List Hit}

/-- Attempt number `k` of the operation on `m` is made with the matcher `n` on the subject `s`. A
replacement copies the hits so far before. -/
inductive Tries (m : Matcher κ) : Op κ → Nat → Matcher κ → Subject → Prop
  | exec (s : Subject) (f : MatchFlags) : Tries m (.exec s f) 0 m s
  | findIndex (s : Subject) (f : MatchFlags) : Tries m (.findIndex s f) 0 m s
  | extractAll (s : Subject) (f : MatchFlags) : Tries m (.extractAll s f) 0 m s
  | reset {p : Compiled κ} {memory : Option Slots} (h : (m.bind p memory).result = .ok ())
      (s : Subject) (f : MatchFlags) :
      Tries m (.reset p memory s f) 0 (m.bind p memory).matcher s
  | findIter {s : Subject} {f : MatchFlags} {hits : List Hit} {n : Matcher κ} {q : Nat}
      (hv : Visits s f m 0 hits n q) : Tries m (.findIter s f) hits.length n (s.tail q)
  | replaceAll {s u : String} {f : MatchFlags} {hits : List Hit} {n : Matcher κ} {q : Nat} {c : Copy}
      (hv : Visits (.text s) f m 0 hits n q)
      (hc : hits.foldlM (Copy.add (Utf8.ofString s) (Utf8.ofString u)) {} = some c) :
      Tries m (.replaceAll s u f) hits.length n ((Subject.text s).tail q)
  | replaceAllBytes {b u : Bytes} {f : MatchFlags} {hits : List Hit} {n : Matcher κ} {q : Nat}
      {c : Copy} (hv : Visits (.bytes b) f m 0 hits n q)
      (hc : hits.foldlM (Copy.add b u) {} = some c) :
      Tries m (.replaceAllBytes b u f) hits.length n ((Subject.bytes b).tail q)

/-- The operation on `m` ends with this reply. -/
inductive Ends (m : Matcher κ) : Op κ → Reply κ Answer → Prop
  | exec (s : Subject) (f : MatchFlags) : Ends m (.exec s f) ((m.exec s f).map .truth)
  | findIndex (s : Subject) (f : MatchFlags) :
      Ends m (.findIndex s f) ((m.findIndex s f).map .span)
  | extractAll (s : Subject) (f : MatchFlags) :
      Ends m (.extractAll s f) ((m.extractAll s f).map .groups)
  | reset (p : Compiled κ) (memory : Option Slots) (s : Subject) (f : MatchFlags) :
      Ends m (.reset p memory s f) ((m.reset p s f memory).map .truth)
  | findIter {s : Subject} {f : MatchFlags} {t : Trail κ} (ht : Scans s f m 0 t) :
      Ends m (.findIter s f) ((t.reply.map fun _ => t.hits.map Hit.span).map .spans)
  | replaceAll {s u : String} {f : MatchFlags} {t : Trail κ} {r : Reply κ Bytes}
      (ht : Scans (.text s) f m 0 t)
      (hr : t.copied (Utf8.ofString s) (Utf8.ofString u) = some r) :
      Ends m (.replaceAll s u f) (r.text.map .text)
  | replaceAllBytes {b u : Bytes} {f : MatchFlags} {t : Trail κ} {r : Reply κ Bytes}
      (ht : Scans (.bytes b) f m 0 t) (hr : t.copied b u = some r) :
      Ends m (.replaceAllBytes b u f) (r.map .bytes)

/-- No attempt is kept of which anything could be read. A name is still known or unknown. -/
structure Unread (m : Matcher κ) : Prop where
  outcome : m.outcome = .noAttempt
  present : ∀ i, m.present i = false
  group : ∀ i, m.group? i = none
  named : ∀ name i, m.pattern.names.get? name = some i → m.namedPresent name = .ok false ∧
    m.named? name = .ok none ∧ m.namedText? name = .ok none
  unknown : ∀ name, m.pattern.names.get? name = none →
    m.namedPresent name = .error (.notFound name) ∧ m.named? name = .error (.notFound name) ∧
      m.namedText? name = .error (.notFound name)

theorem classify_eq_none_iff {code : Int} : classify code = none ↔ Code.IsFailure code := by
  rcases classify_cases code with ⟨h0, h⟩ | ⟨h1, h⟩ | ⟨h2, h⟩ | ⟨h0, h1, h2, h⟩ <;> rw [h]
  · exact ⟨nofun, fun hf => absurd hf.1 (Int.not_lt.2 h0)⟩
  · exact ⟨nofun, fun hf => absurd h1 hf.2.1⟩
  · exact ⟨nofun, fun hf => absurd h2 hf.2.2⟩
  · exact ⟨fun _ => ⟨h0, h1, h2⟩, fun _ => rfl⟩

theorem exec_eq_error_iff {e : Error} : (m.exec s f).result = .error e ↔
    Code.IsFailure (m.answer s f).1 ∧
      e = .engine (m.answer s f).1 (Engine.explain κ (m.answer s f).1) := by
  rw [← classify_eq_none_iff]
  rcases m.exec_cases s f with ⟨o, k, hk, hx⟩ | ⟨hk, hx⟩ <;> rw [hx, hk]
  · exact ⟨nofun, fun ⟨hn, _⟩ => nomatch hn⟩
  · exact ⟨fun h => ⟨rfl, (Except.error.inj h).symm⟩, fun ⟨_, he⟩ => he ▸ rfl⟩

theorem exec_of_failure (h : Code.IsFailure (m.answer s f).1) :
    (m.exec s f).matcher.outcome = .noAttempt ∧ (m.exec s f).matcher.subject = s := by
  rcases m.exec_cases s f with ⟨o, k, hk, hx⟩ | ⟨-, hx⟩
  · rw [classify_eq_none_iff.2 h] at hk; cases hk
  · rw [hx]; exact ⟨rfl, rfl⟩

theorem unread_of_noAttempt (h : m.outcome = .noAttempt) : m.Unread := by
  have hspan : ∀ i, m.captures.span? i = none := by
    intro i
    refine Option.eq_none_iff_forall_ne_some.2 fun g hg => ?_
    have ho := (span?_eq_some_iff.1 hg).1
    rw [h] at ho
    cases ho
  have hpresent : ∀ i, m.captures.present i = false := fun i => by rw [Captures.present, hspan]; rfl
  have hget : ∀ i, m.captures.get? i = none := fun i => by rw [Captures.get?, hspan]; rfl
  refine ⟨h, hpresent, hget, fun name i hi => ?_, fun name hn => ?_⟩
  · have hindex : m.captures.indexOf name = .ok i := by
      rw [Captures.indexOf, show m.captures.pattern.names.get? name = some i from hi]
    refine ⟨?_, ?_, ?_⟩
    · rw [namedPresent, Captures.namedPresent, hindex, Except.map, hpresent]
    · rw [named?, Captures.named?, hindex, Except.map, hget]
    · rw [namedText?, Captures.namedText?, hindex]
      show m.captures.text? i = _
      rw [Captures.text?, hget]
  · have hindex : m.captures.indexOf name = .error (.notFound name) := by
      rw [Captures.indexOf, show m.captures.pattern.names.get? name = none from hn]
    refine ⟨?_, ?_, ?_⟩
    · rw [namedPresent, Captures.namedPresent, hindex, Except.map]
    · rw [named?, Captures.named?, hindex, Except.map]
    · rw [namedText?, Captures.namedText?, hindex]

/-- A scan comes to no other attempt behind one that fails, and none before it has failed. -/
theorem Visits.of_failure (hv : Visits s f m pos hits n q)
    (hf : Code.IsFailure (n.answer (s.tail q) f).1) (hv' : Visits s f m pos hits' n' q') :
    (hits'.length < hits.length ∧ ¬ Code.IsFailure (n'.answer (s.tail q') f).1) ∨
      hits'.length = hits.length ∧ n' = n ∧ s.tail q' = s.tail q := by
  have hfails := exec_eq_error_iff.2 ⟨hf, rfl⟩
  -- whichever of the two comes first has been passed by the other one, so that it has found a hit
  rcases Nat.lt_trichotomy hits'.length hits.length with hlt | heq | hgt
  · refine .inl ⟨hlt, fun hf' => ?_⟩
    have hfails' := exec_eq_error_iff.2 ⟨hf', rfl⟩
    obtain ⟨n₁, q₁, h, hv₁, hh⟩ := hv.earlier hlt
    have hlen := List.length_take_of_le (Nat.le_of_lt hlt)
    obtain ⟨rfl, rfl, -⟩ := hv₁.unique hv' hlen
    rw [found?_of_error hfails'] at hh
    cases hh
  · obtain ⟨rfl, rfl, rfl⟩ := hv'.unique hv heq
    exact .inr ⟨rfl, rfl, rfl⟩
  · obtain ⟨n₁, q₁, h, hv₁, hh⟩ := hv'.earlier hgt
    have hlen := List.length_take_of_le (Nat.le_of_lt hgt)
    obtain ⟨rfl, rfl, -⟩ := hv₁.unique hv hlen
    rw [found?_of_error hfails] at hh
    cases hh

omit [Engine κ] in
theorem map_result_eq_error_iff {α β : Type} {r : Reply κ α} {g : α → β} {e : Error} :
    (r.map g).result = .error e ↔ r.result = .error e := by
  show r.result.map g = _ ↔ _
  cases r.result with
  | error e' => exact ⟨fun h => by cases h; rfl, fun h => by cases h; rfl⟩
  | ok a => exact ⟨nofun, nofun⟩

omit [Engine κ] in
theorem text_result_eq_error {r : Reply κ Bytes} {e : Error} (h : r.text.result = .error e)
    (hne : ∀ u, e ≠ .utf8 u) : r.result = .error e := by
  unfold Reply.text at h
  cases hr : r.result with
  | error e' => rw [hr] at h; cases h; rfl
  | ok out =>
    simp only [hr, Except.bind] at h
    cases ht : Utf8.text out <;> rw [ht] at h <;> cases h
    exact absurd rfl (hne _)

theorem exec_countP (s : Subject) (f : MatchFlags) :
    (m.exec s f).events.countP Event.isAttempt = 1 := by
  rcases m.exec_cases s f with ⟨_, _, -, h⟩ | ⟨-, h⟩ <;> rw [h] <;> rfl

theorem bind_countP (p : Compiled κ) (memory : Option Slots) :
    (m.bind p memory).events.countP Event.isAttempt = 0 := by
  rcases m.bind_cases p memory with ⟨-, h⟩ | ⟨-, -, h⟩ | ⟨_, -, -, h⟩ <;> rw [h] <;> rfl

theorem exec_countP_le (s : Subject) (f : MatchFlags) :
    (m.exec s f).events.countP Event.isAttempt ≤ s.size + 1 := by
  rw [exec_countP]
  exact Nat.le_add_left 1 _

theorem reset_countP_le (p : Compiled κ) (memory : Option Slots) (s : Subject) (f : MatchFlags) :
    (m.reset p s f memory).events.countP Event.isAttempt ≤ s.size + 1 := by
  rcases m.reset_cases p s f memory with ⟨-, h⟩ | ⟨-, h⟩ <;> rw [h]
  · rw [bind_countP]; exact Nat.zero_le _
  · rw [List.countP_append, bind_countP, Nat.zero_add]; exact exec_countP_le s f

/-- All that a scan reports is its attempts. -/
theorem Scans.countP (ht : Scans s f m pos t) :
    t.reply.events.countP Event.isAttempt = t.attempts := by
  induction ht with
  | fail hx | stop hx | last hx => subst hx; rw [Trail.attempts, exec_countP, exec_events_length]
  | more hx hr hh hne ht ih =>
    subst hx
    rw [attempts_cons]
    show List.countP _ (_ ++ _) = _
    rw [List.countP_append, exec_countP, ih, Nat.add_comm]

/-- A scan that fails has made an attempt for each of its hits, and one more. -/
theorem Scans.countP_of_error {e : Error} (ht : Scans s f m pos t) (he : t.reply.result = .error e) :
    t.reply.events.countP Event.isAttempt = t.hits.length + 1 := by
  induction ht with
  | fail hx => subst hx; exact exec_countP _ _
  | stop | last => cases he
  | more hx hr hh hne ht ih =>
    subst hx
    show List.countP _ (_ ++ _) = _
    rw [List.countP_append, exec_countP, ih he, Trail.cons, List.length_cons, Nat.add_comm]

theorem Visits.scan_of_failure (hv : Visits s f m pos hits n q)
    (hf : Code.IsFailure (n.answer (s.tail q) f).1) :
    ∃ t, Scans s f m pos t ∧ t.hits = hits ∧
      t.reply.result = .error (.engine (n.answer (s.tail q) f).1
        (Engine.explain κ (n.answer (s.tail q) f).1)) ∧
      t.reply.matcher = (n.exec (s.tail q) f).matcher ∧
      t.reply.events.countP Event.isAttempt = hits.length + 1 := by
  obtain ⟨t, ht, hhits, hresult, hmatcher⟩ := hv.scans (.fail rfl (exec_eq_error_iff.2 ⟨hf, rfl⟩))
  rw [List.append_nil] at hhits
  exact ⟨t, ht, hhits, hresult, hmatcher, hhits ▸ ht.countP_of_error hresult⟩

theorem Scans.failure_of_error {code : Int} {msg : String} (ht : Scans s f m pos t)
    (he : t.reply.result = .error (.engine code msg)) :
    ∃ n q, Visits s f m pos t.hits n q ∧ Code.IsFailure (n.answer (s.tail q) f).1 := by
  obtain ⟨n, q, hv, hx, -⟩ := ht.error_visit he
  exact ⟨n, q, hv, (exec_eq_error_iff.1 hx).1⟩

theorem Scans.failure_of_copied {b u : Bytes} {r : Reply κ Bytes} {code : Int} {msg : String}
    (ht : Scans s f m pos t) (hr : t.copied b u = some r)
    (he : r.result = .error (.engine code msg)) :
    ∃ c, t.hits.foldlM (Copy.add b u) {} = some c ∧
      ∃ n q, Visits s f m pos t.hits n q ∧ Code.IsFailure (n.answer (s.tail q) f).1 := by
  obtain ⟨c, hc, ⟨e, hx, rfl⟩ | ⟨rest, out, -, -, rfl⟩⟩ := Trail.copied_eq_some_iff.1 hr
  · cases he
    exact ⟨c, hc, ht.failure_of_error hx⟩
  · cases he

omit [Engine κ] in
theorem copied_events {b u : Bytes} {r : Reply κ Bytes} (h : t.copied b u = some r) :
    r.events = t.reply.events := by
  obtain ⟨c, -, ⟨e, -, rfl⟩ | ⟨rest, out, -, -, rfl⟩⟩ := Trail.copied_eq_some_iff.1 h <;> rfl

theorem scan_eq_some_iff_countP : m.scan s f = some t ↔
    Scans s f m 0 t ∧ t.reply.events.countP Event.isAttempt ≤ s.size + 1 := by
  rw [scan_eq_some_iff]
  exact and_congr_right fun ht => by rw [ht.countP]

/-- A run is an operation that ends within the limit on its attempts. -/
theorem run_eq_some_iff {r : Reply κ Answer} : op.run m = some r ↔
    Ends m op r ∧ r.events.countP Event.isAttempt ≤ op.subject.size + 1 := by
  constructor
  · intro h
    cases op with
    | exec s f => cases h; exact ⟨.exec s f, exec_countP_le s f⟩
    | reset p memory s f =>
      cases h
      exact ⟨.reset p memory s f, reset_countP_le p memory s f⟩
    | findIndex s f =>
      cases h; exact ⟨.findIndex s f, exec_countP_le s f⟩
    | extractAll s f =>
      cases h; exact ⟨.extractAll s f, exec_countP_le s f⟩
    | findIter s f =>
      obtain ⟨q, hq, rfl⟩ := Option.map_eq_some_iff.1 h
      obtain ⟨t, ht, rfl⟩ := Option.map_eq_some_iff.1 hq
      obtain ⟨ht, hle⟩ := scan_eq_some_iff_countP.1 ht
      exact ⟨.findIter ht, hle⟩
    | replaceAll s u f =>
      obtain ⟨q, hq, rfl⟩ := Option.map_eq_some_iff.1 h
      obtain ⟨r, hr, rfl⟩ := Option.map_eq_some_iff.1 hq
      rw [replace_eq_bind] at hr
      obtain ⟨t, ht, hr⟩ := Option.bind_eq_some_iff.1 hr
      obtain ⟨ht, hle⟩ := scan_eq_some_iff_countP.1 ht
      exact ⟨.replaceAll ht hr, (copied_events hr).symm ▸ hle⟩
    | replaceAllBytes b u f =>
      obtain ⟨r, hr, rfl⟩ := Option.map_eq_some_iff.1 h
      rw [replaceAllBytes, replace_eq_bind] at hr
      obtain ⟨t, ht, hr⟩ := Option.bind_eq_some_iff.1 hr
      obtain ⟨ht, hle⟩ := scan_eq_some_iff_countP.1 ht
      exact ⟨.replaceAllBytes ht hr, (copied_events hr).symm ▸ hle⟩
  · rintro ⟨h, hle⟩
    cases h with
    | exec | findIndex | extractAll | reset => rfl
    | findIter ht => rw [Op.run, findIter, scan_eq_some_iff_countP.2 ⟨ht, hle⟩]; rfl
    | @replaceAll s u f t r ht hr =>
      have hscan := scan_eq_some_iff_countP.2 ⟨ht, copied_events hr ▸ hle⟩
      have hreplace : m.replace (.text s) (Utf8.ofString u) f = some r := by
        rw [replace_eq_bind, hscan]; exact hr
      rw [Op.run, Matcher.replaceAll, hreplace]; rfl
    | @replaceAllBytes b u f t r ht hr =>
      have hscan := scan_eq_some_iff_countP.2 ⟨ht, copied_events hr ▸ hle⟩
      have hreplace : m.replaceAllBytes b u f = some r := by
        rw [Matcher.replaceAllBytes, replace_eq_bind, hscan]; exact hr
      rw [Op.run, hreplace]; rfl

theorem run_ends {r : Reply κ Answer} (h : op.run m = some r) : Ends m op r := (run_eq_some_iff.1 h).1

theorem Ends.unique {r r' : Reply κ Answer} (h : Ends m op r) (h' : Ends m op r') : r = r' := by
  cases h with
  | exec | findIndex | extractAll | reset => cases h'; rfl
  | findIter ht => cases h' with | findIter ht' => rw [ht.unique ht']
  | replaceAll ht hr =>
    cases h' with
    | replaceAll ht' hr' => cases ht.unique ht'; cases hr.symm.trans hr'; rfl
  | replaceAllBytes ht hr =>
    cases h' with
    | replaceAllBytes ht' hr' => cases ht.unique ht'; cases hr.symm.trans hr'; rfl

theorem Ends.exists_failure {r : Reply κ Answer} {code : Int} {msg : String} (h : Ends m op r)
    (he : r.result = .error (.engine code msg)) :
    ∃ k n s, Tries m op k n s ∧ Code.IsFailure (n.answer s op.flags).1 := by
  cases h with
  | exec s f =>
    exact ⟨0, m, s, .exec s f, (exec_eq_error_iff.1 (map_result_eq_error_iff.1 he)).1⟩
  | findIndex s f =>
    have hx := map_result_eq_error_iff.1 (map_result_eq_error_iff.1 he)
    exact ⟨0, m, s, .findIndex s f, (exec_eq_error_iff.1 hx).1⟩
  | extractAll s f =>
    have hx := map_result_eq_error_iff.1 (map_result_eq_error_iff.1 he)
    exact ⟨0, m, s, .extractAll s f, (exec_eq_error_iff.1 hx).1⟩
  | reset p memory s f =>
    have hx := map_result_eq_error_iff.1 he
    rcases m.reset_cases p s f memory with ⟨-, h⟩ | ⟨hb, h⟩ <;> rw [h] at hx
    · cases hx
    · exact ⟨0, _, s, .reset hb s f, (exec_eq_error_iff.1 hx).1⟩
  | findIter ht =>
    have hx := map_result_eq_error_iff.1 (map_result_eq_error_iff.1 he)
    obtain ⟨n, q, hv, hf⟩ := ht.failure_of_error hx
    exact ⟨_, n, _, .findIter hv, hf⟩
  | replaceAll ht hr =>
    have hx := text_result_eq_error (map_result_eq_error_iff.1 he) nofun
    obtain ⟨c, hc, n, q, hv, hf⟩ := ht.failure_of_copied hr hx
    exact ⟨_, n, _, .replaceAll hv hc, hf⟩
  | replaceAllBytes ht hr =>
    obtain ⟨c, hc, n, q, hv, hf⟩ := ht.failure_of_copied hr (map_result_eq_error_iff.1 he)
    exact ⟨_, n, _, .replaceAllBytes hv hc, hf⟩

theorem Tries.last_of_failure (h : Tries m op k n s) (hf : Code.IsFailure (n.answer s op.flags).1)
    (h' : Tries m op k' n' s') :
    (k' < k ∧ ¬ Code.IsFailure (n'.answer s' op.flags).1) ∨ k' = k ∧ n' = n ∧ s' = s := by
  cases h with
  | exec | findIndex | extractAll | reset => cases h'; exact .inr ⟨rfl, rfl, rfl⟩
  | findIter hv => cases h' with | findIter hv' => exact hv.of_failure hf hv'
  | replaceAll hv hc => cases h' with | replaceAll hv' hc' => exact hv.of_failure hf hv'
  | replaceAllBytes hv hc => cases h' with | replaceAllBytes hv' hc' => exact hv.of_failure hf hv'

theorem Tries.ends_of_failure (h : Tries m op k n s)
    (hf : Code.IsFailure (n.answer s op.flags).1) :
    ∃ r, Ends m op r ∧
      r.result = .error (.engine (n.answer s op.flags).1
        (Engine.explain κ (n.answer s op.flags).1)) ∧
      r.matcher = (n.exec s op.flags).matcher ∧
      r.events.countP Event.isAttempt = k + 1 := by
  have hfails := exec_eq_error_iff.2 ⟨hf, rfl⟩
  cases h with
  | exec s f =>
    exact ⟨_, .exec s f, map_result_eq_error_iff.2 hfails, rfl, exec_countP s f⟩
  | findIndex s f =>
    exact ⟨_, .findIndex s f, map_result_eq_error_iff.2 (map_result_eq_error_iff.2 hfails), rfl,
      exec_countP s f⟩
  | extractAll s f =>
    exact ⟨_, .extractAll s f, map_result_eq_error_iff.2 (map_result_eq_error_iff.2 hfails), rfl,
      exec_countP s f⟩
  | @reset p memory hb s f =>
    refine ⟨_, .reset p memory s f, ?_⟩
    rcases m.reset_cases p s f memory with ⟨hb', -⟩ | ⟨-, h⟩
    · rw [hb] at hb'; cases hb'
    · rw [h]
      refine ⟨map_result_eq_error_iff.2 hfails, rfl, ?_⟩
      show List.countP _ (_ ++ _) = _
      rw [List.countP_append, bind_countP, exec_countP]
  | findIter hv =>
    obtain ⟨t, ht, -, hresult, hmatcher, hcount⟩ := hv.scan_of_failure hf
    exact ⟨_, .findIter ht, map_result_eq_error_iff.2 (map_result_eq_error_iff.2 hresult), hmatcher,
      hcount⟩
  | replaceAll hv hc =>
    obtain ⟨t, ht, rfl, hresult, hmatcher, hcount⟩ := hv.scan_of_failure hf
    have hr := Trail.copied_eq_some_iff.2 ⟨_, hc, .inl ⟨_, hresult, rfl⟩⟩
    exact ⟨_, .replaceAll ht hr, rfl, hmatcher, hcount⟩
  | replaceAllBytes hv hc =>
    obtain ⟨t, ht, rfl, hresult, hmatcher, hcount⟩ := hv.scan_of_failure hf
    have hr := Trail.copied_eq_some_iff.2 ⟨_, hc, .inl ⟨_, hresult, rfl⟩⟩
    exact ⟨_, .replaceAllBytes ht hr, rfl, hmatcher, hcount⟩

theorem Tries.pattern (h : Tries m op k n s) : n.pattern = op.bound m := by
  cases h with
  | exec | findIndex | extractAll => rfl
  | @reset p memory hb =>
    show _ = if m.pattern.isSame p then m.pattern else p
    rcases m.bind_cases p memory with ⟨hs, h⟩ | ⟨-, -, h⟩ | ⟨_, hs, -, h⟩
    · rw [h, if_pos hs]
    · rw [h] at hb; cases hb
    · rw [h, if_neg (by rw [hs]; exact Bool.false_ne_true)]
  | findIter hv | replaceAll hv | replaceAllBytes hv => exact hv.pattern

/-- **Failures of the engine are answers.** Whatever the engine, an operation answers with an error of
the engine if and only if one of its attempts gets a code that is neither a match nor the absence of
one. That attempt is its last and the only one that fails; the error carries the code. The matcher is
bound to the pattern and keeps the subject of that attempt, and there is nothing to be read. -/
theorem engine_error_iff_attempt_fails (m : Matcher κ) (op : Op κ) :
    (∀ r, op.run m = some r ↔
      Ends m op r ∧ r.events.countP Event.isAttempt ≤ op.subject.size + 1) ∧
    (∀ r, Ends m op r → ((∃ code msg, r.result = .error (.engine code msg)) ↔
      ∃ k n s, Tries m op k n s ∧ Code.IsFailure (n.answer s op.flags).1)) ∧
    ∀ k n s, Tries m op k n s → Code.IsFailure (n.answer s op.flags).1 →
      (∀ k' n' s', Tries m op k' n' s' →
        (k' < k ∧ ¬ Code.IsFailure (n'.answer s' op.flags).1) ∨ k' = k ∧ n' = n ∧ s' = s) ∧
      ∃ r, Ends m op r ∧ (∀ r', Ends m op r' → r' = r) ∧
        r.result = .error (.engine (n.answer s op.flags).1
          (Engine.explain κ (n.answer s op.flags).1)) ∧
        r.events.countP Event.isAttempt = k + 1 ∧ r.matcher.Unread ∧ r.matcher.subject = s ∧
        r.matcher.pattern = n.pattern ∧ n.pattern = op.bound m := by
  refine ⟨fun r => run_eq_some_iff, fun r hr => ⟨?_, ?_⟩, ?_⟩
  · rintro ⟨code, msg, he⟩
    exact hr.exists_failure he
  · rintro ⟨k, n, s, ht, hf⟩
    obtain ⟨r', hr', hresult, -⟩ := ht.ends_of_failure hf
    exact hr.unique hr' ▸ ⟨_, _, hresult⟩
  · intro k n s ht hf
    obtain ⟨r, hr, hresult, hmatcher, hcount⟩ := ht.ends_of_failure hf
    obtain ⟨houtcome, hsubject⟩ := exec_of_failure hf
    rw [← hmatcher] at houtcome hsubject
    exact ⟨fun k' n' s' ht' => ht.last_of_failure hf ht', r, hr, fun r' hr' => hr'.unique hr,
      hresult, hcount, unread_of_noAttempt houtcome, hsubject,
      by rw [hmatcher, exec_pattern], ht.pattern⟩

def characters : Compiled Regex.Program := (Compiled.plain? "(*UTF)x*" 0).get (by decide +kernel)

/-- The first attempt matches before a whole character and steps into it, where the second fails. -/
theorem engine_error_inside_character :
    let m : Matcher Regex.Program := { pattern := characters, slots := Array.replicate 1 none }
    let op : Op Regex.Program := .findIter (.bytes [0xc3, 0xa9]) ∅
    let n := (m.exec (.bytes [0xc3, 0xa9]) ∅).matcher
    n.outcome = .matched ∧ n.present 0 = true ∧ Tries m op 1 n (.bytes [0xa9]) ∧
    Code.IsFailure (n.answer (.bytes [0xa9]) ∅).1 ∧
    ∃ r, Ends m op r ∧
      r.result = .error (.engine (-22) "UTF-8 error: isolated byte with 0x80 bit set") ∧
      r.matcher.Unread ∧ r.matcher.subject = .bytes [0xa9] ∧ r.matcher.pattern = characters := by
  intro m op n
  have hv : Visits (.bytes [0xc3, 0xa9]) ∅ m 0 [⟨⟨0, 0⟩, 1⟩] n 1 :=
    .next (by decide +kernel) (by decide) (.here _ _)
  have ht : Tries m op 1 n (.bytes [0xa9]) := .findIter hv
  have hf : Code.IsFailure (n.answer (.bytes [0xa9]) ∅).1 := by decide +kernel
  have hcode : (n.answer (.bytes [0xa9]) ∅).1 = -22 := by decide +kernel
  obtain ⟨-, r, hr, -, hresult, -, hunread, hsubject, hpattern, hbound⟩ :=
    (engine_error_iff_attempt_fails m op).2.2 1 n _ ht hf
  have hflags : op.flags = ∅ := rfl
  rw [hflags, hcode] at hresult
  exact ⟨by decide +kernel, by decide +kernel, ht, hf, r, hr, hresult, hunread, hsubject,
    hpattern.trans hbound⟩

end Matcher

end Rematch
