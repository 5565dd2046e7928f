import Rematch.Proofs.ScanRun

/-! # Where a scan makes its attempts

`Visits` is a scan on its way, from where it started to where it makes its next attempt. Nothing in it
says that the scan ends: one that does has come to its last attempt (`Scans.error_visit`), and goes on
from each place that it comes to (`Scans.rest`). A scan each of whose attempts lowers a measure ends
(`exists_scans_of_measure`). -/

namespace Rematch.Matcher
variable {κ : Type} [Engine κ] {subject : Subject} {flags : MatchFlags} {m n n' : Matcher κ}
variable {pos q q' : Nat} {hits hits' : List Hit} {h : Hit} {t u : Trail κ}

/-- The hit of an attempt at an offset of the subject, if it finds one. -/
def found? (m : Matcher κ) (subject : Subject) (flags : MatchFlags) (pos : Nat) : Option Hit :=
  (m.exec (subject.tail pos) flags).matcher.hit? subject pos

/-- Where a scan goes on behind these hits: where it has started, if there are none. -/
def resume (pos : Nat) (hits : List Hit) : Nat := (hits.getLast?.map Hit.next).getD pos

omit [Engine κ] in
@[simp] theorem resume_cons (pos : Nat) (h : Hit) (hits : List Hit) :
    resume pos (h :: hits) = resume h.next hits := by
  simp only [resume, List.getLast?_cons, Option.map_some, Option.getD_some]
  cases hits.getLast? <;> rfl

omit [Engine κ] in
theorem resume_le {n : Nat} (hpos : pos ≤ n) (hits : List Hit) (hle : ∀ h ∈ hits, h.next ≤ n) :
    resume pos hits ≤ n := by
  unfold resume
  cases hl : hits.getLast? with
  | none => exact hpos
  | some h => exact hle h (List.mem_of_getLast? hl)

/-- The scan of the subject from `pos` on comes to an attempt at `q` with the matcher `n`, with these
hits behind it. -/
inductive Visits (subject : Subject) (flags : MatchFlags) :
    Matcher κ → Nat → List Hit → Matcher κ → Nat → Prop
  | here (m : Matcher κ) (pos : Nat) : Visits subject flags m pos [] m pos
  | next {m n : Matcher κ} {pos q : Nat} {h : Hit} {hits : List Hit}
      (hh : m.found? subject flags pos = some h) (he : h.span.start ≠ subject.size)
      (hv : Visits subject flags (m.exec (subject.tail pos) flags).matcher h.next hits n q) :
      Visits subject flags m pos (h :: hits) n q

omit [Engine κ] in
theorem hit?_eq_some (hh : m.hit? subject pos = some h) :
    m.outcome = .matched ∧ ∃ g, m.captures.span? 0 = some g ∧ h.span = g.shift pos ∧
      h.next = if h.span.isEmpty then h.span.stop + subject.unitAt h.span.stop else h.span.stop := by
  unfold hit? at hh
  split at hh
  · next ho =>
    obtain ⟨g, hg, rfl⟩ := Option.map_eq_some_iff.1 hh
    exact ⟨ho, g.span, (group?_eq_some_iff.1 hg).1, rfl, rfl⟩
  · cases hh

/-- A hit is the span that the engine reports, seen from the start of the subject. -/
theorem found?_reports {P : Span → Prop}
    (hP : Engine.Reports m.pattern.code (subject.toBytes.drop pos) flags P)
    (hh : m.found? subject flags pos = some h) :
    ∃ g, P g ∧ h.span = g.shift pos ∧
      h.next = if h.span.isEmpty then h.span.stop + subject.unitAt h.span.stop else h.span.stop := by
  obtain ⟨ho, g, hg, hspan, hnext⟩ := hit?_eq_some hh
  refine ⟨g, ?_, hspan, hnext⟩
  obtain ⟨-, hpairs, hslot⟩ := span?_eq_some_iff.1 hg
  rw [exec_slots] at hslot
  rcases m.exec_cases (subject.tail pos) flags with ⟨o, k, hk, hx⟩ | ⟨-, hx⟩
  · rw [hx] at ho hpairs
    cases ho
    change 0 < k at hpairs
    have hcode := (classify_matched hk).2
    rw [answer, Subject.toBytes_tail] at hcode hslot
    exact hP m.slots g (by omega) hslot
  · rw [hx] at ho; cases ho

theorem exec_of_found? (hh : m.found? subject flags pos = some h) :
    (m.exec (subject.tail pos) flags).result = .ok true := by
  have ho := (hit?_eq_some hh).1
  rcases m.exec_cases (subject.tail pos) flags with ⟨o, k, -, hx⟩ | ⟨-, hx⟩ <;> rw [hx] at ho ⊢
  · cases ho; rfl
  · cases ho

theorem found?_of_error {e : Error} (hr : (m.exec (subject.tail pos) flags).result = .error e) :
    m.found? subject flags pos = none := by
  cases hh : m.found? subject flags pos with
  | none => rfl
  | some h => rw [exec_of_found? hh] at hr; cases hr

namespace Visits

@[simp] theorem pattern (hv : Visits subject flags m pos hits n q) : n.pattern = m.pattern := by
  induction hv with
  | here m pos => rfl
  | next hh he hv ih => rw [ih, exec_pattern]

theorem unique (hv : Visits subject flags m pos hits n q)
    (hv' : Visits subject flags m pos hits' n' q') (hlen : hits.length = hits'.length) :
    n = n' ∧ q = q' ∧ hits = hits' := by
  induction hv generalizing hits' with
  | here m pos =>
    cases hv' with
    | here => exact ⟨rfl, rfl, rfl⟩
    | next => cases hlen
  | next hh he hv ih =>
    cases hv' with
    | here => cases hlen
    | next hh' he' hv' =>
      cases hh.symm.trans hh'
      obtain ⟨rfl, rfl, rfl⟩ := ih hv' (Nat.succ.inj hlen)
      exact ⟨rfl, rfl, rfl⟩

/-- Before an attempt came one for each of the hits behind it. -/
theorem earlier (hv : Visits subject flags m pos hits n q) {k : Nat} (hk : k < hits.length) :
    ∃ n' q' h, Visits subject flags m pos (hits.take k) n' q' ∧ n'.found? subject flags q' = some h := by
  induction hv generalizing k with
  | here => cases hk
  | @next m n pos q h hits hh he hv ih =>
    cases k with
    | zero => exact ⟨m, pos, h, .here m pos, hh⟩
    | succ k =>
      obtain ⟨n', q', h', hv', hh'⟩ := ih (Nat.lt_of_succ_lt_succ hk)
      exact ⟨n', q', h', .next hh he hv', hh'⟩

/-- What holds of the start and of where a hit leads from where it held, holds wherever a scan comes. -/
theorem invariant {I : Nat → Prop} (hv : Visits subject flags m pos hits n q) (hpos : I pos)
    (step : ∀ (n : Matcher κ) q h, n.pattern = m.pattern → I q →
      n.found? subject flags q = some h → h.span.start ≠ subject.size → I h.next) : I q := by
  induction hv with
  | here => exact hpos
  | next hh he hv ih =>
    refine ih (step _ _ _ rfl hpos hh he) fun n q h hp => step n q h ?_
    rw [hp, exec_pattern]

end Visits

namespace Scans

theorem unique (ht : Scans subject flags m pos t) (hu : Scans subject flags m pos u) : t = u := by
  have hleft := scanFrom_eq_some_iff.2 ⟨ht, Nat.le_max_left t.attempts u.attempts⟩
  have hright := scanFrom_eq_some_iff.2 ⟨hu, Nat.le_max_right t.attempts u.attempts⟩
  exact Option.some.inj (hleft.symm.trans hright)

/-- Behind a hit that does not end it, a scan goes on where the hit leads. -/
theorem of_found? (ht : Scans subject flags m pos t) (hh : m.found? subject flags pos = some h)
    (he : h.span.start ≠ subject.size) :
    ∃ u, Scans subject flags (m.exec (subject.tail pos) flags).matcher h.next u ∧
      t = u.cons h (m.exec (subject.tail pos) flags).events := by
  cases ht with
  | fail hx hr => subst hx; rw [exec_of_found? hh] at hr; cases hr
  | stop hx hr hs => subst hx; cases hs.symm.trans hh
  | last hx hr hs hend => subst hx; cases hs.symm.trans hh; exact absurd hend he
  | more hx hr hs hne hu => subst hx; cases hs.symm.trans hh; exact ⟨_, hu, rfl⟩

theorem rest (ht : Scans subject flags m pos t) (hv : Visits subject flags m pos hits n q) :
    ∃ u, Scans subject flags n q u ∧ t.hits = hits ++ u.hits ∧ t.reply.result = u.reply.result ∧
      t.reply.matcher = u.reply.matcher := by
  induction hv generalizing t with
  | here => exact ⟨t, ht, rfl, rfl, rfl⟩
  | next hh he hv ih =>
    obtain ⟨v, hrun, rfl⟩ := ht.of_found? hh he
    obtain ⟨u, hu, hhits, hresult, hmatcher⟩ := ih hrun
    exact ⟨u, hu, by rw [Trail.cons, hhits, List.cons_append], hresult, hmatcher⟩

/-- A hit is what an attempt has found where the hits before it lead. -/
theorem visit_of_append {before after : List Hit} (ht : Scans subject flags m pos t)
    (hs : t.hits = before ++ h :: after) :
    ∃ n, Visits subject flags m pos before n (resume pos before) ∧
      n.found? subject flags (resume pos before) = some h := by
  induction ht generalizing before with
  | fail | stop => exact absurd hs (by simp)
  | @last m pos r b h' hx hr hh he =>
    subst hx
    cases before with
    | nil => cases hs; exact ⟨m, .here m pos, hh⟩
    | cons _ before => exact absurd hs (by simp)
  | @more m pos r b h' t hx hr hh he ht ih =>
    subst hx
    cases before with
    | nil => cases hs; exact ⟨m, .here m pos, hh⟩
    | cons _ before =>
      obtain ⟨rfl, htail⟩ := List.cons.inj hs
      obtain ⟨n, hv, hfound⟩ := ih htail
      rw [resume_cons]
      exact ⟨n, .next hh he hv, hfound⟩

theorem visit_of_mem (ht : Scans subject flags m pos t) (hmem : h ∈ t.hits) :
    ∃ hits n q, Visits subject flags m pos hits n q ∧ n.found? subject flags q = some h := by
  obtain ⟨before, after, hs⟩ := List.append_of_mem hmem
  obtain ⟨n, hv, hfound⟩ := ht.visit_of_append hs
  exact ⟨before, n, _, hv, hfound⟩

theorem mem_of_visit (ht : Scans subject flags m pos t) (hv : Visits subject flags m pos hits n q)
    (hh : n.found? subject flags q = some h) : h ∈ t.hits := by
  obtain ⟨u, hu, hhits, -, -⟩ := ht.rest hv
  rw [hhits]
  refine List.mem_append_right hits ?_
  cases hu with
  | fail hx hr => subst hx; rw [exec_of_found? hh] at hr; cases hr
  | stop hx hr hs => subst hx; cases hs.symm.trans hh
  | last hx hr hs he => subst hx; cases hs.symm.trans hh; exact List.mem_singleton_self h
  | more hx hr hs he hu => subst hx; cases hs.symm.trans hh; exact List.mem_cons_self

/-- The error of a scan is that of an attempt that it came to, and its last. -/
theorem error_visit {e : Error} (ht : Scans subject flags m pos t) (hr : t.reply.result = .error e) :
    ∃ n q, Visits subject flags m pos t.hits n q ∧
      (n.exec (subject.tail q) flags).result = .error e ∧
      t.reply.matcher = (n.exec (subject.tail q) flags).matcher := by
  induction ht with
  | @fail m pos r e' hx hr' => subst hx; cases hr; exact ⟨m, pos, .here m pos, hr', rfl⟩
  | stop | last => cases hr
  | more hx hr' hh he ht ih =>
    subst hx
    obtain ⟨n, q, hv, herror, hmatcher⟩ := ih hr
    exact ⟨n, q, .next hh he hv, herror, hmatcher⟩

end Scans

theorem Visits.scans (hv : Visits subject flags m pos hits n q) (hu : Scans subject flags n q u) :
    ∃ t, Scans subject flags m pos t ∧ t.hits = hits ++ u.hits ∧
      t.reply.result = u.reply.result ∧ t.reply.matcher = u.reply.matcher := by
  induction hv with
  | here => exact ⟨u, hu, rfl, rfl, rfl⟩
  | next hh he hv ih =>
    obtain ⟨t, ht, hhits, hresult, hmatcher⟩ := ih hu
    exact ⟨_, .more rfl (exec_of_found? hh) hh he ht,
      by rw [Trail.cons, hhits, List.cons_append], hresult, hmatcher⟩

/-- A scan ends if every hit that does not end it lowers some measure of the place. -/
theorem exists_scans_of_measure (μ : Nat → Nat)
    (hμ : ∀ hits n q h, Visits subject flags m pos hits n q → n.found? subject flags q = some h →
      h.span.start ≠ subject.size → μ h.next < μ q) :
    ∃ t, Scans subject flags m pos t ∧ t.attempts ≤ μ pos + 1 := by
  generalize hk : μ pos = k
  induction k using Nat.strongRecOn generalizing m pos with
  | ind k ih =>
    have hlen : (m.exec (subject.tail pos) flags).events.length ≤ k + 1 := by
      rw [exec_events_length]; omega
    cases hr : (m.exec (subject.tail pos) flags).result with
    | error e => exact ⟨_, .fail rfl hr, hlen⟩
    | ok b =>
      cases hh : m.found? subject flags pos with
      | none => exact ⟨_, .stop rfl hr hh, hlen⟩
      | some h =>
        by_cases he : h.span.start = subject.size
        · exact ⟨_, .last rfl hr hh he, hlen⟩
        · have hlt := hμ [] m pos h (.here m pos) hh he
          obtain ⟨t, ht, hn⟩ := ih (μ h.next) (hk ▸ hlt)
            (fun hits n q h' hv => hμ (h :: hits) n q h' (.next hh he hv)) rfl
          exact ⟨_, .more rfl hr hh he ht, by rw [attempts_cons]; omega⟩

end Rematch.Matcher
