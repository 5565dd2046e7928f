import Rematch.Proofs.Attempt
import Rematch.Proofs.Tail

/-! # Runs of a scan

`Scans` is the loop of a scan without a limit: it relates the place where a scan starts to the trail
that it leaves when it ends. `scanFrom_eq_some_iff` says that a limit only cuts longer runs off, so
that what is proved of runs holds of scans with any limit. -/

namespace Rematch

/-- How many attempts a scan has made. Each of them reports once. -/
def Trail.attempts {κ : Type} (t : Trail κ) : Nat := t.reply.events.length

namespace Matcher
variable {κ : Type} [Engine κ] {subject : Subject} {flags : MatchFlags} {m n : Matcher κ} {pos : Nat}

/-- The scan of the subject from `pos` on ends and leaves this trail. -/
inductive Scans (subject : Subject) (flags : MatchFlags) : Matcher κ → Nat → Trail κ → Prop
  | fail {m : Matcher κ} {pos : Nat} {r : Reply κ Bool} {e : Error}
      (hx : m.exec (subject.tail pos) flags = r) (hr : r.result = .error e) :
      Scans subject flags m pos ⟨[], .error e, r.matcher, r.events⟩
  | stop {m : Matcher κ} {pos : Nat} {r : Reply κ Bool} {b : Bool}
      (hx : m.exec (subject.tail pos) flags = r) (hr : r.result = .ok b)
      (hh : r.matcher.hit? subject pos = none) :
      Scans subject flags m pos ⟨[], .ok pos, r.matcher, r.events⟩
  | last {m : Matcher κ} {pos : Nat} {r : Reply κ Bool} {b : Bool} {h : Hit}
      (hx : m.exec (subject.tail pos) flags = r) (hr : r.result = .ok b)
      (hh : r.matcher.hit? subject pos = some h) (he : h.span.start = subject.size) :
      Scans subject flags m pos ⟨[h], .ok h.next, r.matcher, r.events⟩
  | more {m : Matcher κ} {pos : Nat} {r : Reply κ Bool} {b : Bool} {h : Hit} {t : Trail κ}
      (hx : m.exec (subject.tail pos) flags = r) (hr : r.result = .ok b)
      (hh : r.matcher.hit? subject pos = some h) (he : h.span.start ≠ subject.size)
      (ht : Scans subject flags r.matcher h.next t) :
      Scans subject flags m pos (t.cons h r.events)

theorem attempts_cons (h : Hit) (m : Matcher κ) (t : Trail κ) :
    (t.cons h (m.exec subject flags).events).attempts = t.attempts + 1 := by
  simp [Trail.attempts, Trail.cons, exec_events_length, Nat.add_comm]

theorem Scans.one_le_attempts {t : Trail κ} (h : Scans subject flags m pos t) : 1 ≤ t.attempts := by
  cases h with
  | fail hx hr => rw [Trail.attempts, ← hx]; exact Nat.le_of_eq (exec_events_length _ _).symm
  | stop hx hr hh => rw [Trail.attempts, ← hx]; exact Nat.le_of_eq (exec_events_length _ _).symm
  | last hx hr hh he => rw [Trail.attempts, ← hx]; exact Nat.le_of_eq (exec_events_length _ _).symm
  | more hx hr hh he ht => rw [← hx, attempts_cons]; omega

theorem Scans.of_scanFrom {fuel : Nat} {t : Trail κ} (hs : scanFrom subject flags fuel m pos = some t) :
    Scans subject flags m pos t ∧ t.attempts ≤ fuel := by
  induction fuel generalizing m pos t with
  | zero => cases hs
  | succ fuel ih =>
    have hlen := exec_events_length (m := m) (subject.tail pos) flags
    rw [scanFrom] at hs
    generalize hx : m.exec (subject.tail pos) flags = r at hs hlen
    split at hs
    · next e hr =>
      cases hs
      exact ⟨.fail hx hr, by simp [Trail.attempts, hlen]⟩
    next b hr =>
    split at hs
    · next hh =>
      cases hs
      exact ⟨.stop hx hr hh, by simp [Trail.attempts, hlen]⟩
    next h hh =>
    split at hs
    · next he =>
      cases hs
      exact ⟨.last hx hr hh he, by simp [Trail.attempts, hlen]⟩
    · next he =>
      obtain ⟨t', ht', rfl⟩ := Option.map_eq_some_iff.1 hs
      obtain ⟨hrun, hle⟩ := ih ht'
      refine ⟨.more hx hr hh he hrun, ?_⟩
      rw [← hx, attempts_cons]
      exact Nat.succ_le_succ hle

theorem Scans.scanFrom_eq_some {fuel : Nat} {t : Trail κ} (h : Scans subject flags m pos t)
    (hle : t.attempts ≤ fuel) : scanFrom subject flags fuel m pos = some t := by
  -- every run makes an attempt, so that there is a limit left
  obtain ⟨fuel, rfl⟩ := Nat.exists_eq_add_of_le' (Nat.le_trans h.one_le_attempts hle)
  induction h generalizing fuel with
  | fail hx hr => simp [scanFrom, hx, hr]
  | stop hx hr hh => simp [scanFrom, hx, hr, hh]
  | last hx hr hh he => simp [scanFrom, hx, hr, hh, he]
  | more hx hr hh he ht ih =>
    rw [← hx, attempts_cons] at hle
    have hleft := Nat.le_of_succ_le_succ hle
    obtain ⟨left, rfl⟩ := Nat.exists_eq_add_of_le' (Nat.le_trans ht.one_le_attempts hleft)
    rw [scanFrom]
    simp [hx, hr, hh, he, ih left hleft]

/-- A scan with a limit finds the run of the loop that takes no more attempts. -/
theorem scanFrom_eq_some_iff {fuel : Nat} {t : Trail κ} :
    scanFrom subject flags fuel m pos = some t ↔ Scans subject flags m pos t ∧ t.attempts ≤ fuel :=
  ⟨Scans.of_scanFrom, fun h => h.1.scanFrom_eq_some h.2⟩

theorem scan_eq_some_iff {t : Trail κ} :
    m.scan subject flags = some t ↔ Scans subject flags m 0 t ∧ t.attempts ≤ subject.size + 1 :=
  scanFrom_eq_some_iff

theorem findIter_of_scan {t : Trail κ} (h : m.scan subject flags = some t) :
    m.findIter subject flags = some (t.reply.map fun _ => t.hits.map Hit.span) := by
  rw [findIter, h]; rfl

end Matcher

end Rematch
