import Mathlib.Logic.Relation
import Rematch.Proofs.ScanVisits

/-! # Operations on a matcher and the states they lead to

`Op` lists what can be done with a matcher, `Op.run` does it. Every operation is a sequence of moves
(`moves_run`), so that what a new matcher has and a move keeps holds in every state that is
`Reachable`, also behind operations that fail. -/

namespace Rematch
open Relation

/-- An operation on a matcher with what it is given. For a change of pattern that is also the buffer
that there is memory for. -/
inductive Op (κ : Type) where
  | exec (subject : Subject) (flags : MatchFlags)
  | reset (pattern : Compiled κ) (memory : Option Slots) (subject : Subject) (flags : MatchFlags)
  | findIndex (subject : Subject) (flags : MatchFlags)
  | extractAll (subject : Subject) (flags : MatchFlags)
  | findIter (subject : Subject) (flags : MatchFlags)
  | replaceAll (subject replacement : String) (flags : MatchFlags)
  | replaceAllBytes (subject replacement : Bytes) (flags : MatchFlags)

inductive Answer where
  | truth (b : Bool)
  | span (s : Option Span)
  | groups (g : Option (List (Option Match)))
  | spans (s : List Span)
  | text (s : String)
  | bytes (b : Bytes)
  deriving DecidableEq, Repr

namespace Op
variable {κ : Type} [Engine κ]

/-- Does the operation on a matcher; nothing if it does not end. -/
def run (m : Matcher κ) : Op κ → Option (Reply κ Answer)
  | exec subject flags => some ((m.exec subject flags).map .truth)
  | reset pattern memory subject flags =>
    some ((m.reset pattern subject flags memory).map .truth)
  | findIndex subject flags => some ((m.findIndex subject flags).map .span)
  | extractAll subject flags => some ((m.extractAll subject flags).map .groups)
  | findIter subject flags => (m.findIter subject flags).map (·.map .spans)
  | replaceAll subject replacement flags =>
    (m.replaceAll subject replacement flags).map (·.map .text)
  | replaceAllBytes subject replacement flags =>
    (m.replaceAllBytes subject replacement flags).map (·.map .bytes)

/-- The operation brings in no pattern but such of which `good` holds, with what is allocated for it.
-/
def Takes (good : κ → Prop) : Op κ → Prop
  | reset pattern memory _ _ => good pattern.code ∧ Matcher.Allocation pattern memory
  | _ => True

end Op

namespace Trail
variable {κ : Type} {t : Trail κ} {b replacement : Bytes} {r : Reply κ Bytes}

/-- What a replacement answers when its scan has ended; nothing if a slice is out of bounds. -/
def copied (t : Trail κ) (b replacement : Bytes) : Option (Reply κ Bytes) := do
  let c ← t.hits.foldlM (Copy.add b replacement) {}
  match t.reply.result with
  | .error e => some ⟨.error e, t.reply.matcher, t.reply.events⟩
  | .ok rest =>
    let out ← c.finish b rest
    some ⟨.ok out, t.reply.matcher, t.reply.events⟩

theorem copied_eq_some_iff : t.copied b replacement = some r ↔
    ∃ c, t.hits.foldlM (Copy.add b replacement) {} = some c ∧
      ((∃ e, t.reply.result = .error e ∧ r = ⟨.error e, t.reply.matcher, t.reply.events⟩) ∨
        ∃ rest out, t.reply.result = .ok rest ∧ c.finish b rest = some out ∧
          r = ⟨.ok out, t.reply.matcher, t.reply.events⟩) := by
  unfold copied
  rw [Option.bind_eq_bind, Option.bind_eq_some_iff]
  refine exists_congr fun c => and_congr_right fun _ => ?_
  cases t.reply.result with
  | error e =>
    constructor
    · rintro ⟨⟩
      exact .inl ⟨e, rfl, rfl⟩
    · rintro (⟨e, ⟨⟩, rfl⟩ | ⟨rest, out, ⟨⟩, -⟩)
      rfl
  | ok rest =>
    rw [Option.bind_eq_bind, Option.bind_eq_some_iff]
    constructor
    · rintro ⟨out, hout, ⟨⟩⟩
      exact .inr ⟨rest, out, rfl, hout, rfl⟩
    · rintro (⟨e, ⟨⟩, -⟩ | ⟨rest, out, ⟨⟩, hout, rfl⟩)
      exact ⟨out, hout, rfl⟩

end Trail

namespace Matcher
variable {κ : Type} [Engine κ] {good : κ → Prop} {m n : Matcher κ}

/-- The states that a new matcher comes into by operations, whether they succeed or fail. -/
inductive Reachable (good : κ → Prop) : Matcher κ → Prop
  | new {p : Compiled κ} {memory : Option Slots} {m : Matcher κ} (hp : good p.code)
      (hm : Allocation p memory) (h : (new p memory).result = .ok m) : Reachable good m
  | step {m : Matcher κ} {op : Op κ} {r : Reply κ Answer} (hm : Reachable good m)
      (ho : op.Takes good) (h : op.run m = some r) : Reachable good r.matcher

theorem Reachable.exec (h : Reachable good m) (subject : Subject) (flags : MatchFlags) :
    Reachable good (m.exec subject flags).matcher := by
  have ho : (Op.exec subject flags : Op κ).Takes good := trivial
  exact .step h ho rfl

theorem Reachable.reset (h : Reachable good m) {p : Compiled κ} {memory : Option Slots}
    (hp : good p.code) (hm : Allocation p memory) (subject : Subject) (flags : MatchFlags) :
    Reachable good (m.reset p subject flags memory).matcher := by
  have ho : (Op.reset p memory subject flags).Takes good := ⟨hp, hm⟩
  exact .step h ho rfl

theorem moves_exec (subject : Subject) (flags : MatchFlags) :
    ReflTransGen (Move good) m (m.exec subject flags).matcher :=
  .single (.exec m subject flags)

theorem moves_reset {p : Compiled κ} {memory : Option Slots} (hp : good p.code)
    (hm : Allocation p memory) (subject : Subject) (flags : MatchFlags) :
    ReflTransGen (Move good) m (m.reset p subject flags memory).matcher := by
  have hb : Move good m (m.bind p memory).matcher := .bind m p memory hp hm
  rcases m.reset_cases p subject flags memory with ⟨-, h⟩ | ⟨-, h⟩ <;> rw [h]
  · exact .single hb
  · exact .tail (.single hb) (.exec _ subject flags)

theorem Scans.moves {subject : Subject} {flags : MatchFlags} {pos : Nat} {t : Trail κ}
    (h : Scans subject flags m pos t) : ReflTransGen (Move good) m t.reply.matcher := by
  induction h with
  | fail hx hr => rw [← hx]; exact moves_exec _ _
  | stop hx hr hh => rw [← hx]; exact moves_exec _ _
  | last hx hr hh he => rw [← hx]; exact moves_exec _ _
  | more hx hr hh he ht ih => rw [← hx] at ih; exact (moves_exec _ _).trans ih

theorem replace_eq_bind (subject : Subject) (replacement : Bytes) (flags : MatchFlags) :
    m.replace subject replacement flags =
      (m.scan subject flags).bind fun t => t.copied subject.toBytes replacement := rfl

theorem replace_scans {subject : Subject} {replacement : Bytes} {flags : MatchFlags}
    {r : Reply κ Bytes} (h : m.replace subject replacement flags = some r) :
    ∃ t, Scans subject flags m 0 t ∧ r.matcher = t.reply.matcher ∧ r.events = t.reply.events := by
  rw [replace_eq_bind] at h
  obtain ⟨t, ht, h⟩ := Option.bind_eq_some_iff.1 h
  refine ⟨t, (scan_eq_some_iff.1 ht).1, ?_⟩
  obtain ⟨c, -, ⟨e, -, rfl⟩ | ⟨rest, out, -, -, rfl⟩⟩ := Trail.copied_eq_some_iff.1 h <;>
    exact ⟨rfl, rfl⟩

theorem moves_run {op : Op κ} {r : Reply κ Answer} (ho : op.Takes good) (h : op.run m = some r) :
    ReflTransGen (Move good) m r.matcher := by
  cases op with
  | exec subject flags => cases h; exact moves_exec subject flags
  | reset p memory subject flags => cases h; exact moves_reset ho.1 ho.2 subject flags
  | findIndex subject flags => cases h; exact moves_exec subject flags
  | extractAll subject flags => cases h; exact moves_exec subject flags
  | findIter subject flags =>
    obtain ⟨q, hq, rfl⟩ := Option.map_eq_some_iff.1 h
    obtain ⟨t, ht, rfl⟩ := Option.map_eq_some_iff.1 hq
    exact (scan_eq_some_iff.1 ht).1.moves
  | replaceAll subject replacement flags =>
    obtain ⟨q, hq, rfl⟩ := Option.map_eq_some_iff.1 h
    obtain ⟨s, hs, rfl⟩ := Option.map_eq_some_iff.1 hq
    obtain ⟨t, ht, hm, -⟩ := replace_scans hs
    show ReflTransGen (Move good) m s.matcher
    rw [hm]; exact ht.moves
  | replaceAllBytes subject replacement flags =>
    obtain ⟨s, hs, rfl⟩ := Option.map_eq_some_iff.1 h
    obtain ⟨t, ht, hm, -⟩ := replace_scans hs
    show ReflTransGen (Move good) m s.matcher
    rw [hm]; exact ht.moves

theorem new_eq_ok {p : Compiled κ} {memory : Option Slots} (h : (new p memory).result = .ok m) :
    ∃ slots, memory = some slots ∧ m = { pattern := p, slots } := by
  cases memory with
  | none => cases h
  | some slots => cases h; exact ⟨slots, rfl, rfl⟩

theorem moves_invariant {I : Matcher κ → Prop} (move : ∀ m n, I m → Move good m n → I n)
    (h : ReflTransGen (Move good) m n) (hm : I m) : I n := by
  induction h with
  | refl => exact hm
  | tail _ hmove ih => exact move _ _ ih hmove

/-- What every new matcher has and every move keeps holds in all reachable states. -/
theorem Reachable.invariant {I : Matcher κ → Prop}
    (new : ∀ p slots, good p.code → Allocation p (some slots) → I { pattern := p, slots })
    (move : ∀ m n, I m → Move good m n → I n) (h : Reachable good m) : I m := by
  induction h with
  | @new p memory m hp hm h =>
    obtain ⟨slots, rfl, rfl⟩ := new_eq_ok h
    exact new p slots hp hm
  | step _ ho h ih => exact moves_invariant move (moves_run ho h) ih

/-- A matcher is bound to a good pattern and has a buffer that fits it. -/
structure Fitted (good : κ → Prop) (m : Matcher κ) : Prop where
  good : good m.pattern.code
  fits : Engine.Fits m.pattern.code m.slots

section buffered
variable (hbuffered : ∀ c, good c → Engine.Buffered c)
include hbuffered

theorem Fitted.new {p : Compiled κ} {slots : Slots} (hp : good p.code)
    (hm : Allocation p (some slots)) : Fitted good { pattern := p, slots } :=
  ⟨hp, hm.fits (hbuffered _ hp) rfl⟩

theorem Fitted.bind (h : Fitted good m) {p : Compiled κ} {memory : Option Slots} (hp : good p.code)
    (hm : Allocation p memory) : Fitted good (m.bind p memory).matcher := by
  rcases m.bind_cases p memory with ⟨-, hb⟩ | ⟨-, -, hb⟩ | ⟨slots, -, hs, hb⟩ <;> rw [hb]
  · exact ⟨h.good, h.fits⟩
  · exact ⟨h.good, h.fits⟩
  · exact ⟨hp, hm.fits (hbuffered _ hp) hs⟩

theorem Fitted.exec (h : Fitted good m) (subject : Subject) (flags : MatchFlags) :
    Fitted good (m.exec subject flags).matcher := by
  refine ⟨by rw [exec_pattern]; exact h.good, ?_⟩
  rw [exec_pattern, exec_slots]
  exact ((hbuffered _ h.good).size _ _ _).trans h.fits

theorem Visits.fitted {subject : Subject} {flags : MatchFlags} {pos q : Nat} {hits : List Hit}
    (hv : Visits subject flags m pos hits n q) (h : Fitted good m) : Fitted good n := by
  induction hv with
  | here => exact h
  | next hh he hv ih => exact ih (h.exec hbuffered _ _)

theorem Reachable.fitted (h : Reachable good m) : Fitted good m := by
  refine h.invariant (fun p slots hp hs => .new hbuffered hp hs) ?_
  intro m n hm hmove
  cases hmove with
  | bind p memory hp hs => exact hm.bind hbuffered hp hs
  | exec subject flags => exact hm.exec hbuffered subject flags

end buffered

end Matcher

end Rematch
