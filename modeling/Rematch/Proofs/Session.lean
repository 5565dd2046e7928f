import Rematch.Proofs.Records

/-! # Sessions

In a session matchers are made and used in any order, and what they report is written down. Which
pattern each of them is bound to is known from the commands alone (`bound`): so the log is known from
them and from the answers of the engine, command by command (`log_follows_commands`). -/

namespace Rematch

/-- A step of a session. -/
inductive Command (κ : Type) where
  /-- Makes a matcher, with the buffer that there is memory for. -/
  | new (pattern : Compiled κ) (memory : Option Slots)
  /-- Does an operation on one of the matchers made so far. -/
  | use (i : Nat) (op : Op κ)

/-- The matchers in the order in which they were made, and all that was reported. -/
structure Session (κ : Type) where
  matchers : List (Matcher κ) := []
  log : List Event := []

variable {κ : Type} [Engine κ] {m : Matcher κ} {op : Op κ}

/-- The pattern that is bound behind an operation, if `q` was before. -/
def Op.binds (q : Compiled κ) : Op κ → Compiled κ
  | reset p _ _ _ => if q.isSame p then q else p
  | _ => q

omit [Engine κ] in
theorem Op.bound_eq_binds : op.bound m = op.binds m.pattern := by
  cases op <;> rfl

namespace Command

/-- The patterns that are bound behind a command. -/
def bind (bound : List (Compiled κ)) : Command κ → List (Compiled κ)
  | new p _ => bound ++ [p]
  | use i op => bound.modify i op.binds

def Regular (bound : List (Compiled κ)) : Command κ → Prop
  | new _ memory => memory.isSome
  | use i op => ∃ q, bound[i]? = some q ∧ op.Regular q

end Command

namespace Session
variable {σ τ : Session κ} {c : Command κ} {cs : List (Command κ)} {bounds : List (Compiled κ)}

/-- The session behind a command; nothing if there is no such matcher, or if the operation does not
end. -/
def step (σ : Session κ) : Command κ → Option (Session κ)
  | .new p memory =>
    let r := Matcher.new p memory
    some ⟨σ.matchers ++ r.result.toOption.toList, σ.log ++ r.events⟩
  | .use i op => do
    let m ← σ.matchers[i]?
    let r ← op.run m
    some ⟨σ.matchers.set i r.matcher, σ.log ++ r.events⟩

def run (cs : List (Command κ)) : Option (Session κ) := cs.foldlM step {}

/-- The patterns that are bound behind some commands. -/
def bound (cs : List (Command κ)) : List (Compiled κ) := cs.foldl Command.bind []

def Regular : List (Compiled κ) → List (Command κ) → Prop
  | _, [] => True
  | bounds, c :: cs => c.Regular bounds ∧ Regular (c.bind bounds) cs

/-- What a command does where these patterns are bound. A new matcher has a new buffer and reports it.
An operation asks for a new buffer just if it changes the pattern. It reports that change, and then its
attempts, one by one. -/
inductive Adds (bounds : List (Compiled κ)) (σ τ : Session κ) : Command κ → Prop
  | new {p : Compiled κ} {slots : Slots} (asks : (Matcher.new p none).result = .error .noMemory)
      (matchers : τ.matchers = σ.matchers ++ [{ pattern := p, slots }])
      (log : τ.log = σ.log ++ [Matcher.allocated p]) : Adds bounds σ τ (.new p (some slots))
  | use {i : Nat} {op : Op κ} {m : Matcher κ} {r : Reply κ Answer} {attempts : List (Attempt κ)}
      (matcher : σ.matchers[i]? = some m) (pattern : bounds[i]? = some m.pattern)
      (asks : (∃ s, op.starved.run m = some s ∧ s.result = .error .noMemory) ↔ op.Rebinds m.pattern)
      (ends : op.run m = some r) (course : Matcher.Course m op r attempts)
      (matchers : τ.matchers = σ.matchers.set i r.matcher)
      (log : τ.log = σ.log ++ op.opening m.pattern ++ attempts.map (Attempt.record op.flags)) :
      Adds bounds σ τ (.use i op)

theorem step_adds (hσ : σ.matchers.map Matcher.pattern = bounds) (hc : c.Regular bounds) :
    ∃ τ, σ.step c = some τ ∧ Adds bounds σ τ c ∧ τ.matchers.map Matcher.pattern = c.bind bounds := by
  cases c with
  | new p memory =>
    obtain ⟨slots, rfl⟩ := Option.isSome_iff_exists.1 hc
    exact ⟨_, rfl, .new rfl rfl rfl, by rw [List.map_append, hσ]; rfl⟩
  | use i op =>
    obtain ⟨q, hq, hop⟩ := hc
    obtain ⟨m, hm, rfl⟩ : ∃ m, σ.matchers[i]? = some m ∧ m.pattern = q := by
      rwa [← hσ, List.getElem?_map, Option.map_eq_some_iff] at hq
    obtain ⟨r, attempts, hr, hcourse⟩ := Matcher.exists_course hop
    refine ⟨_, by rw [step, hm, Option.bind_eq_bind, Option.bind_some, hr]; rfl,
      .use hm hq Matcher.starved_iff hr hcourse rfl ?_, ?_⟩
    · rw [List.append_assoc, ← hcourse.events]
    · rw [List.map_set, hσ, Command.bind, List.modify_eq_set_getElem?, hq, hcourse.pattern,
        Op.bound_eq_binds]
      rfl

theorem foldlM_step (hσ : σ.matchers.map Matcher.pattern = bounds) (hcs : Regular bounds cs) :
    ∃ τ, cs.foldlM step σ = some τ ∧ τ.matchers.map Matcher.pattern = cs.foldl Command.bind bounds := by
  induction cs generalizing σ bounds with
  | nil => exact ⟨σ, rfl, hσ⟩
  | cons c cs ih =>
    obtain ⟨ρ, hstep, -, hρ⟩ := step_adds hσ hcs.1
    obtain ⟨τ, hrun, hτ⟩ := ih hρ hcs.2
    exact ⟨τ, by rw [List.foldlM_cons, hstep]; exact hrun, hτ⟩

theorem regular_append {before after : List (Command κ)} :
    Regular bounds (before ++ after) ↔
      Regular bounds before ∧ Regular (before.foldl Command.bind bounds) after := by
  induction before generalizing bounds with
  | nil => exact (and_iff_right trivial).symm
  | cons c before ih => exact (and_congr_right fun _ => ih).trans and_assoc.symm

/-- **The log of a session.** With engines whose matches lie within what they were given, and memory
where it is asked for, every command is done. Each writes its own share behind what is there: the
change of buffer, if there is one, and then one record for each attempt, with fewer and fewer bytes. -/
theorem log_follows_commands (cs : List (Command κ)) (h : Regular [] cs) :
    (∃ σ, run cs = some σ) ∧
    (∀ before c after, cs = before ++ c :: after → ∃ σ τ, run before = some σ ∧
      run (before ++ [c]) = some τ ∧ Adds (bound before) σ τ c) ∧
    (∀ p : Compiled κ, (Matcher.allocated p).level = .trace ∧
      (Event.rebound p.display p.groups).level = .debug) ∧
    ∀ f (a : Attempt κ), (a.record f).level = if Code.IsFailure (a.answer f).1 then .warn else .trace := by
  refine ⟨?_, ?_, fun p => ⟨rfl, rfl⟩, Attempt.level_record⟩
  · obtain ⟨σ, hσ, -⟩ := foldlM_step (σ := {}) rfl h
    exact ⟨σ, hσ⟩
  · rintro before c after rfl
    obtain ⟨hbefore, hc, -⟩ := regular_append.1 h
    obtain ⟨σ, hσ, hbound⟩ := foldlM_step (σ := {}) rfl hbefore
    obtain ⟨τ, hτ, hadds, -⟩ := step_adds hbound hc
    refine ⟨σ, τ, hσ, ?_, hadds⟩
    rw [run, List.foldlM_append, hσ]
    show [c].foldlM step σ = some τ
    rw [List.foldlM_cons, hτ]
    rfl

/-- A scan, a copy of the bound pattern, the same expression compiled again, the first one again, and
twice a pattern whose attempt fails. -/
def changes : List (Command Regex.Program) :=
  [.new Matcher.letters (some #[none]),
   .use 0 (.findIter (.text "xé") ∅),
   .use 0 (.reset Matcher.letters none (.text "x") ∅),
   .use 0 (.reset { Matcher.letters with serial := 1 } (some #[none]) (.text "x") ∅),
   .use 0 (.reset Matcher.letters (some #[none]) (.text "") ∅),
   .use 0 (.reset { Matcher.characters with serial := 2 } (some #[none]) (.bytes [0xa9]) ∅),
   .use 0 (.reset { Matcher.characters with serial := 2 } none (.bytes [0xa9]) ∅)]

theorem log_follows_changes :
    Regular [] changes ∧
    (∀ before c after, changes = before ++ c :: after → ∃ σ τ, run before = some σ ∧
      run (before ++ [c]) = some τ ∧ Adds (bound before) σ τ c) ∧
    (run changes).map (fun σ => σ.log.map fun e => (e.level, e.length)) =
      some [(.trace, 0), (.trace, 3), (.trace, 2), (.trace, 0), (.trace, 1),
        (.trace, 0), (.debug, 0), (.trace, 1), (.trace, 0), (.debug, 0), (.trace, 0),
        (.trace, 0), (.debug, 0), (.warn, 1), (.warn, 1)] := by
  have h : Regular [] changes := by
    refine ⟨rfl, ⟨Matcher.letters, rfl, Regex.Program.orderlyOn (by decide +kernel)⟩,
      ⟨Matcher.letters, rfl, fun hne => absurd hne (by decide +kernel)⟩, ⟨_, rfl, fun _ => rfl⟩,
      ⟨_, rfl, fun _ => rfl⟩, ⟨_, rfl, fun _ => rfl⟩,
      ⟨_, rfl, fun hne => absurd hne (by decide +kernel)⟩, trivial⟩
  exact ⟨h, (log_follows_commands changes h).2.1, by decide +kernel⟩

end Session

end Rematch
