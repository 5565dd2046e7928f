import Rematch.Proofs.Contract
import Rematch.Scan

/-! # What one step of a matcher does

`exec_cases` and `bind_cases` say all that an attempt and a change of pattern can do; `Move` is the
one or the other. What both keep, every operation keeps. -/

namespace Rematch.Matcher
variable {κ : Type} [Engine κ] {m n : Matcher κ}

/-- The answer of the engine to the attempt. -/
def answer (m : Matcher κ) (subject : Subject) (flags : MatchFlags) : Int × Slots :=
  Engine.attempt m.pattern.code subject.toBytes flags m.slots

/-- An attempt either leaves the outcome that the code says, with the entries that it counts, or
fails and leaves nothing to be read. -/
theorem exec_cases (m : Matcher κ) (subject : Subject) (flags : MatchFlags) :
    (∃ o k, classify (m.answer subject flags).1 = some (o, k) ∧
      m.exec subject flags =
        ⟨.ok o.isMatch,
          { m with slots := (m.answer subject flags).2, subject, outcome := o, pairs := k },
          [.attempted m.pattern.display subject.size o]⟩) ∨
    (classify (m.answer subject flags).1 = none ∧
      m.exec subject flags =
        ⟨.error (.engine (m.answer subject flags).1 (Engine.explain κ (m.answer subject flags).1)),
          { m with slots := (m.answer subject flags).2, subject, outcome := .noAttempt, pairs := 0 },
          [.failed m.pattern.display subject.size
            (.engine (m.answer subject flags).1
              (Engine.explain κ (m.answer subject flags).1))]⟩) := by
  unfold exec answer
  dsimp only
  cases h : classify (Engine.attempt m.pattern.code subject.toBytes flags m.slots).1 with
  | none => exact .inr ⟨rfl, rfl⟩
  | some r => exact .inl ⟨r.1, r.2, rfl, rfl⟩

@[simp] theorem exec_pattern (subject : Subject) (flags : MatchFlags) :
    (m.exec subject flags).matcher.pattern = m.pattern := by
  rcases m.exec_cases subject flags with ⟨_, _, -, h⟩ | ⟨-, h⟩ <;> rw [h]

@[simp] theorem exec_slots (subject : Subject) (flags : MatchFlags) :
    (m.exec subject flags).matcher.slots = (m.answer subject flags).2 := by
  rcases m.exec_cases subject flags with ⟨_, _, -, h⟩ | ⟨-, h⟩ <;> rw [h]

@[simp] theorem exec_subject (subject : Subject) (flags : MatchFlags) :
    (m.exec subject flags).matcher.subject = subject := by
  rcases m.exec_cases subject flags with ⟨_, _, -, h⟩ | ⟨-, h⟩ <;> rw [h]

theorem exec_events_length (subject : Subject) (flags : MatchFlags) :
    (m.exec subject flags).events.length = 1 := by
  rcases m.exec_cases subject flags with ⟨_, _, -, h⟩ | ⟨-, h⟩ <;> rw [h] <;> rfl

theorem bind_same {p : Compiled κ} (h : m.pattern.isSame p = true) (memory : Option Slots) :
    m.bind p memory = ⟨.ok (), { m with outcome := .noAttempt, pairs := 0 }, []⟩ := by
  simp [bind, h]

theorem bind_none {p : Compiled κ} (h : m.pattern.isSame p = false) :
    m.bind p none = ⟨.error .noMemory, { m with outcome := .noAttempt, pairs := 0 }, []⟩ := by
  simp [bind, h]

theorem bind_some {p : Compiled κ} (h : m.pattern.isSame p = false) (slots : Slots) :
    m.bind p (some slots) =
      ⟨.ok (), { m with pattern := p, slots, outcome := .noAttempt, pairs := 0 },
        [allocated p, .rebound p.display p.groups]⟩ := by
  simp [bind, h]

/-- A change of pattern forgets the last attempt. The pattern that is bound already is kept with its
buffer; without memory the old pattern stays; else there are a new pattern and a new buffer. -/
theorem bind_cases (m : Matcher κ) (p : Compiled κ) (memory : Option Slots) :
    (m.pattern.isSame p = true ∧
      m.bind p memory = ⟨.ok (), { m with outcome := .noAttempt, pairs := 0 }, []⟩) ∨
    (m.pattern.isSame p = false ∧ memory = none ∧
      m.bind p memory =
        ⟨.error .noMemory, { m with outcome := .noAttempt, pairs := 0 }, []⟩) ∨
    (∃ slots, m.pattern.isSame p = false ∧ memory = some slots ∧
      m.bind p memory =
        ⟨.ok (), { m with pattern := p, slots, outcome := .noAttempt, pairs := 0 },
          [allocated p, .rebound p.display p.groups]⟩) := by
  cases hs : m.pattern.isSame p with
  | true => exact .inl ⟨rfl, bind_same hs memory⟩
  | false =>
    cases memory with
    | none => exact .inr (.inl ⟨rfl, rfl, bind_none hs⟩)
    | some slots => exact .inr (.inr ⟨slots, rfl, rfl, bind_some hs slots⟩)

theorem bind_outcome (p : Compiled κ) (memory : Option Slots) :
    (m.bind p memory).matcher.outcome = .noAttempt ∧ (m.bind p memory).matcher.pairs = 0 := by
  rcases m.bind_cases p memory with ⟨-, h⟩ | ⟨-, -, h⟩ | ⟨_, -, -, h⟩ <;> rw [h] <;> exact ⟨rfl, rfl⟩

/-- A change of pattern that fails is the whole operation; else an attempt follows. -/
theorem reset_cases (m : Matcher κ) (p : Compiled κ) (subject : Subject) (flags : MatchFlags)
    (memory : Option Slots) :
    ((m.bind p memory).result = .error .noMemory ∧
      m.reset p subject flags memory =
        ⟨.error .noMemory, (m.bind p memory).matcher, (m.bind p memory).events⟩) ∨
    ((m.bind p memory).result = .ok () ∧
      m.reset p subject flags memory =
        { (m.bind p memory).matcher.exec subject flags with
          events := (m.bind p memory).events ++
            ((m.bind p memory).matcher.exec subject flags).events }) := by
  unfold reset
  rcases m.bind_cases p memory with ⟨-, h⟩ | ⟨-, -, h⟩ | ⟨_, -, -, h⟩ <;> rw [h]
  · exact .inr ⟨rfl, rfl⟩
  · exact .inl ⟨rfl, rfl⟩
  · exact .inr ⟨rfl, rfl⟩

omit [Engine κ] in
/-- The buffer is read where the last attempt has set it. -/
theorem span?_eq_some_iff {i : Nat} {s : Span} :
    m.captures.span? i = some s ↔
      m.outcome.isMatch = true ∧ i < m.pairs ∧ m.slots[i]?.join = some s := by
  show (if m.outcome.isMatch && i < m.pairs then m.slots[i]?.join else none) = some s ↔ _
  split
  · next h =>
    simp only [Bool.and_eq_true, decide_eq_true_eq] at h
    exact ⟨fun hs => ⟨h.1, h.2, hs⟩, fun hs => hs.2.2⟩
  · next h =>
    simp only [Bool.and_eq_true, decide_eq_true_eq] at h
    constructor
    · intro hs; cases hs
    · intro hs; exact absurd ⟨hs.1, hs.2.1⟩ h

omit [Engine κ] in
theorem present_iff {i : Nat} : m.present i = true ↔ ∃ s, m.captures.span? i = some s :=
  Option.isSome_iff_exists

omit [Engine κ] in
theorem group?_eq_some_iff {i : Nat} {g : Match} :
    m.group? i = some g ↔ m.captures.span? i = some g.span ∧ g.subject = m.subject := by
  show (m.captures.span? i).map (⟨m.subject, ·⟩) = some g ↔ _
  rw [Option.map_eq_some_iff]
  constructor
  · rintro ⟨s, hs, rfl⟩
    exact ⟨hs, rfl⟩
  · rintro ⟨hs, hg⟩
    exact ⟨g.span, hs, by rw [← hg]⟩

/-- What a pattern may find memory for: nothing, or a buffer as large as a new one of its own, whatever
it holds. -/
def Allocation (p : Compiled κ) (memory : Option Slots) : Prop :=
  ∀ s, memory = some s → ∃ t, allocate p = some t ∧ s.size = t.size

namespace Allocation
variable {p : Compiled κ} {memory : Option Slots}

theorem none : Allocation p none := fun _ hs => nomatch hs

theorem new : Allocation p (allocate p) := fun s hs => ⟨s, hs, rfl⟩

theorem fits (h : Allocation p memory) (hp : Engine.Buffered p.code) {s : Slots}
    (hs : memory = some s) : Engine.Fits p.code s := by
  obtain ⟨t, ht, hsize⟩ := h s hs
  exact hsize.trans (hp.allocated t ht)

end Allocation

/-- A step of a matcher that only takes patterns of which `good` holds. -/
inductive Move (good : κ → Prop) : Matcher κ → Matcher κ → Prop
  | bind (m : Matcher κ) (p : Compiled κ) (memory : Option Slots) (hp : good p.code)
      (hm : Allocation p memory) : Move good m (m.bind p memory).matcher
  | exec (m : Matcher κ) (subject : Subject) (flags : MatchFlags) :
      Move good m (m.exec subject flags).matcher

end Rematch.Matcher
