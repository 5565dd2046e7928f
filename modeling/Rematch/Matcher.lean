import Rematch.Build
import Rematch.Captures

/-! # Matchers

A matcher is bound to a compiled pattern and makes attempts with it, one after the other, in one
buffer. The buffer keeps what earlier attempts left in it; the outcome and the number of entries
that are set say what of it belongs to the last attempt. Both are taken back before anything that
can fail. -/

namespace Rematch

/-- A compiled pattern with a buffer, and the last attempt. -/
structure Matcher (κ : Type) where
  pattern : Compiled κ
  slots : Slots
  subject : Subject := default
  outcome : Outcome := .noAttempt
  pairs : Nat := 0

/-- The answer of an operation on a matcher, the matcher after it, and what was reported. -/
structure Reply (κ α : Type) where
  result : Except Error α
  matcher : Matcher κ
  events : List Event

def Reply.map {κ α β : Type} (f : α → β) (r : Reply κ α) : Reply κ β :=
  ⟨r.result.map f, r.matcher, r.events⟩

namespace Matcher
variable {κ : Type} [Engine κ]

def captures (m : Matcher κ) : Captures κ := ⟨m.pattern, m.slots, m.pairs, m.subject, m.outcome⟩

def groups (m : Matcher κ) : Nat := m.pattern.groups

def isMatch (m : Matcher κ) : Bool := m.outcome.isMatch

def isPartial (m : Matcher κ) : Bool := m.outcome = .partiallyMatched

def present (m : Matcher κ) (i : Nat) : Bool := m.captures.present i

def group? (m : Matcher κ) (i : Nat) : Option Match := m.captures.get? i

def groupBytes? (m : Matcher κ) (i : Nat) : Option Bytes := m.captures.bytes? i

def groupText? (m : Matcher κ) (i : Nat) : Except Error (Option String) := m.captures.text? i

def namedPresent (m : Matcher κ) (name : String) : Except Error Bool := m.captures.namedPresent name

def named? (m : Matcher κ) (name : String) : Except Error (Option Match) := m.captures.named? name

def namedText? (m : Matcher κ) (name : String) : Except Error (Option String) :=
  m.captures.namedText? name

def inspect (m : Matcher κ) (showSize : Nat → String := toString) : String :=
  "Matcher \x7b pattern: " ++ m.pattern.inspect showSize ++ ", outcome: " ++ m.outcome.name ++
    ", captures: " ++ m.captures.inspect ++ " \x7d"

/-- A buffer with an entry for each group of the pattern and for the whole match. -/
def allocate (p : Compiled κ) : Option Slots := Engine.allocate κ (p.groups + 1)

def allocated (p : Compiled κ) : Event := .allocated (p.groups + 1) p.display

/-- A matcher that is bound to the pattern and has made no attempt; `memory` is the buffer that is
there for it. -/
def new (p : Compiled κ) (memory : Option Slots := allocate p) :
    Reported (Except Error (Matcher κ)) :=
  match memory with
  | none => ⟨.error .noMemory, []⟩
  | some slots => ⟨.ok { pattern := p, slots }, [allocated p]⟩

/-- Forgets the last attempt, and binds the matcher to the pattern, with a new buffer unless it is
the pattern that is already bound. -/
def bind (m : Matcher κ) (p : Compiled κ) (memory : Option Slots := allocate p) : Reply κ Unit :=
  let m := { m with outcome := .noAttempt, pairs := 0 }
  if m.pattern.isSame p then ⟨.ok (), m, []⟩
  else
    match memory with
    | none => ⟨.error .noMemory, m, []⟩
    | some slots =>
      ⟨.ok (), { m with pattern := p, slots },
        [allocated p, .rebound p.display p.groups]⟩

/-- What a return code says: an outcome with the number of entries set, or nothing that is one. -/
def classify (code : Int) : Option (Outcome × Nat) :=
  if 0 ≤ code then some (.matched, code.toNat)
  else if code = Code.noMatch then some (.notMatched, 0)
  else if code = Code.partialMatch then some (.partiallyMatched, 1)
  else none

/-- One attempt to match the subject. The answer says whether it matched, completely or partially;
any return code of the engine that is not about matching is an error. -/
def exec (m : Matcher κ) (subject : Subject) (flags : MatchFlags) : Reply κ Bool :=
  let (code, slots) := Engine.attempt m.pattern.code subject.toBytes flags m.slots
  match classify code with
  | some (outcome, pairs) =>
    ⟨.ok outcome.isMatch, { m with slots, subject, outcome, pairs },
      [.attempted m.pattern.display subject.size outcome]⟩
  | none =>
    let e := Error.engine code (Engine.explain κ code)
    ⟨.error e, { m with slots, subject, outcome := .noAttempt, pairs := 0 },
      [.failed m.pattern.display subject.size e]⟩

/-- Binds the matcher to the pattern, then makes one attempt. -/
def reset (m : Matcher κ) (p : Compiled κ) (subject : Subject) (flags : MatchFlags)
    (memory : Option Slots := allocate p) : Reply κ Bool :=
  let b := m.bind p memory
  match b.result with
  | .error e => ⟨.error e, b.matcher, b.events⟩
  | .ok () =>
    let r := b.matcher.exec subject flags
    { r with events := b.events ++ r.events }

def findIndex (m : Matcher κ) (subject : Subject) (flags : MatchFlags) : Reply κ (Option Span) :=
  let r := m.exec subject flags
  r.map fun _ => (r.matcher.group? 0).map (·.span)

def extractAll (m : Matcher κ) (subject : Subject) (flags : MatchFlags) :
    Reply κ (Option (List (Option Match))) :=
  let r := m.exec subject flags
  r.map fun found => if found then some r.matcher.captures.toList else none

end Matcher

end Rematch
