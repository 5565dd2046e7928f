import Rematch.Error
import Rematch.Pattern

/-! # Events

What the operations report of their course, in the order in which it happens. -/

namespace Rematch

/-- What became of the last attempt. -/
inductive Outcome where
  /-- There was none since the matcher was made or bound to another pattern. -/
  | noAttempt
  | matched
  | notMatched
  /-- The subject ended where the pattern could still have matched. -/
  | partiallyMatched
  deriving DecidableEq, Repr

namespace Outcome

instance : Inhabited Outcome := ⟨noAttempt⟩

def all : List Outcome := [noAttempt, matched, notMatched, partiallyMatched]

def name : Outcome → String
  | noAttempt => "NoAttempt" | matched => "Matched" | notMatched => "NotMatched"
  | partiallyMatched => "PartiallyMatched"

def isMatch : Outcome → Bool
  | matched | partiallyMatched => true
  | _ => false

end Outcome

inductive Level where
  | debug | trace | warn
  deriving DecidableEq, Repr

def Level.name : Level → String
  | debug => "DEBUG" | trace => "TRACE" | warn => "WARN"

inductive Event where
  | parsed (source : String) (pattern : Pattern)
  | compiled (expression : String) (size groups names : Nat)
  | rejected (pattern : Pattern) (message : String)
  | allocated (pairs : Nat) (expression : String)
  | rebound (expression : String) (groups : Nat)
  | attempted (expression : String) (length : Nat) (outcome : Outcome)
  | failed (expression : String) (length : Nat) (error : Error)

namespace Event

def level : Event → Level
  | parsed .. | compiled .. | rejected .. | rebound .. => .debug
  | allocated .. | attempted .. => .trace
  | failed .. => .warn

/-- The event in words; `showSize` writes sizes of compiled patterns. -/
def text (e : Event) (showSize : Nat → String := toString) : String :=
  match e with
  | parsed source pattern => s!"pattern `{source}` parsed to `{pattern.inspect}`"
  | compiled expression size groups names =>
    s!"pattern `{expression}` compiled to " ++ showSize size ++
      s!" bytes with {groups} groups, {names} named"
  | rejected pattern message => s!"pattern `{pattern.display}` failed to compile: {message}"
  | allocated pairs expression => s!"allocated {pairs} offset pairs for `{expression}`"
  | rebound expression groups => s!"matcher rebound to `{expression}` with {groups} groups"
  | attempted expression length outcome =>
    s!"matching `{expression}` against {length} bytes: {outcome.name}"
  | failed expression length error =>
    s!"matching `{expression}` against {length} bytes failed: {error.display}"

end Event

end Rematch
