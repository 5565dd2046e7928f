import Rematch.MatchFlags
import Rematch.Pattern
import Rematch.Span
import Rematch.Utf8

/-! # Engines

An engine compiles patterns and makes single attempts to match them. It reports an attempt by a
return code and by spans written into a buffer that the caller owns and reuses. Nothing here says
what an engine's expressions mean. -/

namespace Rematch

/-- The buffer for the spans of groups; an entry without a span is a group that took no part. -/
abbrev Slots := Array (Option Span)

structure Rejection where
  message : String
  offset : Nat
  deriving DecidableEq, Repr

def Code.noMatch : Int := -1

def Code.partialMatch : Int := -2

class Engine (κ : Type) where
  compile : Pattern → Except Rejection κ
  /-- The size in memory, in units of the engine's own. -/
  size : κ → Nat
  groups : κ → Nat
  /-- The records of named groups and their size. -/
  nameRecords : κ → Bytes × Nat
  /-- A buffer for so many spans, with any content, if there is memory for it. -/
  allocate : Nat → Option Slots
  /-- Tries to match from the start of the subject on. The code is the number of spans that are set
  in the buffer, or is negative. -/
  attempt : κ → Bytes → MatchFlags → Slots → Int × Slots
  explain : Int → String

end Rematch
