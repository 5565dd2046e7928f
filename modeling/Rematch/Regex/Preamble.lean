import Rematch.Regex.Reader

/-! # Settings in front of an expression

An expression may begin with settings in parentheses and asterisks, which hold for all of it. What
comes behind the last of them is the expression proper.

Of the settings that PCRE2 has, `(*CASELESS_RESTRICT)` and `(*TURKISH_CASING)` are left out, and so refused
as unknown verbs. Limits of depth and of the heap are read, but nothing is limited by them. -/

namespace Rematch.Regex

inductive Setting where
  | utf
  | ucp
  | noStartOptimize
  | noDotStarAnchor
  | notEmpty
  | notEmptyAtStart
  | newline (n : Newline)
  | bsr (b : Bsr)
  /-- A bound on the number of times that the search may branch. -/
  | matchLimit
  /-- A bound on something that is not bounded here. -/
  | otherLimit
  /-- A setting that makes no difference to what matches. -/
  | other
  deriving DecidableEq

namespace Setting

def named : List (String × Setting) :=
  [("BSR_ANYCRLF)", bsr .anyCrlf), ("BSR_UNICODE)", bsr .unicode), ("CRLF)", newline .crlf),
   ("ANYCRLF)", newline .anyCrlf), ("CR)", newline .cr), ("LF)", newline .lf),
   ("ANY)", newline .any), ("NUL)", newline .nul), ("UTF)", utf), ("UCP)", ucp),
   ("NOTEMPTY)", notEmpty), ("NOTEMPTY_ATSTART)", notEmptyAtStart), ("NO_AUTO_POSSESS)", other),
   ("NO_DOTSTAR_ANCHOR)", noDotStarAnchor), ("NO_JIT)", other),
   ("NO_START_OPT)", noStartOptimize), ("LIMIT_HEAP=", otherLimit),
   ("LIMIT_MATCH=", matchLimit), ("LIMIT_DEPTH=", otherLimit), ("LIMIT_RECURSION=", otherLimit)]

end Setting

structure Preamble where
  utf : Bool := false
  ucp : Bool := false
  noStartOptimize : Bool := false
  noDotStarAnchor : Bool := false
  notEmpty : Bool := false
  notEmptyAtStart : Bool := false
  newline : Option Newline := none
  bsr : Option Bsr := none
  matchLimit : Option Nat := none
  stop : Nat := 0

namespace Preamble

/-- Adds a setting; `limit` is the number that it has, and `stop` the offset behind it. -/
def add (p : Preamble) (x : Setting) (limit stop : Nat) : Preamble :=
  let p := { p with stop }
  match x with
  | .utf => { p with utf := true }
  | .ucp => { p with ucp := true }
  | .noStartOptimize => { p with noStartOptimize := true }
  | .noDotStarAnchor => { p with noDotStarAnchor := true }
  | .notEmpty => { p with notEmpty := true }
  | .notEmptyAtStart => { p with notEmptyAtStart := true }
  | .newline n => { p with newline := some n }
  | .bsr b => { p with bsr := some b }
  | .matchLimit => { p with matchLimit := some limit }
  | .otherLimit | .other => p

end Preamble

namespace Source

def maxLimit : Nat := 4294967295

/-- The offset behind the digits at `i` of a number that is not too great to be a limit, and the
number. -/
def limitDigits (s : Source) (i n : Nat) : (fuel : Nat) → Nat × Nat
  | 0 => (n, i)
  | fuel + 1 =>
    if s.atEnd i || !(s.peek i).isDigit || maxLimit / 10 - 1 < n then (n, i)
    else s.limitDigits (i + 1) (10 * n + ((s.peek i).toNat - 48)) fuel

/-- Reads settings from the offset behind those in `p`, `fuel` at most. -/
def settings (s : Source) (p : Preamble) : (fuel : Nat) → Read Preamble
  | 0 => .ok p
  | fuel + 1 =>
    if !s.hasAll p.stop ['(', '*'] then .ok p
    else
      match Setting.named.find? fun x => s.hasAll (p.stop + 2) x.1.toList with
      | none => .ok p
      | some (name, x) =>
        let start := p.stop + 2 + name.length
        if x = .matchLimit || x = .otherLimit then
          let (n, stop) := s.limitDigits start 0 s.units.size
          if stop = start || !s.has stop ')' then misread .unknownVerb stop
          else s.settings (p.add x n (stop + 1)) fuel
        else s.settings (p.add x 0 start) fuel

def preamble (s : Source) : Read Preamble := s.settings {} s.units.size

end Source

end Rematch.Regex
