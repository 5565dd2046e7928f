import Rematch.Regex.Fault
import Rematch.Regex.Units
import Rematch.Regex.Atom

/-! # Reading numbers, names and escapes

The parts of an expression that are shared between its tokens and its classes. Every reader starts
at an offset and gives what it read with the offset behind it, or a fault and the offset where it
was noticed.

## What is not read

Of the names of properties only those of general categories are known, with `Any`, `L&` and `Lc`. Scripts,
as in `\p{Greek}` or `\p{scx:Greek}`, bidirectional classes, properties that are true or false, as
`\p{Alphabetic}`, and those that PCRE2 adds, as `\p{Xwd}`, are refused as unknown (`Fault.unknownProperty`).
`\X` is read as a letter that nobody takes up. -/

namespace Rematch.Regex

/-- How an expression is to be read, beside the options that may change on the way. -/
structure Dialect where
  mode : Mode
  /-- Hexadecimal escapes have a fixed number of digits. -/
  altBsux : Bool
  newline : Newline
  deriving DecidableEq, Repr

/-- An expression with the way to read it. -/
structure Source where
  units : Units
  dialect : Dialect

namespace Source

def atEnd (s : Source) (i : Nat) : Bool := s.units.size ≤ i

/-- The byte at the offset as a character; zero at the end. -/
def peek (s : Source) (i : Nat) : Char := Char.ofNat (s.units.byte i)

def has (s : Source) (i : Nat) (c : Char) : Bool := !s.atEnd i && s.peek i = c

def hasAll (s : Source) (i : Nat) (cs : List Char) : Bool :=
  cs.zipIdx.all fun p => s.has (i + p.2) p.1

/-- The offset behind the characters from `i` on that satisfy `p`, `fuel` at most. -/
def skipWhile (s : Source) (p : Char → Bool) (i : Nat) : (fuel : Nat) → Nat
  | 0 => i
  | fuel + 1 => if !s.atEnd i && p (s.peek i) then s.skipWhile p (i + 1) fuel else i

def skip (s : Source) (p : Char → Bool) (i : Nat) : Nat := s.skipWhile p i (s.units.size - i)

def blanks (s : Source) (i : Nat) : Nat := s.skip (fun c => c = ' ' || c = '\t') i

def hexValue? (c : Char) : Option Nat :=
  if '0' ≤ c && c ≤ '9' then some (c.toNat - 48)
  else if 'a' ≤ c && c ≤ 'f' then some (c.toNat - 87)
  else if 'A' ≤ c && c ≤ 'F' then some (c.toNat - 55)
  else none

def isOctal (c : Char) : Bool := '0' ≤ c && c ≤ '7'

def digits (s : Source) (base start stop : Nat) : Nat :=
  (List.range (stop - start)).foldl
    (fun n k => base * n + (hexValue? (s.peek (start + k))).getD 0) 0

/-- Reads a number of at most `max`, if there is one. With `relative`, a sign makes the number count
from there: groups before it, or behind it. -/
def number (s : Source) (i : Nat) (relative : Option Nat) (max : Nat) (tooBig : Fault) :
    Read (Option (Nat × Nat)) :=
  let sign := match relative with
    | none => none
    | some n =>
      if s.has i '+' then some (true, n) else if s.has i '-' then some (false, n) else none
  let start := if sign.isSome then i + 1 else i
  let stop := s.skip Char.isDigit start
  let n := s.digits 10 start stop
  if stop = start then .ok none
  else
    match sign with
    | none => if max < n then misread tooBig stop else .ok (some (n, stop))
    | some (true, base) =>
      if max - base < n then misread tooBig stop
      else if n = 0 then misread .relativeZero stop
      else .ok (some (base + n, stop))
    | some (false, base) =>
      if max < n then misread tooBig stop
      else if n = 0 then misread .relativeZero stop
      else if base < n then misread .noSuchGroup stop
      else .ok (some (base + 1 - n, stop))

def maxGroup : Nat := 65535

def maxRepeat : Nat := 65535

def nameEnd (s : Source) (i : Nat) : Nat :=
  if s.dialect.mode.utf then
    let rec go (i : Nat) : (fuel : Nat) → Nat
      | 0 => i
      | fuel + 1 =>
        let (c, w) := s.units.get i
        if !s.atEnd i && (Unicode.isLetter c || Unicode.isDecimal c || c = '_'.toNat) then
          go (i + w) fuel
        else i
    go i (s.units.size - i)
  else s.skip (fun c => Kind.word.holdsAscii c.toNat) i

/-- A name with its offset and the offset behind it and its terminator. -/
structure Name where
  bytes : Bytes
  start : Nat
  stop : Nat

def extract (s : Source) (start stop : Nat) : Bytes := (s.units.bytes.extract start stop).toList

/-- Reads the name of a group, whose opening mark is at `i`, up to its terminator. In braces, blanks
may stand around it. -/
def name (s : Source) (i : Nat) (terminator : Char) : Read Name :=
  let inBraces := terminator = '\x7d'
  let start := if inBraces then s.blanks (i + 1) else i + 1
  if s.atEnd start then misread .nameExpected start
  else
    let (c, _) := s.units.get start
    let isDigit := if s.dialect.mode.utf then Unicode.isDecimal c else (s.peek start).isDigit
    if isDigit then misread .nameDigit start
    else
      let stop := s.nameEnd start
      if 128 < stop - start then misread .nameTooLong stop
      else if stop = start then misread .nameExpected stop
      else
        let close := if inBraces then s.blanks stop else stop
        if s.has close terminator then .ok ⟨s.extract start stop, start, close + 1⟩
        else misread .unclosedName close

/-- The bounds of a quantifier in braces, `i` being the offset behind the brace; none if it is no
quantifier. -/
def bounds (s : Source) (i : Nat) : Read (Option (Nat × Option Nat × Nat)) :=
  let a := s.blanks i
  let aStop := s.skip Char.isDigit a
  let hasMin := a < aStop
  let b := s.blanks aStop
  if s.has b '\x7d' then
    if hasMin then do
      match ← s.number a none maxRepeat .quantifierTooBig with
      | some (n, _) => pure (some (n, some n, b + 1))
      | none => pure none
    else .ok none
  else if !s.has b ',' then .ok none
  else
    let c := s.blanks (b + 1)
    let cStop := s.skip Char.isDigit c
    let hasMax := c < cStop
    let d := s.blanks cStop
    if !(hasMin || hasMax) || !s.has d '\x7d' then .ok none
    else do
      let low ← s.number a none maxRepeat .quantifierTooBig
      let high ← s.number c none maxRepeat .quantifierTooBig
      match low, high with
      | some (m, _), some (n, stop) =>
        if n < m then misread .quantifierOrder stop else pure (some (m, some n, d + 1))
      | some (m, _), none => pure (some (m, none, d + 1))
      | none, some (n, _) => pure (some (0, some n, d + 1))
      | none, none => pure none

/-- The property of a name in braces or of one letter, with the offset behind it; `i` is the offset
behind the escape. The flag says that the name was negated. -/
def property (s : Source) (i : Nat) : Read (Property × Bool × Nat) :=
  let ignorable (c : Char) : Bool := c = '_' || c = '-' || c = ' ' || ('\t' ≤ c && c ≤ '\r')
  let rec letters (i : Nat) (negated : Bool) (found : List Char) :
      (fuel : Nat) → Read (List Char × Bool × Nat)
    | 0 => misread .malformedProperty i
    | fuel + 1 =>
      if s.atEnd i then misread .malformedProperty i
      else
        let c := s.peek i
        if ignorable c then letters (i + 1) negated found fuel
        else if c = '^' && found.isEmpty && !negated then letters (i + 1) true found fuel
        else if c = '\x7d' then .ok (found.reverse, negated, i + 1)
        else if 48 < found.length || c < '&' || 'z' < c then misread .malformedProperty (i + 1)
        else letters (i + 1) negated (c.toLower :: found) fuel
  let lookup (cs : List Char) (negated : Bool) (stop : Nat) : Read (Property × Bool × Nat) :=
    match Property.ofName? cs with
    | some p => .ok (p, negated, stop)
    | none => misread .unknownProperty stop
  if s.atEnd i then misread .malformedProperty i
  else
    let c := s.peek i
    if c = '\x7b' then do
      let (cs, negated, stop) ← letters (i + 1) false [] (s.units.size - i + 1)
      lookup cs negated stop
    else if c.isAlpha then lookup [c.toLower] false (i + 1)
    else misread .malformedProperty (i + 1)

/-- What an escape stands for. -/
inductive Escape where
  | literal (c : Nat)
  | reference (n : Nat)
  /-- A letter with a meaning of its own. -/
  | letter (c : Char)
  deriving DecidableEq, Repr

/-- A character by its number in hexadecimal digits up to a closing brace, `i` being the offset
behind the opening one. -/
def bracedCode (s : Source) (i : Nat) (base : Nat) (isDigit : Char → Bool) (missing : Fault) :
    Read (Nat × Nat) :=
  let start := s.blanks i
  if s.atEnd start || s.has start '\x7d' then misread .digitsMissing start
  else
    let stop := s.skip isDigit start
    let c := s.digits base start stop
    if (if s.dialect.mode.utf then 0x10ffff else 0xff) < c then misread .codeTooBig stop
    else if s.dialect.mode.utf && 0xd800 ≤ c && c ≤ 0xdfff then misread .surrogate stop
    else
      let close := s.blanks stop
      if s.has close '\x7d' then .ok (c, close + 1) else misread missing close

def hexCode (s : Source) (i : Nat) : Read (Nat × Nat) :=
  s.bracedCode i 16 (fun c => (hexValue? c).isSome) .badHex

def fixedHex (s : Source) (i n : Nat) : Option Nat :=
  if (List.range n).all fun k => !s.atEnd (i + k) && (hexValue? (s.peek (i + k))).isSome then
    some (s.digits 16 i (i + n))
  else none

/-- The character written by a letter that has no other meaning behind a backslash. -/
def plainEscape? : Char → Option Nat
  | 'a' => some 7
  | 'e' => some 27
  | 'f' => some 12
  | 'n' => some 10
  | 'r' => some 13
  | 't' => some 9
  | _ => none

def isNamed (c : Char) : Bool :=
  ['A', 'B', 'C', 'D', 'E', 'G', 'H', 'K', 'N', 'P', 'Q', 'R', 'S', 'V', 'W', 'X', 'Z',
    'b', 'd', 'h', 'k', 'p', 's', 'v', 'w', 'z'].contains c

def octal (s : Source) (i : Nat) : Read (Escape × Nat) :=
  let stop := s.skipWhile isOctal i 3
  let c := s.digits 8 i stop
  if !s.dialect.mode.utf && 0xff < c then misread .octalByteTooBig stop
  else .ok (.literal c, stop)

/-- A backslash and a digit that is not zero, the digit at `i`: a reference, unless there are fewer
groups so far and the number can be read as octal. -/
def numbered (s : Source) (i : Nat) (inClass : Bool) (groups : Nat) : Read (Escape × Nat) :=
  let stop := s.skip Char.isDigit i
  let n := s.digits 10 i stop
  let first := s.peek i
  if !inClass && n < 214748363 && (n < 10 || '8' ≤ first || n ≤ groups) then
    if maxGroup < n then misread .groupTooBig stop else .ok (.reference n, stop)
  else if '8' ≤ first then .ok (.literal first.toNat, i + 1)
  else s.octal i

/-- A reference by a letter and a number or name, `i` being the offset behind the letter. -/
def lettered (s : Source) (i : Nat) (groups : Nat) : Read (Escape × Nat) := do
  if s.atEnd i then misread .badReference i
  else if s.has i '<' || s.has i '\'' then pure (.letter 'g', i)
  else if s.has i '\x7b' then
    match ← s.number (s.blanks (i + 1)) (some groups) maxGroup .groupTooBig with
    | none => pure (.letter 'k', i)
    | some (n, stop) =>
      let close := s.blanks stop
      if !s.has close '\x7d' then misread .unclosedNumber close
      else if n = 0 then misread .noSuchGroup (close + 1)
      else pure (.reference n, close + 1)
  else
    match ← s.number i (some groups) maxGroup .groupTooBig with
    | none => misread .badReference i
    | some (n, stop) => if n = 0 then misread .noSuchGroup stop else pure (.reference n, stop)

def hexadecimal (s : Source) (i : Nat) : Read (Escape × Nat) :=
  if s.dialect.altBsux then
    match s.fixedHex i 2 with
    | some c => .ok (.literal c, i + 2)
    | none => .ok (.literal 'x'.toNat, i)
  else if s.has i '\x7b' then (s.hexCode (i + 1)).map fun r => (.literal r.1, r.2)
  else
    let stop := s.skipWhile (fun c => (hexValue? c).isSome) i 2
    if stop = i then misread .digitsMissing i else .ok (.literal (s.digits 16 i stop), stop)

def fourHex (s : Source) (i : Nat) : Read (Escape × Nat) :=
  if !s.dialect.altBsux then misread .unsupportedEscape i
  else
    match s.fixedHex i 4 with
    | none => .ok (.literal 'u'.toNat, i)
    | some c =>
      if s.dialect.mode.utf then
        if 0xd800 ≤ c && c ≤ 0xdfff then misread .surrogate (i + 4) else .ok (.literal c, i + 4)
      else if 0xff < c then misread .codeTooBig (i + 4)
      else .ok (.literal c, i + 4)

def bracedOctal (s : Source) (i : Nat) : Read (Escape × Nat) :=
  if !s.has i '\x7b' then misread .badBraceAfterO i
  else (s.bracedCode (i + 1) 8 isOctal .badOctal).map fun r => (.literal r.1, r.2)

def control (s : Source) (i : Nat) : Read (Escape × Nat) :=
  if s.atEnd i then misread .trailingControl i
  else
    let c := (s.peek i).toUpper.toNat
    if c < 32 || 126 < c then misread .controlCharacter i
    else .ok (.literal (c ^^^ 0x40), i + 1)

/-- The letter for all but newlines may be followed by the number of a character in braces. -/
def notNewlineOrCode (s : Source) (i : Nat) : Read (Escape × Nat) := do
  if !s.has i '\x7b' then pure (.letter 'N', i)
  else
    let start := s.blanks (i + 1)
    if s.hasAll start ['U', '+'] then
      if s.dialect.mode.utf then
        let (c, stop) ← s.hexCode (start + 2)
        pure (.literal c, stop)
      else misread .unicodeOnly i
    else
      match ← s.bounds (i + 1) with
      | some _ => pure (.letter 'N', i)
      | none => misread .unsupportedEscape i

/-- Reads an escape, `i` being the offset behind the backslash; `groups` is how many groups have
been opened so far. -/
def escape (s : Source) (i : Nat) (inClass : Bool) (groups : Nat) : Read (Escape × Nat) :=
  if s.atEnd i then misread .trailingBackslash i
  else
    let (code, w) := s.units.get i
    let c := Char.ofNat code
    if !c.isAlphanum then .ok (.literal code, i + w)
    else
      match plainEscape? c with
      | some v => .ok (.literal v, i + 1)
      | none =>
        if c = 'N' then s.notNewlineOrCode (i + 1)
        else if isNamed c then .ok (.letter c, i + 1)
        else
          match c with
          | 'F' | 'l' | 'L' => misread .unsupportedEscape (i + 1)
          | 'u' => s.fourHex (i + 1)
          | 'U' =>
            if s.dialect.altBsux then .ok (.literal code, i + 1)
            else misread .unsupportedEscape (i + 1)
          | 'g' => if inClass then .ok (.literal code, i + 1) else s.lettered (i + 1) groups
          | '0' => s.octal i
          | 'o' => s.bracedOctal (i + 1)
          | 'x' => s.hexadecimal (i + 1)
          | 'c' => s.control (i + 1)
          | _ => if c.isDigit then s.numbered i inClass groups else misread .unknownEscape i

end Source

end Rematch.Regex
