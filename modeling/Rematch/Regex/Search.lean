import Rematch.Regex.Machine
import Rematch.Regex.Malformed
import Rematch.Regex.Program

/-! # Searching a subject

A search attempts a match at one place after the other, from the place on where it starts, passing
over places where none can start. It ends with the first match, with an instruction or error that
ends it, or behind the last place; then what ran into the end of the subject first is a partial
match, if that was asked for. -/

namespace Rematch.Regex

inductive Found where
  | matched (r : Regs)
  /-- The subject ended in what could have been a match that starts here. -/
  | partially (start : Nat)
  | nothing
  | limit
  | callLoop

/-- The place of a search: a program and a subject. -/
structure Search where
  program : Program
  machine : Machine
  anchored : Bool

namespace Search

variable (s : Search)

def size : Nat := s.machine.size

/-- The first offset from `i` on and before `stop` that the property holds of, else `stop`. -/
def scanTo (p : Nat → Bool) (i stop : Nat) : Nat :=
  let rec go (i : Nat) : (fuel : Nat) → Nat
    | 0 => i
    | fuel + 1 => if p i then i else go (i + 1) fuel
  go i (stop - i)

def hasByte (b : Nat × Bool) (i : Nat) : Bool :=
  let c := s.machine.subject.byte i
  c = b.1 || (b.2 && (c = flipAscii b.1 ||
    (0x7f < b.1 && s.program.whole.mode.ucp && !s.program.whole.mode.utf &&
      (Unicode.orbit b.1).contains c)))

def atCharacter (i : Nat) : Bool :=
  !s.machine.subject.utf || s.machine.subject.byte i / 64 ≠ 2

def newlineAt (i : Nat) : Bool :=
  s.atCharacter i && (s.machine.subject.newlineAt s.program.newline i).isSome

def newlineBefore (i : Nat) : Bool :=
  s.atCharacter i && s.machine.subject.newlineBefore s.program.newline i

/-- The end of what is looked through for a start: the subject or its first line. -/
def scanEnd (i : Nat) : Nat :=
  if s.program.firstLine && !s.anchored then scanTo s.newlineAt i s.size else s.size

/-- Do line feeds behind carriage returns belong to one newline? -/
def pairsNewlines : Bool :=
  match s.program.newline with
  | .any | .anyCrlf => true
  | _ => false

/-- The start of the first line from `i` on, but for the first start of all. -/
def lineFrom (i stop : Nat) : Nat :=
  if i = s.machine.origin then i
  else
    let u := s.machine.subject
    let j := scanTo s.newlineBefore i stop
    if s.pairsNewlines && u.byte (j - 1) = 0x0d && j < stop && u.byte j = 0x0a then j + 1 else j

/-- The first place from `i` on where a match can start, if there is any hope of one. -/
def startFrom (i : Nat) : Option Nat :=
  let st := s.program.start
  let whole := s.machine.part = .off
  let stop := s.scanEnd i
  let starts (leads : Array Bool) (i : Nat) : Bool :=
    leads[s.machine.subject.byte i]?.getD false
  if s.anchored then
    match st.first, st.leads with
    | some b, _ => if i < s.size && s.hasByte b i then some i else none
    | none, some leads => if i < s.size && starts leads i then some i else none
    | none, none => some i
  else
    match st.first, st.leads with
    | some b, _ =>
      let j := scanTo (s.hasByte b) i stop
      if whole && s.size ≤ j then none else some j
    | none, some leads =>
      let j := scanTo (starts leads) i stop
      if whole && s.size ≤ j then none else some j
    | none, none => some (if st.atLine then s.lineFrom i stop else i)

/-- Is enough of the subject left, and in it what every match must have? Of a partial match nothing
of this is asked. -/
def hasRest (i : Nat) : Bool :=
  let st := s.program.start
  s.machine.part ≠ .off ||
    (i + st.minLength ≤ s.size &&
      match st.required with
      | none => true
      | some b =>
        let j := if st.first.isSome then i + 1 else i
        scanTo (s.hasByte b) j s.size < s.size)

/-- The place of the next attempt from `i` on, if one is left to be made. -/
def place? (i : Nat) : Option Nat :=
  if s.program.optimize then (s.startFrom i).filter s.hasRest else some i

/-- The next place after `i`; behind a carriage return, the line feed that belongs to it is passed
over unless the expression mentions them. -/
def advance (i : Nat) : Nat :=
  let u := s.machine.subject
  let isPair := 0 < i && i < s.size && u.byte (i - 1) = 0x0d && u.byte i = 0x0a &&
    !s.program.mentionsNewline && (s.pairsNewlines || s.program.newline = .crlf)
  if isPair then i + 1 else i

/-- What a search comes to that has found no match. -/
def giveUp (cutOff : Option Nat) : Found :=
  match cutOff with
  | some i => .partially i
  | none => .nothing

/-- Searches from `i` on; `cutOff` is the first start from which the end of the subject was run
into. -/
def tryFrom (i : Nat) (cutOff : Option Nat) : (fuel : Nat) → Found
  | 0 => giveUp cutOff
  | fuel + 1 =>
    match s.place? i with
    | none => giveUp cutOff
    | some i =>
      let (verdict, st) := s.machine.attempt i
      let cutOff := cutOff.or (if st.hitEnd then some i else none)
      let goOn (next : Nat) : Found :=
        if s.program.firstLine && !s.anchored && s.newlineAt i then giveUp cutOff
        else if s.anchored || s.size < next then giveUp cutOff
        else tryFrom (s.advance next) cutOff fuel
      match verdict with
      | .matched r => .matched r
      | .limit => .limit
      | .callLoop => .callLoop
      | .ended | .verb .commit _ => giveUp cutOff
      | .verb .skip pos => if i < pos then goOn pos else goOn (s.machine.subject.next i)
      | .verb _ _ | .noMatch => goOn (s.machine.subject.next i)

def run : Found := s.tryFrom s.machine.origin none (s.size + 2)

end Search

/-- The return codes of errors that are not about the form of the subject. -/
inductive Failure where
  /-- A partial match that must end at the end of the subject makes no sense. -/
  | badOption
  | matchLimit
  | callLoop
  deriving DecidableEq, Repr

namespace Failure

def code : Failure → Int
  | badOption => -34
  | matchLimit => -47
  | callLoop => -52

def all : List Failure := [badOption, matchLimit, callLoop]

def message : Failure → String
  | badOption => "bad option value"
  | matchLimit => "match limit exceeded"
  | callLoop => "nested recursion at the same subject position"

end Failure

namespace Program

variable (p : Program)

def machine (subject : Array UInt8) (f : MatchFlags) (origin : Nat) : Machine where
  subject := ⟨subject, p.whole.mode.utf⟩
  whole := p.whole
  newline := p.newline
  bsr := p.bsr
  dollarEndOnly := p.dollarEndOnly
  notBol := f.has .notBol
  notEol := f.has .notEol
  notEmpty := f.has .notEmpty || p.notEmpty
  notEmptyAtStart := f.has .notEmptyAtStart || p.notEmptyAtStart
  endAnchored := f.has .endAnchored
  part := if f.has .partialHard then .hard else if f.has .partialSoft then .soft else .off
  emptyPartial := 0 < p.lookbehind || !p.whole.root.mustConsume
  limit := p.matchLimit
  origin

/-- Searches a subject from an offset on; what stands before the offset can still be looked back at. -/
def searchFrom (subject : Bytes) (f : MatchFlags) (origin : Nat) : Found :=
  Search.run
    { program := p, machine := p.machine subject.toArray f origin
      anchored := p.start.anchored || f.has .anchored }

def search (subject : Bytes) (f : MatchFlags) : Found := p.searchFrom subject f 0

/-- How many spans count: one more than the greatest number of a group that has matched. -/
def pairs (slots : Slots) : Nat :=
  (List.range slots.size).foldl
    (fun n i => if (slots[i]?.join).isSome then i + 1 else n) 1

/-- Searches a subject; the spans of a match go into the buffer. -/
def attempt (subject : Bytes) (f : MatchFlags) (buffer : Slots) : Int × Slots :=
  let isPartial := f.has .partialHard || f.has .partialSoft
  if isPartial && f.has .endAnchored then (Failure.badOption.code, buffer)
  else
    let malformed :=
      if p.whole.mode.utf && !f.has .noUtfCheck then Malformed.of? subject else none
    match malformed with
    | some e => (e.code, buffer)
    | none =>
      match p.search subject f with
      | .nothing => (Code.noMatch, buffer)
      | .limit => (Failure.matchLimit.code, buffer)
      | .callLoop => (Failure.callLoop.code, buffer)
      | .partially start =>
        (Code.partialMatch,
          buffer.mapIdx fun i old => if i = 0 then some ⟨start, subject.length⟩ else old)
      | .matched r =>
        let count := pairs r.slots
        let spans := buffer.mapIdx fun i _ =>
          if i = 0 then some ⟨r.start, r.pos⟩ else (r.slots[i]?).join
        (if buffer.size < count then 0 else count, spans)

def explain (code : Int) : String :=
  if code = Code.noMatch then "no match"
  else if code = Code.partialMatch then "partial match"
  else
    match Failure.all.find? (·.code = code), Malformed.all.find? (·.code = code) with
    | some e, _ => e.message
    | none, some e => e.message
    | none, none => s!"unknown error code {code}"

end Program

instance : Engine Program where
  compile p := (Program.compile p).mapError fun e => ⟨e.fault.message, e.offset⟩
  size p := p.whole.root.parts
  groups p := p.whole.groups
  nameRecords := Program.nameRecords
  allocate n := some (Array.replicate n none)
  attempt := Program.attempt
  explain := Program.explain

end Rematch.Regex
