import Rematch.Engine
import Rematch.Regex.Node
import Rematch.Regex.Units

/-! # Matching at one place

A machine with a stack of choices matches a node from one start on. What is still to be done is a
list of frames; where there are several ways to go on, all but the first are kept on the stack as
choices, to be taken up when the way taken fails. Parts that are matched once and for all remember
how high the stack was when they began, and cut it back to that height when they are complete. An
instruction to the search that is failed back into takes the stack down further, up to a choice that
stands for the edge of what it may affect.

The machine also notes whether it ran into the end of the subject where more of it could have gone
on matching, and how far before and behind its way it has looked. -/

namespace Rematch.Regex

/-- What is to happen when the subject ends too early. -/
inductive Partiality where
  | off
  /-- A match without running into the end is better. -/
  | soft
  /-- It ends the search. -/
  | hard
  deriving DecidableEq

structure Call where
  group : Nat
  pos : Nat
  /-- How far the machine had looked by then. -/
  lastUsed : Nat

/-- What changes on the way through an expression and is taken back on failure. -/
structure Regs where
  pos : Nat
  /-- Where the match is reported to start. -/
  start : Nat
  slots : Slots
  calls : List Call

/-- Something that is still to be done. -/
inductive Frame where
  | node (n : Node)
  /-- The group has matched from `start` to here. -/
  | close (group start : Nat)
  /-- A repetition that began at `start` is over; `r` says how many are to come. -/
  | again (r : Repeat) (body : Node) (start : Nat)
  /-- There is no other way to do what has been done since the stack was of this height. -/
  | cut (height : Nat)
  /-- A look behind must end where it began. -/
  | arrive (origin : Nat)
  /-- A test of the surroundings at `origin` is over. -/
  | looked (height origin : Nat)
  /-- What must not be found has been found. -/
  | refuse (height : Nat)
  | back (group : Nat) (slots : Slots) (height : Nat)

/-- Another way to go on. -/
inductive Choice where
  | resume (r : Regs) (k : List Frame)
  /-- The same from several places. -/
  | places (r : Regs) (stops : List Nat) (k : List Frame)
  /-- No way, but what happens in a call of the group affects nothing below. -/
  | caller (group : Nat)
  /-- What is tested has not been found. -/
  | otherwise (r : Regs) (k : List Frame)
  /-- No way, but an instruction to the search, in the call of a group if there is one. -/
  | verb (v : Verb) (pos : Nat) (call : Option Nat)

/-- How an attempt ended. -/
inductive Verdict where
  | matched (r : Regs)
  | noMatch
  /-- There is no match, and an instruction to the search at `pos`. -/
  | verb (v : Verb) (pos : Nat)
  /-- The subject ended, which ends the search. -/
  | ended
  | limit
  /-- A group called itself where it had been called. -/
  | callLoop

inductive Task where
  | go (r : Regs) (k : List Frame)
  | fail
  /-- Takes the stack down on behalf of an instruction to the search. -/
  | unwind (v : Verb) (pos : Nat) (call : Option Nat)
  | stop (v : Verdict)

structure State where
  choices : Array Choice
  hitEnd : Bool
  startUsed : Nat
  lastUsed : Nat
  count : Nat

/-- A subject and an expression, with all that an attempt depends on. -/
structure Machine where
  subject : Units
  whole : Whole
  newline : Newline
  bsr : Bsr
  dollarEndOnly : Bool
  notBol : Bool
  notEol : Bool
  notEmpty : Bool
  notEmptyAtStart : Bool
  endAnchored : Bool
  part : Partiality
  /-- Does the end of the subject count even if nothing has been matched? -/
  emptyPartial : Bool
  limit : Nat
  /-- Where the search starts. -/
  origin : Nat

/-- What became of an item in front of some place. -/
structure Bite where
  next : Option Nat
  seen : Nat
  short : Bool := false
  inNewline : Bool := false

namespace Machine

variable (m : Machine)

def size : Nat := m.subject.size

def endsInNewline (pos : Nat) : Bool :=
  m.newline = .crlf && pos + 1 = m.size && m.subject.byte pos = 0x0d

/-- The other bytes of the characters at the offset that equal the bytes of `c`, and one more. -/
def commonBytes (c pos : Nat) : Nat :=
  let want := Utf8.encode [Char.ofNat c]
  let same := (want.zipIdx.takeWhile fun p => m.subject.byte (pos + p.2) = p.1.toNat).length
  pos + same + 1

def biteAtom (a : Atom) (pos : Nat) : Bite :=
  if m.size ≤ pos then ⟨none, pos, true, false⟩
  else
    let (c, w) := m.subject.get pos
    match a with
    | .byte => ⟨some (pos + 1), pos, false, false⟩
    | .notNewline =>
      if (m.subject.newlineAt m.newline pos).isSome then ⟨none, pos, false, false⟩
      else ⟨some (pos + w), pos, false, m.endsInNewline pos⟩
    | .literal d false =>
      if c = d then ⟨some (pos + w), pos, false, false⟩
      else if m.subject.utf then ⟨none, m.commonBytes d pos, false, false⟩
      else ⟨none, pos + 1, false, false⟩
    | a => if a.accepts m.whole.mode c then ⟨some (pos + w), pos, false, false⟩
      else ⟨none, pos + w, false, false⟩

def biteNewline (pos : Nat) : Bite :=
  if m.size ≤ pos then ⟨none, pos, true, false⟩
  else
    let (c, w) := m.subject.get pos
    let stop := pos + w
    if c = 0x0d then
      if m.size ≤ stop then ⟨some stop, stop, true, false⟩
      else if m.subject.byte stop = 0x0a then ⟨some (stop + 1), pos, false, false⟩
      else ⟨some stop, pos, false, false⟩
    else if c = 0x0a || (m.bsr = .unicode && Kind.isVertical c) then ⟨some stop, pos, false, false⟩
    else ⟨none, stop, false, false⟩

def bite (p : Piece) (pos : Nat) : Bite :=
  match p with
  | .atom a => m.biteAtom a pos
  | .newline => m.biteNewline pos

/-- Matches a piece that is repeated: that the subject is over behind a newline is no matter. -/
def biteAgain (p : Piece) (pos : Nat) : Bite :=
  match p with
  | .atom a => m.biteAtom a pos
  | .newline =>
    let b := m.biteNewline pos
    if b.next.isSome then { b with short := false } else b

def runsShort (st : State) (pos : Nat) : Bool :=
  m.part ≠ .off && (st.startUsed < pos || m.emptyPartial)

/-- Notes that the subject has ended, if `short`, and goes on unless that ends the search. -/
def orEnd (short : Bool) (st : State) (next : State → Task × State) : Task × State :=
  if short && m.part ≠ .off then
    let st := { st with hitEnd := true }
    if m.part = .hard then (.stop .ended, st) else next st
  else next st

/-- There is no way on, as could be told from the bytes before `seen`. -/
def failAt (seen : Nat) (st : State) : Task × State :=
  (.fail, { st with lastUsed := max st.lastUsed seen })

def keep (c : Choice) (st : State) : State :=
  { st with choices := st.choices.push c, count := st.count + 1 }

def cutTo (height : Nat) (st : State) : State := { st with choices := st.choices.shrink height }

def afterBite (b : Bite) (r : Regs) (st : State) (k : List Frame) : Task × State :=
  m.orEnd ((b.short && m.runsShort st (b.next.getD r.pos)) || b.inNewline) st fun st =>
    match b.next with
    | some pos => (.go { r with pos } k, st)
    | none => failAt b.seen st

def biteTimes (p : Piece) (pos : Nat) : (times : Nat) → Bite
  | 0 => ⟨some pos, pos, false, false⟩
  | times + 1 =>
    let b := m.biteAgain p pos
    match b.next with
    | none => b
    | some pos =>
      let rest := biteTimes p pos times
      { rest with inNewline := rest.inNewline || b.inNewline }

/-- The offsets behind the repetitions of a piece, last first, in front of those in `stops`; and
what became of the one that did not match. -/
def biteMany (p : Piece) (pos : Nat) (stops : List Nat) (left : Option Nat) (inNewline : Bool) :
    (fuel : Nat) → List Nat × Bite
  | 0 => (stops, ⟨none, pos, false, inNewline⟩)
  | fuel + 1 =>
    if left = some 0 then (stops, ⟨none, pos, false, inNewline⟩)
    else
      let b := m.biteAgain p pos
      match b.next with
      | none => (stops, { b with inNewline := b.inNewline || inNewline })
      | some next =>
        let inNewline := b.inNewline || inNewline
        let cutOff := p = .newline && next = m.size && m.subject.byte pos = 0x0d
        if cutOff then (next :: stops, ⟨none, next, false, inNewline⟩)
        else biteMany p next (next :: stops) (left.map (· - 1)) inNewline fuel

def fromPlaces (r : Regs) (stops : List Nat) (st : State) (k : List Frame) : Task × State :=
  match stops with
  | [] => failAt r.pos st
  | [pos] => (.go { r with pos } k, st)
  | pos :: rest => (.go { r with pos } k, keep (.places r rest k) st)

def repeatPiece (p : Piece) (q : Repeat) (r : Regs) (st : State) (k : List Frame) : Task × State :=
  let first := m.biteTimes p r.pos q.min
  m.orEnd ((first.short && m.runsShort st m.size) || first.inNewline) st fun st =>
    match first.next with
    | none => failAt first.seen st
    | some pos =>
      let left := q.max.map (· - q.min)
      let r := { r with pos }
      if left = some 0 then (.go r k, st)
      else if q.greed = .lazy then
        let more : Repeat := ⟨1, left, .lazy⟩
        (.go r k, keep (.resume r (.node (.repeated more (.piece p)) :: k)) st)
      else
        let (stops, last) := m.biteMany p pos [pos] left false (m.size - pos + 1)
        m.orEnd ((last.short && m.runsShort st m.size) || last.inNewline) st fun st =>
          if q.greed = .possessive then (.go { r with pos := stops.headD pos } k, st)
          else fromPlaces r stops st k

/-- Goes on behind some repetitions of a node; `q` says how many are to come. -/
def repeatNode (body : Node) (q : Repeat) (r : Regs) (st : State) (k : List Frame) : Task × State :=
  let next : List Frame :=
    .node body :: .again ⟨q.min - 1, q.max.map (· - 1), q.greed⟩ body r.pos :: k
  if q.max = some 0 then (.go r k, st)
  else if 0 < q.min then (.go r next, { st with count := st.count + 1 })
  else if q.greed = .lazy then (.go r k, keep (.resume r next) st)
  else (.go r next, keep (.resume r k) st)

/-- The bounds of a repetition as far as they make a difference: looking at the same place again is
of no use. -/
def effective (q : Repeat) (body : Node) : Repeat :=
  match q.max, body with
  | none, .look .. => { q with max := some (q.min + 1) }
  | _, _ => q

def referent? (groups : List Nat) (r : Regs) : Option Span :=
  groups.findSome? fun g => (r.slots[g]?).join

/-- Compares what stands at two offsets, character by character and without regard to case; `stop`
is the end of the first. -/
def sameAt (i stop pos : Nat) : (fuel : Nat) → Bite
  | 0 => ⟨some pos, pos, false, false⟩
  | fuel + 1 =>
    if stop ≤ i then ⟨some pos, pos, false, false⟩
    else if m.size ≤ pos then ⟨none, pos, true, false⟩
    else
      let (c, v) := m.subject.get i
      let (d, w) := m.subject.get pos
      if sameButCase m.whole.mode c d then sameAt (i + v) stop (pos + w) fuel
      else ⟨none, pos, false, false⟩

def equalAt (i stop pos : Nat) : (fuel : Nat) → Bite
  | 0 => ⟨some pos, pos, false, false⟩
  | fuel + 1 =>
    if stop ≤ i then ⟨some pos, pos, false, false⟩
    else if m.size ≤ pos then ⟨none, pos, true, false⟩
    else if m.subject.byte i = m.subject.byte pos then equalAt (i + 1) stop (pos + 1) fuel
    else ⟨none, pos, false, false⟩

def reference (groups : List Nat) (caseless : Bool) (r : Regs) (st : State) (k : List Frame) :
    Task × State :=
  let b : Bite := match referent? groups r with
    | none => ⟨none, r.pos, false, false⟩
    | some s =>
      if caseless then m.sameAt s.start s.stop r.pos (s.width + 1)
      else m.equalAt s.start s.stop r.pos (s.width + 1)
  match b.next with
  | some pos => (.go { r with pos } k, st)
  | none =>
    let pos := if b.short then m.size else r.pos
    m.orEnd (m.size ≤ pos && m.runsShort st pos) st fun st => failAt pos st

def isWord (c : Nat) : Bool := Kind.word.holds m.whole.mode c

def wordEdge (negated : Bool) (r : Regs) (st : State) (k : List Frame) : Task × State :=
  let pos := r.pos
  let before := m.subject.prev pos
  let isBefore := 0 < pos && m.isWord (m.subject.get before).1
  let st := if 0 < pos then { st with startUsed := min st.startUsed before } else st
  let atEnd := m.size ≤ pos
  let isBehind := !atEnd && m.isWord (m.subject.get pos).1
  m.orEnd (atEnd && m.runsShort st pos) st fun st =>
    let st := if atEnd then st else { st with lastUsed := max st.lastUsed (m.subject.next pos) }
    if (isBefore != isBehind) != negated then (.go r k, st) else failAt pos st

/-- Tests whether the subject ends here, or but for a newline. -/
def lastLineEnd (r : Regs) (st : State) (k : List Frame) : Task × State :=
  let pos := r.pos
  let isLast := match m.subject.newlineAt m.newline pos with
    | some w => pos + w = m.size
    | none => false
  if pos < m.size && !isLast then m.orEnd (m.endsInNewline pos) st fun st => failAt pos st
  else m.orEnd true st fun st => (.go r k, st)

def subjectEnd (r : Regs) (st : State) (k : List Frame) : Task × State :=
  if r.pos < m.size then failAt r.pos st else m.orEnd true st fun st => (.go r k, st)

def anchor (a : Anchor) (r : Regs) (st : State) (k : List Frame) : Task × State :=
  let pos := r.pos
  let test (holds : Bool) : Task × State := if holds then (.go r k, st) else failAt pos st
  match a with
  | .subjectStart => test (pos = 0)
  | .searchStart => test (pos = m.origin)
  | .lineStart false => test (pos = 0 && !m.notBol)
  | .lineStart true =>
    if pos = 0 then test !m.notBol
    else test (pos < m.size && m.subject.newlineBefore m.newline pos)
  | .lineEnd false =>
    if m.notEol then failAt pos st
    else if m.dollarEndOnly then m.subjectEnd r st k
    else m.lastLineEnd r st k
  | .lineEnd true =>
    if pos < m.size then
      if (m.subject.newlineAt m.newline pos).isSome then (.go r k, st)
      else m.orEnd (m.endsInNewline pos) st fun st => failAt pos st
    else if m.notEol then failAt pos st
    else m.orEnd (m.runsShort st pos) st fun st => (.go r k, st)
  | .subjectEnd => m.subjectEnd r st k
  | .lastLineEnd => m.lastLineEnd r st k
  | .wordEdge negated => m.wordEdge negated r st k

def before (pos : Nat) (found : List Nat) : (count : Nat) → List Nat
  | 0 => found
  | count + 1 =>
    if pos = 0 then found
    else
      let pos := m.subject.prev pos
      before pos (pos :: found) count

/-- Tries a branch from all places from which it can end here. -/
def behind (q : Reach) (body : Node) (r : Regs) (st : State) (k : List Frame) : Task × State :=
  -- The farthest place comes first.
  let places := m.before r.pos [r.pos] q.max
  if places.length ≤ q.min then failAt r.pos st
  else
    let farthest := places.headD r.pos
    let st := { st with startUsed := min st.startUsed farthest }
    if q.min = q.max then (.go { r with pos := farthest } (.node body :: k), st)
    else fromPlaces r (places.take (places.length - q.min)) st
      (.node body :: .arrive r.pos :: k)

def takesFirst (c : Condition) (r : Regs) : Bool :=
  match c with
  | .matched groups => (referent? groups r).isSome
  | .called none => !r.calls.isEmpty
  | .called (some groups) => r.calls.head?.any fun c => groups.contains c.group
  | .never => false

def call (g : Nat) (r : Regs) (st : State) (k : List Frame) : Task × State :=
  let loops := match r.calls.find? (·.group = g) with
    | some c => c.pos = r.pos && c.lastUsed = st.lastUsed
    | none => false
  let body? := if g = 0 then some m.whole.root else m.whole.root.group? g
  match body? with
  | none => failAt r.pos st
  | some body =>
    if loops then (.stop .callLoop, st)
    else
      let height := st.choices.size
      let calls := ⟨g, r.pos, st.lastUsed⟩ :: r.calls
      (.go { r with calls } (.node body :: .back g r.slots height :: k), keep (.caller g) st)

/-- A match is complete; `accepted` says that it was declared so. -/
def finish (accepted : Bool) (r : Regs) (st : State) : Task × State :=
  if r.pos = r.start && (m.notEmpty || (m.notEmptyAtStart && r.start = m.origin)) then failAt r.pos st
  else if m.endAnchored && r.pos < m.size then
    if accepted then (.stop .noMatch, st) else failAt r.pos st
  else (.stop (.matched r), st)

/-- Completes the innermost call or test of the surroundings, or else the match, with all groups in
it that are open. -/
def accept (r : Regs) (st : State) : List Frame → Task × State
  | [] => m.finish true r st
  | .close g start :: k =>
    let slots := if r.calls.isEmpty then r.slots.set! g (some ⟨start, r.pos⟩) else r.slots
    accept { r with slots } st k
  | .back g slots height :: k => (.go r (.cut height :: .back g slots height :: k), st)
  | f@(.looked ..) :: k | f@(.refuse ..) :: k => (.go r (f :: k), st)
  | _ :: k => accept r st k

def obey (v : Verb) (r : Regs) (st : State) (k : List Frame) : Task × State :=
  match v with
  | .fail => failAt r.pos st
  | .accept => m.accept r st k
  | v => (.go r k, keep (.verb v r.pos (r.calls.head?.map (·.group))) st)

def repeated (q : Repeat) (body : Node) (r : Regs) (st : State) (k : List Frame) : Task × State :=
  match body with
  | .piece p => m.repeatPiece p q r st k
  | .choice .never false _ _ => (.go r k, st)
  | .reference groups _ =>
    match referent? groups r with
    | some s => if s.isEmpty then (.go r k, st) else general
    | none => if q.min = 0 then (.go r k, st) else general
  | _ => general
where
  /-- Repeats a node about which nothing is known. -/
  general : Task × State :=
    let q := effective q body
    if q.greed = .possessive then
      repeatNode body { q with greed := .greedy } r st (.cut st.choices.size :: k)
    else repeatNode body q r st k

def node (n : Node) (r : Regs) (st : State) (k : List Frame) : Task × State :=
  let height := st.choices.size
  match n with
  | .empty => (.go r k, st)
  | .piece p => m.afterBite (m.bite p r.pos) r st k
  | .anchor a => m.anchor a r st k
  | .keep => (.go { r with start := r.pos } k, st)
  | .verb v => m.obey v r st k
  | .reference groups caseless => m.reference groups caseless r st k
  | .call g => m.call g r st k
  | .missing _ => failAt r.pos st
  | .seq a b => (.go r (.node a :: .node b :: k), st)
  | .alt a b => (.go r (.node a :: k), keep (.resume r (.node b :: k)) st)
  | .group .plain body => (.go r (.node body :: k), st)
  | .group (.capture g) body =>
    (.go r (.node body :: .close g r.pos :: k), { st with count := st.count + 1 })
  | .group .atomic body =>
    (.go r (.node body :: .cut height :: k), { st with count := st.count + 1 })
  | .look d _ body =>
    if d.negated then
      (.go r (.node body :: .refuse height :: k), keep (.otherwise r k) st)
    else (.go r (.node body :: .looked height r.pos :: k), { st with count := st.count + 1 })
  | .behind q body => m.behind q body r st k
  | .choice c _ yes no => (.go r (.node (if takesFirst c r then yes else no) :: k), st)
  | .lookChoice d _ _ test yes no =>
    let (found, missed) := if d.negated then (no, yes) else (yes, no)
    (.go r (.node test :: .looked height r.pos :: .node found :: k),
      keep (.otherwise r (.node missed :: k)) st)
  | .repeated q body => m.repeated q body r st k

def frame (f : Frame) (r : Regs) (st : State) (k : List Frame) : Task × State :=
  match f with
  | .node n => m.node n r st k
  | .close g start =>
    (.go { r with slots := r.slots.set! g (some ⟨start, r.pos⟩) } k, st)
  | .again q body start =>
    if q.min = 0 && q.max.isNone && r.pos = start then (.go r k, st)
    else repeatNode body q r st k
  | .cut height => (.go r k, cutTo height st)
  | .arrive origin => if r.pos = origin then (.go r k, st) else failAt r.pos st
  | .looked height origin =>
    (.go { r with pos := origin } k,
      cutTo height { st with lastUsed := max st.lastUsed r.pos })
  | .refuse height => failAt r.pos (cutTo height st)
  | .back g slots height =>
    (.go { r with slots, calls := r.calls.tail } k, if g = 0 then cutTo height st else st)

def retry (st : State) : Task × State :=
  match st.choices.back? with
  | none => (.stop .noMatch, st)
  | some c =>
    let st := { st with choices := st.choices.pop }
    match c with
    | .resume r k | .otherwise r k => (.go r k, st)
    | .places r stops k => fromPlaces r stops st k
    | .caller _ => (.fail, st)
    | .verb v pos call => (.unwind v pos call, st)

/-- Takes the stack down up to what an instruction to the search may not affect. -/
def unwind (v : Verb) (pos : Nat) (call : Option Nat) (st : State) : Task × State :=
  match st.choices.back? with
  | none => (.stop (.verb v pos), st)
  | some c =>
    let st := { st with choices := st.choices.pop }
    match c with
    | .otherwise r k => (.go r k, st)
    | .caller g => (if call = some g then .fail else .unwind v pos call, st)
    | _ => (.unwind v pos call, st)

def step (t : Task) (st : State) : Task × State :=
  match t with
  | .go r [] => m.finish false r st
  | .go r (f :: k) => m.frame f r st k
  | .fail => retry st
  | .unwind v pos call => unwind v pos call st
  | .stop v => (.stop v, st)

def steps (t : Task) (st : State) : (fuel : Nat) → Verdict × State
  | 0 => (.limit, st)
  | fuel + 1 =>
    match t with
    | .stop v => (v, st)
    | t =>
      if m.limit < st.count then (.limit, st)
      else
        let (t, st) := m.step t st
        steps t st fuel

/-- Attempts a match from one start on. Between two choices there are fewer steps than the
expression and all of its calls have parts, which `fuel` allows for. (What varies stands last in it:
else a definitional check would count it down, and run the attempt.) -/
def attempt (start : Nat) : Verdict × State :=
  let slots : Slots := Array.replicate (m.whole.groups + 1) none
  let r : Regs := { pos := start, start, slots, calls := [] }
  let st : State :=
    { choices := #[], hitEnd := false, startUsed := start, lastUsed := start, count := 1 }
  let fuel := 1000 * (1000 + m.size) * (1 + m.limit)
  m.steps (.go r [.node m.whole.root]) st fuel

end Machine

end Rematch.Regex
