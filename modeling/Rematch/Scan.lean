import Rematch.Matcher

/-! # Scanning a subject

A scan makes attempts on the rest of the subject, again and again, each where the match before it
ended; behind an empty match it skips one unit. It ends when there is no complete match, when an
attempt fails, and after a match that starts at the end of the subject. The empty rest behind the
last unit is tried too.

An engine may report a match that ends before it starts, so that the next attempt is made where the
last one was. Scans are therefore cut off after as many attempts as the subject has bytes, and one
more: a scan that is not over by then has made two attempts at one place. -/

namespace Rematch

structure Hit where
  span : Span
  /-- Where the scan goes on. -/
  next : Nat
  deriving DecidableEq, Repr

/-- How a scan went: its hits in order, and its end, with the offset of the rest that it left or
with an error. -/
structure Trail (κ : Type) where
  hits : List Hit
  reply : Reply κ Nat

/-- The trail with one more hit in front, and what the attempt that found it reported. -/
def Trail.cons {κ : Type} (h : Hit) (events : List Event) (t : Trail κ) : Trail κ :=
  ⟨h :: t.hits, { t.reply with events := events ++ t.reply.events }⟩

/-- A copy of a subject in the making, with something else in the place of each hit. -/
structure Copy where
  out : Bytes := []
  /-- How far the subject has been copied. -/
  last : Nat := 0
  deriving DecidableEq, Repr

namespace Copy

/-- Copies the bytes up to where the scan goes on behind a hit, with the replacement in the place of
the match; nothing if a slice is out of bounds. -/
def add (bytes replacement : Bytes) (c : Copy) (h : Hit) : Option Copy := do
  let before ← bytes.slice? c.last h.span.start
  let kept ← bytes.slice? h.span.stop h.next
  some ⟨c.out ++ before ++ replacement ++ kept, h.next⟩

/-- Copies the rest that a scan left; nothing if that is not the rest that has not been copied, or
if it is out of bounds. -/
def finish (bytes : Bytes) (c : Copy) (rest : Nat) : Option Bytes :=
  if rest = c.last then (bytes.slice? c.last bytes.length).map (c.out ++ ·) else none

end Copy

namespace Matcher
variable {κ : Type} [Engine κ]

/-- The hit of a complete match whose attempt started at `pos`. -/
def hit? (m : Matcher κ) (subject : Subject) (pos : Nat) : Option Hit :=
  if m.outcome = .matched then
    (m.group? 0).map fun g =>
      let span := g.span.shift pos
      ⟨span, if span.isEmpty then span.stop + subject.unitAt span.stop else span.stop⟩
  else none

/-- The trail of a scan from `pos` on that is over after `fuel` attempts; nothing if it is not. -/
def scanFrom (subject : Subject) (flags : MatchFlags) :
    (fuel : Nat) → Matcher κ → (pos : Nat) → Option (Trail κ)
  | 0, _, _ => none
  | fuel + 1, m, pos =>
    let r := m.exec (subject.tail pos) flags
    match r.result with
    | .error e => some ⟨[], .error e, r.matcher, r.events⟩
    | .ok _ =>
      match r.matcher.hit? subject pos with
      | none => some ⟨[], .ok pos, r.matcher, r.events⟩
      | some h =>
        if h.span.start = subject.size then some ⟨[h], .ok h.next, r.matcher, r.events⟩
        else (scanFrom subject flags fuel r.matcher h.next).map (Trail.cons h r.events)

/-- The trail of a scan of the subject; nothing if the scan does not end. -/
def scan (m : Matcher κ) (subject : Subject) (flags : MatchFlags) : Option (Trail κ) :=
  scanFrom subject flags (subject.size + 1) m 0

def findIter (m : Matcher κ) (subject : Subject) (flags : MatchFlags) :
    Option (Reply κ (List Span)) :=
  (m.scan subject flags).map fun t => t.reply.map fun _ => t.hits.map Hit.span

/-- The bytes of the subject with every match replaced; nothing if the scan does not end or a slice
is out of bounds. -/
def replace (m : Matcher κ) (subject : Subject) (replacement : Bytes) (flags : MatchFlags) :
    Option (Reply κ Bytes) := do
  let t ← m.scan subject flags
  let c ← t.hits.foldlM (Copy.add subject.toBytes replacement) {}
  match t.reply.result with
  | .error e => some ⟨.error e, t.reply.matcher, t.reply.events⟩
  | .ok rest =>
    let out ← c.finish subject.toBytes rest
    some ⟨.ok out, t.reply.matcher, t.reply.events⟩

def replaceAllBytes (m : Matcher κ) (subject replacement : Bytes) (flags : MatchFlags) :
    Option (Reply κ Bytes) :=
  m.replace (.bytes subject) replacement flags

/-- The text with every match replaced, or why the outcome is no text. -/
def replaceAll (m : Matcher κ) (subject replacement : String) (flags : MatchFlags) :
    Option (Reply κ String) :=
  (m.replace (.text subject) (Utf8.ofString replacement) flags).map fun r =>
    ⟨r.result.bind fun out => (Utf8.text out).mapError .utf8, r.matcher, r.events⟩

end Matcher

end Rematch
