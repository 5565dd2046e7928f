import Rematch.Regex.Fault
import Rematch.Regex.Node

/-! # From tokens to a tree

Tokens are put together from left to right; what stands in parentheses that are still open waits on
a stack. References that go nowhere are noted on the way, the first of them in each of two kinds:
what is found at once, and what shows only when a group is complete. -/

namespace Rematch.Regex

/-- Parentheses that are still open. -/
structure Nesting where
  opening : Opening
  /-- The branches that are complete, last first. -/
  branches : List Node := []
  /-- The items of the branch that is not, last first. -/
  items : List Node := []

namespace Nesting

def push (f : Nesting) (n : Node) : Nesting := { f with items := n :: f.items }

def all (f : Nesting) : List Node := (Node.ofItems f.items.reverse :: f.branches).reverse

end Nesting

structure Builder where
  /-- What stands outside of all parentheses that are open, or in the innermost. -/
  current : Nesting
  /-- The parentheses around it, innermost first. -/
  outer : List Nesting := []
  fault : Option Misread := none
  /-- What went wrong first at the end of a group. -/
  late : Option Misread := none

namespace Builder

def push (b : Builder) (n : Node) : Builder := { b with current := b.current.push n }

def blame (b : Builder) (fault : Fault) (offset : Nat) : Builder :=
  { b with fault := b.fault.or (some ⟨fault, offset⟩) }

def blameLate (b : Builder) (fault : Fault) (offset : Nat) : Builder :=
  { b with late := b.late.or (some ⟨fault, offset⟩) }

def pushMissing (b : Builder) (offset : Nat) : Builder :=
  (b.push (.missing offset)).blame .noSuchGroup offset

def inLook (b : Builder) : Bool :=
  (b.current :: b.outer).any fun f => match f.opening with | .look .. => true | _ => false

variable (ts : Tokens)

def numbers (s : Bytes) : List Nat :=
  (ts.names.filter (·.name = s)).map (·.number)

/-- The number in a test for a recursion: behind the letter, digits if anything. -/
def recursionNumber? (s : Bytes) : Option Nat :=
  match s with
  | 0x52 :: digits =>
    if digits.all fun d => 0x30 ≤ d && d ≤ 0x39 then
      some (digits.foldl (fun n d => 10 * n + (d.toNat - 0x30)) 0)
    else none
  | _ => none

/-- What the choice hangs on, or the offset to blame. -/
def condition (t : Test) : Except Nat Condition :=
  match t with
  | .number n offset => if n ≤ ts.groups then .ok (.matched [n]) else .error offset
  | .name s offset =>
    match numbers ts s, recursionNumber? s with
    | [], some 0 => .ok (.called none)
    | [], some n => if n ≤ ts.groups then .ok (.called (some [n])) else .error offset
    | [], none => .error offset
    | ns, _ => .ok (.matched ns)
  | .recursionName s offset =>
    match numbers ts s with
    | [] => .error offset
    | ns => .ok (.called (some ns))
  | .define | .look => .ok .never

def testOffset : Test → Nat
  | .number _ offset | .name _ offset | .recursionName _ offset => offset
  | .define | .look => 0

def checkBranches (b : Builder) (t : Test) (count : Nat) : Builder :=
  match t with
  | .define => if 1 < count then b.blameLate .defineBranches (testOffset t) else b
  | _ => if 2 < count then b.blameLate .tooManyBranches (testOffset t) else b

/-- Puts together a choice of its branches, at least one. A test of the surroundings is the first
item of the first branch. -/
def pushChoice (b : Builder) (branches : List Node) (t : Test) : Builder :=
  let b := b.checkBranches t branches.length
  let two := 1 < branches.length
  let yes := branches.headD .empty
  let no := branches[1]?.getD .empty
  match t, yes with
  | .look, .seq (.look d offset test) yes => b.push (.lookChoice d offset two test yes no)
  | .look, .look d offset test => b.push (.lookChoice d offset two test .empty no)
  | _, _ =>
    match condition ts t with
    | .ok c => b.push (.choice c two yes no)
    | .error offset => b.push (.missing offset)

def openGroup (b : Builder) (o : Opening) : Builder :=
  let b := { b with current := { opening := o }, outer := b.current :: b.outer }
  match o with
  | .condition t =>
    match condition ts t with
    | .ok _ => b
    | .error offset => b.blame .noSuchGroup offset
  | _ => b

def close (b : Builder) : Builder :=
  match b.outer with
  | [] => b
  | g :: outer =>
    let f := b.current
    let b := { b with current := g, outer }
    let body := Node.ofBranches f.all
    match f.opening with
    | .plain => b.push (.group .plain body)
    | .capture n => b.push (.group (.capture n) body)
    | .atomic => b.push (.group .atomic body)
    | .look d offset => b.push (.look d offset body)
    | .condition t => b.pushChoice ts f.all t

def bar (b : Builder) : Builder :=
  let f := b.current
  { b with
    current :=
      { f with branches := Node.ofItems f.items.reverse :: f.branches, items := [] } }

def quantify (b : Builder) (r : Repeat) : Builder :=
  match b.current.items with
  | [] => b
  | n :: ns => { b with current := { b.current with items := .repeated r n :: ns } }

/-- Adds a token; `size` is the offset of the end of the expression. -/
def add (size : Nat) (b : Builder) : Token → Builder
  | .atom a => b.push (.piece (.atom a))
  | .newline => b.push (.piece .newline)
  | .anchor a => b.push (.anchor a)
  | .keep =>
    let b := b.push .keep
    if b.inLook then b.blame .keepInLookaround size else b
  | .verb v => b.push (.verb v)
  | .reference n offset caseless =>
    if n ≤ ts.groups then b.push (.reference [n] caseless) else b.pushMissing offset
  | .referenceName s offset caseless =>
    match numbers ts s with
    | [] => b.pushMissing offset
    | ns => b.push (.reference ns caseless)
  | .call n offset => if n ≤ ts.groups then b.push (.call n) else b.pushMissing offset
  | .callName s offset =>
    match numbers ts s with
    | [] => b.pushMissing offset
    | n :: _ => b.push (.call n)
  | .opening o => b.openGroup ts o
  | .bar => b.bar
  | .closing => b.close ts
  | .quantifier r => b.quantify r

end Builder

/-- A tree with what went wrong when it was built, the faults that go first in front. -/
structure Tree where
  root : Node
  faults : List Misread

/-- The tree of an expression; `size` is the offset of its end. -/
def Tokens.tree (ts : Tokens) (size : Nat) : Tree :=
  let b := ts.list.foldl (Builder.add ts size) { current := { opening := .plain } }
  ⟨Node.ofBranches b.current.all, b.fault.toList ++ b.late.toList⟩

end Rematch.Regex
