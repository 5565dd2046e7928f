import Rematch.Regex.Fault
import Rematch.Regex.Node

/-! # How far a look behind reaches

A branch of a test that looks behind is tried from so many characters before a place that it can
end there. This needs a bound on the number of characters that the branch matches. A branch of one
length starts at one place only; as soon as a branch of the test has several, all that can be longer
than the shortest are tried from their greatest length down to that of the shortest. -/

namespace Rematch.Regex

/-- The least and the greatest number of characters that something matches. -/
structure Width where
  min : Nat
  max : Nat
  deriving DecidableEq, Repr

namespace Width

def zero : Width := ⟨0, 0⟩

def one : Width := ⟨1, 1⟩

def add (a b : Width) : Width := ⟨a.min + b.min, a.max + b.max⟩

def union (a b : Width) : Width := ⟨Nat.min a.min b.min, Nat.max a.max b.max⟩

def limit : Nat := 65535

/-- The greatest width of a branch in a test that has branches of several widths. -/
def variableLimit : Nat := 255

end Width

/-- The reach of each branch of a test that looks behind. -/
def reaches (widths : List Width) (offset : Nat) : Read (List Reach) :=
  let least := (widths.map Width.min).min?.getD 0
  let greatest := (widths.map Width.max).max?.getD 0
  if widths.all fun x => x.min = x.max then .ok (widths.map fun x => ⟨x.max, x.max⟩)
  else if Width.variableLimit < greatest then misread .wideLookbehind offset
  else .ok (widths.map fun x => ⟨least, x.max⟩)

namespace Whole

variable (w : Whole)

mutual

/-- The width of a node in a branch; `active` are the groups that it stands in, and `offset` is to
blame if there is no bound. -/
def width (fuel : Nat) (active : List Nat) (offset : Nat) (n : Node) : Read Width :=
  match n with
  | .empty | .anchor _ | .keep | .verb _ => .ok .zero
  | .piece .newline => .ok ⟨1, 2⟩
  | .piece (.atom .byte) => if w.mode.utf then misread .byteInLookbehind offset else .ok .one
  | .piece (.atom _) => .ok .one
  | .reference [g] _ =>
    if w.numbersRepeat then misread .unboundedLookbehind offset
    else groupWidth fuel active offset g
  | .reference _ _ => misread .unboundedLookbehind offset
  | .call g => groupWidth fuel active offset g
  | .missing o => misread .noSuchGroup o
  | .seq (.verb .accept) _ | .seq (.verb .fail) _ => .ok .zero
  | .seq a b => do
    let x := (← width fuel active offset a).add (← width fuel active offset b)
    if Width.limit < x.max then misread .longLookbehind offset else pure x
  | .alt a b => do return (← width fuel active offset a).union (← width fuel active offset b)
  | .group (.capture g) body => width fuel (g :: active) offset body
  | .group _ body => width fuel active offset body
  | .look d o body => do
    checkLook fuel active d o body
    pure .zero
  | .behind _ body => width fuel active offset body
  | .choice .never _ _ _ => .ok .zero
  | .choice _ two yes no => do
    let x ← width fuel active offset yes
    if two then return x.union (← width fuel active offset no) else pure x
  | .lookChoice d o two test yes no => do
    checkLook fuel active d o test
    let x ← width fuel active offset yes
    if two then return x.union (← width fuel active offset no) else pure x
  | .repeated r body => do
    let x ← width fuel active offset body
    let isAhead := match body with
      | .look d _ _ => !d.behind
      | _ => false
    match r.max with
    | some most =>
      if Width.limit < most * x.max then misread .longLookbehind offset
      else pure ⟨r.min * x.min, most * x.max⟩
    | none => if isAhead then pure .zero else misread .unboundedLookbehind offset
termination_by (fuel, sizeOf n, 0)

def groupWidth (fuel : Nat) (active : List Nat) (offset g : Nat) : Read Width :=
  match fuel with
  | 0 => misread .unboundedLookbehind offset
  | fuel + 1 =>
    if g = 0 || active.contains g then misread .unboundedLookbehind offset
    else
      match w.root.group? g with
      | none => misread .unboundedLookbehind offset
      | some body => width fuel (g :: active) offset body
termination_by (fuel, 0, 0)

def branchWidths (fuel : Nat) (active : List Nat) (offset : Nat) (n : Node) : Read (List Width) :=
  match n with
  | .alt a b => do
    let x ← width fuel active offset a
    return x :: (← branchWidths fuel active offset b)
  | n => do return [← width fuel active offset n]
termination_by (fuel, sizeOf n, 1)

/-- Checks a test of the surroundings with all tests inside of it. -/
def checkLook (fuel : Nat) (active : List Nat) (d : Direction) (offset : Nat) (body : Node) :
    Read Unit := do
  if d.behind then
    let _ ← reaches (← branchWidths fuel active offset body) offset
  else
    check fuel active body
termination_by (fuel, sizeOf body, 2)

def check (fuel : Nat) (active : List Nat) (n : Node) : Read Unit :=
  match n with
  | .group (.capture g) body => check fuel (g :: active) body
  | .group _ body | .behind _ body | .repeated _ body => check fuel active body
  | .seq a b | .alt a b | .choice _ _ a b => do
    check fuel active a
    check fuel active b
  | .look d o body => checkLook fuel active d o body
  | .lookChoice d o _ test yes no => do
    checkLook fuel active d o test
    check fuel active yes
    check fuel active no
  | _ => .ok ()
termination_by (fuel, sizeOf n, 1)

end

/-- The reaches of the branches of a test of the surroundings; none if it looks ahead. -/
def lookReaches (active : List Nat) (d : Direction) (offset : Nat) (body : Node) :
    Read (List Reach) := do
  if d.behind then reaches (← w.branchWidths (w.groups + 1) active offset body) offset
  else pure []

def reachBranches : List Reach → Node → Node
  | r :: rs, .alt a b => .alt (.behind r a) (reachBranches rs b)
  | r :: _, n => .behind r n
  | [], n => n

/-- The node with the reach of all branches that need one. -/
def withReach (active : List Nat) : Node → Read Node
  | .seq a b => do return .seq (← withReach active a) (← withReach active b)
  | .alt a b => do return .alt (← withReach active a) (← withReach active b)
  | .group (.capture g) body => do
    return .group (.capture g) (← withReach (g :: active) body)
  | .group g body => do return .group g (← withReach active body)
  | .look d o body => do
    let rs ← w.lookReaches active d o body
    return .look d o (reachBranches rs (← withReach active body))
  | .behind r body => do return .behind r (← withReach active body)
  | .choice c two yes no => do
    return .choice c two (← withReach active yes) (← withReach active no)
  | .lookChoice d o two test yes no => do
    let rs ← w.lookReaches active d o test
    let test := reachBranches rs (← withReach active test)
    return .lookChoice d o two test (← withReach active yes) (← withReach active no)
  | .repeated r body => do return .repeated r (← withReach active body)
  | n => .ok n

end Whole

/-- The greatest reach of a test that looks behind. -/
def Node.lookbehind : Node → Nat
  | .behind r body => max r.max body.lookbehind
  | .seq a b | .alt a b | .choice _ _ a b => max a.lookbehind b.lookbehind
  | .group _ body | .look _ _ body | .repeated _ body => body.lookbehind
  | .lookChoice _ _ _ a b c => max (max a.lookbehind b.lookbehind) c.lookbehind
  | .anchor .subjectStart | .anchor (.wordEdge _) => 1
  | _ => 0

end Rematch.Regex
