import Rematch.Regex.Token

/-! # Expressions as trees

The tree of an expression: its tokens put together, with references by name resolved to the numbers
of groups. -/

namespace Rematch.Regex

inductive Piece where
  | atom (a : Atom)
  | newline
  deriving DecidableEq, Repr

/-- What parentheses do beside keeping things together. -/
inductive Grouping where
  | plain
  | capture (n : Nat)
  /-- Once matched, they are not matched in another way. -/
  | atomic
  deriving DecidableEq, Repr

/-- What decides between two branches. -/
inductive Condition where
  /-- One of the groups has matched. -/
  | matched (groups : List Nat)
  /-- A call is on, of one of these groups if there are any. -/
  | called (groups : Option (List Nat))
  /-- Nothing: the first branch is never taken. -/
  | never
  deriving DecidableEq, Repr

/-- How far before a place a branch may start that is to end there, in characters. -/
structure Reach where
  min : Nat
  max : Nat
  deriving DecidableEq, Repr

/-- An expression. Offsets are places in its text, to be blamed if something is wrong. -/
inductive Node where
  | empty
  | piece (p : Piece)
  | anchor (a : Anchor)
  | keep
  | verb (v : Verb)
  /-- What the first of the groups has matched that has matched anything. -/
  | reference (groups : List Nat) (caseless : Bool)
  /-- A group as an expression of its own; the whole expression if the number is zero. -/
  | call (n : Nat)
  | missing (offset : Nat)
  | seq (a b : Node)
  | alt (a b : Node)
  | group (g : Grouping) (body : Node)
  | look (d : Direction) (offset : Nat) (body : Node)
  /-- A branch of a test that looks behind. -/
  | behind (r : Reach) (body : Node)
  /-- One of two branches; the flag says whether the second is written at all. -/
  | choice (c : Condition) (two : Bool) (yes no : Node)
  /-- One of two branches, after a test of the surroundings. -/
  | lookChoice (d : Direction) (offset : Nat) (two : Bool) (test yes no : Node)
  | repeated (r : Repeat) (body : Node)
  deriving DecidableEq, Repr

namespace Node

def ofItems : List Node → Node
  | [] => empty
  | [n] => n
  | n :: ns => seq n (ofItems ns)

def ofBranches : List Node → Node
  | [] => empty
  | [n] => n
  | n :: ns => alt n (ofBranches ns)

def group? (n : Nat) : Node → Option Node
  | group g body => if g = .capture n then some body else body.group? n
  | seq a b | alt a b => (a.group? n).or (b.group? n)
  | look _ _ body | behind _ body | repeated _ body => body.group? n
  | choice _ _ yes no => (yes.group? n).or (no.group? n)
  | lookChoice _ _ _ test yes no => ((test.group? n).or (yes.group? n)).or (no.group? n)
  | _ => none

/-- Does the property hold of the node or of one inside of it? -/
def anywhere (p : Node → Bool) : Node → Bool
  | n@(group _ body) | n@(look _ _ body) | n@(behind _ body) | n@(repeated _ body) =>
    p n || body.anywhere p
  | n@(seq a b) | n@(alt a b) | n@(choice _ _ a b) => p n || a.anywhere p || b.anywhere p
  | n@(lookChoice _ _ _ a b c) => p n || a.anywhere p || b.anywhere p || c.anywhere p
  | n => p n

end Node

structure Whole where
  root : Node
  mode : Mode
  groups : Nat
  numbersRepeat : Bool

end Rematch.Regex
