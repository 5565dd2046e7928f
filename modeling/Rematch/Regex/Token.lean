import Rematch.Bytes
import Rematch.Regex.Atom

/-! # Tokens of an expression

An expression is read as a list of tokens in which all options that were in force at their place
have been taken into account. Groups are numbered; references are still by name where they were
written so, with the offset to blame if there is no such group. -/

namespace Rematch.Regex

/-- A condition on the place in the subject. -/
inductive Anchor where
  | subjectStart
  | searchStart
  /-- The start of a line; of any line in multiline mode. -/
  | lineStart (multiline : Bool)
  /-- The end of a line; of any line in multiline mode. -/
  | lineEnd (multiline : Bool)
  | subjectEnd
  /-- The end of the subject or a newline before it. -/
  | lastLineEnd
  /-- A word starts or ends, or neither if negated. -/
  | wordEdge (negated : Bool)
  deriving DecidableEq, Repr

/-- An instruction to the search. -/
inductive Verb where
  /-- Behind it, the search is not started anywhere else. -/
  | commit
  /-- Behind it, the search is given up at this start. -/
  | prune
  /-- Behind it, the search goes on from here. -/
  | skip
  | fail
  | accept
  deriving DecidableEq, Repr

/-- How much a repetition takes. -/
inductive Greed where
  | greedy | lazy | possessive
  deriving DecidableEq, Repr

structure Repeat where
  min : Nat
  max : Option Nat
  greed : Greed
  deriving DecidableEq, Repr

/-- Where a test of the surroundings looks. -/
structure Direction where
  behind : Bool
  negated : Bool
  deriving DecidableEq, Repr

/-- What the choice between two branches hangs on, as it is written. -/
inductive Test where
  | number (n offset : Nat)
  /-- A group of that name has matched; or a recursion is on, when no group has the name and it
  says so. -/
  | name (s : Bytes) (offset : Nat)
  /-- A recursion into the group of that name is on. -/
  | recursionName (s : Bytes) (offset : Nat)
  /-- Never: the group is there to be called. -/
  | define
  | look
  deriving DecidableEq, Repr

inductive Opening where
  | plain
  | capture (n : Nat)
  | atomic
  | look (d : Direction) (offset : Nat)
  | condition (t : Test)
  deriving DecidableEq, Repr

inductive Token where
  | atom (a : Atom)
  | newline
  | anchor (a : Anchor)
  /-- The match is reported from here on. -/
  | keep
  | verb (v : Verb)
  | reference (n offset : Nat) (caseless : Bool)
  | referenceName (s : Bytes) (offset : Nat) (caseless : Bool)
  | call (n offset : Nat)
  | callName (s : Bytes) (offset : Nat)
  | opening (o : Opening)
  | bar
  | closing
  | quantifier (r : Repeat)
  deriving DecidableEq, Repr

structure GroupName where
  name : Bytes
  number : Nat
  deriving DecidableEq, Repr

structure Tokens where
  list : List Token
  groups : Nat
  numbersRepeat : Bool
  names : List GroupName
  deriving Repr

end Rematch.Regex
