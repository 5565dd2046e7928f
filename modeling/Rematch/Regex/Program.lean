import Rematch.Engine
import Rematch.NameTable
import Rematch.Regex.Lexer
import Rematch.Regex.Preamble
import Rematch.Regex.Reach
import Rematch.Regex.Start
import Rematch.Regex.Tree

/-! # Compiled expressions

All that an attempt needs to know of an expression: its tree, its options as they are after the
settings in front of it, and where matches can start. -/

namespace Rematch.Regex

structure Program where
  whole : Whole
  names : List GroupName
  start : Start
  /-- Are places passed over where no match can start? -/
  optimize : Bool
  newline : Newline
  bsr : Bsr
  firstLine : Bool
  dollarEndOnly : Bool
  notEmpty : Bool
  notEmptyAtStart : Bool
  /-- How often an attempt may branch. -/
  matchLimit : Nat
  /-- Does the expression mention a byte of a newline? -/
  mentionsNewline : Bool
  lookbehind : Nat

/-- How often an attempt may branch unless an expression asks for less. -/
def defaultMatchLimit : Nat := 10000000

namespace Program

/-- The toggles that the options of a pattern set. -/
def toggles (f : Flags) : Toggles where
  caseless := f.has .caseless
  multiline := f.has .multiline
  dotAll := f.has .dotAll
  extended := f.has .extended
  extendedMore := false
  noAutoCapture := f.has .noAutoCapture
  ungreedy := f.has .ungreedy
  dupNames := f.has .dupNames

def isNewlineByte (c : Nat) : Bool := c = 0x0a || c = 0x0d

def mentions : Token → Bool
  | .atom (.literal c _) => isNewlineByte c
  | .atom (.set k) => k.items.any fun
    | .range lo hi => isNewlineByte lo || isNewlineByte hi
    | _ => false
  | _ => false

/-- Compiles a pattern. Faults in the form of the expression come first, then what is wrong with
tests that look behind, then references to groups that do not exist. -/
def compile (p : Pattern) : Read Program := do
  let bytes := (Utf8.ofString p.expression).toArray
  let raw : Source :=
    ⟨⟨bytes, false⟩, { mode := ⟨false, false⟩, altBsux := false, newline := .lf }⟩
  let pre ← raw.preamble
  let mode : Mode := ⟨p.flags.has .utf || pre.utf, p.flags.has .ucp || pre.ucp⟩
  let newline := (pre.newline.or p.newline).getD .lf
  let source : Source :=
    ⟨⟨bytes, mode.utf⟩, { mode, altBsux := p.flags.has .altBsux, newline }⟩
  let tokens ← source.tokens (toggles p.flags) pre.stop
  let tree := tokens.tree bytes.size
  let bare : Whole := ⟨tree.root, mode, tokens.groups, tokens.numbersRepeat⟩
  let root ← bare.withReach [] tree.root
  match tree.faults with
  | e :: _ => .error e
  | [] =>
    let whole := { bare with root }
    let optimize := !p.flags.has .noStartOptimize && !pre.noStartOptimize
    pure
      { whole, names := tokens.names
        start := .of whole (p.flags.has .anchored) optimize !pre.noDotStarAnchor
        optimize, newline
        bsr := (pre.bsr.or p.bsr).getD .unicode
        firstLine := p.flags.has .firstLine
        dollarEndOnly := p.flags.has .dollarEndOnly
        notEmpty := pre.notEmpty
        notEmptyAtStart := pre.notEmptyAtStart
        matchLimit := min defaultMatchLimit (pre.matchLimit.getD defaultMatchLimit)
        mentionsNewline := tokens.list.any mentions
        lookbehind := root.lookbehind }

def lt : Bytes → Bytes → Bool
  | _, [] => false
  | [], _ :: _ => true
  | a :: as, b :: bs => a < b || (a = b && lt as bs)

/-- The entries of the name table: by name, and for one name in the order in which they were
written. -/
def entries (p : Program) : List GroupName :=
  p.names.mergeSort fun a b => !lt b.name a.name

/-- The records of the name table and their size: a number, the longest name and a zero byte. -/
def nameRecords (p : Program) : Bytes × Nat :=
  match (p.names.map (·.name.length)).max? with
  | none => ([], 0)
  | some longest =>
    let size := longest + 3
    (p.entries.flatMap fun g => NameTable.writeRecord size (Utf8.lossy g.name, g.number), size)

end Program

/-- How many parts a node has. -/
def Node.parts : Node → Nat
  | .seq a b | .alt a b | .choice _ _ a b => 1 + a.parts + b.parts
  | .group _ body | .look _ _ body | .behind _ body | .repeated _ body => 1 + body.parts
  | .lookChoice _ _ _ a b c => 1 + a.parts + b.parts + c.parts
  | _ => 1

end Rematch.Regex
