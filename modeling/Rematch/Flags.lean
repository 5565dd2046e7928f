import Rematch.OptionSet

/-! # Options of a pattern

The options that change what an expression means, and the letters they are written with: a word of
letters stands for the set of their options, in any order and with repetition; the set is written
with each letter once, in the order of the table. -/

namespace Rematch

/-- The options of a pattern. -/
inductive Flag where
  | caseless
  /-- The line anchors match at every line of the subject. -/
  | multiline
  /-- A dot matches newlines too. -/
  | dotAll
  /-- White space and comments in the expression are skipped. -/
  | extended
  | dupNames
  | firstLine
  /-- Hexadecimal escapes are read as in scripting languages of the web. -/
  | altBsux
  | noAutoCapture
  /-- Quantifiers are lazy unless marked, instead of greedy. -/
  | ungreedy
  | utf
  /-- The character types follow Unicode properties. -/
  | ucp
  /-- The end-of-line anchor matches at the very end only. -/
  | dollarEndOnly
  /-- No start of a search is skipped, however hopeless. -/
  | noStartOptimize
  | anchored
  deriving DecidableEq, Repr

namespace Flag

def letter : Flag → Char
  | caseless => 'i' | multiline => 'm' | dotAll => 's' | extended => 'x' | dupNames => 'J'
  | firstLine => 'f' | altBsux => 'B' | noAutoCapture => 'n' | ungreedy => 'U' | utf => 'u'
  | ucp => 'W' | dollarEndOnly => 'D' | noStartOptimize => 'S' | anchored => 'A'

instance : Named Flag where
  all := [caseless, multiline, dotAll, extended, dupNames, firstLine, altBsux, noAutoCapture,
    ungreedy, utf, ucp, dollarEndOnly, noStartOptimize, anchored]
  mem_all a := by cases a <;> decide
  name
    | caseless => "CASELESS" | multiline => "MULTILINE" | dotAll => "DOTALL"
    | extended => "EXTENDED" | dupNames => "DUPNAMES" | firstLine => "FIRSTLINE"
    | altBsux => "ALT_BSUX" | noAutoCapture => "NO_AUTO_CAPTURE" | ungreedy => "UNGREEDY"
    | utf => "UTF" | ucp => "UCP" | dollarEndOnly => "DOLLAR_ENDONLY"
    | noStartOptimize => "NO_START_OPTIMIZE" | anchored => "ANCHORED"
  bit
    | caseless => 0x8 | multiline => 0x400 | dotAll => 0x20 | extended => 0x80
    | dupNames => 0x40 | firstLine => 0x100 | altBsux => 0x2 | noAutoCapture => 0x2000
    | ungreedy => 0x40000 | utf => 0x80000 | ucp => 0x20000 | dollarEndOnly => 0x10
    | noStartOptimize => 0x10000 | anchored => 0x80000000

def ofLetter? (c : Char) : Option Flag := (Named.all (α := Flag)).find? (·.letter == c)

theorem ofLetter?_letter (f : Flag) : ofLetter? f.letter = some f := by cases f <;> decide

theorem letter_of_ofLetter? {c : Char} {f : Flag} (h : ofLetter? c = some f) : f.letter = c := by
  simpa using List.find?_some h

end Flag

abbrev Flags := OptionSet Flag

namespace Flags

/-- The options of some letters, or the first that is no letter of an option. -/
def ofLetters : List Char → Except Char Flags
  | [] => .ok ∅
  | c :: cs =>
    match Flag.ofLetter? c with
    | some f => (ofLetters cs).map (·.insert f)
    | none => .error c

def letters (s : Flags) : List Char := s.toList.map Flag.letter

def text (s : Flags) : String := String.ofList (letters s)

end Flags

end Rematch
