import Rematch.Regex.Reader
import Rematch.Regex.Token

/-! # Reading the tokens of an expression

One pass over the expression gives its tokens, with every option taken into account, and finds all
that is wrong with its form. What hangs on the expression as a whole, as references to groups that
come later, is left to those who use the tokens.

## What is not read

Some of what PCRE2 reads is left out. It is refused, with the text of an error that means something else
there:

* extended grapheme clusters, `\X`: as if properties were missing (`Fault.bareProperty`);
* callouts, `(?C)` and `(?C1)`, extended classes, `(?[..])`, the option letters `a` and `r`, and tests
  ahead that can be backtracked into, `(?*..)`: as unknown options (`Fault.unknownGroupOption`), and
  such tests behind, `(?<*..)`, as missing names (`Fault.nameExpected`);
* conditions on the version, `(?(VERSION>=10)..)`: as unfinished names (`Fault.unclosedName`);
* callouts and tests by name in front of a branch, `(?(?C)..)` and `(?(*pla:..)..)`: as missing tests
  (`Fault.assertionExpected`);
* verbs with names, as `(*MARK:n)`, `(*PRUNE:n)` and `(*SKIP:n)`, and `(*THEN)`: as unknown verbs
  (`Fault.unknownVerb`);
* tests and groups by name, as `(*pla:..)`, `(*atomic:..)`, script runs, `(*sr:..)`, and scans of
  substrings, `(*scs:(1)..)`: as unknown ones (`Fault.unknownAlpha`);
* calls that hand back groups, `(?1(2))`: as missing parentheses (`Fault.unclosedGroup`). -/

namespace Rematch.Regex

/-- The options that can be changed inside an expression. -/
structure Toggles where
  caseless : Bool
  multiline : Bool
  dotAll : Bool
  extended : Bool
  /-- Blanks are skipped in classes too. -/
  extendedMore : Bool
  noAutoCapture : Bool
  ungreedy : Bool
  dupNames : Bool
  deriving DecidableEq, Repr

namespace Toggles

def set? (t : Toggles) (value : Bool) : Char → Option Toggles
  | 'i' => some { t with caseless := value }
  | 'm' => some { t with multiline := value }
  | 's' => some { t with dotAll := value }
  | 'x' => some { t with extended := value, extendedMore := false }
  | 'n' => some { t with noAutoCapture := value }
  | 'U' => some { t with ungreedy := value }
  | 'J' => some { t with dupNames := value }
  | _ => none

def setAll (t : Toggles) (value : Bool) (letters : List Char) : Toggles :=
  letters.foldl (fun t c => (t.set? value c).getD t) t

def setMore (t : Toggles) (value : Bool) : Toggles :=
  { t with extended := value, extendedMore := value }

end Toggles

/-- What is to be restored when a parenthesis is closed. -/
structure Nest where
  depth : Nat
  toggles : Toggles
  /-- The count of groups to go back to at every branch, and the greatest count of a branch. -/
  reset : Option (Nat × Nat)
  isCondition : Bool

/-- Whether a hyphen in a class can make a range of what stands before it. -/
inductive RangeState where
  /-- It is a character like any other. -/
  | closed
  /-- It has made one, from this character on. -/
  | started (lo : Nat)
  /-- It must be the last character of the class. -/
  | forbidden
  /-- It should have been; the offset behind it. -/
  | violated (offset : Nat)
  /-- It makes a range of this character. -/
  | ready (lo : Nat)

structure ClassState where
  items : Array ClassItem
  range : RangeState
  quoted : Bool

namespace Source

/-- The end of the name of a kind between colons, if it has one: `i` is the offset of the first
mark, and the outcome that of the second. -/
def classNameEnd (s : Source) (i : Nat) : Option Nat :=
  let terminator := s.peek i
  let rec go (i : Nat) : (fuel : Nat) → Option Nat
    | 0 => none
    | fuel + 1 =>
      if s.units.size < i + 2 then none
      else
        let c := s.peek i
        let d := s.peek (i + 1)
        if c = '\\' && (d = ']' || d = '\\') then go (i + 2) fuel
        else if (c = '[' && d = terminator) || c = ']' then none
        else if c = terminator && d = ']' then some i
        else go (i + 1) fuel
  go (i + 1) s.units.size

/-- Adds a character to a class, perhaps as the end of a range; `i` is the offset behind it. -/
def classLiteral (st : ClassState) (c i : Nat) : Read ClassState :=
  match st.range with
  | .started lo =>
    if c < lo then misread .rangeOrder (i - 1)
    else .ok { st with items := st.items.pop.push (.range lo c), range := .closed }
  | .violated offset => misread .badRange offset
  | _ => .ok { st with items := st.items.push (.range c c), range := .ready c }

/-- Adds to a class what cannot be the end of a range; `i` is the offset behind it. -/
def classItem (st : ClassState) (item : ClassItem) (i : Nat) : Read ClassState :=
  match st.range with
  | .started _ => misread .badRange i
  | .violated offset => misread .badRange offset
  | _ => .ok { st with items := st.items.push item, range := .forbidden }

/-- Adds a hyphen to a class; `i` is the offset behind it. -/
def classHyphen (st : ClassState) (i : Nat) : Read ClassState :=
  match st.range with
  | .ready lo =>
    .ok { st with items := st.items.push (.range 0x2d 0x2d), range := .started lo }
  | .forbidden =>
    .ok { st with items := st.items.push (.range 0x2d 0x2d), range := .violated i }
  | _ => classLiteral st 0x2d i

def kindOf? : Char → Option (Kind × Bool)
  | 'd' => some (.digit, false)
  | 'D' => some (.digit, true)
  | 's' => some (.space, false)
  | 'S' => some (.space, true)
  | 'w' => some (.word, false)
  | 'W' => some (.word, true)
  | 'h' => some (.horizontal, false)
  | 'H' => some (.horizontal, true)
  | 'v' => some (.vertical, false)
  | 'V' => some (.vertical, true)
  | _ => none

/-- The property behind a letter at `i`, with what the letter and the name negate taken together. -/
def propertyItem (s : Source) (t : Toggles) (i : Nat) (letter : Char) :
    Read (Property × Bool × Nat) := do
  let (p, negated, stop) ← s.property i
  pure (if t.caseless then p.relax else p, negated != (letter = 'P'), stop)

/-- Reads an escape in a class, `i` being the offset behind the backslash. -/
def classEscape (s : Source) (t : Toggles) (groups : Nat) (st : ClassState) (i : Nat) :
    Read (ClassState × Nat) := do
  match ← s.escape i true groups with
  | (.literal c, stop) => pure (← classLiteral st c stop, stop)
  | (.reference _, stop) => misread .classEscape (stop - 1)
  | (.letter c, stop) =>
    match kindOf? c with
    | some (k, negated) => pure (← classItem st (.kind k negated) stop, stop)
    | none =>
      match c with
      | 'b' => pure (← classLiteral st 8 stop, stop)
      | 'Q' => pure ({ st with quoted := true }, stop)
      | 'E' => pure (st, stop)
      | 'N' => misread .classNotNewline stop
      | 'p' | 'P' =>
        let (p, negated, stop) ← s.propertyItem t stop c
        pure (← classItem st (.property p negated) stop, stop)
      | _ => misread .classEscape (stop - 1)

/-- Reads the name of a kind in a class: `i` is the offset of its first mark, `close` that of the
second. -/
def className (s : Source) (t : Toggles) (st : ClassState) (i close : Nat) :
    Read (ClassState × Nat) := do
  let stop := close + 2
  match st.range with
  | .started _ => misread .badRange stop
  | .violated offset => misread .badRange offset
  | _ => pure ()
  if !s.has i ':' then misread .collatingName stop
  else
    let negated := s.has (i + 1) '^'
    let start := if negated then i + 2 else i + 1
    let name := String.ofList ((List.range (close - start)).map fun k => s.peek (start + k))
    match Kind.named.lookup name with
    | none => misread .unknownClassName stop
    | some k =>
      let item :=
        if t.caseless && (k = .lower || k = .upper) then
          if s.dialect.mode.ucp then .property .cased negated else .kind .alpha negated
        else .kind k negated
      pure (← classItem st item stop, stop)

/-- Adds the character `c` of a class with all that belongs to it, `i` being the offset behind it. -/
def classStep (s : Source) (t : Toggles) (groups : Nat) (st : ClassState) (c i : Nat) :
    Read (ClassState × Nat) := do
  let ch := Char.ofNat c
  if st.quoted then
    if ch = '\\' && s.has i 'E' then pure ({ st with quoted := false }, i + 1)
    else pure (← classLiteral st c i, i)
  else if t.extendedMore && (ch = ' ' || ch = '\t') then pure (st, i)
  else if ch = '\\' then s.classEscape t groups st i
  else if ch = '-' then pure (← classHyphen st i, i)
  else
    let named :=
      if ch = '[' && (s.has i ':' || s.has i '.' || s.has i '=') then s.classNameEnd i else none
    match named with
    | some close => s.className t st i close
    | none => pure (← classLiteral st c i, i)

/-- Reads a class from its character `c` on, `i` being the offset behind it. -/
def classLoop (s : Source) (t : Toggles) (groups : Nat) (st : ClassState) (c i : Nat) :
    (fuel : Nat) → Read (ClassState × Nat)
  | 0 => misread .unclosedClass i
  | fuel + 1 => do
    let (st, i) ← s.classStep t groups st c i
    if s.atEnd i then misread .unclosedClass i
    else
      let (d, w) := s.units.get i
      if d = ']'.toNat && !st.quoted then pure (st, i + w)
      else s.classLoop t groups st d (i + w) fuel

/-- Skips what may stand in front of the characters of a class; the flag says that the class is
negated, and the outcome has the first character and the offset behind it. -/
def classStart (s : Source) (t : Toggles) (i : Nat) (negated : Bool) :
    (fuel : Nat) → Bool × Nat × Nat
  | 0 => (negated, '['.toNat, i)
  | fuel + 1 =>
    if s.atEnd i then (negated, '['.toNat, i)
    else
      let (c, w) := s.units.get i
      let i := i + w
      let ch := Char.ofNat c
      if ch = '\\' && s.has i 'E' then s.classStart t (i + 1) negated fuel
      else if ch = '\\' && s.hasAll i ['Q', '\\', 'E'] then s.classStart t (i + 3) negated fuel
      else if t.extendedMore && (ch = ' ' || ch = '\t') then s.classStart t i negated fuel
      else if ch = '^' && !negated then s.classStart t i true fuel
      else (negated, c, i)

def charClass (s : Source) (t : Toggles) (groups : Nat) (i : Nat) : Read (CharClass × Nat) := do
  let fuel := s.units.size + 1
  let (negated, c, i) := s.classStart t i false fuel
  let (st, stop) ← s.classLoop t groups ⟨#[], .closed, false⟩ c i fuel
  pure (⟨negated, st.items.toList, t.caseless⟩, stop)

end Source

/-- The reading of an expression so far. -/
structure Lexer where
  pos : Nat
  tokens : Array Token
  toggles : Toggles
  depth : Nat
  nests : List Nest
  groups : Nat
  lastGroup : Nat
  numbersRepeat : Bool
  names : Array GroupName
  repeatable : Bool
  quantified : Bool
  quoted : Bool
  conditionDue : Bool

namespace Lexer

def push (st : Lexer) (t : Token) (repeatable : Bool) (pos : Nat) : Lexer :=
  { st with tokens := st.tokens.push t, repeatable, pos }

def literal (st : Lexer) (c pos : Nat) : Lexer :=
  st.push (.atom (.literal c st.toggles.caseless)) true pos

def openGroup (st : Lexer) (o : Opening) (pos : Nat) : Lexer :=
  { st.push (.opening o) false pos with depth := st.depth + 1 }

def openCapture (st : Lexer) (pos : Nat) : Read Lexer :=
  if Source.maxGroup ≤ st.groups then misread .tooManyGroups pos
  else
    let n := st.groups + 1
    .ok { st.openGroup (.capture n) pos with groups := n, lastGroup := max st.lastGroup n }

/-- Gives the group that was opened last a name. A name can be given again to a group of the same
number, and to others if that is allowed; a number has one name. -/
def nameGroup (st : Lexer) (name : Bytes) (offset : Nat) : Read Lexer :=
  let n := st.groups
  let rec check : List GroupName → Read Bool
    | [] => .ok true
    | g :: rest =>
      if g.name = name then
        if g.number = n then .ok false
        else if st.toggles.dupNames then check rest
        else misread .duplicateName offset
      else if g.number = n then misread .differentNames offset
      else check rest
  (check st.names.toList).map fun isNew =>
    if isNew then { st with names := st.names.push ⟨name, n⟩ } else st

variable (s : Source)

def namedCapture (st : Lexer) (i : Nat) (terminator : Char) : Read Lexer := do
  let name ← s.name i terminator
  let st ← st.openCapture name.stop
  st.nameGroup name.bytes name.stop

/-- A call of a group by number, which stands at `i`. -/
def callNumber (st : Lexer) (i : Nat) : Read Lexer := do
  let relative := if (s.peek i).isDigit then none else some st.groups
  match ← s.number i relative Source.maxGroup .groupTooBig with
  | none => misread .digitExpected i
  | some (n, stop) =>
    if s.has stop ')' then pure (st.push (.call n stop) true (stop + 1))
    else misread .unclosedGroup stop

/-- A call of a group by name, `i` being the offset of the mark before the name. -/
def callByName (st : Lexer) (i : Nat) : Read Lexer := do
  let name ← s.name i ')'
  pure (st.push (.callName name.bytes name.start) true name.stop)

/-- The condition of a choice that is a name, at `i`, with the offset behind it. -/
def conditionName (i : Nat) : Read (Test × Nat) := do
  if s.has i 'R' && s.has (i + 1) '&' then
    let name ← s.name (i + 1) ')'
    pure (.recursionName name.bytes name.start, name.stop - 1)
  else if s.has i '<' || s.has i '\'' then
    let name ← s.name i (if s.has i '<' then '>' else '\'')
    pure (.name name.bytes name.start, name.stop)
  else
    let name ← s.name (i - 1) ')'
    let isDefine := name.bytes = Utf8.ofString "DEFINE"
    pure (if isDefine then .define else .name name.bytes name.start, name.stop - 1)

/-- A choice, `i` being the offset behind the parenthesis of its condition. -/
def condition (st : Lexer) (i : Nat) : Read Lexer := do
  if s.atEnd i then misread .unclosedGroup i
  else if s.has i '?' || s.has i '*' then
    pure { st.openGroup (.condition .look) (i - 1) with conditionDue := true }
  else
    let (test, stop) ← do
      match ← s.number i (some st.groups) Source.maxGroup .groupTooBig with
      | some (n, stop) =>
        if n = 0 then misread .noSuchGroup stop else pure (Test.number n (stop - 2), stop)
      | none => conditionName s i
    if s.has stop ')' then pure (st.openGroup (.condition test) (stop + 1))
    else misread .conditionUnclosed stop

/-- A test of the surroundings, `i` being the offset of its mark; the condition of a choice cannot
be repeated. -/
def look (st : Lexer) (wasDue : Bool) (i : Nat) : Lexer :=
  let behind := s.has i '<'
  let mark := if behind then i + 1 else i
  let o := Opening.look ⟨behind, s.has mark '!'⟩ (i - 2)
  let st := st.openGroup o (mark + 1)
  if wasDue then
    { st with nests := ⟨st.depth, st.toggles, none, true⟩ :: st.nests }
  else st

/-- Reads letters of options from `i` on up to a colon or closing parenthesis. -/
def toggleLetters (t : Toggles) (value hyphenAllowed : Bool) (i : Nat) :
    (fuel : Nat) → Read (Toggles × Nat)
  | 0 => misread .unclosedGroup i
  | fuel + 1 =>
    if s.atEnd i then misread .unclosedGroup i
    else
      let c := s.peek i
      if c = ')' || c = ':' then .ok (t, i)
      else if c = '-' then
        if hyphenAllowed then toggleLetters t false false (i + 1) fuel
        else misread .strayHyphen i
      else if c = 'x' && s.has (i + 1) 'x' then
        toggleLetters (t.setMore value) value hyphenAllowed (i + 2) fuel
      else
        match t.set? value c with
        | some t => toggleLetters t value hyphenAllowed (i + 1) fuel
        | none => misread .unknownGroupOption i

/-- Letters of options at `i`, for the rest of the group that they stand in, or for a group of their
own. -/
def options (st : Lexer) (i : Nat) : Read Lexer := do
  let fresh := s.has i '^'
  let start := if fresh then st.toggles.setAll false ['i', 'm', 'n', 's', 'x'] else st.toggles
  let (t, stop) ←
    toggleLetters s start true (!fresh) (if fresh then i + 1 else i) (s.units.size + 1)
  let saved : Nest := ⟨st.depth, st.toggles, none, false⟩
  if s.has stop ')' then
    let nests := match st.nests with
      | n :: rest => if n.depth = st.depth then n :: rest else saved :: n :: rest
      | [] => [saved]
    pure { st with toggles := t, nests, repeatable := false, pos := stop + 1 }
  else
    let st := st.openGroup .plain (stop + 1)
    pure { st with toggles := t, nests := { saved with depth := st.depth } :: st.nests }

/-- A group whose branches all count from the same number of groups on, `i` being the offset of its
mark. -/
def branchReset (st : Lexer) (i : Nat) : Lexer :=
  let st := st.openGroup .plain (i + 1)
  let nest : Nest := ⟨st.depth, st.toggles, some (st.groups, st.groups), false⟩
  { st with nests := nest :: st.nests, numbersRepeat := true }

def verb? (name : String) : Option Verb :=
  [("ACCEPT", Verb.accept), ("COMMIT", .commit), ("F", .fail), ("FAIL", .fail), ("PRUNE", .prune),
   ("SKIP", .skip)].lookup name

/-- A verb, `i` being the offset of its first letter. -/
def verb (st : Lexer) (i : Nat) : Read Lexer :=
  let stop := s.skip (fun c => Kind.word.holdsAscii c.toNat) i
  let name := String.ofList ((List.range (stop - i)).map fun k => s.peek (i + k))
  if (s.peek i).isLower then misread .unknownAlpha stop
  else if !(s.has stop ')' || s.has stop ':') then misread .unknownVerb stop
  else
    let close := if s.has stop ':' && s.has (stop + 1) ')' then stop + 1 else stop
    match verb? name with
    | none => misread .unknownVerb stop
    | some v =>
      if s.has close ')' then .ok (st.push (.verb v) (v = .accept) (close + 1))
      else misread .unknownVerb stop

/-- What begins with an opening parenthesis and a question mark, `i` being the offset behind. -/
def special (st : Lexer) (wasDue : Bool) (i : Nat) : Read Lexer :=
  if s.atEnd i then misread .unclosedGroup i
  else
    match s.peek i with
    | 'P' =>
      if s.atEnd (i + 1) then misread .unclosedGroup (i + 1)
      else
        match s.peek (i + 1) with
        | '<' => st.namedCapture s (i + 1) '>'
        | '>' => st.callByName s (i + 1)
        | '=' => do
          let name ← s.name (i + 1) ')'
          pure (st.push (.referenceName name.bytes name.start st.toggles.caseless) true name.stop)
        | _ => misread .unknownAfterP (i + 1)
    | 'R' =>
      if s.has (i + 1) ')' then .ok (st.push (.call 0 (i + 1)) true (i + 2))
      else misread .badRecursion (i + 1)
    | '+' =>
      if (s.peek (i + 1)).isDigit then st.callNumber s i else misread .digitExpected i
    | '&' => st.callByName s i
    | '(' => st.condition s (i + 1)
    | '>' => .ok (st.openGroup .atomic (i + 1))
    | '=' | '!' => .ok (st.look s wasDue i)
    | '<' =>
      if s.has (i + 1) '=' || s.has (i + 1) '!' then .ok (st.look s wasDue i)
      else st.namedCapture s i '>'
    | '\'' => st.namedCapture s i '\''
    | '|' => .ok (st.branchReset i)
    | '-' => if (s.peek (i + 1)).isDigit then st.callNumber s i else st.options s i
    | c => if c.isDigit then st.callNumber s i else st.options s i

/-- What begins with an opening parenthesis, `i` being the offset behind it. -/
def parenthesis (st : Lexer) (wasDue : Bool) (i : Nat) : Read Lexer :=
  if s.atEnd i then misread .unclosedGroup i
  else if s.has i '?' then st.special s wasDue (i + 1)
  else if s.has i '*' then
    if s.atEnd (i + 1) || s.has (i + 1) ')' then .ok { st with pos := i } else st.verb s (i + 1)
  else if st.toggles.noAutoCapture then .ok (st.openGroup .plain i)
  else st.openCapture i

def close (st : Lexer) (i : Nat) : Read Lexer :=
  if st.depth = 0 then misread .unclosedGroup i
  else
    let st := { st.push .closing true i with depth := st.depth - 1 }
    match st.nests with
    | n :: rest =>
      if n.depth = st.depth + 1 then
        let groups := match n.reset with
          | some (_, most) => max most st.groups
          | none => st.groups
        .ok { st with toggles := n.toggles, nests := rest, groups, repeatable := !n.isCondition }
      else .ok st
    | [] => .ok st

def bar (st : Lexer) (i : Nat) : Lexer :=
  let st := st.push .bar false i
  match st.nests with
  | ⟨depth, toggles, some (base, most), isCondition⟩ :: rest =>
    if depth = st.depth then
      { st with
        nests := ⟨depth, toggles, some (base, max most st.groups), isCondition⟩ :: rest
        groups := base }
    else st
  | _ => st

/-- A quantifier, if what came before can be repeated; `i` is the offset behind it. -/
def quantifier (st : Lexer) (repeatable : Bool) (min : Nat) (max : Option Nat) (i : Nat) :
    Read Lexer :=
  if repeatable then
    let greed := if st.toggles.ungreedy then Greed.lazy else .greedy
    .ok { st.push (.quantifier ⟨min, max, greed⟩) false i with quantified := true }
  else misread .nothingToRepeat (i - 1)

/-- A mark behind a quantifier that says how much it takes. -/
def regreed (st : Lexer) (possessive : Bool) (i : Nat) : Lexer :=
  let tokens := st.tokens.modify (st.tokens.size - 1) fun
    | .quantifier r =>
      let flipped := if r.greed = .greedy then Greed.lazy else .greedy
      .quantifier { r with greed := if possessive then .possessive else flipped }
    | t => t
  { st with tokens, repeatable := false, quantified := false, pos := i }

/-- A reference or call whose letter has been read, `i` being the offset behind it. -/
def byLetter (st : Lexer) (letter : Char) (i : Nat) : Read Lexer := do
  let isReference := letter = 'k'
  if !(s.has i '\x7b' || s.has i '<' || s.has i '\'') then
    misread (if isReference then .badNamedReference else .badReference) i
  else
    let terminator := if s.has i '<' then '>' else if s.has i '\'' then '\'' else '\x7d'
    let number ←
      if isReference then pure none
      else s.number (i + 1) (some st.groups) Source.maxGroup .groupTooBig
    match number with
    | some (n, stop) =>
      if s.has stop terminator then pure (st.push (.call n stop) true (stop + 1))
      else misread .unclosedNumber stop
    | none =>
      let name ← s.name i terminator
      let token :=
        if isReference then .referenceName name.bytes name.start st.toggles.caseless
        else .callName name.bytes name.start
      pure (st.push token true name.stop)

/-- An escape, `i` being the offset behind the backslash. -/
def escape (st : Lexer) (i : Nat) : Read Lexer := do
  match ← s.escape i false st.groups with
  | (.literal c, stop) => pure (st.literal c stop)
  | (.reference n, stop) =>
    pure (st.push (.reference n (stop - 1) st.toggles.caseless) true stop)
  | (.letter c, stop) =>
    match Source.kindOf? c with
    | some (k, negated) => pure (st.push (.atom (.kind k negated)) true stop)
    | none =>
      match c with
      | 'A' => pure (st.push (.anchor .subjectStart) false stop)
      | 'B' => pure (st.push (.anchor (.wordEdge true)) false stop)
      | 'b' => pure (st.push (.anchor (.wordEdge false)) false stop)
      | 'G' => pure (st.push (.anchor .searchStart) false stop)
      | 'Z' => pure (st.push (.anchor .lastLineEnd) false stop)
      | 'z' => pure (st.push (.anchor .subjectEnd) false stop)
      | 'K' => pure (st.push .keep false stop)
      | 'C' => pure (st.push (.atom .byte) true stop)
      | 'N' => pure (st.push (.atom .notNewline) true stop)
      | 'R' => pure (st.push .newline true stop)
      | 'p' | 'P' =>
        let (p, negated, stop) ← s.propertyItem st.toggles stop c
        pure (st.push (.atom (.property p negated)) true stop)
      | 'g' | 'k' => st.byLetter s c stop
      | _ => misread .bareProperty stop

def bracket (st : Lexer) (i : Nat) : Read Lexer := do
  let edge (behind : Bool) : Lexer :=
    let st := st.push (.anchor (.wordEdge false)) false i
    let st := st.push (.opening (.look ⟨behind, false⟩ 0)) false i
    (st.push (.atom (.kind .word false)) true i).push .closing true (i + 6)
  if s.hasAll i ['[', ':', '<', ':', ']', ']'] then pure (edge false)
  else if s.hasAll i ['[', ':', '>', ':', ']', ']'] then pure (edge true)
  else
    let name :=
      if s.has i ':' || s.has i '.' || s.has i '=' then s.classNameEnd i else none
    match name with
    | some close =>
      misread (if s.has i ':' then .classNameOutside else .collatingName) (close + 2)
    | none =>
      let (k, stop) ← s.charClass st.toggles st.groups i
      pure (st.push (.atom (.set k)) true stop)

def isPatternSpace (c : Nat) : Bool :=
  Kind.space.holdsAscii c ||
    (s.dialect.mode.utf && (c = 0x85 || c = 0x200e || c = 0x200f || c = 0x2028 || c = 0x2029))

def lineEnd (i : Nat) : (fuel : Nat) → Nat
  | 0 => i
  | fuel + 1 =>
    if s.atEnd i then i
    else
      match s.units.newlineAt s.dialect.newline i with
      | some w => i + w
      | none => lineEnd (s.units.next i) fuel

/-- May the condition of a choice begin with the character `c`, `i` being the offset behind it? -/
def startsCondition (c : Nat) (i : Nat) : Bool :=
  c = '('.toNat && i + 3 ≤ s.units.size && s.has i '?' &&
    (s.has (i + 1) '=' || s.has (i + 1) '!' ||
      (s.has (i + 1) '<' && (s.has (i + 2) '=' || s.has (i + 2) '!')))

/-- Reads an item that begins with the character `c`, `i` being the offset behind it. -/
def item (st : Lexer) (c i : Nat) : Read Lexer := do
  if st.conditionDue && !startsCondition s c i then misread .assertionExpected i
  else
    let wasDue := st.conditionDue
    let repeatable := st.repeatable
    let quantified := st.quantified
    let st := { st with conditionDue := false, repeatable := false, quantified := false }
    match Char.ofNat c with
    | '\\' => st.escape s i
    | '^' => pure (st.push (.anchor (.lineStart st.toggles.multiline)) false i)
    | '$' => pure (st.push (.anchor (.lineEnd st.toggles.multiline)) false i)
    | '.' => pure (st.push (.atom (if st.toggles.dotAll then .any else .notNewline)) true i)
    | '|' => pure (st.bar i)
    | '[' => st.bracket s i
    | '(' => st.parenthesis s wasDue i
    | ')' =>
      if st.depth = 0 then misread .unmatchedClosing (i - 1) else st.close i
    | '*' => st.quantifier repeatable 0 none i
    | '+' =>
      if quantified then pure (st.regreed true i) else st.quantifier repeatable 1 none i
    | '?' =>
      if quantified then pure (st.regreed false i) else st.quantifier repeatable 0 (some 1) i
    | '\x7b' =>
      match ← s.bounds i with
      | some (min, max, stop) => st.quantifier repeatable min max stop
      | none => pure (st.literal c i)
    | _ => pure (st.literal c i)

def step (st : Lexer) : Read Lexer :=
  let start := st.pos
  let (c, w) := s.units.get start
  let i := start + w
  if 250 < st.depth then misread .nestTooDeep start
  else if st.quoted then
    if c = '\\'.toNat && s.has i 'E' then .ok { st with quoted := false, pos := i + 1 }
    else if st.conditionDue then misread .assertionExpected start
    else .ok { st.literal c i with quantified := false }
  else if c = '\\'.toNat && (s.has i 'Q' || s.has i 'E') then
    .ok { st with quoted := s.has i 'Q', pos := i + 1 }
  else if st.toggles.extended && isPatternSpace s c then .ok { st with pos := i }
  else if st.toggles.extended && c = '#'.toNat then
    .ok { st with pos := lineEnd s i s.units.size }
  else if c = '('.toNat && s.hasAll i ['?', '#'] then
    let close := s.skip (· ≠ ')') (i + 1)
    if s.atEnd close then misread .unclosedComment close
    else .ok { st with pos := close + 1 }
  else st.item s c i

def loop (st : Lexer) : (fuel : Nat) → Read Lexer
  | 0 => .ok st
  | fuel + 1 =>
    if s.atEnd st.pos then .ok st
    else
      match st.step s with
      | .ok st => loop st fuel
      | .error e => .error e

end Lexer

/-- The tokens of an expression from an offset on. -/
def Source.tokens (s : Source) (toggles : Toggles) (start : Nat) : Read Tokens := do
  let st : Lexer :=
    { pos := start, tokens := #[], toggles, depth := 0, nests := [], groups := 0, lastGroup := 0,
      numbersRepeat := false, names := #[], repeatable := false, quantified := false,
      quoted := false, conditionDue := false }
  let st ← st.loop s (s.units.size + 1)
  if st.depth = 0 then pure ⟨st.tokens.toList, st.lastGroup, st.numbersRepeat, st.names.toList⟩
  else misread .unclosedGroup st.pos

end Rematch.Regex
