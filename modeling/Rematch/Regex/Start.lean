import Rematch.Regex.Landmark

/-! # Where a match can start

What an expression says of the places where a match can start, so that others need not be tried: it
may be tied to the start of the subject or of a line, every match may start with one of a few bytes,
and none may be shorter than some length. All of this errs on the safe side only. -/

namespace Rematch.Regex

/-- Whether an item at the start of a branch ties the branch to a place. -/
inductive Tie where
  | tied
  | loose
  /-- That is up to the next item. -/
  | next
  deriving DecidableEq

structure Place where
  referred : Bool := false
  atomic : Bool := false
  inLook : Bool := false

namespace Node

/-- Is the group the target of a reference? Groups with high numbers are not told apart. -/
def refersTo (root : Node) (g : Nat) : Bool :=
  root.anywhere fun
    | .reference groups _ => groups.any fun h => h = g || (32 ≤ h && 32 ≤ g)
    | _ => false

/-- Are there instructions that make the search go on anywhere but at the next place? -/
def hasJump (root : Node) : Bool :=
  root.anywhere fun n => n = .verb .prune || n = .verb .skip

/-- The settings of a search for ties. -/
structure Ties where
  root : Node
  /-- Does a repetition of anything at the start tie a branch to the places where it can start? -/
  dotStar : Bool

namespace Ties

/-- Does a repetition of anything tie a branch here? -/
def allows (t : Ties) (p : Place) : Bool :=
  t.dotStar && !p.referred && !p.atomic && !p.inLook

def inside (t : Ties) (p : Place) : Grouping → Place
  | .plain => p
  | .capture g => { p with referred := p.referred || t.root.refersTo g }
  | .atomic => { p with atomic := true }

def closed : Tie → Tie
  | .tied => .tied
  | _ => .loose

def both (a b : Tie) : Tie := if a = .tied && b = .tied then .tied else .loose

/-- A repetition that may be left out ties nothing; one that never takes place is passed over. -/
def optional (q : Repeat) (k : Tie) : Tie :=
  if q.max = some 0 then .next else if q.min = 0 then .loose else closed k

/-- Is the node tied to the start of the subject? -/
def subject (t : Ties) (p : Place) : Node → Tie
  | .empty => .next
  | .seq a b =>
    match subject t p a with
    | .next => subject t p b
    | k => k
  | .alt a b => both (subject t p a) (subject t p b)
  | .anchor .subjectStart | .anchor .searchStart | .anchor (.lineStart false) => .tied
  | .group g body => closed (subject t (t.inside p g) body)
  | .look ⟨false, false⟩ _ body => closed (subject t { p with inLook := true } body)
  | .choice .never false _ _ => .next
  | .choice _ true yes no => both (subject t p yes) (subject t p no)
  | .lookChoice ⟨false, false⟩ _ true test _ no =>
    both (closed (subject t { p with inLook := true } test)) (subject t p no)
  | .repeated q (.piece (.atom .any)) =>
    if q.min = 0 && q.max = none && t.allows p then .tied else optional q .loose
  | .repeated q body => optional q (subject t p body)
  | _ => .loose

/-- Is the node tied to the starts of lines? -/
def line (t : Ties) (p : Place) : Node → Tie
  | .empty => .next
  | .seq a b =>
    match line t p a with
    | .next => line t p b
    | k => k
  | .alt a b => both (line t p a) (line t p b)
  | .anchor (.lineStart _) => .tied
  | .group g body => closed (line t (t.inside p g) body)
  | .look ⟨false, false⟩ _ body => closed (line t { p with inLook := true } body)
  | .behind _ body => line t p body
  | .choice .never false _ _ => .next
  | .lookChoice _ _ _ test yes _ =>
    both (closed (line t { p with inLook := true } test)) (line t p yes)
  | .repeated q (.piece (.atom .notNewline)) =>
    if q.min = 0 && q.max = none && t.allows p then .tied else optional q .loose
  | .repeated q body => optional q (line t p body)
  | _ => .loose

end Ties

/-- What is known of the first byte from a test of what comes. -/
inductive Asserted where
  | unknown
  | byte (b : Nat) (caseless : Bool)
  /-- That is up to the next item. -/
  | next
  deriving DecidableEq

namespace Asserted

def closed : Asserted → Asserted
  | next => unknown
  | k => k

def both (a b : Asserted) : Asserted := if a = b then a.closed else unknown

end Asserted

/-- The first byte that tests of what comes ask for; `inLook` says whether this is one. -/
def asserted (m : Mode) (inLook : Bool) : Node → Asserted
  | .empty => .next
  | .seq a b =>
    match asserted m inLook a with
    | .next => asserted m inLook b
    | k => k
  | .alt a b => .both (asserted m inLook a) (asserted m inLook b)
  | .group _ body => (asserted m inLook body).closed
  | .look d _ body => if d.behind || d.negated then .next else (asserted m true body).closed
  | .anchor (.wordEdge _) => .next
  | .choice .never false _ _ => .next
  | .piece p =>
    match p.single? m with
    | some (c, caseless) =>
      if !inLook || m.hasManyCases c caseless || (caseless && m.utf && 0x80 ≤ c) then .unknown
      else .byte ((m.bytes c).headD 0) caseless
    | none => .unknown
  | .repeated q body =>
    if q.max = some 0 then .next
    else if q.min = 0 then .unknown
    else (asserted m inLook body).closed
  | _ => .unknown

end Node

abbrev ByteSet := Nat → Bool

/-- The first and the last character that start with a byte. -/
def leadRange (b : Nat) : Nat × Nat :=
  if b < 0x80 then (b, b)
  else if b < 0xe0 then (64 * (b % 32), 64 * (b % 32) + 63)
  else if b < 0xf0 then (4096 * (b % 16), 4096 * (b % 16) + 4095)
  else (262144 * (b % 8), 262144 * (b % 8) + 262143)

/-- The bytes that the characters start with that have the property. -/
def leadsWhere (m : Mode) (p : Nat → Bool) : ByteSet :=
  fun b =>
    if !m.utf || b < 0x80 then p b
    else if b < 0xc2 || 0xf4 < b then false
    else if b < 0xc4 then (List.range 64).any fun k => p (64 * (b % 32) + k)
    else true

/-- Does the item of a class have a character that starts with the byte, which is one of several? -/
def ClassItem.startsWith (b : Nat) (caseless : Bool) : ClassItem → Bool
  | .range lo hi =>
    let (first, last) := leadRange b
    let meets (lo hi : Nat) : Bool := lo ≤ last && first ≤ hi
    meets lo hi ||
      (caseless && (256 < hi - lo ||
        (List.range (hi - lo + 1)).any fun k =>
          (Unicode.orbit (lo + k)).any fun d => meets d d))
  | .kind k negated =>
    negated || (k = .horizontal && 0xe1 ≤ b && b ≤ 0xe3) || (k = .vertical && b = 0xe2)
  | .property .. => true

namespace CharClass

def isComplement (k : CharClass) : Bool :=
  k.negated && match k.items with | [.range lo hi] => lo = hi | _ => false

/-- Does the class ask for properties of characters? -/
def asksProperties (m : Mode) (k : CharClass) : Bool :=
  k.items.any fun
    | .range .. => false
    | .property .. => true
    | .kind .horizontal _ | .kind .vertical _ | .kind .ascii _ | .kind .blank _ => false
    | .kind _ _ => m.ucp

/-- Are all characters of the class past the bytes? -/
def isWide (k : CharClass) : Bool :=
  k.items.all fun
    | .range lo _ => 0x100 ≤ lo
    | _ => false

/-- The bytes that members of the class start with, if that is of use. -/
def leads? (m : Mode) (k : CharClass) : Option ByteSet :=
  if k.isComplement || k.asksProperties m || (m.utf && k.negated && k.isWide) then none
  else
    some fun b =>
      if m.utf && 0xc4 ≤ b then
        k.negated || k.items.any (·.startsWith b k.caseless)
      else leadsWhere m (k.holds m) b

end CharClass

def Piece.leads? (m : Mode) (p : Piece) : Option ByteSet :=
  match p.single? m with
  | some (c, caseless) =>
    let cs := if caseless then caseVariants m c else [c]
    some fun b => cs.any fun d => (m.bytes d).head? = some b
  | none =>
    let spaces (k : Kind) (wide : List Nat) : ByteSet := fun b =>
      if m.utf && 0x80 ≤ b then wide.contains b else k.holds m b
    match p with
    | .newline => some (spaces .vertical [0xc2, 0xe2])
    | .atom (.kind .vertical false) => some (spaces .vertical [0xc2, 0xe2])
    | .atom (.kind .horizontal false) => some (spaces .horizontal [0xc2, 0xe1, 0xe2, 0xe3])
    | .atom (.kind .vertical true) | .atom (.kind .horizontal true) => none
    | .atom (.kind k negated) =>
      if m.ucp then none
      else some fun b =>
        if m.utf && 0x80 ≤ b then negated && 0xc0 ≤ b else k.holdsAscii b != negated
    | .atom (.set k) => k.leads? m
    | .atom _ => none

/-- What is known of the bytes that a node starts with. -/
inductive Leads where
  | unknown
  | some (s : ByteSet)
  /-- It does so if it does not match nothing. -/
  | orNext (s : ByteSet)

namespace Leads

def union (s t : ByteSet) : ByteSet := fun b => s b || t b

def both : Leads → Leads → Leads
  | .unknown, _ | _, .unknown => .unknown
  | .some s, .some t => .some (union s t)
  | .some s, .orNext t | .orNext s, .some t | .orNext s, .orNext t => .orNext (union s t)

/-- What is known of two items in a row. -/
def andThen : Leads → Leads → Leads
  | .unknown, _ => .unknown
  | .some s, _ => .some s
  | .orNext _, .unknown => .unknown
  | .orNext s, .some t => .some (union s t)
  | .orNext s, .orNext t => .orNext (union s t)

def optional : Leads → Leads
  | .some s => .orNext s
  | k => k

def none : Leads := .orNext fun _ => false

end Leads

namespace Node

def leads (m : Mode) : Node → Leads
  | .empty | .anchor (.lineStart false) | .anchor (.wordEdge _) => .none
  | .seq a b => (leads m a).andThen (leads m b)
  | .alt a b => (leads m a).both (leads m b)
  | .piece p => match p.leads? m with | some s => .some s | none => .unknown
  | .group _ body => leads m body
  | .look d _ body => if d.behind || d.negated then .none else leads m body
  | .repeated q body =>
    if q.max = some 0 then .none
    else if q.min = 0 then (leads m body).optional
    else leads m body
  | _ => .unknown

/-- Does a node match one character at least? Behind an end that is declared, this is not asked. -/
def mustConsume : Node → Bool
  | .piece _ => true
  | .seq (.verb .accept) _ => false
  | .seq a b => mustConsume a || mustConsume b
  | .alt a b => mustConsume a && mustConsume b
  | .group _ body | .behind _ body => mustConsume body
  | .choice _ two yes no | .lookChoice _ _ two _ yes no =>
    two && mustConsume yes && mustConsume no
  | .repeated q body => 0 < q.min && mustConsume body
  | _ => false

end Node

namespace Whole

variable (w : Whole)

mutual

/-- The least number of characters that a node matches, if it can be told; `active` are the groups
that it stands in. -/
def minLength (fuel : Nat) (active : List Nat) (n : Node) : Option Nat :=
  match n with
  | .piece (.atom .byte) => if w.mode.utf then none else some 1
  | .piece _ => some 1
  | .reference groups _ => if w.numbersRepeat then some 0 else leastOf fuel active groups
  | .call 0 => some 0
  | .call g => groupLength fuel active g
  | .seq a b => do return (← minLength fuel active a) + (← minLength fuel active b)
  | .alt a b => do return min (← minLength fuel active a) (← minLength fuel active b)
  | .group (.capture g) body => minLength fuel (g :: active) body
  | .group _ body | .behind _ body => minLength fuel active body
  | .choice _ two yes no | .lookChoice _ _ two _ yes no =>
    if two then do return min (← minLength fuel active yes) (← minLength fuel active no)
    else some 0
  | .repeated q body => if q.min = 0 then some 0 else (minLength fuel active body).map (q.min * ·)
  | _ => some 0
termination_by (fuel, sizeOf n, 0)

def groupLength (fuel : Nat) (active : List Nat) (g : Nat) : Option Nat :=
  match fuel with
  | 0 => some 0
  | fuel + 1 =>
    if active.contains g then some 0
    else
      match w.root.group? g with
      | none => some 0
      | some body => minLength fuel (g :: active) body
termination_by (fuel, 0, 0)

def leastOf (fuel : Nat) (active : List Nat) (groups : List Nat) : Option Nat :=
  match groups with
  | [] => some 0
  | [g] => groupLength fuel active g
  | g :: gs => do return min (← groupLength fuel active g) (← leastOf fuel active gs)
termination_by (fuel, 0, groups.length + 1)

end

end Whole

/-- What is known of where matches start. -/
structure Start where
  anchored : Bool
  /-- Where this byte is, up to case if so marked. -/
  first : Option (Nat × Bool) := none
  /-- Before a place where this byte is. -/
  required : Option (Nat × Bool) := none
  atLine : Bool := false
  leads : Option (Array Bool) := none
  minLength : Nat := 0

namespace Start

/-- What is known of an expression. Without `optimize`, only whether it is anchored. -/
def of (w : Whole) (anchored optimize dotStar : Bool) : Start :=
  let m := w.mode
  let ties : Node.Ties := ⟨w.root, dotStar && !w.root.hasJump⟩
  let anchored := anchored || ties.subject {} w.root = .tied
  if !optimize then { anchored }
  else
    let (marks, _) := w.root.landmarks m none false
    let mayAccept := w.root.anywhere (· = .verb .accept)
    let last := if mayAccept then Mark.unknown else marks.required
    let first := match marks.first with
      | .byte b caseless _ => some (b, caseless)
      | _ =>
        match w.root.asserted m false with
        | .byte b caseless => some (b, caseless)
        | _ => none
    let atLine := first.isNone && !anchored && ties.line {} w.root = .tied
    let required := match last with
      | .byte b caseless vary => if !anchored || vary then some (b, caseless) else none
      | _ => none
    let leads := if first.isSome || atLine then Leads.unknown else w.root.leads m
    let leads := match leads with
      | .some s => some ((Array.range 256).map s)
      | _ => none
    let isTail := m.utf && match last, first with
      | .byte r _ _, some (f, _) => 0x80 ≤ r && 0x80 ≤ f
      | _, _ => false
    let fromMarks :=
      (if first.isSome then 1 else 0) + (if last.isByte && !isTail then 1 else 0)
    let fromMarks := if leads.isSome then max fromMarks 1 else fromMarks
    let fromTree :=
      if !w.root.mustConsume || mayAccept then 0
      else (w.minLength (w.groups + 1) [] w.root).getD 0
    { anchored, first, required, atLine, leads,
      minLength := max fromMarks (min fromTree 65535) }

end Start

end Rematch.Regex
