import Rematch.Regex.Node
import Rematch.Utf8

/-! # Bytes that every match has

Of many expressions it is known what byte every match starts with, and a byte further on that every
match must have. Both are found in one pass over the tree: the items of a branch one after the
other, then the branches of a group against each other. What is claimed of an item is withdrawn when
it turns out that the item may be left out. -/

namespace Rematch.Regex

/-- What is known of a byte. -/
inductive Mark where
  /-- Nothing has been matched yet that could tell. -/
  | unset
  | unknown
  /-- It is this one, up to case if so marked; `vary` says that it comes behind something of
  variable length. -/
  | byte (b : Nat) (caseless vary : Bool)
  deriving DecidableEq, Repr

namespace Mark

def isByte : Mark → Bool
  | byte .. => true
  | _ => false

/-- Says that the byte can be one of several, if nothing is known of it. -/
def settle : Mark → Mark
  | unset => unknown
  | k => k

/-- The same byte behind something that has variable length, if it has. -/
def behind (v : Bool) : Mark → Mark
  | byte b caseless vary => byte b caseless (vary || v)
  | k => k

end Mark

/-- The first byte of all matches, and the last known byte that they all have. -/
structure Landmarks where
  first : Mark := .unset
  required : Mark := .unset
  deriving DecidableEq, Repr

namespace Landmarks

/-- What two branches have in common. -/
def join (a b : Landmarks) : Landmarks :=
  let differ := a.first ≠ b.first
  let aRequired :=
    if differ && a.first.isByte && !a.required.isByte then a.first else a.required
  let first := if differ then Mark.unknown else a.first
  let bRequired :=
    if !first.isByte && b.first.isByte && !b.required.isByte then b.first else b.required
  let required :=
    match aRequired, bRequired with
    | .byte x i v, .byte y j w => if x = y && i = j then .byte y j (v || w) else .unknown
    | x, y => if x = y then x else .unknown
  ⟨first, required⟩

end Landmarks

/-- The landmarks of the items so far. -/
structure Trail where
  marks : Landmarks := {}
  /-- What they would be without the last item. -/
  without : Landmarks := {}
  /-- Has the last item, a group, set the first byte? -/
  groupSetFirst : Bool := false
  vary : Bool

namespace Trail

def opaqueItem (t : Trail) : Trail :=
  let marks := { t.marks with first := t.marks.first.settle }
  { t with marks, without := marks }

def literal (bytes : List Nat) (caseless : Bool) (t : Trail) : Trail :=
  let usable := bytes.length = 1 || !caseless
  let last := bytes.getLastD 0
  match t.marks.first with
  | .unset =>
    let without := { t.marks with first := .unknown }
    let marks : Landmarks :=
      if !usable then ⟨.unknown, .unknown⟩
      else
        { first := .byte (bytes.headD 0) caseless false
          required := if bytes.length = 1 then t.marks.required else .byte last false t.vary }
    { t with marks, without }
  | _ =>
    let required := if usable then .byte last caseless t.vary else t.marks.required
    { t with marks := { t.marks with required }, without := t.marks }

/-- A group with these landmarks; `vary` says whether something of variable length has come before
it. -/
def group (sub : Landmarks) (vary : Bool) (t : Trail) : Trail :=
  let first := t.marks.first
  let fromGroup := first = .unset && sub.first.isByte
  let without :=
    if first = .unset && sub.first ≠ .unset then { t.marks with first := .unknown } else t.marks
  let newFirst := if first = .unset then sub.first else first
  let required :=
    if first ≠ .unset && sub.first.isByte && !sub.required.isByte then sub.first.behind vary
    else sub.required
  let required := if required.isByte then required else t.marks.required
  { t with marks := ⟨newFirst, required⟩, without, groupSetFirst := fromGroup }

/-- An item that settles the first byte, and would do so even if it were left out. -/
def settle (t : Trail) : Trail :=
  match t.marks.first with
  | .unset =>
    { t with
      marks := { t.marks with first := .unknown }
      without := { t.without with first := .unknown } }
  | _ => t

/-- A repetition of the last item; `byte` says which byte that was, up to case if so marked, and
`isGroup` that it was a group. -/
def times (q : Repeat) (byte : Option (Nat × Bool)) (isGroup : Bool) (t : Trail) : Trail :=
  let t := if q.min = 0 then { t with marks := t.without } else t
  let required :=
    if q.min ≤ 1 then t.marks.required
    else
      match byte with
      | some (b, caseless) => .byte b caseless t.vary
      | none =>
        if isGroup && t.groupSetFirst && !t.marks.required.isByte then t.marks.first
        else t.marks.required
  { t with marks := { t.marks with required }, vary := t.vary || q.max ≠ some q.min }

end Trail

/-- The single character that a class stands for, and whether its case matters. -/
def CharClass.single? (m : Mode) (k : CharClass) : Option (Nat × Bool) :=
  match k with
  | ⟨false, [.range lo hi], caseless⟩ => if lo = hi then some (lo, caseless) else none
  | ⟨false, [.range lo hi, .range lo' hi'], false⟩ =>
    -- Both cases of one letter that has no third.
    if lo = hi && lo' = hi' && lo ≠ lo' && (Unicode.orbit lo).length = 2 &&
      (caseVariants m lo).contains lo' then some (lo, true)
    else none
  | _ => none

def Mode.bytes (m : Mode) (c : Nat) : List Nat :=
  if m.utf then (Utf8.encode [Char.ofNat c]).map UInt8.toNat else [c]

def Piece.single? (m : Mode) : Piece → Option (Nat × Bool)
  | .atom (.literal c caseless) => some (c, caseless)
  | .atom (.set k) => k.single? m
  | _ => none

/-- Has the character more than two cases that are all matched? -/
def Mode.hasManyCases (m : Mode) (c : Nat) (caseless : Bool) : Bool :=
  caseless && (m.utf || m.ucp) && 2 < (Unicode.orbit c).length

/-- The single byte that a node stands for, and whether its case matters. -/
def Node.byte? (m : Mode) : Node → Option (Nat × Bool)
  | .piece p =>
    match p.single? m with
    | some (c, caseless) =>
      if (m.bytes c).length = 1 && !m.hasManyCases c caseless then some (c, caseless) else none
    | none => none
  | _ => none

/-- One character or newline sequence. A letter with more than two cases is no landmark. -/
def Trail.piece (m : Mode) (p : Piece) (t : Trail) : Trail :=
  match p.single? m with
  | some (c, caseless) =>
    if m.hasManyCases c caseless then t.settle else t.literal (m.bytes c) caseless
  | none => t.opaqueItem

def Node.isGroup : Node → Bool
  | .group .. | .look .. | .choice .. | .lookChoice .. | .call _ => true
  | _ => false

namespace Node

mutual

def trail (m : Mode) (n : Node) (t : Trail) : Trail :=
  match n with
  | .seq a b => trail m b (trail m a t)
  | .piece p => t.piece m p
  | .anchor (.lineStart true) | .reference .. => t.settle
  | .anchor (.lineStart false) | .anchor (.lineEnd _) | .empty | .missing _ => t
  | .anchor _ | .keep => { t with without := t.marks }
  | .verb .accept => { t with marks := { t.marks with first := t.marks.first.settle } }
  | .verb _ => t
  | .call _ =>
    let marks := { t.marks with first := t.marks.first.settle }
    { t with marks, without := { t.without with first := marks.first }, groupSetFirst := false }
  | .alt a b =>
    let (l, vary) := landmarks m a none t.vary
    let (sub, vary) := landmarks m b (some l) vary
    { t.group sub t.vary with vary }
  | .group _ body =>
    let (sub, vary) := landmarks m body none t.vary
    { t.group sub t.vary with vary }
  | .behind _ body => trail m body t
  | .look d _ body =>
    let (sub, vary) := landmarks m body none t.vary
    let t := { t with without := t.marks, groupSetFirst := false, vary }
    if !d.behind && !d.negated && sub.first.isByte && sub.required.isByte then
      { t with marks := { t.marks with required := sub.required } }
    else t
  | .choice c two yes no =>
    let (sub, vary) := landmarks m yes none t.vary
    if c = .never then { t with vary }
    else if two then
      let (sub, vary) := landmarks m no (some sub) vary
      { t.group sub t.vary with vary }
    else { t.group ⟨.unknown, .unknown⟩ t.vary with vary }
  | .lookChoice d o two test yes no =>
    let tested := trail m (.look d o test) { vary := t.vary }
    let first := trail m yes tested
    if two then
      let (sub, vary) := landmarks m no (some first.marks) first.vary
      { t.group sub t.vary with vary }
    else { t.group ⟨.unknown, .unknown⟩ t.vary with vary := first.vary }
  | .repeated q body => (trail m body t).times q (body.byte? m) body.isGroup
termination_by (sizeOf n, 0)

/-- The landmarks of branches, taken together with those in `before` if there are any; and whether
there has been something of variable length. -/
def landmarks (m : Mode) (n : Node) (before : Option Landmarks) (vary : Bool) :
    Landmarks × Bool :=
  let join (t : Trail) : Landmarks × Bool :=
    (match before with
      | some l => l.join t.marks
      | none => t.marks, t.vary)
  match n with
  | .alt a b =>
    let (l, vary) := join (trail m a { vary })
    landmarks m b (some l) vary
  | n => join (trail m n { vary })
termination_by (sizeOf n, 1)

end

end Node

end Rematch.Regex
