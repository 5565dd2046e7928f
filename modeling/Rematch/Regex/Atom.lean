import Rematch.Unicode.Case
import Rematch.Unicode.Category

/-! # Tests of single characters

An atom of an expression accepts or refuses one character. What the named kinds of characters are
depends on the mode: with Unicode properties they follow the general categories, without they are
those of ASCII. Letters of either case are told by Unicode in UTF mode or with properties. -/

namespace Rematch.Regex

structure Mode where
  /-- Code points are characters of Unicode, not bytes. -/
  utf : Bool
  /-- Kinds of characters follow Unicode properties. -/
  ucp : Bool
  deriving DecidableEq, Repr

inductive Kind where
  | alpha | lower | upper | alnum | ascii | blank | cntrl | digit | graph | print | punct | space
  | word | xdigit | horizontal | vertical
  deriving DecidableEq, Repr

namespace Kind

/-- The kinds by the names that they have in classes. -/
def named : List (String × Kind) :=
  [("alpha", alpha), ("lower", lower), ("upper", upper), ("alnum", alnum), ("ascii", ascii),
   ("blank", blank), ("cntrl", cntrl), ("digit", digit), ("graph", graph), ("print", print),
   ("punct", punct), ("space", space), ("word", word), ("xdigit", xdigit)]

def isHorizontal (c : Nat) : Bool :=
  c = 0x09 || c = 0x20 || c = 0xa0 || c = 0x1680 || c = 0x180e || (0x2000 ≤ c && c ≤ 0x200a) ||
    c = 0x202f || c = 0x205f || c = 0x3000

def isVertical (c : Nat) : Bool :=
  (0x0a ≤ c && c ≤ 0x0d) || c = 0x85 || c = 0x2028 || c = 0x2029

def inRange (lo hi : Char) (c : Nat) : Bool := lo.toNat ≤ c && c ≤ hi.toNat

def holdsAscii (k : Kind) (c : Nat) : Bool :=
  let isLower := inRange 'a' 'z' c
  let isUpper := inRange 'A' 'Z' c
  let isDigit := inRange '0' '9' c
  match k with
  | alpha => isLower || isUpper
  | lower => isLower
  | upper => isUpper
  | alnum => isLower || isUpper || isDigit
  | ascii => c < 0x80
  | blank => c = 0x09 || c = 0x20
  | cntrl => c < 0x20 || c = 0x7f
  | digit => isDigit
  | graph => 0x21 ≤ c && c ≤ 0x7e
  | print => 0x20 ≤ c && c ≤ 0x7e
  | punct => 0x21 ≤ c && c ≤ 0x7e && !(isLower || isUpper || isDigit)
  | space => (0x09 ≤ c && c ≤ 0x0d) || c = 0x20
  | word => isLower || isUpper || isDigit || c = '_'.toNat
  | xdigit => isDigit || inRange 'a' 'f' c || inRange 'A' 'F' c
  | horizontal => isHorizontal c
  | vertical => isVertical c

/-- Format characters that leave a mark on the page. -/
def isVisibleFormat (c : Nat) : Bool :=
  Unicode.category c = .cf && c ≠ 0x061c && c ≠ 0x180e && !(0x2066 ≤ c && c ≤ 0x2069)

def holdsUnicode (k : Kind) (c : Nat) : Bool :=
  let category := Unicode.category c
  match k with
  | alpha => category.group = .letter
  | lower => category = .ll
  | upper => category = .lu
  | alnum => category.group = .letter || category.group = .number
  | ascii => c < 0x80
  | blank => isHorizontal c
  | cntrl => category = .cc
  | digit => category = .nd
  | graph =>
    category.group ≠ .separator && (category.group ≠ .other || isVisibleFormat c)
  | print =>
    category ≠ .zl && category ≠ .zp &&
      (category.group ≠ .other || (category = .cf && c ≠ 0x061c && !(0x2066 ≤ c && c ≤ 0x2069)))
  | punct => category.group = .punctuation || (c < 0x80 && category.group = .symbol)
  | space => category.group = .separator || isHorizontal c || isVertical c
  | word => Unicode.isWord c
  | xdigit =>
    holdsAscii .xdigit c || (0xff10 ≤ c && c ≤ 0xff19) || (0xff21 ≤ c && c ≤ 0xff26) ||
      (0xff41 ≤ c && c ≤ 0xff46)
  | horizontal => isHorizontal c
  | vertical => isVertical c

def holds (m : Mode) (k : Kind) (c : Nat) : Bool :=
  if m.ucp then k.holdsUnicode c else k.holdsAscii c

end Kind

inductive Property where
  | any
  | group (g : Unicode.Category.Group)
  | category (c : Unicode.Category)
  | cased
  deriving DecidableEq, Repr

namespace Property

def holds (p : Property) (c : Nat) : Bool :=
  match p with
  | any => true
  | group g => (Unicode.category c).group = g
  | category x => Unicode.category c = x
  | cased => Unicode.isCased c

def ofLetter? : Char → Option Property
  | 'c' => some (group .other)
  | 'l' => some (group .letter)
  | 'm' => some (group .mark)
  | 'n' => some (group .number)
  | 'p' => some (group .punctuation)
  | 's' => some (group .symbol)
  | 'z' => some (group .separator)
  | _ => none

/-- The property of a name in lower case. -/
def ofName? : List Char → Option Property
  | ['a', 'n', 'y'] => some any
  | ['l', '&'] | ['l', 'c'] => some cased
  | [a] => ofLetter? a
  | [a, b] =>
    let x := Unicode.Category.ofName a.toUpper b
    if x = .cn && !(a = 'c' && b = 'n') then none else some (category x)
  | _ => none

/-- Without regard to case, a property of one case is the property of having a case. -/
def relax (p : Property) : Property :=
  match p with
  | category .lu | category .ll | category .lt => cased
  | p => p

end Property

def flipAscii (c : Nat) : Nat :=
  if Kind.inRange 'a' 'z' c then c - 32 else if Kind.inRange 'A' 'Z' c then c + 32 else c

/-- The characters equal to `c` but for case, `c` among them. -/
def caseVariants (m : Mode) (c : Nat) : List Nat :=
  if m.utf || m.ucp then c :: Unicode.orbit c else [c, flipAscii c]

def sameButCase (m : Mode) (c d : Nat) : Bool :=
  c = d || (if m.utf || m.ucp then Unicode.fold c = Unicode.fold d else flipAscii c = d)

inductive ClassItem where
  | range (lo hi : Nat)
  | kind (k : Kind) (negated : Bool)
  | property (p : Property) (negated : Bool)
  deriving DecidableEq, Repr

structure CharClass where
  negated : Bool
  items : List ClassItem
  caseless : Bool
  deriving DecidableEq, Repr

namespace CharClass

def itemHolds (m : Mode) (c : Nat) (variants : List Nat) : ClassItem → Bool
  | .range lo hi => variants.any fun d => lo ≤ d && d ≤ hi
  | .kind k negated => k.holds m c != negated
  | .property p negated => p.holds c != negated

def holds (m : Mode) (k : CharClass) (c : Nat) : Bool :=
  let variants := if k.caseless then caseVariants m c else [c]
  k.items.any (itemHolds m c variants) != k.negated

end CharClass

inductive Atom where
  /-- A character, up to case if so marked. -/
  | literal (c : Nat) (caseless : Bool)
  | any
  /-- Anything that does not start a newline. -/
  | notNewline
  | byte
  | kind (k : Kind) (negated : Bool)
  | property (p : Property) (negated : Bool)
  | set (k : CharClass)
  deriving DecidableEq, Repr

/-- Does the atom accept the character, newlines apart? -/
def Atom.accepts (m : Mode) (a : Atom) (c : Nat) : Bool :=
  match a with
  | literal d caseless => if caseless then sameButCase m c d else c = d
  | any | notNewline | byte => true
  | kind k negated => k.holds m c != negated
  | property p negated => p.holds c != negated
  | set k => k.holds m c

end Rematch.Regex
