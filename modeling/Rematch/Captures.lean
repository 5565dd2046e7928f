import Rematch.Compiled
import Rematch.Event
import Rematch.Subject

/-! # What an attempt captured

A view of the last attempt of a matcher. A group is absent, or present with a span that may be
empty. The buffer is believed for as many entries as the attempt has set and for no others. -/

namespace Rematch

/-- A group that took part in a match: a span of a subject. -/
structure Match where
  subject : Subject
  span : Span
  deriving DecidableEq, Repr

namespace Match

def start (m : Match) : Nat := m.span.start

def stop (m : Match) : Nat := m.span.stop

def size (m : Match) : Nat := m.span.width

def isEmpty (m : Match) : Bool := m.span.isEmpty

def toBytes (m : Match) : Bytes := m.subject.toBytes.slice m.start m.stop

/-- The bytes of the group for a caller who knows that its offsets are those of a slice. -/
def expectBytes (m : Match) : Except Panic Bytes := m.subject.toBytes.expectSlice m.start m.stop

/-- The text of the group, or why its bytes are none. -/
def text (m : Match) : Except Error String :=
  match m.subject.slice? m.start m.stop with
  | some s => .ok s
  | none => (Utf8.text m.toBytes).mapError .utf8

/-- The fields by name, the bytes as a text. -/
def inspect (m : Match) : String :=
  s!"Match \x7b start: {m.start}, end: {m.stop}, bytes: " ++ Quoted.text (Utf8.lossy m.toBytes) ++
    " \x7d"

end Match

/-- A view of the groups of the last attempt. -/
structure Captures (κ : Type) where
  pattern : Compiled κ
  slots : Slots
  /-- How many entries of the buffer the attempt has set. -/
  pairs : Nat
  subject : Subject
  outcome : Outcome

namespace Captures
variable {κ : Type} [Engine κ]

def isMatch (c : Captures κ) : Bool := c.outcome.isMatch

def isPartial (c : Captures κ) : Bool := c.outcome = .partiallyMatched

/-- How many groups the pattern captures, the whole match not counted. -/
def groups (c : Captures κ) : Nat := c.pattern.groups

/-- How many groups there are with the whole match. -/
def size (c : Captures κ) : Nat := c.groups + 1

/-- The span of a group that is present. -/
def span? (c : Captures κ) (i : Nat) : Option Span :=
  if c.isMatch && i < c.pairs then (c.slots[i]?).join else none

def present (c : Captures κ) (i : Nat) : Bool := (c.span? i).isSome

def get? (c : Captures κ) (i : Nat) : Option Match := (c.span? i).map (⟨c.subject, ·⟩)

def bytes? (c : Captures κ) (i : Nat) : Option Bytes := (c.get? i).map Match.toBytes

def text? (c : Captures κ) (i : Nat) : Except Error (Option String) :=
  match c.get? i with
  | some m => m.text.map some
  | none => .ok none

def indexOf (c : Captures κ) (name : String) : Except Error Nat :=
  match c.pattern.names.get? name with
  | some i => .ok i
  | none => .error (.notFound name)

def namedPresent (c : Captures κ) (name : String) : Except Error Bool :=
  (c.indexOf name).map c.present

def named? (c : Captures κ) (name : String) : Except Error (Option Match) :=
  (c.indexOf name).map c.get?

def namedText? (c : Captures κ) (name : String) : Except Error (Option String) :=
  match c.indexOf name with
  | .ok i => c.text? i
  | .error e => .error e

/-- The bytes of a group that the caller knows to be present. -/
def expect (c : Captures κ) (i : Nat) : Except Panic Bytes :=
  match c.get? i with
  | some m => m.expectBytes
  | none => .error ⟨s!"no group at index '{i}'"⟩

def expectNamed (c : Captures κ) (name : String) : Except Panic Bytes :=
  match c.named? name with
  | .ok (some m) => m.expectBytes
  | _ => .error ⟨s!"no group named '{name}'"⟩

def toList (c : Captures κ) : List (Option Match) := (List.range c.size).map c.get?

def inspect (c : Captures κ) : String :=
  Quoted.items (c.toList.map fun
    | some m => "Some(" ++ m.inspect ++ ")"
    | none => "None")

/-- The groups that are still to come when they are taken from both ends. -/
structure Cursor (κ : Type) where
  captures : Captures κ
  front : Nat
  back : Nat

def cursor (c : Captures κ) : Cursor κ := ⟨c, 0, c.size⟩

namespace Cursor

def size (k : Cursor κ) : Nat := k.back - k.front

def next (k : Cursor κ) : Option (Option Match) × Cursor κ :=
  if k.front < k.back then (some (k.captures.get? k.front), { k with front := k.front + 1 })
  else (none, k)

def nextBack (k : Cursor κ) : Option (Option Match) × Cursor κ :=
  if k.front < k.back then (some (k.captures.get? (k.back - 1)), { k with back := k.back - 1 })
  else (none, k)

end Cursor

end Captures

end Rematch
