import Rematch.Quoted
import Rematch.Utf8

/-! # Subjects

A subject is searched as bytes, but remembers whether it was given as a text: a search that goes on
behind an empty match skips a character of a text and a byte of anything else. A text cut inside of
a character goes on as bytes. -/

namespace Rematch

/-- What is searched. -/
inductive Subject where
  | bytes (b : Bytes)
  | text (s : String)
  deriving DecidableEq, Repr

namespace Subject

instance : Inhabited Subject := ⟨.bytes []⟩

def toBytes : Subject → Bytes
  | bytes b => b
  | text s => Utf8.ofString s

def size (s : Subject) : Nat := s.toBytes.length

def isEmpty (s : Subject) : Bool := s.size == 0

/-- The characters from byte `n` on, if a character starts there or the text ends. -/
def dropBytes : List Char → Nat → Option (List Char)
  | cs, 0 => some cs
  | [], _ + 1 => none
  | c :: cs, n + 1 => if c.utf8Size ≤ n + 1 then dropBytes cs (n + 1 - c.utf8Size) else none

/-- The characters between two offsets, if characters start there or the text ends. -/
def takeBytes : List Char → Nat → Option (List Char)
  | _, 0 => some []
  | [], _ + 1 => none
  | c :: cs, n + 1 =>
    if c.utf8Size ≤ n + 1 then (takeBytes cs (n + 1 - c.utf8Size)).map (c :: ·) else none

/-- Is the offset between two characters of the text, or at one of its ends? -/
def IsBoundary (cs : List Char) (n : Nat) : Prop := (dropBytes cs n).isSome = true

instance (cs : List Char) (n : Nat) : Decidable (IsBoundary cs n) :=
  inferInstanceAs (Decidable (_ = true))

/-- The subject from offset `pos` on. -/
def tail (s : Subject) (pos : Nat) : Subject :=
  match s with
  | bytes b => bytes (b.drop pos)
  | text t =>
    match dropBytes t.toList pos with
    | some rest => text (String.ofList rest)
    | none => bytes ((Utf8.ofString t).drop pos)

/-- The length of the unit at offset `pos`: the character that starts there in a text, else one
byte, and nothing at the end. -/
def unitAt (s : Subject) (pos : Nat) : Nat :=
  if s.size ≤ pos then 0
  else
    match s with
    | bytes _ => 1
    | text t =>
      match dropBytes t.toList pos with
      | some (c :: _) => c.utf8Size
      | _ => 1

/-- The text between two offsets, where the subject is a text and both are at characters. -/
def slice? (s : Subject) (start stop : Nat) : Option String :=
  match s with
  | bytes _ => none
  | text t =>
    if start ≤ stop then
      (dropBytes t.toList start).bind fun rest =>
        (takeBytes rest (stop - start)).map String.ofList
    else none

def inspect : Subject → String
  | bytes b => "Bytes(" ++ Quoted.items (b.map fun x => toString x.toNat) ++ ")"
  | text t => "Str(" ++ Quoted.text t ++ ")"

end Subject

end Rematch
