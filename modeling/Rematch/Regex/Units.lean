import Rematch.Pattern
import Rematch.Utf8

/-! # Characters and newlines in a subject

Expressions and subjects are read as characters at byte offsets: in UTF mode a character has up to
four bytes, else each byte is one. -/

namespace Rematch.Regex

/-- Bytes with the way to read characters in them. -/
structure Units where
  bytes : Array UInt8
  utf : Bool

namespace Units

def size (u : Units) : Nat := u.bytes.size

def byte (u : Units) (i : Nat) : Nat := (u.bytes[i]?.getD 0).toNat

def width (first : Nat) : Nat :=
  if first < 0xc0 then 1 else if first < 0xe0 then 2 else if first < 0xf0 then 3 else 4

/-- The character at an offset and its length in bytes. -/
def get (u : Units) (i : Nat) : Nat × Nat :=
  let a := u.byte i
  if !u.utf || a < 0xc0 then (a, 1)
  else
    let tail (k : Nat) := u.byte (i + k) % 64
    match width a with
    | 2 => (64 * (a % 32) + tail 1, 2)
    | 3 => (64 * (64 * (a % 16) + tail 1) + tail 2, 3)
    | _ => (64 * (64 * (64 * (a % 8) + tail 1) + tail 2) + tail 3, 4)

/-- The offset of the character that the byte at `i` belongs to, looking back over at most `fuel`
bytes. -/
def floor (u : Units) (i : Nat) : (fuel : Nat) → Nat
  | 0 => i
  | fuel + 1 =>
    match i with
    | 0 => 0
    | j + 1 => if u.byte i / 64 = 2 then u.floor j fuel else i

def prev (u : Units) (i : Nat) : Nat := if u.utf then u.floor (i - 1) 6 else i - 1

def next (u : Units) (i : Nat) : Nat :=
  let rec skip (i : Nat) : (fuel : Nat) → Nat
    | 0 => i
    | fuel + 1 => if i < u.size && u.byte i / 64 = 2 then skip (i + 1) fuel else i
  if u.utf then skip (i + 1) 6 else i + 1

/-- The length of the newline at an offset, none if there is no newline. -/
def newlineAt (u : Units) (n : Newline) (i : Nat) : Option Nat :=
  if u.size ≤ i then none
  else
    let c := (u.get i).1
    let crlf := c = 0x0d && i + 1 < u.size && u.byte (i + 1) = 0x0a
    match n with
    | .cr => if c = 0x0d then some 1 else none
    | .lf => if c = 0x0a then some 1 else none
    | .nul => if c = 0 then some 1 else none
    | .crlf => if crlf then some 2 else none
    | .anyCrlf => if crlf then some 2 else if c = 0x0d || c = 0x0a then some 1 else none
    | .any =>
      if crlf then some 2
      else if 0x0a ≤ c && c ≤ 0x0d then some 1
      else if c = 0x85 then some (if u.utf then 2 else 1)
      else if c = 0x2028 || c = 0x2029 then some 3
      else none

/-- Does a newline end at the offset? -/
def newlineBefore (u : Units) (n : Newline) (i : Nat) : Bool :=
  match i with
  | 0 => false
  | _ + 1 =>
    let c := (u.get (u.prev i)).1
    match n with
    | .cr => c = 0x0d
    | .lf => c = 0x0a
    | .nul => c = 0
    | .crlf => 2 ≤ i && c = 0x0a && u.byte (i - 2) = 0x0d
    | .anyCrlf => c = 0x0d || c = 0x0a
    | .any => (0x0a ≤ c && c ≤ 0x0d) || c = 0x85 || c = 0x2028 || c = 0x2029

end Units

end Rematch.Regex
