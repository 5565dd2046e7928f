import Rematch.Bytes

/-! # UTF-8

`encode` writes characters as bytes. `decode` reads them back and says where and how it failed;
`lossy` reads anything and puts one replacement character in the place of each longest run of bytes
that begins a character but does not complete it. Both walk the bytes once, carrying the character
they are inside of. -/

namespace Rematch.Utf8

def encode (cs : List Char) : Bytes := cs.flatMap String.utf8EncodeChar

def ofString (s : String) : Bytes := encode s.toList

@[simp] theorem encode_nil : encode [] = [] := rfl

@[simp] theorem encode_cons (c : Char) (cs : List Char) :
    encode (c :: cs) = String.utf8EncodeChar c ++ encode cs := rfl

@[simp] theorem encode_append (cs ds : List Char) : encode (cs ++ ds) = encode cs ++ encode ds := by
  simp [encode]

/-- A character some of whose bytes have been read. -/
structure Begun where
  seen : Nat
  /-- How many are still to come, after the next. -/
  owed : Nat
  /-- The next byte is between the two. -/
  low : UInt8
  high : UInt8
  /-- The bits read so far. -/
  value : Nat
  deriving DecidableEq, Repr

/-- What a first byte says. -/
inductive Lead where
  | whole (c : Char)
  | begun (p : Begun)
  | illegal
  deriving DecidableEq, Repr

/-- Reads a first byte. The range of the second byte keeps out characters that have a shorter form,
surrogates, and values past the last code point. -/
def lead (b : UInt8) : Lead :=
  let v := b.toNat
  if b < 0x80 then .whole (Char.ofNat v)
  else if b < 0xc2 then .illegal
  else if b < 0xe0 then .begun ⟨1, 0, 0x80, 0xbf, v % 32⟩
  else if b = 0xe0 then .begun ⟨1, 1, 0xa0, 0xbf, v % 16⟩
  else if b = 0xed then .begun ⟨1, 1, 0x80, 0x9f, v % 16⟩
  else if b < 0xf0 then .begun ⟨1, 1, 0x80, 0xbf, v % 16⟩
  else if b = 0xf0 then .begun ⟨1, 2, 0x90, 0xbf, v % 8⟩
  else if b < 0xf4 then .begun ⟨1, 2, 0x80, 0xbf, v % 8⟩
  else if b = 0xf4 then .begun ⟨1, 2, 0x80, 0x8f, v % 8⟩
  else .illegal

/-- What a further byte makes of a character begun. -/
inductive Next where
  | whole (c : Char)
  | begun (p : Begun)
  /-- The byte does not belong to the character. -/
  | misfit
  deriving DecidableEq, Repr

def Begun.next (p : Begun) (b : UInt8) : Next :=
  if b < p.low || p.high < b then .misfit
  else
    let v := 64 * p.value + b.toNat % 64
    match p.owed with
    | 0 => .whole (Char.ofNat v)
    | n + 1 => .begun ⟨p.seen + 1, n, 0x80, 0xbf, v⟩

/-- Why bytes are no text. -/
structure Invalid where
  /-- The length of the longest start that is a text. -/
  validUpTo : Nat
  /-- How many bytes after it are no part of any text; none when more bytes could complete them. -/
  errorLen : Option Nat
  deriving DecidableEq, Repr

namespace Invalid

def message (e : Invalid) : String :=
  match e.errorLen with
  | some n => s!"invalid utf-8 sequence of {n} bytes from index {e.validUpTo}"
  | none => s!"incomplete utf-8 byte sequence from index {e.validUpTo}"

def inspect (e : Invalid) : String :=
  let length := match e.errorLen with
    | some n => s!"Some({n})"
    | none => "None"
  s!"Utf8Error \x7b valid_up_to: {e.validUpTo}, error_len: {length} \x7d"

end Invalid

/-- Reads bytes inside of a character, or between two when there is none; `pos` is the offset of
the character. -/
def decodeFrom (pos : Nat) : Option Begun → Bytes → Except Invalid (List Char)
  | none, [] => .ok []
  | some _, [] => .error ⟨pos, none⟩
  | none, b :: rest =>
    match lead b with
    | .whole c => (decodeFrom (pos + 1) none rest).map (c :: ·)
    | .begun p => decodeFrom pos (some p) rest
    | .illegal => .error ⟨pos, some 1⟩
  | some p, b :: rest =>
    match p.next b with
    | .whole c => (decodeFrom (pos + p.seen + 1) none rest).map (c :: ·)
    | .begun q => decodeFrom pos (some q) rest
    | .misfit => .error ⟨pos, some p.seen⟩

/-- The characters whose bytes these are. -/
def decode (b : Bytes) : Except Invalid (List Char) := decodeFrom 0 none b

def text (b : Bytes) : Except Invalid String := (decode b).map String.ofList

def replacement : Char := '\uFFFD'

/-- Reads bytes inside of a character, or between two when there is none, replacing what does not
fit. -/
def lossyFrom : Option Begun → Bytes → List Char
  | none, [] => []
  | some _, [] => [replacement]
  | none, b :: rest =>
    match lead b with
    | .whole c => c :: lossyFrom none rest
    | .begun p => lossyFrom (some p) rest
    | .illegal => replacement :: lossyFrom none rest
  | some p, b :: rest =>
    match p.next b with
    | .whole c => c :: lossyFrom none rest
    | .begun q => lossyFrom (some q) rest
    | .misfit =>
      replacement ::
        match lead b with
        | .whole c => c :: lossyFrom none rest
        | .begun q => lossyFrom (some q) rest
        | .illegal => replacement :: lossyFrom none rest

def lossy (b : Bytes) : String := String.ofList (lossyFrom none b)

def isContinuation (b : UInt8) : Bool := 0x80 ≤ b && b < 0xc0

end Rematch.Utf8
