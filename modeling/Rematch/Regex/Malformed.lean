import Rematch.Utf8

/-! # Subjects that are not in UTF-8

In UTF mode a subject is looked through before it is searched. The look goes by the longer sequences
that were once allowed: the first byte says how many are to follow, and a sequence is refused for
the first of these reasons that holds: it is cut off, one of its bytes is out of place, there is a
shorter one for its character, its character does not exist, or it is too long as such. -/

namespace Rematch.Regex

/-- What is wrong with a sequence of bytes. -/
inductive Malformed where
  /-- So many bytes are missing at the end. -/
  | missing (n : Nat)
  /-- The byte with that number is not one to follow. -/
  | misplaced (n : Nat)
  /-- A sequence of five or six bytes. -/
  | tooLong (n : Nat)
  | tooGreat
  | surrogate
  /-- A sequence of so many bytes for a character that has a shorter one. -/
  | overlong (n : Nat)
  | isolated
  /-- A byte that is never used. -/
  | illegal
  deriving DecidableEq, Repr

namespace Malformed

def code : Malformed → Int
  | missing n => -2 - n
  | misplaced n => -6 - n
  | tooLong n => -8 - n
  | tooGreat => -15
  | surrogate => -16
  | overlong n => -15 - n
  | isolated => -22
  | illegal => -23

def all : List Malformed :=
  [missing 1, missing 2, missing 3, missing 4, missing 5, misplaced 2, misplaced 3, misplaced 4,
   misplaced 5, misplaced 6, tooLong 5, tooLong 6, tooGreat, surrogate, overlong 2, overlong 3,
   overlong 4, overlong 5, overlong 6, isolated, illegal]

def message (e : Malformed) : String :=
  "UTF-8 error: " ++ match e with
    | missing 1 => "1 byte missing at end"
    | missing n => s!"{n} bytes missing at end"
    | misplaced n => s!"byte {n} top bits not 0x80"
    | tooLong n => s!"{n}-byte character is not allowed (RFC 3629)"
    | tooGreat => "code points greater than 0x10ffff are not defined"
    | surrogate => "code points 0xd800-0xdfff are not defined"
    | overlong n => s!"overlong {n}-byte sequence"
    | isolated => "isolated byte with 0x80 bit set"
    | illegal => "illegal byte (0xfe or 0xff)"

def following (b : UInt8) : Nat :=
  if b < 0xe0 then 1 else if b < 0xf0 then 2 else if b < 0xf8 then 3 else if b < 0xfc then 4 else 5

/-- The least second byte that is not there for a shorter sequence. -/
def leastSecond (b : UInt8) : UInt8 :=
  if b = 0xe0 then 0xa0 else if b = 0xf0 then 0x90 else if b = 0xf8 then 0x88
  else if b = 0xfc then 0x84 else 0x80

/-- What is wrong with a sequence whose bytes are all there, `b` being the first. -/
def ofSequence? (b : UInt8) (tail : Bytes) : Option Malformed :=
  let n := tail.length + 1
  match tail.findIdx? fun c => !Utf8.isContinuation c with
  | some i => some (misplaced (i + 2))
  | none =>
    let second := tail.headD 0x80
    if b < 0xc2 || second < leastSecond b then some (overlong n)
    else if b = 0xed && 0xa0 ≤ second then some surrogate
    else if 4 < n then some (tooLong n)
    else if 0xf4 < b || (b = 0xf4 && 0x8f < second) then some tooGreat
    else none

/-- What is wrong first with the bytes, looking at `fuel` sequences at most. -/
def find? : (fuel : Nat) → Bytes → Option Malformed
  | 0, _ | _, [] => none
  | fuel + 1, b :: rest =>
    if b < 0x80 then find? fuel rest
    else if b < 0xc0 then some isolated
    else if 0xfe ≤ b then some illegal
    else
      let n := following b
      if rest.length < n then some (missing (n - rest.length))
      else
        match ofSequence? b (rest.take n) with
        | some e => some e
        | none => find? fuel (rest.drop n)

def of? (b : Bytes) : Option Malformed := find? b.length b

end Malformed

end Rematch.Regex
