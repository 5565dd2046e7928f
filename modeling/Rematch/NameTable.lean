import Rematch.Utf8

/-! # Names of groups

An engine lists the names of groups as records of one size: the number of the group in two bytes,
high byte first, then the name, ended by a zero byte unless it fills the record. A name table holds
each name once, with the lowest number listed for it. -/

namespace Rematch

structure NameTable where
  entries : List (String × Nat) := []
  deriving DecidableEq, Repr

namespace NameTable

/-- The records of a table. What is too short to be one is left out. -/
def records (size : Nat) (table : Bytes) : List Bytes :=
  (List.range (table.length / size)).map fun i => (table.drop (size * i)).take size

def readRecord : Bytes → String × Nat
  | high :: low :: rest =>
    (Utf8.lossy (rest.takeWhile (· ≠ 0)), 256 * high.toNat + low.toNat)
  | _ => ("", 0)

/-- The record of a name and number, padded with zero bytes. -/
def writeRecord (size : Nat) (entry : String × Nat) : Bytes :=
  let bytes :=
    UInt8.ofNat (entry.2 / 256) :: UInt8.ofNat entry.2 :: Utf8.ofString entry.1
  bytes ++ List.replicate (size - bytes.length) 0

/-- The least number that a list of entries has for a name. -/
def least? (name : String) (entries : List (String × Nat)) : Option Nat :=
  ((entries.filter (·.1 == name)).map (·.2)).min?

/-- The table of a list of entries, in which names may occur more than once. -/
def ofList (entries : List (String × Nat)) : NameTable :=
  ⟨(entries.map (·.1)).eraseDups.map fun name => (name, (least? name entries).getD 0)⟩

/-- Reads the records that an engine lists. A record of two bytes or less has no room for a name. -/
def decode (table : Bytes) (size : Nat) : NameTable :=
  if 2 < size then ofList ((records size table).map readRecord) else {}

def get? (t : NameTable) (name : String) : Option Nat :=
  (t.entries.find? (·.1 == name)).map (·.2)

def size (t : NameTable) : Nat := t.entries.length

def isEmpty (t : NameTable) : Bool := t.entries.isEmpty

def nameOf? (t : NameTable) (index : Nat) : Option String :=
  (t.entries.find? (·.2 == index)).map (·.1)

/-- The name of each of the groups from 0 to `groups`. -/
def captureNames (t : NameTable) (groups : Nat) : List (Option String) :=
  (List.range (groups + 1)).map t.nameOf?

end NameTable

end Rematch
