import Rematch.Engine
import Rematch.NameTable

/-! # Compiled patterns -/

namespace Rematch

structure Compiled (κ : Type) where
  /-- Tells compilations apart: copies of one compiled pattern share it, and two compilations have
  different ones even of equal expressions. -/
  serial : Nat
  expression : String
  /-- What the engine made of it. -/
  code : κ

namespace Compiled
variable {κ : Type} [Engine κ]

def groups (p : Compiled κ) : Nat := Engine.groups p.code

def size (p : Compiled κ) : Nat := Engine.size p.code

def names (p : Compiled κ) : NameTable :=
  let (table, entrySize) := Engine.nameRecords p.code
  NameTable.decode table entrySize

/-- The name of each group, the whole match first. -/
def captureNames (p : Compiled κ) : List (Option String) := p.names.captureNames p.groups

/-- Do both stem from one compilation? -/
def isSame (p q : Compiled κ) : Bool := p.serial == q.serial

/-- A compiled pattern is written as its expression. -/
def display (p : Compiled κ) : String := p.expression

/-- The fields by name; `showSize` writes the size. -/
def inspect (p : Compiled κ) (showSize : Nat → String := toString) : String :=
  "CompiledPattern \x7b expression: " ++ Quoted.text p.expression ++ ", size: " ++
    showSize p.size ++ s!", groups: {p.groups} \x7d"

end Compiled

end Rematch
