/-! # Sets of named options

An option has a name and one bit of a 32-bit word. A set of options is known by its members; words,
lists of names and letters are ways to write it down. -/

namespace Rematch

class Named (α : Type) where
  /-- The options in order of declaration. -/
  all : List α
  mem_all : ∀ a, a ∈ all
  name : α → String
  bit : α → UInt32

structure OptionSet (α : Type) where
  has : α → Bool

namespace OptionSet
variable {α : Type}

@[ext] theorem ext {s t : OptionSet α} (h : ∀ a, s.has a = t.has a) : s = t := by
  cases s; cases t; exact congrArg mk (funext h)

def empty : OptionSet α := ⟨fun _ => false⟩

instance : Inhabited (OptionSet α) := ⟨empty⟩
instance : EmptyCollection (OptionSet α) := ⟨empty⟩

def union (s t : OptionSet α) : OptionSet α := ⟨fun a => s.has a || t.has a⟩

def inter (s t : OptionSet α) : OptionSet α := ⟨fun a => s.has a && t.has a⟩

def symmDiff (s t : OptionSet α) : OptionSet α := ⟨fun a => s.has a ^^ t.has a⟩

def sdiff (s t : OptionSet α) : OptionSet α := ⟨fun a => s.has a && !t.has a⟩

def compl (s : OptionSet α) : OptionSet α := ⟨fun a => !s.has a⟩

instance : Union (OptionSet α) := ⟨union⟩
instance : Inter (OptionSet α) := ⟨inter⟩
instance : SDiff (OptionSet α) := ⟨sdiff⟩

@[simp] theorem has_empty (a : α) : (∅ : OptionSet α).has a = false := rfl
@[simp] theorem has_union (s t : OptionSet α) (a : α) : (s ∪ t).has a = (s.has a || t.has a) := rfl
@[simp] theorem has_inter (s t : OptionSet α) (a : α) : (s ∩ t).has a = (s.has a && t.has a) := rfl
@[simp] theorem has_sdiff (s t : OptionSet α) (a : α) : (s \ t).has a = (s.has a && !t.has a) := rfl
@[simp] theorem has_compl (s : OptionSet α) (a : α) : s.compl.has a = !s.has a := rfl

section single
variable [DecidableEq α]

def single (a : α) : OptionSet α := ⟨fun b => b = a⟩

def insert (s : OptionSet α) (a : α) : OptionSet α := single a ∪ s

def ofList (as : List α) : OptionSet α := ⟨fun a => as.contains a⟩

@[simp] theorem has_single (a b : α) : (single a).has b = decide (b = a) := rfl
@[simp] theorem has_insert (s : OptionSet α) (a b : α) :
    (s.insert a).has b = (decide (b = a) || s.has b) := rfl
@[simp] theorem has_ofList (as : List α) (a : α) : (ofList as).has a = as.contains a := rfl

end single

section named
variable [Named α]

def toList (s : OptionSet α) : List α := (Named.all (α := α)).filter s.has

theorem mem_toList (s : OptionSet α) (a : α) : a ∈ s.toList ↔ s.has a = true := by
  simp [toList, Named.mem_all]

def isEmpty (s : OptionSet α) : Bool := s.toList.isEmpty

def isAll (s : OptionSet α) : Bool := s.compl.isEmpty

def contains (s t : OptionSet α) : Bool := (t \ s).isEmpty

def intersects (s t : OptionSet α) : Bool := !(s ∩ t).isEmpty

/-- The word with the bits of the members. -/
def bits (s : OptionSet α) : UInt32 := s.toList.foldl (fun w a => w ||| Named.bit a) 0

/-- The options whose bits a word has, whatever else it has. -/
def ofBits (w : UInt32) : OptionSet α := ⟨fun a => w &&& Named.bit a = Named.bit a⟩

/-- The options whose bits a word has, if it has no other bits. -/
def ofBits? (w : UInt32) : Option (OptionSet α) :=
  if (ofBits w : OptionSet α).bits = w then some (ofBits w) else none

/-- The names of the members, or a note that there are none. -/
def inspect (s : OptionSet α) : String :=
  if s.isEmpty then "(empty)" else " | ".intercalate (s.toList.map Named.name)

end named

end OptionSet

end Rematch
