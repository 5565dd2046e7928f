/-! # The version of the engine -/

namespace Rematch

structure Version where
  major : Nat := 0
  minor : Nat := 0
  patch : Nat := 0
  deriving DecidableEq, Repr

namespace Version

/-- The version of the engine with its date. -/
def text : String := "10.46 2025-08-27"

/-- Reads the number that a text begins with. Parts that are missing are zero. -/
def ofText (s : String) : Version :=
  let parts := (((s.splitOn " ").headD "").splitOn ".").map fun p => p.toNat?.getD 0
  ⟨parts.headD 0, parts[1]?.getD 0, parts[2]?.getD 0⟩

def current : Version := ofText text

/-- The number with points between its parts. -/
def display (v : Version) : String := s!"{v.major}.{v.minor}.{v.patch}"

end Version

end Rematch
