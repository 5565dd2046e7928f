import Rematch.OptionSet

/-! # Options of an attempt -/

namespace Rematch

inductive MatchFlag where
  | anchored
  | endAnchored
  /-- The start of the subject is not the beginning of a line. -/
  | notBol
  /-- The end of the subject is not the end of a line. -/
  | notEol
  | notEmpty
  | notEmptyAtStart
  /-- The subject is taken for valid UTF-8 without a look. -/
  | noUtfCheck
  /-- A partial match is preferred to a complete one. -/
  | partialHard
  /-- A partial match is reported when there is no complete one. -/
  | partialSoft
  deriving DecidableEq, Repr

namespace MatchFlag

instance : Named MatchFlag where
  all := [anchored, endAnchored, notBol, notEol, notEmpty, notEmptyAtStart, noUtfCheck, partialHard,
    partialSoft]
  mem_all a := by cases a <;> decide
  name
    | anchored => "ANCHORED" | endAnchored => "ENDANCHORED" | notBol => "NOTBOL"
    | notEol => "NOTEOL" | notEmpty => "NOTEMPTY" | notEmptyAtStart => "NOTEMPTY_ATSTART"
    | noUtfCheck => "NO_UTF_CHECK" | partialHard => "PARTIAL_HARD" | partialSoft => "PARTIAL_SOFT"
  bit
    | anchored => 0x80000000 | endAnchored => 0x20000000 | notBol => 0x1 | notEol => 0x2
    | notEmpty => 0x4 | notEmptyAtStart => 0x8 | noUtfCheck => 0x40000000 | partialHard => 0x20
    | partialSoft => 0x10

end MatchFlag

abbrev MatchFlags := OptionSet MatchFlag

end Rematch
