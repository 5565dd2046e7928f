import Rematch.Scan

/-! # Operations on compiled patterns

Each makes a matcher of its own, uses it once and drops it. -/

namespace Rematch.Compiled
variable {κ : Type} [Engine κ]

/-- The answer of an operation on a new matcher. -/
def withNew {α : Type} (p : Compiled κ) (f : Matcher κ → Reply κ α) :
    Reported (Except Error α) :=
  let n := Matcher.new p
  match n.result with
  | .error e => ⟨.error e, n.events⟩
  | .ok m =>
    let r := f m
    ⟨r.result, n.events ++ r.events⟩

/-- The answer of an operation on a new matcher; nothing if the operation does not end. -/
def withNew? {α : Type} (p : Compiled κ) (f : Matcher κ → Option (Reply κ α)) :
    Option (Reported (Except Error α)) :=
  let n := Matcher.new p
  match n.result with
  | .error e => some ⟨.error e, n.events⟩
  | .ok m => (f m).map fun r => ⟨r.result, n.events ++ r.events⟩

/-- A new matcher after one attempt on the subject. -/
def matcher (p : Compiled κ) (subject : Subject) (flags : MatchFlags) :
    Reported (Except Error (Matcher κ)) :=
  p.withNew fun m =>
    let r := m.exec subject flags
    r.map fun _ => r.matcher

def isMatch (p : Compiled κ) (subject : Subject) (flags : MatchFlags) :
    Reported (Except Error Bool) :=
  p.withNew fun m => m.exec subject flags

def findIndex (p : Compiled κ) (subject : Subject) (flags : MatchFlags) :
    Reported (Except Error (Option Span)) :=
  p.withNew fun m => m.findIndex subject flags

def extractAll (p : Compiled κ) (subject : Subject) (flags : MatchFlags) :
    Reported (Except Error (Option (List (Option Match)))) :=
  p.withNew fun m => m.extractAll subject flags

def findIter (p : Compiled κ) (subject : Subject) (flags : MatchFlags) :
    Option (Reported (Except Error (List Span))) :=
  p.withNew? fun m => m.findIter subject flags

def replaceAll (p : Compiled κ) (subject replacement : String) (flags : MatchFlags) :
    Option (Reported (Except Error String)) :=
  p.withNew? fun m => m.replaceAll subject replacement flags

def replaceAllBytes (p : Compiled κ) (subject replacement : Bytes) (flags : MatchFlags) :
    Option (Reported (Except Error Bytes)) :=
  p.withNew? fun m => m.replaceAllBytes subject replacement flags

end Rematch.Compiled
