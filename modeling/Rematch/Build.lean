import Rematch.Compiled
import Rematch.Event

/-! # Compiling patterns

The ways from an expression or a written pattern to a compiled one. A zero byte in an expression is
refused before the engine sees it. -/

namespace Rematch

variable {κ : Type} [Engine κ]

/-- The answer of an operation with what it reported on the way. -/
structure Reported (α : Type) where
  result : α
  events : List Event := []

def zeroByte? (b : Bytes) : Option Nat := b.findIdx? (· == 0)

def Flags.read (s : String) : Except Error Flags := (ofLetters s.toList).mapError .invalidFlag

namespace Pattern

def read (s : String) : Reported (Except Error Pattern) :=
  match Pattern.parse s with
  | .ok p => ⟨.ok p, [.parsed s p]⟩
  | .error c => ⟨.error (.invalidFlag c), []⟩

/-- Compiles a pattern; `serial` tells this compilation from all others. -/
def build (p : Pattern) (serial : Nat) : Reported (Except Error (Compiled κ)) :=
  match zeroByte? (Utf8.ofString p.expression) with
  | some offset => ⟨.error (.compile ⟨p.expression, "NUL byte in pattern", offset⟩), []⟩
  | none =>
    match Engine.compile p with
    | .error r =>
      ⟨.error (.compile ⟨p.expression, r.message, r.offset⟩), [.rejected p r.message]⟩
    | .ok code =>
      let c : Compiled κ := ⟨serial, p.expression, code⟩
      ⟨.ok c, [.compiled c.expression c.size c.groups c.names.size]⟩

/-- Compiles a pattern of which the caller is sure. -/
def mustBuild (p : Pattern) (serial : Nat) : Reported (Except Panic (Compiled κ)) :=
  let r := p.build serial
  ⟨r.result.mapError fun e => ⟨e.display⟩, r.events⟩

end Pattern

namespace Compiled

/-- Reads a written pattern and compiles it. -/
def read (s : String) (serial : Nat) : Reported (Except Error (Compiled κ)) :=
  let r := Pattern.read s
  match r.result with
  | .error e => ⟨.error e, r.events⟩
  | .ok p =>
    let b := p.build serial
    ⟨b.result, r.events ++ b.events⟩

end Compiled

end Rematch
