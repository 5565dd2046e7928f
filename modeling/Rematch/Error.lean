import Rematch.Quoted
import Rematch.Utf8

/-! # Errors -/

namespace Rematch

/-- An expression that does not compile. -/
structure CompileError where
  pattern : String
  message : String
  /-- The byte of the expression where that was noticed. -/
  offset : Nat
  deriving DecidableEq, Repr

namespace CompileError

def display (e : CompileError) : String := s!"{e.pattern} ({e.offset}): {e.message}"

def inspect (e : CompileError) : String :=
  "CompileError \x7b pattern: " ++ Quoted.text e.pattern ++ ", message: " ++
    Quoted.text e.message ++ s!", offset: {e.offset} \x7d"

end CompileError

/-- Why an operation gave no answer. -/
inductive Error where
  | compile (e : CompileError)
  /-- The engine returned a code that is neither success nor failure to match. -/
  | engine (code : Int) (message : String)
  | noMemory
  | notFound (name : String)
  /-- Bytes that should be a text are none. -/
  | utf8 (e : Utf8.Invalid)
  | invalidFlag (c : Char)
  deriving DecidableEq, Repr

namespace Error

def display : Error → String
  | compile e => e.display
  | engine code message => s!"unexpected return code from pcre2_match: {code} ({message})"
  | noMemory => "A memory allocation failed."
  | notFound name => s!"no capture group named `{name}`"
  | utf8 e => e.message
  | invalidFlag c => s!"invalid pattern flag: {c}"

def inspect : Error → String
  | compile e => s!"Compile({e.inspect})"
  | engine code message =>
    s!"Engine \x7b code: {code}, message: " ++ Quoted.text message ++ " \x7d"
  | noMemory => "NoMem"
  | notFound name => s!"NotFound(NotFound({Quoted.text name}))"
  | utf8 e => s!"Utf8({e.inspect})"
  | invalidFlag c => s!"InvalidFlag({Quoted.char c})"

end Error

/-- A request that only a mistaken caller can make. -/
structure Panic where
  text : String
  deriving DecidableEq, Repr

namespace Bytes

/-- The bytes between two offsets, for a caller who knows that these are those of a slice. -/
def expectSlice (b : Bytes) (start stop : Nat) : Except Panic Bytes :=
  if stop < start then .error ⟨s!"slice index starts at {start} but ends at {stop}"⟩
  else if b.length < stop then
    .error ⟨s!"range end index {stop} out of range for slice of length {b.length}"⟩
  else .ok (b.slice start stop)

/-- The bytes from an offset on, for a caller who knows that there is one. -/
def expectFrom (b : Bytes) (start : Nat) : Except Panic Bytes :=
  if b.length < start then
    .error ⟨s!"range start index {start} out of range for slice of length {b.length}"⟩
  else .ok (b.drop start)

theorem expectSlice_eq_ok_iff {b c : Bytes} {start stop : Nat} :
    b.expectSlice start stop = .ok c ↔ b.slice? start stop = some c := by
  unfold expectSlice slice?
  split
  · next h => simp [Nat.not_le.2 h]
  · split
    · next h => simp [Nat.not_le.2 h]
    · next h h' => simp [Nat.le_of_not_lt h, Nat.le_of_not_lt h']

theorem expectSlice_eq_error_iff {b : Bytes} {start stop : Nat} :
    (∃ p, b.expectSlice start stop = .error p) ↔ b.slice? start stop = none := by
  have hok := @expectSlice_eq_ok_iff b
  cases h : b.expectSlice start stop with
  | error p =>
    refine iff_of_true ⟨p, rfl⟩ (Option.eq_none_iff_forall_ne_some.2 fun c hc => ?_)
    cases h.symm.trans (hok.2 hc)
  | ok c => rw [hok.1 h]; simp

theorem expectFrom_eq_ok_iff {b c : Bytes} {start : Nat} :
    b.expectFrom start = .ok c ↔ start ≤ b.length ∧ c = b.drop start := by
  unfold expectFrom
  split
  · next h => simp [Nat.not_le.2 h]
  · next h => simp [Nat.le_of_not_lt h, eq_comm]

end Bytes

end Rematch
