import Rematch.Flags
import Rematch.Quoted

/-! # Patterns and their notation

A pattern is an expression with its options. Where the options can be told by letters, a pattern is
written between slashes with the letters behind; without any, the bare expression will do. The
notation is read back by its last slash, so that an expression may hold any number of them. -/

namespace Rematch

inductive Newline where
  | any | cr | lf | crlf | anyCrlf | nul
  deriving DecidableEq, Repr

namespace Newline

def all : List Newline := [any, cr, lf, crlf, anyCrlf, nul]

def name : Newline → String
  | any => "Any" | cr => "Cr" | lf => "Lf" | crlf => "Crlf" | anyCrlf => "AnyCrlf" | nul => "Nul"

end Newline

inductive Bsr where
  | unicode | anyCrlf
  deriving DecidableEq, Repr

namespace Bsr

def all : List Bsr := [unicode, anyCrlf]

def name : Bsr → String
  | unicode => "Unicode" | anyCrlf => "AnyCrlf"

end Bsr

structure Pattern where
  expression : String
  flags : Flags := ∅
  /-- What ends a line, where that is not left to the engine. -/
  newline : Option Newline := none
  /-- What the escape for newlines matches, where that is not left to the engine. -/
  bsr : Option Bsr := none

namespace Pattern

/-- A pattern as it is written: bare when it has no options, else between slashes. -/
def display (p : Pattern) : String :=
  if p.flags.isEmpty then p.expression else "/" ++ p.expression ++ "/" ++ Flags.text p.flags

/-- Splits at the last slash, if there is one: what stands before it and behind it. -/
def splitLastSlash : List Char → Option (List Char × List Char)
  | [] => none
  | c :: cs =>
    match splitLastSlash cs with
    | some (front, back) => some (c :: front, back)
    | none => if c = '/' then some ([], cs) else none

/-- Reads a pattern: an expression between slashes and letters behind, or else a bare expression.
Fails with the first character that is no letter of an option. -/
def parse (s : String) : Except Char Pattern :=
  match s.toList with
  | '/' :: cs =>
    match splitLastSlash cs with
    | some (front, back) =>
      (Flags.ofLetters back).map fun flags => { expression := String.ofList front, flags }
    | none => .ok { expression := s }
  | _ => .ok { expression := s }

def inspectOption (name : Option String) : String :=
  match name with
  | some n => s!"Some({n})"
  | none => "None"

def inspect (p : Pattern) : String :=
  "Pattern \x7b expression: " ++ Quoted.text p.expression ++ ", flags: " ++ p.flags.inspect ++
    ", newline: " ++ inspectOption (p.newline.map Newline.name) ++ ", bsr: " ++
    inspectOption (p.bsr.map Bsr.name) ++ " \x7d"

end Pattern

end Rematch
