import Rematch.Unicode.Category

/-! # Quoted text

A quoted text stands between double quotes, a quoted character between single ones. The quote in
use, a backslash and the common control characters are written with a backslash; a character that
has no shape of its own, or that would be drawn on top of the one before it, is written by its code
point. -/

namespace Rematch.Quoted

/-- One character between the given quotes. -/
def escape (mark c : Char) : List Char :=
  match c with
  | '\x00' => ['\\', '0']
  | '\t' => ['\\', 't']
  | '\r' => ['\\', 'r']
  | '\n' => ['\\', 'n']
  | '\\' => ['\\', '\\']
  | c =>
    if c = mark then ['\\', c]
    else if Unicode.isExtending c.toNat || !Unicode.isPrintable c.toNat then
      ['\\', 'u', '\x7b'] ++ Nat.toDigits 16 c.toNat ++ ['\x7d']
    else [c]

/-- A text between double quotes. -/
def text (s : String) : String :=
  String.ofList ('"' :: s.toList.flatMap (escape '"') ++ ['"'])

/-- A character between single quotes. -/
def char (c : Char) : String :=
  String.ofList ('\'' :: escape '\'' c ++ ['\''])

/-- Items in brackets, with commas between them. -/
def items (xs : List String) : String := "[" ++ ", ".intercalate xs ++ "]"

end Rematch.Quoted
