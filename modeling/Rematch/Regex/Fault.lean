/-! # What can be wrong with an expression -/

namespace Rematch.Regex

/-- Why an expression is not well formed. -/
inductive Fault where
  | trailingBackslash
  | trailingControl
  | unknownEscape
  | quantifierOrder
  | quantifierTooBig
  | unclosedClass
  | classEscape
  | classNotNewline
  | rangeOrder
  | nothingToRepeat
  | unknownGroupOption
  | classNameOutside
  | collatingName
  | noSuchGroup
  | unclosedGroup
  | unmatchedClosing
  | unclosedComment
  | codeTooBig
  | nestTooDeep
  | conditionUnclosed
  | unboundedLookbehind
  | relativeZero
  | tooManyBranches
  | assertionExpected
  | digitExpected
  | unknownClassName
  | bareProperty
  | byteInLookbehind
  | unsupportedEscape
  | unknownAfterP
  | unclosedName
  | unclosedNumber
  | duplicateName
  | nameDigit
  | malformedProperty
  | unknownProperty
  | nameTooLong
  | badRange
  | octalByteTooBig
  | defineBranches
  | badBraceAfterO
  | badReference
  | badRecursion
  | unknownVerb
  | groupTooBig
  | nameExpected
  | badOctal
  | differentNames
  | badHex
  | controlCharacter
  | badNamedReference
  | surrogate
  | digitsMissing
  | unicodeOnly
  | strayHyphen
  | unknownAlpha
  | tooManyGroups
  | keepInLookaround
  | longLookbehind
  | wideLookbehind
  deriving DecidableEq, Repr

namespace Fault

def message : Fault → String
  | trailingBackslash => "\\ at end of pattern"
  | trailingControl => "\\c at end of pattern"
  | unknownEscape => "unrecognized character follows \\"
  | quantifierOrder => "numbers out of order in \x7b\x7d quantifier"
  | quantifierTooBig => "number too big in \x7b\x7d quantifier"
  | unclosedClass => "missing terminating ] for character class"
  | classEscape => "escape sequence is invalid in character class"
  | classNotNewline => "\\N is not supported in a class"
  | rangeOrder => "range out of order in character class"
  | nothingToRepeat => "quantifier does not follow a repeatable item"
  | unknownGroupOption => "unrecognized character after (? or (?-"
  | classNameOutside => "POSIX named classes are supported only within a class"
  | collatingName => "POSIX collating elements are not supported"
  | noSuchGroup => "reference to non-existent subpattern"
  | unclosedGroup => "missing closing parenthesis"
  | unmatchedClosing => "unmatched closing parenthesis"
  | unclosedComment => "missing ) after (?# comment"
  | codeTooBig => "character code point value in \\x\x7b\x7d or \\o\x7b\x7d is too large"
  | nestTooDeep => "parentheses are too deeply nested"
  | conditionUnclosed => "missing closing parenthesis for condition"
  | unboundedLookbehind => "length of lookbehind assertion is not limited"
  | relativeZero => "a relative value of zero is not allowed"
  | tooManyBranches => "conditional subpattern contains more than two branches"
  | assertionExpected => "assertion expected after (?( or (?(?C)"
  | digitExpected => "digit expected after (?+ or (?-"
  | unknownClassName => "unknown POSIX class name"
  | bareProperty => "this version of PCRE2 does not have support for \\P, \\p, or \\X"
  | byteInLookbehind => "\\C is not allowed in a lookbehind assertion in UTF-8 mode"
  | unsupportedEscape => "PCRE2 does not support \\F, \\L, \\l, \\N\x7bname\x7d, \\U, or \\u"
  | unknownAfterP => "unrecognized character after (?P"
  | unclosedName => "syntax error in subpattern name (missing terminator?)"
  | unclosedNumber => "syntax error in subpattern number (missing terminator?)"
  | duplicateName => "two named subpatterns have the same name (PCRE2_DUPNAMES not set)"
  | nameDigit => "subpattern name must start with a non-digit"
  | malformedProperty => "malformed \\P or \\p sequence"
  | unknownProperty => "unknown property after \\P or \\p"
  | nameTooLong => "subpattern name is too long (maximum 128 code units)"
  | badRange => "invalid range in character class"
  | octalByteTooBig => "octal value is greater than \\377 in 8-bit non-UTF-8 mode"
  | defineBranches => "DEFINE subpattern contains more than one branch"
  | badBraceAfterO => "missing opening brace after \\o"
  | badReference => "\\g is not followed by a braced, angle-bracketed, or quoted name/number or " ++
      "by a plain number"
  | badRecursion => "(?R (recursive pattern call) must be followed by a closing parenthesis"
  | unknownVerb => "(*VERB) not recognized or malformed"
  | groupTooBig => "subpattern number is too big"
  | nameExpected => "subpattern name expected"
  | badOctal => "non-octal character in \\o\x7b\x7d (closing brace missing?)"
  | differentNames => "different names for subpatterns of the same number are not allowed"
  | badHex => "non-hex character in \\x\x7b\x7d (closing brace missing?)"
  | controlCharacter => "\\c must be followed by a printable ASCII character"
  | badNamedReference => "\\k is not followed by a braced, angle-bracketed, or quoted name"
  | surrogate => "disallowed Unicode code point (>= 0xd800 && <= 0xdfff)"
  | digitsMissing => "digits missing after \\x or in \\x\x7b\x7d or \\o\x7b\x7d or \\N\x7bU+\x7d"
  | unicodeOnly => "\\N\x7bU+dddd\x7d is supported only in Unicode (UTF) mode"
  | strayHyphen => "invalid hyphen in option setting"
  | unknownAlpha => "(*alpha_assertion) not recognized"
  | tooManyGroups => "too many capturing groups (maximum 65535)"
  | keepInLookaround => "\\K is not allowed in lookarounds (but see " ++
      "PCRE2_EXTRA_ALLOW_LOOKAROUND_BSK)"
  | longLookbehind => "lookbehind assertion is too long"
  | wideLookbehind => "branch too long in variable-length lookbehind assertion"

end Fault

/-- A fault and the offset where it was noticed. -/
structure Misread where
  fault : Fault
  offset : Nat
  deriving DecidableEq, Repr

/-- What a reader of an expression gives. -/
abbrev Read (α : Type) := Except Misread α

def misread {α : Type} (fault : Fault) (offset : Nat) : Read α := .error ⟨fault, offset⟩

end Rematch.Regex
