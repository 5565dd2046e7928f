import Rematch.Scan

/-! # Searching a file line by line

Every match in every line of a file is listed with the number of the line, its offsets in the line,
its text, and the texts of the groups. The groups are those of a second attempt, made on the rest of
the line from where the match starts and tied to that place. What is cut out of the line is believed to
be in order and within it; where it is not, the program breaks off. -/

namespace Rematch.LineSearch

variable {κ : Type} [Engine κ]

structure Entry where
  /-- The number of the line, counted from one. -/
  line : Nat
  span : Span
  bytes : Bytes
  groups : List (Option Bytes)
  deriving DecidableEq, Repr

namespace Entry

/-- A group as a text; a hyphen stands for one that is absent. -/
def groupText : Option Bytes → String
  | some b => Utf8.lossy b
  | none => "-"

def display (e : Entry) : String :=
  s!"{e.line}:{e.span.start}..{e.span.stop}: " ++ Utf8.lossy e.bytes ++ " " ++
    Quoted.items (e.groups.map fun g => Quoted.text (groupText g))

end Entry

inductive ReadError where
  | notFound
  | permissionDenied
  | isDirectory
  | other (message : String)

def ReadError.message : ReadError → String
  | notFound => "No such file or directory (os error 2)"
  | permissionDenied => "Permission denied (os error 13)"
  | isDirectory => "Is a directory (os error 21)"
  | other message => message

/-- What was being done when an error came up, with the error. -/
inductive Failure where
  | compile (e : Error)
  | read (e : ReadError)
  | allocate (e : Error)
  | scan (e : Error)
  | groups (e : Error)

namespace Failure

def context : Failure → String
  | compile _ => "compile pattern"
  | read _ => "read input file"
  | allocate _ => "allocate matcher"
  | scan _ => "scan line"
  | groups _ => "match groups"

def cause : Failure → String
  | compile e | allocate e | scan e | groups e => e.display
  | read e => e.message

def display (f : Failure) : String :=
  "Error: " ++ f.context ++ "\n\nCaused by:\n    " ++
    "\n    ".intercalate (f.cause.splitOn "\n") ++ "\n"

end Failure

/-- What can keep the program from going on. -/
inductive Stop where
  | failed (f : Failure)
  | panicked (p : Panic)

/-- The lines of a file, without their ends. There is one line at least. -/
def lines (b : Bytes) : List Bytes := b.splitOn 0x0a

/-- The bytes of a group, if it is present. -/
def readGroup : Option Match → Except Panic (Option Bytes)
  | some g => g.expectBytes.map some
  | none => .ok none

/-- The groups behind the whole match, as the last attempt left them. -/
def groupsOf (m : Matcher κ) : Except Panic (List (Option Bytes)) :=
  m.captures.toList.tail.mapM readGroup

/-- What came of one line or several: the entries with the matcher as it is then, and what put an end
to it all if anything did. -/
structure Progress (κ : Type) where
  entries : List Entry
  matcher : Matcher κ
  stop : Option Stop := none

def atStart : MatchFlags := .single .anchored

/-- The entry of a match whose groups are those that the matcher shows. -/
def entryOf (m : Matcher κ) (number : Nat) (line : Bytes) (span : Span) : Except Panic Entry := do
  let groups ← groupsOf m
  let bytes ← line.expectSlice span.start span.stop
  return ⟨number, span, bytes, groups⟩

/-- The entries of the matches of a line, each after a second attempt. -/
def describe (m : Matcher κ) (number : Nat) (line : Bytes) : List Span → Progress κ
  | [] => ⟨[], m, none⟩
  | span :: spans =>
    match line.expectFrom span.start with
    | .error p => ⟨[], m, some (.panicked p)⟩
    | .ok rest =>
      let r := m.exec (.bytes rest) atStart
      match r.result with
      | .error e => ⟨[], r.matcher, some (.failed (.groups e))⟩
      | .ok _ =>
        match entryOf r.matcher number line span with
        | .error p => ⟨[], r.matcher, some (.panicked p)⟩
        | .ok entry =>
          let q := describe r.matcher number line spans
          { q with entries := entry :: q.entries }

/-- The entries of a line; nothing if the scan of the line does not end. -/
def searchLine (m : Matcher κ) (number : Nat) (line : Bytes) : Option (Progress κ) :=
  (m.findIter (.bytes line) ∅).map fun r =>
    match r.result with
    | .error e => ⟨[], r.matcher, some (.failed (.scan e))⟩
    | .ok spans => describe r.matcher number line spans

/-- The entries of lines from a number on, up to where something stops the program. -/
def searchLines (m : Matcher κ) (number : Nat) : List Bytes → Option (Progress κ)
  | [] => some ⟨[], m, none⟩
  | line :: rest =>
    match searchLine m number line with
    | none => none
    | some p =>
      if p.stop.isSome then some p
      else
        (searchLines p.matcher (number + 1) rest).map fun q =>
          { q with entries := p.entries ++ q.entries }

/-- What the program writes and how it ends. -/
structure Report where
  stdout : String := ""
  stderr : String := ""
  code : Nat := 0
  deriving DecidableEq, Repr

namespace Report

/-- The report of a failure, after what was written before. -/
def failed (stdout : String) (f : Failure) : Report := ⟨stdout, f.display, 1⟩

/-- The report of a panic. (The program also names the place in its own text where that came up.) -/
def panicked (stdout : String) (p : Panic) : Report := ⟨stdout, p.text ++ "\n", 101⟩

/-- The report on what has been written, and on what put an end to that. -/
def ended (stdout : String) : Option Stop → Report
  | none => { stdout }
  | some (.failed f) => failed stdout f
  | some (.panicked p) => panicked stdout p

end Report

def usage (program : String) : String := s!"Usage: {program} <pattern> <input file>\n\n"

def unlines (ls : List String) : String := String.join (ls.map (· ++ "\n"))

def heading (size : Nat) (p : Compiled κ) : String :=
  s!"Scanning {size} bytes for `{p.display}` with {p.groups} groups"

/-- The report on a file that has been read; nothing if the search does not end. -/
def search (p : Compiled κ) (file : Bytes) : Option Report :=
  let heading := heading file.length p
  match (Matcher.new p).result with
  | .error e => some (.failed (unlines [heading]) (.allocate e))
  | .ok m =>
    (searchLines m 1 (lines file)).map fun q =>
      .ended (unlines (heading :: q.entries.map Entry.display)) q.stop

/-- A pattern is compiled so that the line anchors hold at every line. -/
def pattern (expression : String) : Pattern := { expression, flags := .single .multiline }

/-- Runs the program: compiles the first argument, reads the file that the second names, and
searches it. Nothing if the search does not end. -/
def run {m : Type → Type} [Monad m] (κ : Type) [Engine κ] (program : String)
    (readFile : String → m (Except ReadError Bytes)) (args : List String) : m (Option Report) := do
  match args with
  | [expression, path] =>
    match ((pattern expression).build 0 : Reported (Except Error (Compiled κ))).result with
    | .error e => pure (some (.failed "" (.compile e)))
    | .ok p =>
      match ← readFile path with
      | .error e => pure (some (.failed "" (.read e)))
      | .ok file => pure (search p file)
  | _ => pure (some { stderr := usage program, code := 255 })

end Rematch.LineSearch
