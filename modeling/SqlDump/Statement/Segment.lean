import SqlDump.Syntax.Keyword
import SqlDump.Text.Lines

/-!
Clean text, and its segments. Routines hold semicolons, so dumps put them into regions: a
DELIMITER line tells what ends a statement from there on, up to the next such line.
-/

namespace SqlDump

/-- The text without blank lines and lines that are comments, and without blanks at line ends. -/
def cleanText (text : Text) : Text :=
  Text.join "\n" (((Text.lines text).filter fun line =>
    !Text.allBlank line && !Text.startsWith "--" (Text.trimLeft line)).map Text.trimRight)

namespace Delimiter

def isTab (c : Char) : Bool := c = ' ' || c = '\t'

/-- The token that a line declares as the delimiter, if that is all it does. -/
def declared? (line : Text) : Option Text := do
  let r ← keyword? "DELIMITER" (line.dropWhile isTab)
  guard ((r.head?).any isTab)
  let (token, r) ← Text.run? (!isBlank ·) (r.dropWhile isTab)
  guard (r.all isTab)
  pure token

/-- The delimiters other than the semicolon that a text declares, each once. -/
def allDeclared (text : Text) : List Text :=
  Text.distinct (((Text.feeds text).filterMap declared?).filter (· ≠ [';']))

end Delimiter

/-- Lines of a text that stand together: in a region with its own delimiter, or in none. -/
structure Segment where
  delimiter : Option Text
  lines : List Text
  deriving DecidableEq, Repr

namespace Segment

def text (s : Segment) : Text := Text.join "\n" s.lines

/-- Puts a line before the first segment. -/
def extend (line : Text) : List Segment → List Segment
  | [] => [⟨none, [line]⟩]
  | s :: rest => { s with lines := line :: s.lines } :: rest

/-- The segments of lines, the first one going on in a region with `delimiter`, or in none. A
line that declares the semicolon closes a region; outside regions it is a line like any other. -/
def ofLines : Option Text → List Text → List Segment
  | delimiter, [] => [⟨delimiter, []⟩]
  | delimiter, line :: lines =>
    match Delimiter.declared? line with
    | none => extend line (ofLines delimiter lines)
    | some token =>
      if token = [';'] then
        match delimiter with
        | none => extend line (ofLines none lines)
        | some _ => ⟨delimiter, []⟩ :: ofLines none lines
      else ⟨delimiter, []⟩ :: ofLines (some token) lines

/-- The segments of a text, in order. -/
def split (text : Text) : List Segment := ofLines none (Text.feeds text)

end Segment

end SqlDump
