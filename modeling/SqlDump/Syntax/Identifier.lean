import SqlDump.Syntax.Keyword

/-!
Identifiers: quoted ones, between backquotes or double quotes and not empty, and bare ones, made
of word characters and dollar signs. A qualified name has a schema and a dot before it.
-/

namespace SqlDump

def isNameChar (c : Char) : Bool := isWord c || c = '$'

/-- The marks that may stand around an identifier. -/
def isNameMark (c : Char) : Bool := c = '\x60' || c = '\x22'

namespace Identifier

/-- The rest of an identifier that `mark` opened: as written, and what follows. -/
def quoted? (mark : Char) (s : Text) : Option (Text × Text) :=
  match s.takeWhile (· ≠ mark), s.dropWhile (· ≠ mark) with
  | c :: u, _ :: r => some (mark :: c :: u ++ [mark], r)
  | _, _ => none

/-- The identifier at the front, as written, and what follows it. -/
def read? : Text → Option (Text × Text)
  | [] => none
  | c :: s => if isNameMark c then quoted? c s else Text.run? isNameChar (c :: s)

/-- Every identifier that can be read at the front, longest first: a bare one may be cut short. -/
def readings : Text → List (Text × Text)
  | [] => []
  | c :: s => if isNameMark c then (quoted? c s).toList else Text.runs isNameChar (c :: s)

/-- What stands after a dot and the blanks around it, and those as written. -/
def dot? (s : Text) : Option (Text × Text) :=
  match s.dropWhile isBlank with
  | '.' :: r => some (s.takeWhile isBlank ++ '.' :: r.takeWhile isBlank, r.dropWhile isBlank)
  | _ => none

/-- The name at the front, qualified or not, as written, and what follows it. -/
def qualified? (s : Text) : Option (Text × Text) := do
  let (a, r) ← read? s
  match (do let (d, r) ← dot? r; let (b, r) ← read? r; pure (d ++ b, r)) with
  | some (b, r) => pure (a ++ b, r)
  | none => pure (a, r)

/-- Every name that can be read at the front, preferred first. -/
def qualifiedReadings (s : Text) : List (Text × Text) :=
  (readings s).flatMap fun (a, r) =>
    (match dot? r with
      | some (d, r) => (readings r).map fun (b, r) => (a ++ d ++ b, r)
      | none => []) ++ [(a, r)]

/-- At most `n` identifiers in order, whatever stands between them. -/
def scan : Nat → Text → List Text
  | 0, _ => []
  | _ + 1, [] => []
  | n + 1, c :: s =>
    match read? (c :: s) with
    | some (u, r) => u :: scan n r
    | none => scan n s

/-- The name without its quotes and its schema: the last identifier of the text. -/
def bare (name : Text) : Text :=
  match (scan name.length name).getLast? with
  | none => Text.trim name
  | some u => ((u.dropWhile isNameMark).reverse.dropWhile isNameMark).reverse

/-- The name between backquotes, unless it is quoted or qualified already. -/
def quote (name : Text) : Text :=
  match Text.trim name with
  | [] => "``"
  | c :: s => if isNameMark c || (c :: s).any (· = '.') then c :: s else "`" ++ (c :: s) ++ "`"

end Identifier

end SqlDump
