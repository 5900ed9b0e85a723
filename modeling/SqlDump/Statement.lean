import SqlDump.Definer
import SqlDump.Statement.Segment
import SqlDump.Syntax.Nesting
import SqlDump.Statement.Kind

/-!
Statements of a dump, told apart by their first words. Outside DELIMITER regions they end at
semicolons outside quotes; in a region they end where its delimiter stands.
-/

namespace SqlDump

/-- A statement without what ends it. -/
structure Statement where
  kind : Kind
  /-- The name of the object it is about, if that could be read. -/
  name : Option Text := none
  text : Text
  deriving DecidableEq, Repr

namespace Statement

/-- The words for what CREATE makes. -/
def objectWords : List Text := ["TABLE", "VIEW", "FUNCTION", "PROCEDURE", "TRIGGER"]

/-- The first of the words that stands by itself behind CREATE, in capitals, no character of
`stop` being passed. -/
def createdWord? (stop : Char → Bool) (words : List Text) (s : Text) : Option Text := do
  let r ← word? "CREATE" s
  let (_, word) ← Text.search stop (fun before t =>
    if wordStarts before then
      (anyWord? words t).map fun r => Text.upper (t.take (t.length - r.length))
    else none) (some 'E') r
  pure word

/-- The word for what a statement creates, which stands before any parenthesis or semicolon. -/
def objectWord? (s : Text) : Option Text :=
  createdWord? (fun c => c = '(' || c = ';') objectWords s

/-- The kind of what CREATE makes. A word whose capitals are none of the known words is refused. -/
def objectKind (word : Text) : Except ReadError Kind :=
  match ([("TABLE", .createTable), ("VIEW", .createView), ("FUNCTION", .createFunction),
    ("PROCEDURE", .createProcedure), ("TRIGGER", .createTrigger)] : List (Text × Kind)).lookup
      word with
  | some kind => .ok kind
  | none => .error (.unknownObject word)

def isRoutine (kind : Kind) : Bool :=
  kind = .createFunction || kind = .createProcedure || kind = .createTrigger

/-- A statement of a kind, with its name. -/
def ofKind (kind : Kind) (text : Text) : Statement :=
  { kind, text, name := if isRoutine kind then routineName? text else kind.nameIn text }

/-- The statement that a text outside regions is. -/
def classify (text : Text) : Except ReadError Statement :=
  let keyword := Text.upper (text.takeWhile isWord)
  if keyword = "INSERT" then .ok (ofKind .insert text)
  else if keyword = "ALTER" then .ok (ofKind .alter text)
  else if keyword = "DROP" then .ok (ofKind .drop text)
  else if keyword = "CREATE" then
    match objectWord? text with
    | some word => (objectKind word).map (ofKind · text)
    | none => .ok { kind := .misc, text }
  else .ok { kind := .misc, text }

/-- Drops the opening of a comment that only some versions read, with the version. -/
def skipVersion (s : Text) : Text :=
  match Text.after? "/*!" s with
  | some r => Text.trimLeft (r.dropWhile isDigit)
  | none => s

/-- The statement that a text in a region is: a function, a procedure or a trigger, whose keywords
may stand in comments for versions, and nothing else. -/
def classifyRoutine (text : Text) : Except ReadError Statement :=
  if objectWord? text = some "TABLE" ∨ objectWord? text = some "VIEW" then
    .ok { kind := .misc, text }
  else
    match createdWord? (fun _ => false) ["PROCEDURE", "FUNCTION", "TRIGGER"] (skipVersion text) with
    | some word => do return { kind := ← objectKind word, text, name := routineName? text }
    | none => .ok { kind := .misc, text }

/-- The texts between the delimiters of a region, without blank ones. -/
def fragments (delimiter body : Text) : List Text :=
  ((Text.splitOn delimiter body).map Text.trim).filter (!·.isEmpty)

/-- The statements of a region, given to the account. -/
def ofRegion (account : Account) (delimiter body : Text) : Except ReadError (List Statement) :=
  (fragments delimiter body).mapM fun fragment =>
    Definer.assign account fragment >>= classifyRoutine

/-- The statements of a text outside regions. -/
def ofPlain (text : Text) : Except ReadError (List Statement) :=
  (Nesting.pieces ';' false text).mapM classify

/-- The statements of a segment. -/
def ofSegment (account : Account) (segment : Segment) : Except ReadError (List Statement) :=
  match segment.delimiter with
  | none => ofPlain segment.text
  | some delimiter => ofRegion account delimiter segment.text

/-- The statements of a dump, in order. -/
def split (account : Account) (sql : Text) : Except ReadError (List Statement) := do
  let statements ← (Segment.split (cleanText sql)).mapM (ofSegment account)
  return statements.flatten.filter (!·.text.isEmpty)

/-- The statements of a dump that stand in regions. -/
def inRegions (account : Account) (sql : Text) : Except ReadError (List Statement) := do
  let statements ← ((Segment.split (cleanText sql)).filter (·.delimiter.isSome)).mapM
    (ofSegment account)
  return statements.flatten

end Statement

end SqlDump
