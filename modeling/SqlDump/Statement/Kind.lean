import SqlDump.ReadError
import SqlDump.Syntax.Identifier
import SqlDump.Text.CaseMap

/-!
Kinds of statements, and the name of the object that a statement of a kind is about.
-/

namespace SqlDump

inductive Kind where
  | createTable
  | createView
  | createFunction
  | createProcedure
  | createTrigger
  | alter
  | insert
  | drop
  | misc
  deriving DecidableEq, Repr

/-- A name, which may follow a phrase and a gap. Words of the phrase are themselves names where
none follows it. -/
def nameBehind? (phrase : List Text) (s : Text) : Option (Text × Text) :=
  (phrase? phrase s >>= gap? >>= Identifier.qualified?) <|> Identifier.qualified? s

/-- What stands after CREATE TABLE and its options, IF NOT EXISTS apart. -/
def createTable? (s : Text) : Option Text := do
  let r ← keyword? "CREATE" s >>= gap?
  let r := skipPhrase ["OR", "REPLACE"] r
  let r := skipPhrase ["TEMPORARY"] r
  keyword? "TABLE" r >>= gap?

/-- The name, as written, that a CREATE TABLE statement gives, and what follows it. -/
def createdTable? (s : Text) : Option (Text × Text) :=
  createTable? s >>= nameBehind? ["IF", "NOT", "EXISTS"]

/-- The name of what CREATE makes of a kind that `word` tells. Only options may stand between the
two words, so no parenthesis is passed. -/
def createdObject? (word : Text) (s : Text) : Option (Text × Text) := do
  let r ← word? "CREATE" s
  let (_, found) ← Text.search (· = '(') (fun before t =>
    if wordStarts before then
      keyword? word t >>= gap? >>= nameBehind? ["IF", "NOT", "EXISTS"]
    else none) (some 'E') r
  pure found

/-- The name that an ALTER TABLE statement starts with, and what follows it. -/
def alteredTable? (s : Text) : Option (Text × Text) := do
  let r ← keyword? "ALTER" s >>= gap?
  let r := skipWords ["ONLINE", "IGNORE"] r.length r
  keyword? "TABLE" r >>= gap? >>= Identifier.qualified?

/-- What stands after INSERT INTO. -/
def insertInto? (s : Text) : Option Text := do
  let r ← keyword? "INSERT" s >>= gap?
  let r := skipWords ["LOW_PRIORITY", "DELAYED", "HIGH_PRIORITY", "IGNORE"] r.length r
  keyword? "INTO" r >>= gap?

/-- The name that a DROP statement is about, and what follows it. -/
def droppedObject? (s : Text) : Option (Text × Text) := do
  let r ← keyword? "DROP" s >>= gap?
  let r := skipPhrase ["TEMPORARY"] r
  let r ← anyKeyword? ["TABLE", "VIEW", "FUNCTION", "PROCEDURE", "TRIGGER", "DATABASE", "SCHEMA"] r
  gap? r >>= nameBehind? ["IF", "EXISTS"]

/-- The name, as written, that a statement of a kind is about. -/
def Kind.rawName? : Kind → Text → Option (Text × Text)
  | .createTable, s => createdTable? s
  | .createView, s => createdObject? "VIEW" s
  | .createFunction, s => createdObject? "FUNCTION" s
  | .createProcedure, s => createdObject? "PROCEDURE" s
  | .createTrigger, s => createdObject? "TRIGGER" s
  | .alter, s => alteredTable? s
  | .insert, s => insertInto? s >>= Identifier.qualified?
  | .drop, s => droppedObject? s
  | .misc, _ => none

/-- The name of the object that a query of a kind is about, without quotes and schema. -/
def Kind.nameIn (kind : Kind) (query : Text) : Option Text :=
  (kind.rawName? (Text.trim query)).map fun (raw, _) => Identifier.bare raw

/-- The names of the queries that have one which is not empty. -/
def Kind.namesIn (kind : Kind) (queries : List Text) : List Text :=
  (queries.filterMap kind.nameIn).filter (!·.isEmpty)

/-- The name of the first function, procedure or trigger that the query mentions. -/
def routineName? (query : Text) : Option Text := do
  let (_, raw, _) ← Text.find (fun before t =>
    if wordStarts before then
      anyKeyword? ["FUNCTION", "PROCEDURE", "TRIGGER"] t >>= gap? >>=
        nameBehind? ["IF", "NOT", "EXISTS"]
    else none) query
  pure (Identifier.bare raw)

end SqlDump
