import SqlDump.Alter.Header
import SqlDump.Column.Parse
import SqlDump.Statement.Constraint
import SqlDump.Syntax.Nesting

/-!
The changes that ALTER statements make to tables: keys and columns. A change is read as the first
of these that its text has the shape of: a primary key, a changed column, a foreign key, another
key, a new column.
-/

namespace SqlDump

/-- The table and the columns that a foreign key refers to. -/
structure Reference where
  table : Text
  columns : List Text := []
  deriving DecidableEq, Repr

/-- A change to a table. A column is defined by the first of the names given with it; a key without
a name of its own takes one from its columns. -/
inductive Change where
  | primaryKey (columns : List Text)
  | unique (name : Option Text) (columns : List Text)
  | index (name : Option Text) (columns : List Text)
  | foreignKey (name : Option Text) (columns : List Text) (reference : Option Reference)
  | modify (columns : List Text) (definition : Option Column)
  | addColumn (columns : List Text) (definition : Option Column)
  deriving DecidableEq, Repr

/-- A change and the table it is made to, where that is known. -/
structure Clause where
  table : Option Text
  change : Change
  deriving DecidableEq, Repr

namespace Clause

/-- The columns that a list of key columns names; lengths and directions behind them are passed
over, and so is what starts with no name. -/
def keyColumns (content : Text) : List Text :=
  (Nesting.pieces ',' true content).filterMap fun part =>
    (Identifier.read? part).map fun (raw, _) => Identifier.bare raw

/-- The text itself, if it starts with a group. -/
def atGroup? (s : Text) : Option Text := if Text.startsWith "(" s then some s else none

/-- What a key clause can start with before its keyword: ADD, and CONSTRAINT with a name or
without. -/
def constrained (s : Text) : List (Option Text × Text) :=
  let s := skipPhrase ["ADD"] s
  constraintReadings s ++ [(none, s)]

/-- The columns of a primary key, from their parenthesis on. -/
def primaryKey? (s : Text) : Option Text :=
  (constrained s).findSome? fun (_, r) => do
    let r ← (phrase? ["PRIMARY", "KEY"] r).filter wordEnds
    atGroup? (r.dropWhile (· ≠ '('))

/-- The name of a foreign key and its columns from their parenthesis on. A name behind the keyword
is passed over. -/
def foreignKey? (s : Text) : Option (Option Text × Text) :=
  (constrained s).findSome? fun (name, r) => do
    let r := Text.trimLeft (← phrase? ["FOREIGN", "KEY"] r)
    let columns ← [skipPhrase ["IF", "NOT", "EXISTS"] r, r].findSome? fun r =>
      (do let (_, r) ← Identifier.read? r; atGroup? (Text.trimLeft r)) <|> atGroup? r
    pure (name, columns)

/-- The table that a foreign key refers to, as written, and the columns from their parenthesis
on. -/
def references? (s : Text) : Option (Text × Text) := do
  let r ← keyword? "REFERENCES" (Text.trimLeft s) >>= gap?
  let (raw, r) ← Identifier.qualified? r
  pure (raw, ← atGroup? (Text.trimLeft r))

/-- What follows a keyword and KEY or INDEX behind it, then what follows it alone. -/
def keyReadings (word s : Text) : List Text :=
  match keyword? word s with
  | none => []
  | some r => (gap? r >>= anyKeyword? ["KEY", "INDEX"]).toList ++ [r]

/-- What can follow the keywords of a key, and whether they make it unique. Only the letters of
the alphabet spell the keyword that does. -/
def keyKeywords (s : Text) : List (Bool × Text) :=
  let isUnique := Text.startsWith "UNIQUE" (Text.upper (s.take 6))
  ((keyReadings "UNIQUE" s ++ (keyword? "KEY" s).toList ++ (keyword? "INDEX" s).toList ++
    keyReadings "FULLTEXT" s ++ keyReadings "SPATIAL" s).filter wordEnds).map (isUnique, ·)

/-- The columns of a key from their parenthesis on, behind blanks and the method that USING may
name. -/
def keyBody? (s : Text) : Option Text :=
  let s := Text.trimLeft s
  (do
    let r ← keyword? "USING" s >>= gap?
    let (_, r) ← Text.run? isWord r
    atGroup? (Text.trimLeft r)) <|> atGroup? s

/-- A key's name, if it has one, and its columns from their parenthesis on. The word USING is no
name. -/
def keyName? (s : Text) : Option (Option Text × Text) :=
  if (word? "USING" s).isSome then none
  else
    ((Identifier.readings s).findSome? fun (raw, r) => (keyBody? r).map (some raw, ·)) <|>
      (keyBody? s).map (none, ·)

/-- Where a name can be looked for behind a gap: past all blanks or, if there are several, before
the last ones, where none will be found. -/
def gapEnds (s : Text) : List Text :=
  match s with
  | c :: d :: r =>
    if isBlank c && isBlank d then [Text.trimLeft s, d :: r] else (gap? s).toList
  | _ => (gap? s).toList

/-- Whether a key is unique, its name, and its columns from their parenthesis on. -/
def key? (s : Text) : Option (Bool × Option Text × Text) :=
  (constrained s).findSome? fun (_, r) =>
    (keyKeywords r).findSome? fun (isUnique, r) =>
      let t := Text.trimLeft r
      (((phrase? ["IF", "NOT", "EXISTS"] t).toList.flatMap gapEnds ++ [t, r]).findSome?
        keyName?).map (isUnique, ·)

/-- The column behind a keyword and the text of its definition. Neither COLUMN nor the phrase is
a name, unless that leaves no name or no definition. -/
def columnBehind? (word : Text) (phrase : List Text) (s : Text) : Option (Text × Text) := do
  let r ← keyword? word s >>= gap?
  let starts := (keyword? "COLUMN" r >>= gap?).toList ++ [r]
  (starts.flatMap fun r => (phrase? phrase r >>= gap?).toList ++ [r]).findSome? namedText?

/-- Words that start an ADD clause which adds no column. -/
def reservedWords : List Text := [
  "PRIMARY", "UNIQUE", "KEY", "INDEX", "CONSTRAINT", "FOREIGN", "FULLTEXT", "SPATIAL", "CHECK",
  "PARTITION", "PERIOD", "SYSTEM"]

/-- Whether a name as written is one of those words. -/
def isReserved (raw : Text) : Bool :=
  !(raw.head?.any isNameMark) && reservedWords.contains (Text.upper raw)

/-- A foreign key with its columns from their parenthesis on. -/
def foreignChange (name : Option Text) (s : Text) : Option Change := do
  let (columns, r) ← Nesting.group? s
  let (table, r) ← references? r
  let (refColumns, _) ← Nesting.group? r
  pure (.foreignKey (some ((name.map Identifier.bare).getD [])) (keyColumns columns)
    (some { table := Identifier.bare table, columns := keyColumns refColumns }))

/-- Another key with its columns from their parenthesis on. Its first column names one without a
name. -/
def keyChange (isUnique : Bool) (name : Option Text) (s : Text) : Option Change := do
  let (content, _) ← Nesting.group? s
  let columns := keyColumns content
  let first ← columns.head?
  let name := some ((name.map Identifier.bare).getD first)
  pure (if isUnique then .unique name columns else .index name columns)

/-- The change that a text describes. Once it has the shape of a change it is no other one, even
if it turns out to be incomplete. -/
def readChange (s : Text) : Except ReadError (Option Change) :=
  match primaryKey? s with
  | some r => .ok ((Nesting.group? r).map fun (content, _) => .primaryKey (keyColumns content))
  | none =>
  match columnBehind? "MODIFY" ["IF", "EXISTS"] s with
  | some (raw, text) => do
    return (← Column.parse text).map fun column => .modify [Identifier.bare raw] (some column)
  | none =>
  match foreignKey? s with
  | some (name, r) => .ok (foreignChange name r)
  | none =>
  match key? s with
  | some (isUnique, name, r) => .ok (keyChange isUnique name r)
  | none =>
  match columnBehind? "ADD" ["IF", "NOT", "EXISTS"] s with
  | some (raw, text) =>
    if isReserved raw then .ok none
    else do
      return (← Column.parse text).map fun column => .addColumn [Identifier.bare raw] (some column)
  | none => .ok none

/-- The clause of an ALTER TABLE statement with one change, or of the change alone. -/
def parse (text : Text) : Except ReadError (Option Clause) := do
  let (header, body) := Alter.split text
  return (← readChange body).map fun change =>
    { table := header.map Identifier.bare, change }

end Clause

end SqlDump
