import SqlDump.Alter.Clause
import SqlDump.Ordered
import SqlDump.Statement.CreateTable

/-!
Models of tables: the columns with their keys, and what changes do to them.
-/

namespace SqlDump

structure Table where
  name : Text
  columns : Ordered Column := []
  deriving DecidableEq, Repr

/-- The tables of a dump or of a database. -/
abbrev Model := Ordered Table

namespace Column

/-- Takes over a definition. The keys stay, and a primary column stays one. -/
def redefine (column definition : Column) : Column :=
  { column with
    toDefinition := definition.toDefinition
    primary := column.primary || definition.primary }

def addUnique (key : Key) (column : Column) : Column :=
  { column with unique := column.unique ++ [key] }

def addIndex (key : Key) (column : Column) : Column :=
  { column with index := column.index ++ [key] }

def addForeign (key : ForeignKey) (column : Column) : Column :=
  { column with foreign := column.foreign ++ [key] }

end Column

namespace Table

/-- Defines a column, which is put in if it is new. -/
def define (table : Table) (name : Text) (definition : Column) : Table :=
  { table with
    columns :=
      if table.columns.has name then table.columns.update name (·.redefine definition)
      else table.columns.set name definition }

/-- Adds to every column of a key. Columns that the table does not have are passed over. -/
def mark (columns : List Text) (f : Text → Column → Column) (table : Table) : Table :=
  { table with
    columns := columns.foldl (fun all column => all.update column (f column)) table.columns }

/-- The name of a key as one of its columns carries it: a key without a name has the column's. -/
def keyName (name : Option Text) (column : Text) : Text :=
  match name with
  | none => column
  | some [] => column
  | some name => name

/-- The column that the column at a position refers to. Where more columns refer than are referred
to, the last one serves for the rest. -/
def refColumn (reference : Reference) (position : Nat) : Text :=
  match reference.columns[position]? with
  | some column => column
  | none => (reference.columns.getLast?).getD []

/-- Adds a foreign key to its columns, which are counted from `position`. -/
def refer (name : Text) (reference : Reference) (position : Nat) :
    List Text → Ordered Column → Ordered Column
  | [], all => all
  | column :: rest, all =>
    refer name reference (position + 1) rest
      (all.update column (·.addForeign {
        name, column, refTable := reference.table, refColumn := refColumn reference position }))

/-- Makes a change. Keys on columns that the table does not have are ignored. -/
def apply (table : Table) : Change → Table
  | .primaryKey columns => table.mark columns fun _ column => { column with primary := true }
  | .unique name columns =>
    table.mark columns fun column => Column.addUnique { name := keyName name column, columns }
  | .index name columns =>
    table.mark columns fun column => Column.addIndex { name := keyName name column, columns }
  | .foreignKey name columns (some reference) =>
    { table with columns := refer (name.getD []) reference 0 columns table.columns }
  | .foreignKey _ _ none => table
  | .modify (column :: _) (some definition) => table.define column definition
  | .addColumn (column :: _) (some definition) => table.define column definition
  | .modify _ _ => table
  | .addColumn _ _ => table

/-- The columns whose definitions are understood. -/
def columnsOf (texts : Ordered Text) : Except ReadError (Ordered Column) := do
  let columns ← texts.mapM fun (name, text) => do return (name, ← Column.parse text)
  return columns.filterMap fun (name, column) => column.map (name, ·)

/-- The model of a table from its CREATE TABLE statement. What the body says about keys is read as
the ALTER statements that say it. -/
def ofCreate (name create : Text) : Except ReadError Table := do
  let columns ← columnsOf (CreateTable.columnTexts create)
  let clauses ← (CreateTable.keyLines create).mapM Clause.parse
  return clauses.foldl (fun table clause =>
    match clause with
    | some clause => table.apply clause.change
    | none => table) { name, columns }

end Table

end SqlDump
