import SqlDump.Table
import SqlDump.Text.Digit

/-!
Comparison of two models, column by column. A column is shown in one line, and it differs when its
two lines do.
-/

namespace SqlDump

namespace Column

/-- The columns of a key, each between backquotes. -/
def columnList (columns : List Text) : Text :=
  "(" ++ Text.join "," (columns.map fun column => "`" ++ column ++ "`") ++ ")"

/-- What a line says of a column itself. -/
def declaration (table name : Text) (column : Column) : Text :=
  let default : List Text := column.default.toList.map fun (value : Text) => "DEFAULT " ++ value
  let counts : List Text := if column.autoIncrement then ["AUTO_INCREMENT"] else []
  let head : List Text := [
    "`" ++ table ++ "`.`" ++ name ++ "` " ++ column.type,
    if column.nullable then "NULL" else "NOT NULL"]
  Text.join " " (head ++ default ++ counts) ++ ";"

def uniqueText (key : Key) : Text := "UNIQUE KEY `" ++ key.name ++ "`" ++ columnList key.columns ++ ";"

def indexText (key : Key) : Text := "KEY `" ++ key.name ++ "`" ++ columnList key.columns ++ ";"

def foreignText (key : ForeignKey) : Text :=
  "CONSTRAINT `" ++ key.name ++ "` FOREIGN KEY (`" ++ key.column ++ "`) REFERENCES `" ++
    key.refTable ++ "` (`" ++ key.refColumn ++ "`);"

/-- What a line says of a column's keys. -/
def keyTexts (column : Column) : List Text :=
  (if column.primary then ["PRIMARY KEY;"] else [] : List Text) ++ column.unique.map uniqueText ++
    column.index.map indexText ++ column.foreign.map foreignText

/-- A column in one line, with single spaces. -/
def render (table name : Text) (column : Column) : Text :=
  Text.spaced (Text.join " " (declaration table name column :: keyTexts column))

end Column

/-- How a column is shown on both sides, as far as it is there. -/
structure Difference where
  table : Text
  column : Text
  source : Option Text := none
  target : Option Text := none
  deriving DecidableEq, Repr

/-- The differences of each table by columns. -/
abbrev Diff := Ordered (Ordered Difference)

/-- What a comparison found. Equal models have no differences to tell. -/
structure Comparison where
  same : Bool
  diff : Option Diff := none
  deriving DecidableEq, Repr

namespace Difference

/-- 1 for a column only in the source, 4 for one only in the target, 2 for one in both. -/
def flag (d : Difference) : Nat :=
  match d.source, d.target with
  | some _, some _ => 2
  | some _, none => 1
  | none, some _ => 4
  | none, none => 0

/-- The two lines of a difference, and an empty one behind them. -/
def lines (d : Difference) : List Text :=
  let both := d.source.isSome && d.target.isSome
  [Text.trimRight ((if both then "  source <- " else "  source -- ") ++ d.source.getD []),
    Text.trimRight ((if both then "  target +> " else "  target ++ ") ++ d.target.getD []), []]

end Difference

namespace Diff

/-- The flags of all differences together. -/
def flags (diff : Diff) : Nat :=
  (diff.flatMap fun (_, columns) => columns.map fun (_, d) => d.flag).foldl (· ||| ·) 0

/-- The difference of a column, if its two sides are not shown the same. -/
def ofColumn (table column : Text) (source target : Option Column) : Option Difference :=
  let source := source.map (Column.render table column)
  let target := target.map (Column.render table column)
  if source = target then none else some { table, column, source, target }

/-- The differing columns of a table, those of the source first. -/
def ofColumns (table : Text) (source target : Ordered Column) : Ordered Difference :=
  (source.keys ++ target.keys.filter (!source.has ·)).filterMap fun column =>
    (ofColumn table column (source.get? column) (target.get? column)).map (column, ·)

/-- The differing tables of two models, those of the source first. -/
def ofModels (source target : Model) : Diff :=
  let columns (model : Model) (table : Text) : Ordered Column :=
    ((model.get? table).map Table.columns).getD []
  (source.keys ++ target.keys.filter (!source.has ·)).filterMap fun table =>
    match ofColumns table (columns source table) (columns target table) with
    | [] => none
    | differences => some (table, differences)

end Diff

namespace Model

/-- Whether two tables have the same columns with the same definitions, in whatever order. -/
def sameTable (source target : Option Table) : Bool :=
  match source, target with
  | some source, some target =>
    source.columns.length = target.columns.length &&
      source.columns.all fun (name, column) => target.columns.get? name = some column
  | _, _ => false

/-- Two models, and whether all tables looked at so far are the same in both. -/
structure Pair where
  source : Model
  target : Model
  same : Bool := true

/-- Looks at tables one by one, and takes those that are the same out of both models. -/
def prune (pair : Pair) (tables : List Text) : Pair :=
  tables.foldl (fun pair table =>
    if sameTable (pair.source.get? table) (pair.target.get? table) then
      { pair with source := pair.source.erase table, target := pair.target.erase table }
    else { pair with same := false }) pair

/-- Compares two models: first the tables of the source, then those left in the target. Only the
tables that are not the same are compared by columns. -/
def compare (source target : Model) : Comparison :=
  let pair := prune { source, target } source.keys
  let pair := if pair.target.isEmpty then pair else prune pair pair.target.keys
  if pair.same then { same := true }
  else { same := false, diff := some (Diff.ofModels pair.source pair.target) }

end Model

namespace Comparison

/-- The flags of all differences, 0 without any. -/
def flags (c : Comparison) : Nat := ((c.diff.map Diff.flags).getD 0)

def sameText : Text := "Both Tables are identical!"

/-- The differences as text: a head for each table, and lines for both sides of each column. -/
def format (c : Comparison) : Text :=
  if c.same then sameText
  else Text.join "\n" ((c.diff.getD []).flatMap fun (table, columns) =>
    ("@Table " ++ table) :: columns.flatMap fun (_, d) => d.lines)

end Comparison

end SqlDump
