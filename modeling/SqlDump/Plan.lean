import SqlDump.Dump
import SqlDump.Statement.Insert

/-!
Import plans: the statements of a dump in an order in which each finds what it needs.
-/

namespace SqlDump

/-- How rows are put in: not at all, in the statements of the dump, or one statement a row. -/
inductive InsertMode where
  | none
  | multi
  | single
  deriving DecidableEq, Repr

namespace Plan

/-- Statements that drop tables, functions and procedures. -/
def drops (tables functions procedures : List Text) : List Text :=
  let drop (what name : Text) : Text := "DROP " ++ what ++ " IF EXISTS `" ++ name ++ "`"
  tables.map (drop "TABLE") ++ functions.map (drop "FUNCTION") ++
    procedures.map (drop "PROCEDURE")

/-- The statement with a head that leaves an existing table alone. Without a head of its own it
stays as it is. -/
def createIfNotExists (query : Text) : Text :=
  match createTable? (Text.trimLeft query) with
  | some r => "CREATE TABLE IF NOT EXISTS " ++ skipPhrase ["IF", "NOT", "EXISTS"] r
  | Option.none => query

/-- The statements that create the tables, in their order. -/
def creates (dump : Dump) (dropFirst : Bool) : List Text :=
  (dump.order.flatMap fun table => (dump.tables.get? table).getD []).map fun query =>
    if dropFirst then query else createIfNotExists query

/-- The tables to fill, in their order, then those that have only rows. -/
def filledTables (dump : Dump) : List Text :=
  dump.order ++ dump.inserts.keys.filter (!dump.order.contains ·)

/-- The statements that fill the tables. -/
def inserts (dump : Dump) (mode : InsertMode) : List Text :=
  let queries := (filledTables dump).flatMap fun table => (dump.inserts.get? table).getD []
  match mode with
  | .none => []
  | .multi => queries
  | .single => queries.flatMap Insert.singles

/-- The plan of a dump. Tables come before what needs them, keys before foreign keys, and rows
last, when triggers and views stand. A dump may hold a table in place of each view, which is
dropped first. -/
def build (dump : Dump) (mode : InsertMode) (dropFirst : Bool) : List Text :=
  let (keys, foreign) := Alter.separateForeign dump.alters
  (if dropFirst then dump.drops else []) ++ creates dump dropFirst ++
    dump.functions ++ dump.procedures ++ keys ++ foreign ++ dump.triggers ++
    drops dump.names.views [] [] ++ dump.views ++ inserts dump mode

/-- The plan as a script: each statement ended by a semicolon, with an empty line between two. -/
def script (plan : List Text) : Text :=
  if plan.isEmpty then [] else Text.join ";\n\n" plan ++ ";"

/-- The statements that add the columns which an existing table lacks. -/
def missingColumns (table create : Text) (columns : List Text) : List Text :=
  ((CreateTable.columnTexts create).filter fun (column, _) => !columns.contains column).map
    fun (column, text) => "ALTER TABLE `" ++ table ++ "` ADD `" ++ column ++ "` " ++ text

/-- Takes a table that exists out of a dump that creates it, and adds the columns it lacks to the
statements. Any other table stays. -/
def leaveOut (existing : Ordered (List Text)) : Dump × List Text → Text → Dump × List Text
  | (dump, added), table =>
    match existing.get? table, dump.tables.get? table with
    | some columns, some creates =>
      ({ dump with tables := dump.tables.erase table, inserts := dump.inserts.erase table },
        added ++ missingColumns table (creates.head?.getD []) columns)
    | _, _ => (dump, added)

/-- The dump without what exists already: tables are neither created nor filled again and only get
the columns they lack, and routines and triggers of existing names are left out. -/
def excludeExisting (dump : Dump) (existing : Ordered (List Text)) (routines : List Text) : Dump :=
  let (reduced, added) := dump.order.foldl (leaveOut existing) (dump, [])
  let isNew (query : Text) : Bool := !(routineName? query).any routines.contains
  { reduced with
    alters := added ++ reduced.alters
    functions := reduced.functions.filter isNew
    procedures := reduced.procedures.filter isNew
    triggers := reduced.triggers.filter isNew }

end Plan

end SqlDump
