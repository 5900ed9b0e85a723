import SqlDump.Alter.Header
import SqlDump.Dependency
import SqlDump.Statement
import SqlDump.Statement.CreateTable

/-!
A dump with its statements sorted by what they do, and its tables in an order to create them in.
-/

namespace SqlDump

/-- The names of the objects in a dump. -/
structure Names where
  tables : List Text := []
  views : List Text := []
  functions : List Text := []
  procedures : List Text := []
  triggers : List Text := []
  deriving DecidableEq, Repr

structure Dump where
  functions : List Text := []
  procedures : List Text := []
  triggers : List Text := []
  /-- The CREATE TABLE statements of each table, without keys. -/
  tables : Ordered (List Text) := []
  /-- ALTER statements with one change each. -/
  alters : List Text := []
  views : List Text := []
  /-- The INSERT statements into each table. -/
  inserts : Ordered (List Text) := []
  drops : List Text := []
  /-- What is none of these. -/
  misc : List Text := []
  order : List Text := []
  unresolved : List Text := []
  names : Names := {}
  deriving DecidableEq, Repr

namespace Dump

/-- Adds a statement. One that needs a name and has none, or an empty one, is not sorted in. -/
def add (account : Account) (dump : Dump) (statement : Statement) : Except ReadError Dump :=
  let text := statement.text
  let name := statement.name.getD []
  match statement.kind with
  | .insert =>
    .ok (if name.isEmpty then { dump with misc := dump.misc ++ [text] }
      else { dump with inserts := dump.inserts.push name text })
  | .alter => .ok { dump with alters := dump.alters ++ Alter.singles text }
  | .createView => do
    return { dump with views := dump.views ++ [← Definer.assign account text] }
  | .createTable =>
    if name.isEmpty then .ok { dump with misc := dump.misc ++ [text] }
    else
      let relocated := CreateTable.relocateKeys text
      .ok { dump with
        tables := dump.tables.push name relocated.query
        alters := dump.alters ++ relocated.alters }
  | .createFunction => do
    return { dump with functions := dump.functions ++ [← Definer.assign account text] }
  | .createProcedure => do
    return { dump with procedures := dump.procedures ++ [← Definer.assign account text] }
  | .createTrigger => do
    return { dump with triggers := dump.triggers ++ [← Definer.assign account text] }
  | .drop => .ok { dump with drops := dump.drops ++ [text] }
  | .misc => .ok { dump with misc := dump.misc ++ [text] }

/-- The names of routines that have one which is not empty. -/
def routineNames (queries : List Text) : List Text :=
  (queries.filterMap routineName?).filter (!·.isEmpty)

/-- Puts the tables in order and collects the names. -/
def finish (dump : Dump) : Dump :=
  let sorted := (Graph.ofAlters dump.alters dump.tables.keys).sort
  { dump with
    order := sorted.order
    unresolved := sorted.unresolved
    names := {
      tables := dump.tables.keys
      views := Kind.createView.namesIn dump.views
      functions := routineNames dump.functions
      procedures := routineNames dump.procedures
      triggers := routineNames dump.triggers } }

/-- Reads a dump, its objects given to the account. -/
def parse (account : Account) (sql : Text) : Except ReadError Dump := do
  return finish (← (← Statement.split account sql).foldlM (add account) {})

end Dump

end SqlDump
