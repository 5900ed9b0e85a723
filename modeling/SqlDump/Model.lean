import SqlDump.Dump
import SqlDump.Table

/-!
Models of whole dumps: the tables as their CREATE statements make them and their ALTER statements
leave them.
-/

namespace SqlDump.Model

/-- Makes a clause's change to its table, which is put in if it is new. A clause without a table
changes nothing. -/
def apply (model : Model) (clause : Clause) : Model :=
  match clause.table with
  | none => model
  | some name =>
    if model.has name then model.update name (·.apply clause.change)
    else model.set name (Table.apply { name } clause.change)

/-- The tables of a dump, each from the first statement that creates it. -/
def ofCreates (tables : Ordered (List Text)) : Except ReadError Model :=
  tables.mapM fun (name, creates) => do return (name, ← Table.ofCreate name (creates.head?.getD []))

/-- Makes the changes of ALTER statements in order. Statements that are not understood change
nothing. -/
def applyAlters (model : Model) (alters : List Text) : Except ReadError Model :=
  alters.foldlM (fun model alter => do
    match ← Clause.parse alter with
    | some clause => return model.apply clause
    | none => return model) model

/-- The model of a dump. -/
def ofDump (dump : Dump) : Except ReadError Model := do
  applyAlters (← ofCreates dump.tables) dump.alters

/-- The model of a dump's text. -/
def ofSql (account : Account) (sql : Text) : Except ReadError Model := do
  ofDump (← Dump.parse account sql)

end SqlDump.Model
