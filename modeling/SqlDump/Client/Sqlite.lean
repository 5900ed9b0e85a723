import SqlDump.Client.Connection

/-!
The client of an SQLite database. Its catalogue is a table of its own; there are triggers, but
neither functions nor procedures.
-/

namespace SqlDump.Sqlite

variable {σ : Type} (connection : Connection σ)

def listTables : Action σ (List Value) := do
  let rows ← connection.fetch .sqlite
    "SELECT name FROM sqlite_master WHERE type = 'table' AND name NOT LIKE 'sqlite_%'"
    (some []) none
  Connection.column rows 0

/-- The statement that made a table. Tables without one count as missing. -/
def createTable (name : Text) : Action σ Value := do
  let rows ← connection.fetch .sqlite
    "SELECT sql FROM sqlite_master WHERE type = 'table' AND name = ?" (some [name]) (some name)
  match rows with
  | [] => throw (Connection.notFound name)
  | row :: _ =>
    let value ← Connection.cell row 0
    if value = .null then throw (Connection.notFound name) else pure value

def listRoutines (kind : Text) : Action σ (List Value) := do
  if (← Connection.routineKind kind) = "TRIGGER" then
    let rows ← connection.fetch .sqlite
      "SELECT name FROM sqlite_master WHERE type = 'trigger'" (some []) none
    Connection.column rows 0
  else pure []

/-- Executes a statement and makes its effects last. -/
def execute (statement : Text) : Action σ Unit :=
  Connection.wrapping .sqlite (fun e => .execution (.text e.message) statement e.code) do
    connection.execute statement none
    connection.commit

def disableForeignKeyChecks : Action σ Unit := execute connection "PRAGMA foreign_keys = OFF"

def client : Client σ where
  listTables := return Connection.textsOf (← listTables connection)
  createTable name := return Connection.textOf (← createTable connection name)
  listRoutines kind := return Connection.textsOf (← listRoutines connection kind)
  execute := execute connection
  disableForeignKeyChecks := disableForeignKeyChecks connection

end SqlDump.Sqlite
