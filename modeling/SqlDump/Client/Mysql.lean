import SqlDump.Client.Connection

/-!
The client of a MySQL or MariaDB server.
-/

namespace SqlDump

/-- What it takes to reach a server. -/
structure Server where
  host : Text
  port : Int
  user : Text
  password : Text
  database : Text
  deriving DecidableEq, Repr

namespace Mysql

variable {σ : Type}

/-- A server that cannot be reached. Other failures stay what they are. -/
def connectFailure (server : Server) (failure : Failure) : Failure :=
  match failure with
  | .raised e =>
    if e.library = .mysql then
      .unreadable ("Failed to connect to '" ++ server.host ++ ":" ++ intText server.port ++ "': " ++
        e.message) (some server.database) (some failure)
    else failure
  | _ => failure

variable (connection : Connection σ)

def listTables : Action σ (List Value) := do
  let rows ← connection.fetch .mysql "SHOW FULL TABLES WHERE Table_type = 'BASE TABLE'" none none
  Connection.column rows 0

def createTable (name : Text) : Action σ Value := do
  let rows ← connection.fetch .mysql ("SHOW CREATE TABLE `" ++ name ++ "`") none (some name)
  match rows with
  | [] => throw (Connection.notFound name)
  | row :: _ => Connection.cell row 1

/-- Triggers are those of the current database; other routines are asked for by its name. -/
def listRoutines (database kind : Text) : Action σ (List Value) := do
  let kind ← Connection.routineKind kind
  if kind = "TRIGGER" then
    let rows ← connection.fetch .mysql "SHOW TRIGGERS" none none
    Connection.column rows 0
  else
    let rows ← connection.fetch .mysql ("SHOW " ++ kind ++ " STATUS WHERE Db = %s")
      (some [database]) none
    Connection.column rows 1

/-- The server tells a code and a message. Where it tells less, there is no code, or all it tells
is the message. -/
def refusal (statement : Text) (e : Raised) : Failure :=
  .execution (match e.values with
    | _ :: message :: _ => message
    | _ => .text e.message) statement (e.values.head?.filter Value.isCode)

/-- Executes a statement and makes its effects last. -/
def execute (statement : Text) : Action σ Unit :=
  Connection.wrapping .mysql (refusal statement) do
    connection.execute statement none
    connection.commit

def disableForeignKeyChecks : Action σ Unit := execute connection "SET FOREIGN_KEY_CHECKS=0"

def client (database : Text) : Client σ where
  listTables := return Connection.textsOf (← listTables connection)
  createTable name := return Connection.textOf (← createTable connection name)
  listRoutines kind := return Connection.textsOf (← listRoutines connection database kind)
  execute := execute connection
  disableForeignKeyChecks := disableForeignKeyChecks connection

end Mysql

end SqlDump
