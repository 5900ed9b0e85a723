import SqlDump.Failure
import SqlDump.Log

/-!
Clients of a database, and sessions with one. A client is given by what its calls do to a state; a
session notes each call before it is made, and the log entries in between.
-/

namespace SqlDump

/-- What a call does to a state: it answers or fails, and the state goes on in either case. -/
abbrev Action (σ α : Type) := ExceptT Failure (StateM σ) α

structure Client (σ : Type) where
  listTables : Action σ (List Text)
  /-- The CREATE TABLE statement of a table. -/
  createTable : Text → Action σ Text
  /-- The names of the routines of a kind. -/
  listRoutines : Text → Action σ (List Text)
  execute : Text → Action σ Unit
  disableForeignKeyChecks : Action σ Unit

/-- A call to a client. -/
inductive Call where
  | listTables
  | createTable (name : Text)
  | listRoutines (kind : Text)
  | execute (statement : Text)
  | disableForeignKeyChecks
  deriving DecidableEq, Repr

/-- The kinds of routines that a client can list. -/
def routineKinds : List Text := ["FUNCTION", "PROCEDURE", "TRIGGER"]

/-- A session: the client's state, the calls made so far and the entries logged so far. -/
structure Session (σ : Type) where
  state : σ
  calls : List Call := []
  log : List Entry := []
  /-- What goes wrong where an entry is logged. -/
  flaw? : Entry → Option Failure := fun _ => none

/-- A part of a session. -/
abbrev Run (σ α : Type) := ExceptT Failure (StateM (Session σ)) α

namespace Run

variable {σ α : Type}

/-- Makes a call. It is noted whether or not it fails. -/
def call (c : Call) (action : Action σ α) : Run σ α := fun session =>
  let (result, state) := action.run.run session.state
  (result, { session with state, calls := session.calls ++ [c] })

/-- Logs an entry. It is noted whether or not that fails. -/
def log (level : Level) (stage : Stage) (message : Text) : Run σ Unit := fun session =>
  let entry : Entry := { level, stage, message }
  ((session.flaw? entry).elim (.ok ()) .error, { session with log := session.log ++ [entry] })

/-- What a dump that can be read gives. -/
def ofRead (result : Except ReadError α) : Run σ α :=
  match result with
  | .ok a => pure a
  | .error e => throw (.reading e)

/-- Runs a part, from a state to its result and the whole session. -/
def start (run : Run σ α) (state : σ) : Except Failure α × Session σ :=
  run.run.run { state }

/-- Runs a part whose log may go wrong. -/
def startLogged (run : Run σ α) (flaw? : Entry → Option Failure) (state : σ) :
    Except Failure α × Session σ :=
  run.run.run { state, flaw? }

end Run

namespace Client

variable {σ : Type} (client : Client σ)

def tables : Run σ (List Text) := Run.call .listTables client.listTables

def create (name : Text) : Run σ Text := Run.call (.createTable name) (client.createTable name)

def routines (kind : Text) : Run σ (List Text) :=
  Run.call (.listRoutines kind) (client.listRoutines kind)

def send (statement : Text) : Run σ Unit := Run.call (.execute statement) (client.execute statement)

def stopForeignKeyChecks : Run σ Unit :=
  Run.call .disableForeignKeyChecks client.disableForeignKeyChecks

end Client

end SqlDump
