import SqlDump.Introspection
import SqlDump.Plan

/-!
Importing dumps. Statements are executed one by one; one that the database refuses is noted, and
the run goes on. Any other failure ends it.
-/

namespace SqlDump

/-- A statement that the database refused. -/
structure Refusal where
  code : Option Value
  message : Text
  statement : Text
  report : Report
  deriving DecidableEq, Repr

namespace Import

variable {σ : Type}

/-- Whether the database refused no statement. -/
def succeeded (refused : List Refusal) : Bool := refused.isEmpty

/-- Executes a statement, and gives the refusal if there is one. -/
def attempt (client : Client σ) (statement : Text) : Run σ (Option Refusal) :=
  tryCatch (do client.send statement; return none) fun failure =>
    match failure with
    | .execution _ _ code => do
      let report := Report.statement failure.cause statement code
      Run.log .warning .execute report.message
      return some { code, message := failure.message, statement, report }
    | _ => throw failure

/-- Executes statements in order. -/
def executeAll (client : Client σ) (statements : List Text) : Run σ (List Refusal) := do
  return (← statements.mapM (attempt client)).filterMap id

/-- Turns the checks of foreign keys off. A database that refuses to is only warned about. -/
def withoutChecks (client : Client σ) : Run σ Unit :=
  tryCatch client.stopForeignKeyChecks fun failure =>
    match failure with
    | .execution _ _ _ =>
      Run.log .warning .execute ("Failed to disable foreign key checks: " ++ failure.message)
    | _ => throw failure

/-- Executes a plan, without checks of foreign keys. -/
def runPlan (client : Client σ) (plan : List Text) : Run σ (List Refusal) := do
  withoutChecks client
  let refused ← executeAll client plan
  Run.log .info .execute ("Executed " ++ natText plan.length ++ " statements (" ++
    natText refused.length ++ " failed)")
  return refused

/-- Drops all tables, functions and procedures. -/
def emptyDatabase (client : Client σ) : Run σ (List Refusal) := do
  let tables ← client.tables
  let functions ← client.routines "FUNCTION"
  let procedures ← client.routines "PROCEDURE"
  runPlan client (Plan.drops tables functions procedures)

/-- The dump without what the client's database has. -/
def withoutExisting (account : Account) (client : Client σ) (dump : Dump) : Run σ Dump := do
  let existing ← Introspection.model account client
  let routines ← routineKinds.mapM client.routines
  return Plan.excludeExisting dump (existing.map fun (name, table) => (name, table.columns.keys))
    routines.flatten

/-- Imports a dump: into an emptied database, or beside what is there. -/
def importDump (account : Account) (mode : InsertMode) (dropFirst : Bool) (client : Client σ)
    (sql : Text) : Run σ (List Refusal) := do
  let dump ← Run.ofRead (Dump.parse account sql)
  Run.log .info .parse ("Parsed " ++ natText dump.tables.length ++ " tables, " ++
    natText dump.alters.length ++ " ALTER statements")
  unless dump.unresolved.isEmpty do
    Run.log .warning .parse ("Unresolved table dependencies: " ++ Text.join ", " dump.unresolved)
  let (refused, dump) ←
    if dropFirst then do pure (← emptyDatabase client, dump)
    else do pure ([], ← withoutExisting account client dump)
  let plan := Plan.build dump mode dropFirst
  Run.log .info .plan ("Planned " ++ natText plan.length ++ " statements")
  return refused ++ (← runPlan client plan)

end Import

end SqlDump
