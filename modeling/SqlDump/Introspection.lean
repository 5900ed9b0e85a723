import SqlDump.Client
import SqlDump.Comparison
import SqlDump.Model

/-!
Reading the model of a live database, and comparing it with a dump. All statements are read before
any is understood, so that a database is known either whole or not at all.
-/

namespace SqlDump.Introspection

variable {σ α : Type}

/-- Runs a reading step. What fails is logged and named as a failure to read the target, unless it
is named so already. What is to end the program is neither. -/
def guarded (target : Option Text) (step : Run σ α) : Run σ α :=
  tryCatch step fun failure =>
    if failure.halts then throw failure
    else do
      let failure :=
        match failure with
        | .introspection _ _ => failure
        | _ =>
          Failure.unreadable ("Failed to read the database structure: " ++ failure.message) target
            (some failure)
      match failure with
      | .introspection _ report => Run.log .error .introspect report.message
      | _ => pure ()
      throw failure

/-- The CREATE TABLE statements of all tables, in the order in which the client lists them. -/
def creates (client : Client σ) : Run σ (List Text) := do
  let tables ← guarded none client.tables
  tables.mapM fun table => guarded (some table) (client.create table)

/-- Statements as the text of a dump. -/
def asDump (statements : List Text) : Text := Text.join ";\n\n" statements ++ ";"

/-- The model of the client's database. -/
def model (account : Account) (client : Client σ) : Run σ Model := do
  let creates ← creates client
  Run.log .info .introspect
    ("Read the structure of " ++ natText creates.length ++ " tables")
  Run.ofRead (Model.ofSql account (asDump creates))

/-- Compares the client's database, the source, with a dump, the target. -/
def compare (account : Account) (client : Client σ) (sql : Text) : Run σ Comparison := do
  let source ← model account client
  let target ← Run.ofRead (Model.ofSql account sql)
  let result := Model.compare source target
  if result.same then Run.log .info .compare Comparison.sameText
  else
    Run.log .info .compare (natText (result.diff.getD []).length ++ " tables differ (errno: 0x" ++
      Text.hex 2 result.flags ++ ")")
  return result

end SqlDump.Introspection
