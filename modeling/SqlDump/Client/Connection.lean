import SqlDump.Client
import SqlDump.Text.CaseMap

/-!
Connections to a database, and what the clients of all databases do with one.
-/

namespace SqlDump

/-- A connection, given by what its calls do to a state. A query may come with values to fill in;
its rows are fetched after it. -/
structure Connection (σ : Type) where
  execute : Text → Option (List Text) → Action σ Unit
  rows : Action σ (List (List Value))
  commit : Action σ Unit
  close : Action σ Unit

namespace Connection

variable {σ α : Type}

/-- A row is shorter than a query of its kind makes it. -/
def shortRow : Failure :=
  .raised { kind := "IndexError", values := [.text "tuple index out of range"] }

/-- The value at a place of a row. -/
def cell (row : List Value) (place : Nat) : Action σ Value :=
  match row[place]? with
  | some value => pure value
  | none => throw shortRow

/-- The values at a place of all rows. -/
def column (rows : List (List Value)) (place : Nat) : Action σ (List Value) :=
  rows.mapM (cell · place)

/-- Runs a step, an error of the library becoming what `wrap` makes of it. -/
def wrapping (library : Library) (wrap : Raised → Failure) (step : Action σ α) : Action σ α :=
  tryCatch step fun failure =>
    match failure with
    | .raised e => throw (if e.library = library then wrap e else failure)
    | _ => throw failure

/-- The rows of a query about the structure of the database. -/
def fetch (connection : Connection σ) (library : Library) (query : Text)
    (values : Option (List Text)) (target : Option Text) : Action σ (List (List Value)) :=
  wrapping library (fun e => .unreadable e.message target (some (.raised e))) do
    connection.execute query values
    connection.rows

/-- A table that is not in the database. -/
def notFound (name : Text) : Failure :=
  .unreadable ("Table '" ++ name ++ "' not found") (some name) none

/-- The kind of routines that a text names, in capitals. -/
def routineKind (kind : Text) : Action σ Text :=
  if routineKinds.contains (Text.upper kind) then pure (Text.upper kind)
  else throw (.raised {
    kind := "ValueError"
    values := [.text ("Routine kind '" ++ kind ++ "' not supported: choose from " ++
      Text.join ", " routineKinds)] })

/-- The texts among values, everything else being left out. -/
def textsOf (values : List Value) : List Text :=
  values.filterMap fun
    | .text s => some s
    | _ => none

/-- A statement as text, empty if it is none. -/
def textOf : Value → Text
  | .text s => s
  | _ => []

end Connection

end SqlDump
