import SqlDump.Syntax.Identifier

/-!
The beginnings that parts of a table's body and changes to a table have in common.
-/

namespace SqlDump

/-- What follows CONSTRAINT, its name and a gap: first read with a name, then without one. -/
def constraintReadings (s : Text) : List (Option Text × Text) :=
  match keyword? "CONSTRAINT" s >>= gap? with
  | none => []
  | some r =>
    (match (do let (name, r) ← Identifier.read? r; pure (some name, ← gap? r)) with
      | some named => [named]
      | none => []) ++ [(none, r)]

/-- A name as written and the text behind it. -/
def namedText? (part : Text) : Option (Text × Text) := do
  let (name, r) ← Identifier.read? part
  let r ← gap? r
  if r.isEmpty then none else pure (name, r)

end SqlDump
