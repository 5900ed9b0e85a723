import SqlDump.Statement.Kind
import SqlDump.Syntax.Nesting

/-!
INSERT statements with several rows, and the same as one statement per row.
-/

namespace SqlDump.Insert

/-- What an INSERT ... VALUES statement says before its rows. -/
structure Head where
  /-- Everything through the table's name. -/
  target : Text
  /-- The columns in their parentheses, if they are listed. -/
  columns : Option Text
  deriving DecidableEq, Repr

/-- The columns that a statement lists, with nothing nested in their parentheses. -/
def columnList? : Text → Option (Text × Text)
  | '(' :: s =>
    match s.dropWhile (fun c => c ≠ '(' ∧ c ≠ ')') with
    | ')' :: r => some ('(' :: s.takeWhile (fun c => c ≠ '(' ∧ c ≠ ')') ++ ")", r)
    | _ => none
  | _ => none

/-- What stands after VALUES or VALUE and the blanks behind it. -/
def values? (s : Text) : Option Text := do
  let r ← keyword? "VALUE" s
  pure (Text.trimLeft ((keyword? "S" r).getD r))

/-- What a statement says before its rows, and the rows. The table's name is cut short where only
that leaves a VALUES behind it. -/
def head? (query : Text) : Option (Head × Text) := do
  let s ← insertInto? query
  (Identifier.qualifiedReadings s).findSome? fun (_, r) =>
    let (columns, t) :=
      match columnList? (Text.trimLeft r) with
      | some (columns, t) => (some columns, t)
      | none => (none, r)
    (values? (Text.trimLeft t)).map fun rows =>
      ({ target := query.take (query.length - r.length), columns }, rows)

/-- The rows at the front and what follows the last of them, blanks and commas between rows being
dropped. Nothing where a row is not closed. At most `n` steps. -/
def rows? : Nat → Text → Option (List Text × Text)
  | 0, s => some ([], s)
  | n + 1, s =>
    match s.dropWhile (fun c => isBlank c || c = ',') with
    | '(' :: r => do
      let (row, r) ← Nesting.group? ('(' :: r)
      let (rows, tail) ← rows? n r
      pure (("(" ++ row ++ ")") :: rows, tail)
    | r => some ([], r)

/-- One statement for each row, everything before and after the rows being the same in each. A
statement that is no INSERT ... VALUES stays as it is. -/
def singles (text : Text) : List Text :=
  let query := Text.trim (Text.dropTrailing ';' (Text.trim text))
  match (do let (head, s) ← head? query; let (rows, tail) ← rows? (s.length + 1) s; pure (head, rows, tail)) with
  | none => [text]
  | some (_, [], _) => [text]
  | some (head, rows, tail) =>
    rows.map fun row =>
      Text.join " " (([Text.spaced head.target, head.columns.getD [], "VALUES", row, Text.trim tail] :
        List Text).filter (!·.isEmpty))

end SqlDump.Insert
