import SqlDump.Statement.Kind
import SqlDump.Syntax.Nesting

/-!
ALTER TABLE statements: the table, and the changes one by one.
-/

namespace SqlDump.Alter

/-- The table of a statement as written, and the text of its changes. Text that starts otherwise
is taken for changes alone. -/
def split (text : Text) : Option Text × Text :=
  let text := Text.trim (Text.dropTrailing ';' (Text.trim text))
  match alteredTable? text with
  | some (raw, r) => (some raw, Text.trimLeft r)
  | none => (none, text)

/-- Whether a part of a statement starts a change; table options do not. -/
def startsChange (part : Text) : Bool :=
  (anyWord? ["ADD", "MODIFY", "CHANGE", "DROP", "ALTER", "RENAME"] part).isSome

def startsAddOrModify (change : Text) : Bool := (anyWord? ["ADD", "MODIFY"] change).isSome

/-- The changes that the parts make up, `current` being the first: a table option belongs to the
change before it. -/
def gather (current : Text) : List Text → List Text
  | [] => [current]
  | part :: parts =>
    if startsChange part then current :: gather part parts
    else gather (current ++ ", " ++ part) parts

/-- The changes of a statement, its parts between commas gathered. -/
def changes (body : Text) : List Text :=
  match (Nesting.pieces ',' true body).filter (!·.isEmpty) with
  | [] => []
  | part :: parts => gather part parts

/-- One statement for each change, where at least two of them add or modify something. Any other
text stays as it is. -/
def singles (text : Text) : List Text :=
  match split text with
  | (none, _) => [text]
  | (some raw, body) =>
    let changes := changes body
    if changes.countP startsAddOrModify ≤ 1 then [text]
    else changes.map fun change => "ALTER TABLE " ++ Identifier.quote raw ++ " " ++ change

/-- Whether a statement mentions a foreign key. -/
def mentionsForeignKey (text : Text) : Bool :=
  (Text.find (fun _ => phrase? ["FOREIGN", "KEY"]) text).isSome

/-- The statements without a foreign key and those with one, each in order. -/
def separateForeign (alters : List Text) : List Text × List Text :=
  (alters.filter (!mentionsForeignKey ·), alters.filter mentionsForeignKey)

/-- The table that a foreign key at the front refers to, as written, and what follows it. -/
def foreignReference? (s : Text) : Option (Text × Text) := do
  let r := Text.trimLeft (← phrase? ["FOREIGN", "KEY"] s)
  let named := do let (_, r) ← Identifier.read? r; Text.after? "(" (Text.trimLeft r)
  let r ← named <|> Text.after? "(" r
  let r ← Text.after? ")" (r.dropWhile (· ≠ ')'))
  let r ← keyword? "REFERENCES" (Text.trimLeft r) >>= gap?
  Identifier.qualified? r

/-- The tables that at most `n` foreign keys of the text refer to. -/
def foreignReferences : Nat → Text → List Text
  | 0, _ => []
  | n + 1, s =>
    match Text.find (fun _ => foreignReference?) s with
    | some (_, raw, r) => Identifier.bare raw :: foreignReferences n r
    | none => []

/-- The table that a statement alters, and the tables its foreign keys refer to, each once. -/
def references (text : Text) : Option Text × List Text :=
  (Kind.nameIn .alter text, Text.distinct (foreignReferences text.length text))

end SqlDump.Alter
