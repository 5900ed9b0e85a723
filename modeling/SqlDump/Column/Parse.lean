import SqlDump.Column.Basic
import SqlDump.Column.Token
import SqlDump.ReadError
import SqlDump.Text.CaseMap

/-!
Reading a column definition: a type, with arguments if it has any, then qualifiers in any order up
to a top-level comma. What is not understood among the qualifiers is passed over.
-/

namespace SqlDump.Column

/-- The rest of a type's arguments, its closing parenthesis dropped, and what follows. `mark` is
the quote that stands open, if one does; parentheses stand only inside quotes. -/
def argumentsRest? : Option Char → Text → Option (Text × Text)
  | _, [] => none
  | none, c :: s =>
    if c = ')' then some ([], s)
    else if c = '(' then none
    else
      (argumentsRest? (if c = '\x27' || c = '\x22' then some c else none) s).map
        fun (u, r) => (c :: u, r)
  | some _, [_] => none
  | some mark, c :: d :: s =>
    if c = '\\' then
      if d = '\n' then none
      else (argumentsRest? (some mark) s).map fun (u, r) => (c :: d :: u, r)
    else
      (argumentsRest? (if c = mark then none else some mark) (d :: s)).map
        fun (u, r) => (c :: u, r)

/-- The arguments of a type and what follows them, if a well-formed group comes next. -/
def arguments? (s : Text) : Option (Text × Text) :=
  match Text.trimLeft s with
  | '(' :: r => argumentsRest? none r
  | _ => none

/-- A type at the front of a definition: its name, its arguments, and what follows. -/
def type? (s : Text) : Option (Text × Option Text × Text) :=
  match Text.trimLeft s with
  | [] => none
  | c :: r =>
    if c.isAlpha then
      let name := c :: r.takeWhile isWord
      let r := r.dropWhile isWord
      match arguments? r with
      | some (arguments, r) => some (name, some arguments, r)
      | none => some (name, none, r)
    else none

/-- Arguments without blanks at the ends and, unless they hold quotes, none around commas. -/
def tidyArguments (arguments : Text) : Text :=
  let arguments := Text.trim arguments
  if '\x27' ∈ arguments ∨ '\x22' ∈ arguments then arguments
  else Text.join "," ((Text.splitOn "," arguments).map Text.trim)

/-- The number that the arguments start with, 0 if they start with none. -/
def sizeOf (arguments : Text) : Except ReadError Nat :=
  let digits := arguments.takeWhile isDigit
  if digits.length > digitLimit then .error (.numberTooLong digits.length)
  else .ok (natOfDigits digits)

/-- What the qualifiers read so far say. -/
structure Qualifiers where
  unsigned : Bool := false
  nullable : Option Bool := none
  default : Option Text := none
  autoIncrement : Bool := false
  primary : Bool := false
  deriving DecidableEq, Repr

/-- What the qualifier that starts with `token` says, and how many of the tokens after it are
part of it. -/
def qualifier (q : Qualifiers) (token : Text) (following : Option Text) : Qualifiers × Nat :=
  let keyword := Text.upper token
  let next := following.map Text.upper
  if keyword = "UNSIGNED" then ({ q with unsigned := true }, 0)
  else if keyword = "NOT" ∧ next = some "NULL" then ({ q with nullable := some false }, 1)
  else if keyword = "NULL" then ({ q with nullable := some true }, 0)
  else if (keyword = "CHARACTER" ∨ keyword = "CHAR") ∧ next = some "SET" then (q, 2)
  else if keyword = "CHARSET" ∨ keyword = "COLLATE" ∨ keyword = "COMMENT" then (q, 1)
  else if keyword = "DEFAULT" ∧ following.isSome then
    ({ q with default := if next = some "NULL" then some "NULL" else following }, 1)
  else if keyword = "AUTO_INCREMENT" then
    ({ q with autoIncrement := true }, if next = some "=" then 2 else 0)
  else if keyword = "ON" ∧ next = some "UPDATE" then (q, 2)
  else if keyword = "PRIMARY" ∧ next = some "KEY" then ({ q with primary := true }, 1)
  else (q, 0)

/-- Reads qualifiers up to a comma that stands as a token of its own, after passing over `skip`
tokens that belong to the qualifier before. -/
def qualifiers : Qualifiers → Nat → List Text → Qualifiers
  | q, _, [] => q
  | q, skip + 1, _ :: tokens => qualifiers q skip tokens
  | q, 0, token :: tokens =>
    if token = "," then q
    else
      let (q, skip) := qualifier q token tokens.head?
      qualifiers q skip tokens

/-- The type as it is shown: the name, the arguments in parentheses, and `unsigned`. -/
def typeText (datatype : Text) (arguments : Option Text) (unsigned : Bool) : Text :=
  datatype ++ (match arguments with
    | some a => "(" ++ a ++ ")"
    | none => []) ++ if unsigned then " unsigned" else ""

/-- The column that a definition describes, or nothing where no type is recognised. A column that
is declared neither NULL nor NOT NULL can be null only if its default is. -/
def parse (text : Text) : Except ReadError (Option Column) := do
  match type? text with
  | none => return none
  | some (name, arguments, rest) =>
    let datatype := Text.lower name
    let arguments := arguments.map tidyArguments
    let size ← sizeOf (arguments.getD [])
    let q := qualifiers {} 0 (Token.all rest)
    return some {
      type := typeText datatype arguments q.unsigned
      datatype
      size
      length := if characterTypes.contains datatype then size else 0
      unsigned := q.unsigned
      nullable := q.nullable.getD (q.default = some "NULL")
      default := q.default
      autoIncrement := q.autoIncrement
      primary := q.primary }

end SqlDump.Column
