import SqlDump.Syntax.Identifier
import SqlDump.Syntax.Literal
import SqlDump.Text.Digit

/-!
The tokens of a column definition behind its type: string literals, quoted names, numbers, words,
a word together with the group called on it, groups, and single characters.
-/

namespace SqlDump.Token

/-- Where the scan of a group stands: at its own level, in a string, or in an inner group. -/
inductive Level where
  | top
  | string
  | inner
  deriving DecidableEq, Repr

/-- The rest of a group, through its closing parenthesis, and what follows. Strings stand between
single quotes; inner groups nest no further, and double quotes stand only inside those. -/
def groupRest? : Level → Text → Option (Text × Text)
  | _, [] => none
  | .top, c :: s =>
    if c = ')' then some ([c], s)
    else if c = '\x22' then none
    else
      let next := if c = '\x27' then Level.string else if c = '(' then Level.inner else Level.top
      (groupRest? next s).map fun (u, r) => (c :: u, r)
  | .inner, c :: s =>
    if c = '(' then none
    else (groupRest? (if c = ')' then .top else .inner) s).map fun (u, r) => (c :: u, r)
  | .string, [_] => none
  | .string, c :: d :: s =>
    if c = '\\' then
      if d = '\n' then none else (groupRest? .string s).map fun (u, r) => (c :: d :: u, r)
    else (groupRest? (if c = '\x27' then .top else .string) (d :: s)).map fun (u, r) => (c :: u, r)

/-- The group at the front. -/
def group? : Text → Option (Text × Text)
  | '(' :: s => (groupRest? .top s).map fun (u, r) => ('(' :: u, r)
  | _ => none

/-- A string literal, also behind one of the letters that mark its notation or behind the name of
a character set. -/
def string? (s : Text) : Option (Text × Text) :=
  (match s with
    | [] => none
    | c :: r =>
      if "bBxXnN".toList.contains c then (Literal.read? '\x27' r).map fun (u, t) => (c :: u, t)
      else if c = '_' then do
        let (w, r) ← Text.run? isWord r
        let (u, t) ← Literal.read? '\x27' r
        pure (c :: w ++ u, t)
      else none) <|> Literal.read? '\x27' s <|> Literal.read? '\x22' s

/-- A name between backquotes, which may be empty. -/
def backquoted? : Text → Option (Text × Text)
  | '\x60' :: s =>
    match s.dropWhile (· ≠ '\x60') with
    | c :: r => some ('\x60' :: s.takeWhile (· ≠ '\x60') ++ [c], r)
    | [] => none
  | _ => none

/-- The digits after `lead`, if there are any; nothing otherwise. -/
def digitsAfter (lead : Text → Option (Text × Text)) (s : Text) : Text × Text :=
  match (do let (u, r) ← lead s; let (v, t) ← Text.run? isDigit r; pure (u ++ v, t)) with
  | some found => found
  | none => ([], s)

def point? : Text → Option (Text × Text)
  | '.' :: s => some (['.'], s)
  | _ => none

def exponent? : Text → Option (Text × Text)
  | c :: d :: s =>
    if c = 'e' || c = 'E' then
      if d = '+' || d = '-' then some ([c, d], s) else some ([c], d :: s)
    else none
  | _ => none

/-- A number, with a sign, a fraction and an exponent if they are written. -/
def number? (s : Text) : Option (Text × Text) := do
  let sign := s.takeWhile (· = '-') |>.take 1
  let (whole, r) ← Text.run? isDigit (s.drop sign.length)
  let (fraction, r) := digitsAfter point? r
  let (exponent, r) := digitsAfter exponent? r
  pure (sign ++ whole ++ fraction ++ exponent, r)

/-- A word, together with the group that follows it directly. -/
def word? : Text → Option (Text × Text)
  | [] => none
  | c :: s =>
    if c.isAlpha || c = '_' || c = '$' then
      let u := c :: s.takeWhile isNameChar
      let r := s.dropWhile isNameChar
      match group? r with
      | some (g, t) => some (u ++ g, t)
      | none => some (u, r)
    else none

/-- The token at the front, which is no blank. -/
def read? (s : Text) : Option (Text × Text) :=
  string? s <|> backquoted? s <|> number? s <|> word? s <|> group? s <|>
    match s with
    | [] => none
    | c :: r => some ([c], r)

/-- At most `n` tokens. -/
def readMany : Nat → Text → List Text
  | 0, _ => []
  | n + 1, s =>
    match read? (Text.trimLeft s) with
    | some (t, r) => t :: readMany n r
    | none => []

/-- All tokens of the text. Blanks only separate them. -/
def all (s : Text) : List Text := readMany s.length s

end SqlDump.Token
