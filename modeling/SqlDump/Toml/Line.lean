import SqlDump.Toml.Scalar

/-!
The lines of a TOML document: table headers, and keys with their values.
-/

namespace SqlDump.Toml

/-- What a line says. -/
inductive Line where
  | pair (key : List Text) (value : Value)
  | header (key : List Text)
  | arrayHeader (key : List Text)
  deriving DecidableEq, Repr

/-- Keys have at most this many parts, and values stand in each other at most this deep. -/
def depthLimit : Nat := 100

def skipSpaces (s : Text) : Text := s.dropWhile isSpace

/-- Characters of a key that is written without quotes. -/
def isBareKeyChar (c : Char) : Bool := c.isAlphanum || c = '_' || c = '-'

/-- A part of a key that is written without quotes. Tabs may stand inside it, spaces around it. -/
def bareKeyPart? (s : Text) : Option (Text × Text) := do
  let (part, r) ← Text.run? (fun c => isBareKeyChar c || isSpace c) s
  let part := Text.trim part
  guard (!part.isEmpty && !part.any (· = ' '))
  pure (part, r)

/-- One part of a key. -/
def keyPart? (s : Text) : Option (Text × Text) :=
  match s with
  | [] => none
  | c :: _ => if c = '\x22' || c = '\x27' then lineString? s else bareKeyPart? s

/-- A key of parts between dots, spaces standing freely around them. At most `n` parts. -/
def key? : Nat → Text → Option (List Text × Text)
  | 0, _ => none
  | n + 1, s => do
    let (part, r) ← keyPart? (skipSpaces s)
    match skipSpaces r with
    | '.' :: r => do
      let (parts, r) ← key? n r
      pure (part :: parts, r)
    | r => pure ([part], r)

/-- A key and the equals sign behind it. -/
def keyAndEquals? (s : Text) : Option (List Text × Text) := do
  let (key, r) ← key? depthLimit s
  let r ← Text.after? "=" r
  pure (key, skipSpaces r)

/-- What stands behind a line end at the front: a line feed, maybe behind a carriage return. -/
def break? : Text → Option Text
  | '\n' :: r => some r
  | '\r' :: '\n' :: r => some r
  | _ => none

/-- What follows a comment: nothing, or a line end. No controls stand in it. -/
def comment? : Text → Option Text
  | [] => some []
  | c :: s =>
    if (break? (c :: s)).isSome then some (c :: s)
    else if isControl c then none
    else comment? s

/-- The next line, behind what this one says. -/
def lineEnd? (s : Text) : Option Text :=
  match skipSpaces s with
  | [] => some []
  | '#' :: r => do
    let r ← comment? r
    if r.isEmpty then some [] else break? r
  | r => break? r

/-- Blanks, breaks and comments between the parts of a value; at most `n` of them. -/
def skipFiller : Nat → Text → Option Text
  | 0, s => some s
  | n + 1, s =>
    match s.dropWhile (fun c => isSpace c || c = '\n' || c = '\r') with
    | '#' :: r => comment? r >>= skipFiller n
    | r => some r

/-- The names that keys of one table define: what is a table there, and what a value. -/
inductive Keys where
  | value
  | table (entries : List (Text × Keys))

namespace Keys

/-- Puts a key into a table. Every name is defined once, and only tables that keys opened are
gone into. -/
def insert? : List Text → List (Text × Keys) → Option (List (Text × Keys))
  | [], _ => none
  | [name], entries =>
    if entries.any (·.1 = name) then none else some (entries ++ [(name, .value)])
  | name :: rest, entries =>
    match entries.find? (·.1 = name) with
    | none => (insert? rest []).map fun inner => entries ++ [(name, .table inner)]
    | some (_, .value) => none
    | some (_, .table inner) =>
      (insert? rest inner).map fun inner =>
        entries.map fun entry => if entry.1 = name then (name, .table inner) else entry

end Keys

mutual

/-- A value at the front that others may stand in `depth` deep; at most `n` steps. -/
def value? : Nat → Nat → Text → Option (Value × Text)
  | 0, _, _ => none
  | n + 1, depth, s =>
    match depth, s with
    | depth + 1, '[' :: r => (items? n depth r).map (.other, ·)
    | depth + 1, '\x7b' :: r => (entries? n depth [] r).map (.other, ·)
    | _, _ => scalar? s

/-- The rest of an array behind its bracket or a comma. A comma may stand behind the last item. -/
def items? : Nat → Nat → Text → Option Text
  | 0, _, _ => none
  | n + 1, depth, s => do
    let r ← skipFiller n s
    match r with
    | ']' :: t => some t
    | _ =>
      let (_, r) ← value? n depth r
      let r ← skipFiller n r
      match r with
      | ',' :: t => items? n depth t
      | ']' :: t => some t
      | _ => none

/-- The rest of an inline table with some keys, behind its brace or a comma. A comma may stand
behind the last value. -/
def entries? : Nat → Nat → List (Text × Keys) → Text → Option Text
  | 0, _, _, _ => none
  | n + 1, depth, keys, s => do
    let r ← skipFiller n s
    match r with
    | '\x7d' :: t => some t
    | _ =>
      let (key, r) ← keyAndEquals? r
      let keys ← Keys.insert? key keys
      let (_, r) ← value? n depth r
      let r ← skipFiller n r
      match r with
      | ',' :: t => entries? n depth keys t
      | '\x7d' :: t => some t
      | _ => none

end

/-- A header behind its first bracket. One for an array has two on either side. -/
def header? (s : Text) : Option (Line × Text) :=
  match s with
  | '[' :: r => do
    let (key, r) ← key? depthLimit r
    pure (.arrayHeader key, ← Text.after? "]]" r >>= lineEnd?)
  | _ => do
    let (key, r) ← key? depthLimit s
    pure (.header key, ← Text.after? "]" r >>= lineEnd?)

/-- The lines that say something, in at most `n` steps. -/
def lines? : Nat → Text → Option (List Line)
  | 0, _ => some []
  | n + 1, s =>
    match skipSpaces s with
    | [] => some []
    | '[' :: r => do
      let (line, r) ← header? r
      return line :: (← lines? n r)
    | c :: r =>
      if c = '#' || (break? (c :: r)).isSome then lineEnd? (c :: r) >>= lines? n
      else do
        let (key, r) ← keyAndEquals? (c :: r)
        let (value, r) ← value? (2 * r.length + 2) depthLimit r
        let r ← lineEnd? r
        return .pair key value :: (← lines? n r)

end SqlDump.Toml
