import SqlDump.Ordered
import SqlDump.Statement.Constraint
import SqlDump.Statement.Kind
import SqlDump.Syntax.Literal
import SqlDump.Syntax.Nesting
import SqlDump.Text.Digit

/-!
CREATE TABLE statements: the columns and the keys in their bodies, and the statement without its
keys, which ALTER statements then add.
-/

namespace SqlDump.CreateTable

/-- A statement taken apart at the parentheses of its body. -/
structure Layout where
  /-- The table's name as written. -/
  rawName : Text
  /-- Everything up to the body. -/
  header : Text
  body : Text
  /-- The table options behind the body. -/
  options : Text
  deriving DecidableEq, Repr

/-- The layout of a query that has a body directly behind the name. -/
def layout? (query : Text) : Option Layout := do
  let (rawName, r) ← createdTable? query
  let opening := Text.trimLeft r
  let (body, options) ← Nesting.group? opening
  pure { rawName, header := query.take (query.length - opening.length), body, options }

/-- The parts of a body between its commas, without empty ones. -/
def bodyParts (body : Text) : List Text := (Nesting.pieces ',' true body).filter (!·.isEmpty)

def parts (query : Text) : List Text :=
  match layout? (Text.trim query) with
  | some l => bodyParts l.body
  | none => []

/-- Whether a part of a body is a key or a constraint, not a column. -/
def isKeyLine (part : Text) : Bool :=
  (phrase? ["PRIMARY", "KEY"] part).isSome || (phrase? ["FOREIGN", "KEY"] part).isSome ||
    (anyWord? ["UNIQUE", "KEY", "INDEX", "CONSTRAINT", "FULLTEXT", "SPATIAL", "CHECK", "PERIOD"]
      part).isSome

/-- Whether a part of a body is a key that an ALTER statement can add. -/
def isRelocated (part : Text) : Bool :=
  (phrase? ["PRIMARY", "KEY"] part).isSome || (phrase? ["FOREIGN", "KEY"] part).isSome ||
    (anyWord? ["UNIQUE", "KEY", "INDEX", "FULLTEXT", "SPATIAL"] part).isSome ||
    (constraintReadings part).any fun (_, r) =>
      (phrase? ["PRIMARY", "KEY"] r).isSome || (word? "UNIQUE" r).isSome ||
        (phrase? ["FOREIGN", "KEY"] r).isSome

/-- The name of a column and the text of its definition. -/
def columnText? (part : Text) : Option (Text × Text) :=
  if isKeyLine part then none
  else (namedText? part).map fun (name, text) => (Identifier.bare name, Text.trim text)

/-- The keys and constraints in the body of a statement. -/
def keyLines (query : Text) : List Text := (parts query).filter isKeyLine

/-- The first AUTO_INCREMENT that no value follows: what stands before it and the blanks in front
of it, and what stands behind. -/
def autoIncrement? (masked : Text) : Option (Text × Text) :=
  Text.find (fun before s =>
    let t := Text.trimLeft s
    if t.length < s.length || wordStarts before then do
      let r ← word? "AUTO_INCREMENT" t
      if Text.startsWith "=" (Text.trimLeft r) then none else some r
    else none) masked

/-- Whether a column's definition declares a key of its own. -/
def declaresKey (masked : Text) : Bool :=
  (Text.find (fun before s =>
    if wordStarts before then
      ((phrase? ["PRIMARY", "KEY"] s).filter wordEnds) <|> word? "UNIQUE" s
    else none) masked).isSome

/-- A column of the body that is declared AUTO_INCREMENT: its quoted name, its definition, and the
part without the word. -/
structure Counter where
  name : Text
  definition : Text
  part : Text
  deriving DecidableEq, Repr

/-- Takes the AUTO_INCREMENT off a part. Positions are found with the literals masked, and taken
from the part itself. -/
def counter? (part : Text) : Option Counter := do
  let (name, text) ← namedText? part
  let (before, r) ← autoIncrement? (Literal.mask part)
  pure {
    name := Identifier.quote name
    definition := Text.trim text
    part := part.take before.length ++ part.drop (part.length - r.length) }

/-- The columns with the first AUTO_INCREMENT taken off, unless its column declares a key too. -/
def releaseCounter : List Text → List Text × Option Counter
  | [] => ([], none)
  | part :: rest =>
    let pass := let (columns, found) := releaseCounter rest; (part :: columns, found)
    if isKeyLine part then pass
    else match counter? part with
      | none => pass
      | some counter =>
        if declaresKey (Literal.mask part) then (part :: rest, none)
        else (counter.part :: rest, some counter)

/-- AUTO_INCREMENT and a number among the table options: the number, and what follows it. -/
def startValue? (s : Text) : Option (Text × Text) := do
  let r ← keyword? "AUTO_INCREMENT" s
  let r ← Text.after? "=" (Text.trimLeft r)
  Text.run? isDigit (Text.trimLeft r)

/-- The first number that AUTO_INCREMENT is given among the table options. -/
def firstStartValue? (options : Text) : Option Text :=
  (Text.find (fun before s => if wordStarts before then startValue? s else none) options).map
    fun (_, number, _) => number

/-- The options without at most `n` such settings and the blanks before them. A setting ends in a
digit, so behind one the next needs a blank. -/
def dropStartValues : Nat → Option Char → Text → Text
  | 0, _, s => s
  | n + 1, before, s =>
    match Text.search (fun _ => false) (fun before s =>
        let t := Text.trimLeft s
        if t.length < s.length || wordStarts before then startValue? t else none) before s with
    | none => s
    | some (u, _, r) => u ++ dropStartValues n (some '0') r

/-- A CREATE TABLE statement without its keys, and the ALTER statements that add them. -/
structure Relocated where
  query : Text
  alters : List Text := []
  deriving DecidableEq, Repr

/-- Moves the keys of a table into ALTER statements. A column can only count up when it has a key,
so the AUTO_INCREMENT of the first such column moves behind them, and the number to start from
goes with it. A statement without anything to move stays as it is. -/
def relocateKeys (text : Text) : Relocated :=
  let query := Text.trimRight (Text.dropTrailing ';' (Text.trim text))
  match layout? query with
  | none => { query := Text.trim text }
  | some l =>
    let alter (change : Text) : Text :=
      "ALTER TABLE " ++ Identifier.quote l.rawName ++ " " ++ change
    let parts := bodyParts l.body
    let keys := (parts.filter isRelocated).map fun part => alter ("ADD " ++ Text.spaced part)
    let (columns, counter) := releaseCounter (parts.filter (!isRelocated ·))
    let options := Text.trim l.options
    let start := counter.bind fun _ => firstStartValue? options
    let startText : Text :=
      match start with
      | some number => ", AUTO_INCREMENT=" ++ number
      | none => []
    let counts := counter.toList.map fun counter =>
      alter ("MODIFY " ++ counter.name ++ " " ++ counter.definition ++ startText)
    let options :=
      if start.isSome then Text.trim (dropStartValues options.length none options) else options
    let optionText : Text := if options.isEmpty then [] else " " ++ options
    let alters := keys ++ counts
    if alters.isEmpty then { query }
    else {
      query := Text.trimRight l.header ++ " (\n  " ++ Text.join ",\n  " columns ++ "\n)" ++
        optionText
      alters }

/-- The columns of a statement with the texts of their definitions, in the order of the first
mention; the last mention of a column tells its definition. -/
def columnTexts (query : Text) : Ordered Text :=
  ((parts query).filterMap columnText?).foldl (fun columns (name, text) => columns.set name text) []

end SqlDump.CreateTable
