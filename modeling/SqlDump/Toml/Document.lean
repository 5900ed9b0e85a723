import SqlDump.Toml.Line
import SqlDump.Toml.Table

/-!
TOML documents: the tables that the lines build, and the sections of a document that can be looked
up by name. A header is followed by the values of its table, and then by the headers that lead
into it.
-/

namespace SqlDump.Toml

namespace Line

/-- The key of a header, and whether it is one of an array. -/
def headed? : Line → Option (List Text × Bool)
  | pair _ _ => none
  | header key => some (key, false)
  | arrayHeader key => some (key, true)

def key : Line → List Text
  | pair key _ => key
  | header key => key
  | arrayHeader key => key

/-- The entry that a value has in the table that its line belongs to. -/
def entry? : Line → Option (Label × Item)
  | pair (name :: rest) v => some (Item.nested true name rest (.value v))
  | _ => none

end Line

/-- Whether a header leads into the table of another. -/
def isInside (outer key : List Text) : Bool := outer.isPrefixOf key && outer ≠ key

/-- The entry of the table whose header has the names `name :: rest` beyond those of the table
around it. `again` says that the first of them is the name of an array that goes on. -/
def Entries.entry (entries : Entries) (array again : Bool) (name : Text) (rest : List Text) :
    Label × Item :=
  match Item.nested false name rest (if array then .tables else .table .headed entries) with
  | (label, .table .implied inner) =>
    (label, .table (if array && again then .gathered else .implied) inner)
  | entry => entry

section

/-! `steps` is how many steps each comparison of pieces may take; the readers themselves take at
most `n`. They return the lines that follow. -/

variable (steps : Nat)

/-- Adds the values in front of the next header. -/
def values? : Entries → List Line → Option (Entries × List Line)
  | entries, [] => some (entries, [])
  | entries, line :: lines =>
    match line.entry? with
    | none => some (entries, line :: lines)
    | some (label, item) => do
      values? (← Entries.addReadable? steps true label item entries) lines

mutual

/-- The table under `key`, whose header stands in front of the lines. `arrays` are the keys of the
arrays that go on. -/
def table? : Nat → List (List Text) → List Text → List Line → Option (Entries × List Line)
  | 0, _, _, _ => none
  | n + 1, arrays, key, lines => do
    let (entries, lines) ← values? steps [] lines
    let (entries, lines) ← inner? n arrays key entries lines
    guard (Entries.allFit steps entries)
    pure (entries, lines)

/-- Adds the tables whose headers lead into the table under `key`. -/
def inner? : Nat → List (List Text) → List Text → Entries → List Line →
    Option (Entries × List Line)
  | 0, _, _, _, _ => none
  | n + 1, arrays, key, entries, lines =>
    if lines.head?.any fun line => isInside key line.key then do
      let ((label, item), lines) ← block? n arrays key lines
      inner? n arrays key (← Entries.addReadable? steps false label item entries) lines
    else some (entries, lines)

/-- The entry that the table of the next header has in the table under `outer`. The further tables
of an array follow its first. -/
def block? : Nat → List (List Text) → List Text → List Line →
    Option ((Label × Item) × List Line)
  | n + 1, arrays, outer, line :: lines => do
    let (key, array) ← line.headed?
    let (entries, lines) ← table? n arrays key lines
    match key.drop outer.length with
    | [] => none
    | name :: rest =>
      let lines ← if array && rest.isEmpty then more? n (key :: arrays) key lines else some lines
      pure (entries.entry array (arrays.contains [name]) name rest, lines)
  | _, _, _, _ => none

/-- Reads the further tables of an array. -/
def more? : Nat → List (List Text) → List Text → List Line → Option (List Line)
  | 0, _, _, _ => none
  | n + 1, arrays, key, lines =>
    match lines with
    | .arrayHeader next :: rest =>
      if next = key then do
        let (_, rest) ← table? n arrays key rest
        more? n arrays key rest
      else some lines
    | _ => some lines

end

/-- Adds the tables of all headers to the root. -/
def blocks? : Nat → Entries → List Line → Option Entries
  | _, root, [] => some root
  | 0, _, _ => none
  | n + 1, root, lines => do
    let ((label, item), lines) ← block? steps n [] [] lines
    blocks? n (← Entries.add? steps true label item root) lines

end

/-- A document is its root table. -/
structure Document where
  root : Entries

/-- What a name at the root stands for. -/
inductive Section where
  | absent
  | table (entries : Entries)
  /-- A table in several pieces, or no table. -/
  | other
  /-- A table in pieces that cannot be put together. -/
  | unreadable

namespace Document

/-- Builds the tables of lines. Tables are nested no deeper than there are names in the keys. -/
def ofLines? (lines : List Line) : Option Document := do
  let steps := 4 * lines.foldl (fun n line => n + line.key.length) 0 + 4
  let values := lines.takeWhile (·.headed?.isNone)
  let root ← (values.filterMap Line.entry?).foldlM
    (fun root (label, item) => Entries.add? steps true label item root) []
  let root ← blocks? steps (4 * lines.length + 4) root (lines.drop values.length)
  pure { root }

/-- Reads a document, or nothing where it breaks a rule. -/
def parse (s : Text) : Option Document := lines? (s.length + 1) s >>= ofLines?

/-- Looks up a name. A table in several pieces does not count as one. -/
def section? (d : Document) (name : Text) : Section :=
  match Entries.named name d.root with
  | [] => .absent
  | [(_, .table _ entries)] => .table entries
  | [_] => .other
  | _ => if Entries.isReadable name d.root then .other else .unreadable

end Document

end SqlDump.Toml
