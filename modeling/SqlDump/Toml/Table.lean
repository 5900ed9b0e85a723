import SqlDump.Toml.Scalar

/-!
The entries of TOML tables. A table may be written in several pieces, each with an entry of its
own, so a name may stand in a table more than once. What may follow what under one name is decided
when an entry is added; whether the pieces fit together, when a table is complete.
-/

namespace SqlDump.Toml

/-- How a piece of a table came to be. -/
inductive Origin where
  /-- Named by its own header. -/
  | headed
  /-- Named in front of other tables or opened by a key with dots. -/
  | implied
  /-- Named in front of others by the header of an array, in a table of an array of that name. -/
  | gathered
  deriving DecidableEq, Repr

/-- What an entry stands under: a name, and whether a dot follows it in the key that defines it. -/
structure Label where
  name : Text
  dotted : Bool := false
  deriving DecidableEq, Repr

/-- What an entry holds. Of an array of tables no more is kept than that it is one. -/
inductive Item where
  | value (v : Value)
  | table (origin : Origin) (entries : List (Label × Item))
  | tables

abbrev Entries := List (Label × Item)

namespace Item

def isTable : Item → Bool
  | table _ _ => true
  | _ => false

/-- The entries of a table, and none of anything else. -/
def entries : Item → Entries
  | table _ entries => entries
  | _ => []

/-- The entry of a name in front of others: tables that hold each other, and the item in the last
one. -/
def nested (dotted : Bool) : Text → List Text → Item → Label × Item
  | name, [], item => ({ name }, item)
  | name, next :: rest, item =>
    ({ name, dotted }, .table .implied [nested dotted next rest item])

end Item

namespace Entries

/-- The entries of a name. -/
def named (name : Text) (entries : Entries) : Entries := entries.filter (·.1.name = name)

def last? (name : Text) (entries : Entries) : Option (Label × Item) :=
  (named name entries).getLast?

/-- The name of the last table. -/
def lastTable? (entries : Entries) : Option Text :=
  (entries.filter (·.2.isTable)).getLast?.map (·.1.name)

/-- Puts an entry behind the others. What stood last under its name has to be a table. -/
def attach? (label : Label) (item : Item) (entries : Entries) : Option Entries :=
  if (last? label.name entries).all (·.2.isTable) then some (entries ++ [(label, item)]) else none

/-- The entries of all pieces of a table, one piece after another. -/
def parts (name : Text) (entries : Entries) : Entries :=
  (named name entries).flatMap (·.2.entries)

/-- Whether a name stands for one thing only. -/
def isWhole (name : Text) (entries : Entries) : Bool := (named name entries).length ≤ 1

/-- Whether a name can be looked up: the pieces of a table can be put one behind another. -/
def isReadable (name : Text) (entries : Entries) : Bool :=
  isWhole name entries ||
    ((parts name entries).foldlM (fun all (label, item) => attach? label item all) []).isSome

/-- Puts an item in the place of the last one of its name. -/
def replaceLast (name : Text) (item : Item) : Entries → Entries
  | [] => []
  | entry :: rest =>
    if entry.1.name = name && (last? name rest).isNone then (entry.1, item) :: rest
    else entry :: replaceLast name item rest

/-- Makes the first entry of a name an array of tables and drops the others. -/
def gather (name : Text) : Entries → Entries
  | [] => []
  | entry :: rest =>
    if entry.1.name = name then (entry.1, .tables) :: rest.filter (·.1.name ≠ name)
    else entry :: gather name rest

mutual

/-- Adds an entry, in at most `n` steps. Tables named in front of others go on with each other if
no other table stands between them; else they are pieces of one table, which are compared at once
if `checked`. -/
def add? : Nat → Bool → Label → Item → Entries → Option Entries
  | 0, _, _, _, _ => none
  | n + 1, checked, label, item, entries =>
    match last? label.name entries, item with
    | none, _ => some (entries ++ [(label, item)])
    | some (_, .tables), .tables => some entries
    | some (_, .tables), .table .gathered _ => some entries
    | some (_, .table _ _), .table .gathered _ => some (gather label.name entries)
    | some (_, .table .headed _), .table .headed _ => none
    | some (_, .table .headed _), .table .implied _ => attach? label item entries
    | some (first, .table _ _), .table .headed _ =>
      if first.dotted then none else attach? label item entries
    | some (first, .table origin old), .table .implied new =>
      if label.dotted || first.dotted || lastTable? entries ≠ some label.name then do
        let entries ← attach? label item entries
        guard (!checked || fits n label.name entries)
        pure entries
      else do
        let inner ← new.foldlM (fun inner (label, item) => addReadable? n true label item inner) old
        pure (replaceLast label.name (.table origin inner) entries)
    | _, _ => none

/-- Adds an entry under a name that can be looked up then. -/
def addReadable? : Nat → Bool → Label → Item → Entries → Option Entries
  | 0, _, _, _, _ => none
  | n + 1, checked, label, item, entries => do
    let entries ← add? n checked label item entries
    guard (isReadable label.name entries)
    pure entries

/-- Whether the pieces of a table fit together, those of the tables inside it included. -/
def fits : Nat → Text → Entries → Bool
  | 0, _, _ => false
  | n + 1, name, entries =>
    isWhole name entries ||
      ((parts name entries).foldlM (fun all (label, item) => add? n false label item all) []).any
        (allFit n)

/-- Whether the pieces of every table fit together. -/
def allFit : Nat → Entries → Bool
  | 0, _ => false
  | n + 1, entries => (Text.distinct (entries.map (·.1.name))).all (fits n · entries)

end

/-- The value that a table has for a name. A table in its place counts as a value of another
type. -/
def get? (entries : Entries) (name : Text) : Option Value :=
  match named name entries with
  | [] => none
  | [(_, .value v)] => some v
  | _ => some .other

end Entries

end SqlDump.Toml
