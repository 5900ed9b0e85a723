import SqlDump.Alter.Header
import SqlDump.Ordered

/-!
Which tables refer to which, and an order in which every table follows those it refers to.
-/

namespace SqlDump

/-- Each table with the tables it refers to. -/
abbrev Graph := Ordered (List Text)

/-- Tables in an order to create them in. -/
structure Sorted where
  order : List Text
  /-- The end of the order: tables whose references could not all be put before them. -/
  unresolved : List Text := []
  deriving DecidableEq, Repr

namespace Graph

/-- Adds references to a table, which is put in if it is new. -/
def refer (graph : Graph) (table : Text) (references : List Text) : Graph :=
  graph.set table (Text.distinct ((graph.get? table).getD [] ++ references))

/-- The given tables first, then the other tables that are altered, with all references. -/
def ofAlters (alters tables : List Text) : Graph :=
  alters.foldl (fun graph alter =>
    match Alter.references alter with
    | (some table, references) => refer graph table references
    | (none, _) => graph) (Ordered.ofList (tables.map (·, [])))

/-- Whether everything that a table refers to, itself apart, is among the placed tables. -/
def isReady (placed : List Text) (entry : Text × List Text) : Bool :=
  entry.2.all fun reference => reference = entry.1 || placed.contains reference

/-- Places, again and again, the tables whose references are all placed. What is left when a pass
places nothing stays unresolved. At most `n` passes. -/
def sortFrom : Nat → List Text → Graph → Sorted
  | 0, placed, remaining => { order := placed ++ remaining.keys, unresolved := remaining.keys }
  | n + 1, placed, remaining =>
    if remaining.isEmpty then { order := placed }
    else
      let ready : Graph := remaining.filter (isReady placed)
      if ready.isEmpty then
        { order := placed ++ remaining.keys, unresolved := remaining.keys }
      else sortFrom n (placed ++ ready.keys) (remaining.filter (!isReady placed ·))

/-- Every table once, behind those it refers to as far as that can be. -/
def sort (graph : Graph) : Sorted := sortFrom (graph.length + 1) [] graph

end Graph

end SqlDump
