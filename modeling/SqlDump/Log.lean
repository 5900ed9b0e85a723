import SqlDump.Text.Digit
import SqlDump.Text.Basic

/-!
Log entries and their lines: the level, the time, the stage of the work and a message, the first
three in columns.
-/

namespace SqlDump

/-- How serious an entry is. -/
inductive Level where
  | info
  | warning
  | error
  deriving DecidableEq, Repr

/-- The stages of the work. -/
inductive Stage where
  | parse
  | introspect
  | compare
  | plan
  | execute
  deriving DecidableEq, Repr

structure Entry where
  level : Level
  stage : Stage
  message : Text
  deriving DecidableEq, Repr

/-- A day and a time of day. -/
structure Moment where
  year : Nat
  month : Nat
  day : Nat
  hour : Nat
  minute : Nat
  second : Nat
  deriving DecidableEq, Repr

namespace Level

def all : List Level := [info, warning, error]

def name : Level → Text
  | info => "INFO"
  | warning => "WARNING"
  | error => "ERROR"

def rank : Level → Nat
  | info => 1
  | warning => 2
  | error => 3

def named? (name : Text) : Option Level := all.find? (·.name = name)

end Level

namespace Stage

def all : List Stage := [parse, introspect, compare, plan, execute]

def name : Stage → Text
  | parse => "PARSE"
  | introspect => "INTROSPECT"
  | compare => "COMPARE"
  | plan => "PLAN"
  | execute => "IMPORT"

def named? (name : Text) : Option Stage := all.find? (·.name = name)

end Stage

namespace Moment

/-- Year, month and day, then the time of day. -/
def text (m : Moment) : Text :=
  let two := fun (n : Nat) => Text.padZeros 2 (natText n)
  natText m.year ++ "/" ++ two m.month ++ "/" ++ two m.day ++ " " ++
    two m.hour ++ ":" ++ two m.minute ++ ":" ++ two m.second

end Moment

namespace Entry

/-- The width of the level's column: the longest level in brackets, and a space. -/
def levelWidth : Nat := (Level.all.map (·.name.length)).foldl max 0 + 3

/-- The width of the stage's column: the longest stage with a comma, and a space. -/
def stageWidth : Nat := (Stage.all.map (·.name.length)).foldl max 0 + 2

def line (now : Moment) (e : Entry) : Text :=
  Text.padRight levelWidth ("[" ++ e.level.name ++ "]") ++ now.text ++ ", " ++
    Text.padRight stageWidth (e.stage.name ++ ",") ++ e.message

end Entry

end SqlDump
