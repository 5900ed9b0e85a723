import SqlDump.Text.Quoted

/-!
Values that databases hand over: in the rows of an answer, and with an error.
-/

namespace SqlDump

inductive Value where
  | text (s : Text)
  | integer (i : Int)
  | boolean (b : Bool)
  | null
  deriving DecidableEq, Repr

namespace Value

/-- The value in a message. -/
def shown : Value → Text
  | text s => s
  | integer i => intText i
  | boolean b => if b then "True" else "False"
  | null => "None"

/-- The value as one of several, where a text stands between quotes. -/
def listed : Value → Text
  | text s => s.quoted
  | value => value.shown

/-- Whether the value can be an error code. A truth value counts as the number it stands for. -/
def isCode : Value → Bool
  | integer _ => true
  | boolean _ => true
  | _ => false

end Value

end SqlDump
