import SqlDump.Definer.Template

/-!
What can be wrong with a dump beyond statements that are merely not understood.
-/

namespace SqlDump

/-- Why a dump cannot be read. -/
inductive ReadError where
  /-- The size of a column type has more digits than a number may have. -/
  | numberTooLong (digits : Nat)
  /-- The word after CREATE is no kind of object, though its letters fold to one. -/
  | unknownObject (word : Text)
  /-- The account does not make a valid template. -/
  | template (error : Template.Error)
  deriving DecidableEq, Repr

/-- Numbers of more digits than this are refused. -/
def digitLimit : Nat := 4300

namespace ReadError

def message : ReadError → Text
  | numberTooLong digits =>
    "Exceeds the limit (" ++ natText digitLimit ++
      " digits) for integer string conversion: value has " ++ natText digits ++
      " digits; use sys.set_int_max_str_digits() to increase the limit"
  | unknownObject word => word.quoted
  | template error => error.message

end ReadError

end SqlDump
