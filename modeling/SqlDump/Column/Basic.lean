import SqlDump.Text.Basic

/-!
Columns: what a column is declared as, and the keys it belongs to.
-/

namespace SqlDump

/-- A unique or plain key, with its columns in key order. -/
structure Key where
  name : Text
  columns : List Text := []
  deriving DecidableEq, Repr

/-- A foreign key as seen from one of its columns. -/
structure ForeignKey where
  name : Text
  column : Text
  refTable : Text
  refColumn : Text
  deriving DecidableEq, Repr

/-- What a column is declared as, its keys apart. -/
structure Definition where
  /-- The type with its arguments, and `unsigned` behind it. -/
  type : Text
  /-- The name of the type in small letters. -/
  datatype : Text
  /-- The first number among the arguments, 0 if there is none. -/
  size : Nat := 0
  /-- The size of a character type, 0 for any other. -/
  length : Nat := 0
  unsigned : Bool := false
  nullable : Bool := false
  /-- The default as written. -/
  default : Option Text := none
  autoIncrement : Bool := false
  deriving DecidableEq, Repr

/-- A column: its definition, and the keys it is part of. -/
structure Column extends Definition where
  primary : Bool := false
  unique : List Key := []
  index : List Key := []
  foreign : List ForeignKey := []
  deriving DecidableEq, Repr

/-- The types whose size counts characters. -/
def characterTypes : List Text := ["char", "varchar", "binary", "varbinary"]

end SqlDump
