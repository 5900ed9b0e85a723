import SqlDump.Client.Mysql
import SqlDump.Definer
import SqlDump.Log
import SqlDump.Plan

/-!
Settings: the database to work with, where log lines go and how a dump is imported.
-/

namespace SqlDump

/-- The kinds of databases that there are clients for. -/
inductive Driver where
  | mysql
  | sqlite
  deriving DecidableEq, Repr

/-- The database to work with. An SQLite database is a file, which takes the place of the
server's database; the rest of the server is of no use then. -/
structure ConnectionSettings where
  driver : Driver := .mysql
  server : Server :=
    { host := "localhost", port := 3306, user := [], password := [], database := [] }
  deriving DecidableEq, Repr

/-- Where log lines go. With an empty path there is no file. -/
structure LogSettings where
  path : Text := []
  level : Level := .info
  toConsole : Bool := false
  deriving DecidableEq, Repr

structure ImportSettings where
  mode : InsertMode := .multi
  dropFirst : Bool := true
  deriving DecidableEq, Repr

structure Settings where
  connection : ConnectionSettings := {}
  log : LogSettings := {}
  importing : ImportSettings := {}
  deriving DecidableEq, Repr

namespace Driver

def all : List Driver := [mysql, sqlite]

def name : Driver → Text
  | mysql => "mysql"
  | sqlite => "sqlite"

def named? (name : Text) : Option Driver := all.find? (·.name = name)

end Driver

namespace InsertMode

def all : List InsertMode := [none, multi, single]

def name : InsertMode → Text
  | none => "NONE"
  | multi => "MULTI"
  | single => "SINGLE"

def named? (name : Text) : Option InsertMode := all.find? (·.name = name)

end InsertMode

/-- The objects of a dump are given to the account that the server is used with. -/
def Settings.account (settings : Settings) : Account :=
  { user := settings.connection.server.user, host := settings.connection.server.host }

end SqlDump
