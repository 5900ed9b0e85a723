import SqlDump.Settings.Basic
import SqlDump.Text.CaseMap
import SqlDump.Toml.Document

/-!
Settings written in TOML. Every section and every key may be left out and then has its default.
The first thing that is wrong is reported, in the order of the fields.
-/

namespace SqlDump

/-- The types of values that settings have. -/
inductive SettingType where
  | text
  | integer
  | boolean
  deriving DecidableEq, Repr

/-- Settings that are one of a few words. -/
inductive Choice where
  | driver
  | level
  | mode
  deriving DecidableEq, Repr

/-- A key and the section it stands in. -/
structure SettingKey where
  place : Text
  key : Text
  deriving DecidableEq, Repr

/-- What can be wrong with settings. -/
inductive SettingsError where
  /-- The text breaks the rules of TOML. -/
  | malformed
  | notTable (place : Text)
  | wrongType (key : SettingKey) (expected : SettingType)
  | unsupported (choice : Choice) (given : Text)
  deriving DecidableEq, Repr

namespace SettingType

def name : SettingType → Text
  | text => "str"
  | integer => "int"
  | boolean => "bool"

end SettingType

namespace SettingKey

def shown (k : SettingKey) : Text := "'" ++ k.place ++ "' > '" ++ k.key ++ "'"

end SettingKey

namespace Choice

def key : Choice → SettingKey
  | driver => { place := "connection", key := "driver" }
  | level => { place := "logging", key := "level" }
  | mode => { place := "import", key := "with_data" }

def title : Choice → Text
  | driver => "Driver"
  | level => "Log level"
  | mode => "Insert mode"

/-- The words to choose from, as they are told. -/
def words : Choice → List Text
  | driver => Driver.all.map Driver.name
  | level => Level.all.map Level.name
  | mode => InsertMode.all.map fun mode => Text.lower mode.name

end Choice

namespace SettingsError

def message : SettingsError → Text
  | malformed => "The text is not valid TOML"
  | notTable place => "Section '" ++ place ++ "' is not a table"
  | wrongType key expected => key.shown ++ " must be of type " ++ expected.name
  | unsupported choice given =>
    choice.title ++ " '" ++ given ++ "' (" ++ choice.key.shown ++ ") not supported: choose from " ++
      Text.join ", " choice.words

end SettingsError

namespace Settings

/-- The entries of a section, which has none if it is absent. -/
def entries (document : Toml.Document) (place : Text) : Except SettingsError Toml.Entries :=
  match document.section? place with
  | .absent => .ok []
  | .table entries => .ok entries
  | .other => .error (.notTable place)
  | .unreadable => .error .malformed

variable {α : Type}

/-- The value of a key, where `read` takes it. -/
def valueAt (entries : Toml.Entries) (key : SettingKey) (expected : SettingType)
    (read : Toml.Value → Option α) (default : α) : Except SettingsError α :=
  match entries.get? key.key with
  | none => .ok default
  | some value =>
    match read value with
    | some a => .ok a
    | none => .error (.wrongType key expected)

def textAt (entries : Toml.Entries) (key : SettingKey) (default : Text) :
    Except SettingsError Text :=
  valueAt entries key .text (fun | .text s => some s | _ => none) default

def integerAt (entries : Toml.Entries) (key : SettingKey) (default : Int) :
    Except SettingsError Int :=
  valueAt entries key .integer (fun | .integer i => some i | _ => none) default

def booleanAt (entries : Toml.Entries) (key : SettingKey) (default : Bool) :
    Except SettingsError Bool :=
  valueAt entries key .boolean (fun | .boolean b => some b | _ => none) default

/-- The value that a word names. A word that names none is reported as `shown` makes it. -/
def choose (choice : Choice) (named? : Text → Option α) (shown : Text → Text) (word : Text) :
    Except SettingsError α :=
  match named? word with
  | some a => .ok a
  | none => .error (.unsupported choice (shown word))

/-- The database to work with. Drivers may be written in capitals. -/
def connectionOf (entries : Toml.Entries) : Except SettingsError ConnectionSettings := do
  let default : ConnectionSettings := {}
  let key (key : Text) : SettingKey := { place := "connection", key }
  let driver ← textAt entries Choice.driver.key default.driver.name
  let driver ← choose .driver Driver.named? id (Text.lower driver)
  return {
    driver
    server := {
      host := ← textAt entries (key "host") default.server.host
      port := ← integerAt entries (key "port") default.server.port
      user := ← textAt entries (key "user") default.server.user
      password := ← textAt entries (key "password") default.server.password
      database := ← textAt entries (key "database") default.server.database } }

/-- Where log lines go. Levels may be written in small letters. -/
def logOf (entries : Toml.Entries) : Except SettingsError LogSettings := do
  let default : LogSettings := {}
  let key (key : Text) : SettingKey := { place := "logging", key }
  let level ← textAt entries Choice.level.key default.level.name
  let level ← choose .level Level.named? id (Text.upper level)
  return {
    level
    path := ← textAt entries (key "log_path") default.path
    toConsole := ← booleanAt entries (key "log_to_console") default.toConsole }

/-- How a dump is imported. Modes may be written in small letters, as they are told. -/
def importOf (entries : Toml.Entries) : Except SettingsError ImportSettings := do
  let default : ImportSettings := {}
  let mode ← textAt entries Choice.mode.key default.mode.name
  let mode ← choose .mode InsertMode.named? Text.lower (Text.upper mode)
  return {
    mode
    dropFirst :=
      ← booleanAt entries { place := "import", key := "drop_first" } default.dropFirst }

/-- The settings of a document, one section after the other. -/
def ofDocument (document : Toml.Document) : Except SettingsError Settings := do
  return {
    connection := ← connectionOf (← entries document "connection")
    log := ← logOf (← entries document "logging")
    importing := ← importOf (← entries document "import") }

/-- Reads settings. -/
def ofText (s : Text) : Except SettingsError Settings :=
  match Toml.Document.parse s with
  | some document => ofDocument document
  | none => .error .malformed

end Settings

end SqlDump
