import SqlDump.CommandLine.Arguments
import SqlDump.Files
import SqlDump.Import
import SqlDump.Log.Logger
import SqlDump.Settings.Reading

/-!
Runs of the program: from a command line and the files of a directory to what is printed, what is
written and how the run ends.
-/

namespace SqlDump

/-- Why a run ends without an exit code of its own. -/
inductive Fault where
  | usage (stop : UsageStop)
  | file (error : FileError)
  | settings (error : SettingsError)
  | failure (failure : Failure)
  deriving DecidableEq, Repr

/-- What a run finds around it. -/
structure Surroundings (σ : Type) where
  files : Files := {}
  now : Moment
  /-- Reaches a database: a client and the state that it starts in. -/
  connect : ConnectionSettings → Except Failure (Client σ × σ)

/-- How a run ended and what it left. -/
structure Outcome where
  exit : Except Fault Nat
  output : Text := []
  errors : Text := []
  files : Files := {}
  /-- The calls of the session with a database, if there was one. -/
  session : Option (ConnectionSettings × List Call) := none

/-- What a command has to say in the end. -/
structure Answer where
  code : Nat := 0
  output : Text := []
  errors : List Text := []
  deriving DecidableEq, Repr

namespace Text

/-- A text for each line, ended by a line feed. -/
def endLines (lines : List Text) : Text := lines.flatMap (· ++ "\n")

end Text

/-- What a run works on, read in full before anything is done. -/
structure Job where
  command : Command
  settings : Settings
  sql : Text
  logger : Logger
  files : Files
  deriving DecidableEq, Repr

namespace Job

def orFault {ε α : Type} (fault : ε → Fault) (result : Except ε α) : Except Fault α :=
  result.mapError fault

/-- The settings in a file, or the defaults without one. -/
def settingsIn (files : Files) : Option Text → Except Fault Settings
  | none => .ok {}
  | some path => do
    orFault .settings (Settings.ofText (← orFault .file (files.read path)))

/-- The logger of settings. The directory of its file is made. -/
def loggerOf (settings : LogSettings) (files : Files) : Except FileError (Logger × Files) :=
  let logger := Logger.create [] settings.level settings.toConsole
  if settings.path.isEmpty then .ok (logger, files)
  else do
    let (logger, output, _) ← logger.setFile { files } settings.path false
    return (logger, output.files)

/-- Reads what a command line asks for. -/
def prepare (files : Files) (words : List Text) : Except Fault Job := do
  let arguments ← orFault .usage (Arguments.parse words)
  let settings ← settingsIn files arguments.settings
  let (logger, files) ← orFault .file (loggerOf settings.log files)
  let sql ← orFault .file (files.read arguments.dump)
  return { command := arguments.command, settings, sql, logger, files }

variable {σ : Type} (job : Job)

/-- The plan of the dump, as a script. -/
def plan : Except ReadError Text := do
  let dump ← Dump.parse job.settings.account job.sql
  return Plan.script
    (Plan.build dump job.settings.importing.mode job.settings.importing.dropFirst) ++ "\n"

/-- Compares the database with the dump. The flags of the differences are the exit code. -/
def compare (client : Client σ) : Run σ Answer := do
  let comparison ← Introspection.compare job.settings.account client job.sql
  return { code := comparison.flags, output := comparison.format ++ "\n" }

/-- Imports the dump. The exit code tells whether the database refused any statement. -/
def importDump (client : Client σ) : Run σ Answer := do
  let refused ← Import.importDump job.settings.account job.settings.importing.mode
    job.settings.importing.dropFirst client job.sql
  return {
    code := if Import.succeeded refused then 0 else 1
    errors := refused.map (·.report.message) }

/-- The stage that a failure is logged under. -/
def stage : Stage := if job.command = .compare then .compare else .execute

/-- What is said, and logged, of a failure: one to read the structure of the database is told, any
other ends the run. -/
def failed (failure : Failure) : Except Fault Answer × Entry :=
  match failure with
  | .introspection _ report =>
    (.ok { code := 1, errors := [report.message] },
      { level := .error, stage := .introspect, message := report.message })
  | failure =>
    (.error (.failure failure),
      { level := .error, stage := job.stage, message := (Report.unexpected failure.cause).message })

/-- What a session comes to: its answer, and the entries to log. What is to end the program is not
logged. -/
def conclude (result : Except Failure Answer) (log : List Entry) :
    Except Fault Answer × List Entry :=
  match result with
  | .ok answer => (.ok answer, log)
  | .error failure =>
    if failure.halts then (.error (.failure failure), log)
    else
      let (answer, entry) := job.failed failure
      ((job.logger.failure? entry).elim answer fun failure => .error (.failure failure),
        log ++ [entry])

/-- The outcome of a session. Log lines on the console stand before the answer. -/
def outcome (now : Moment) (result : Except Failure Answer) (log : List Entry)
    (session : Option (ConnectionSettings × List Call)) : Outcome :=
  let (answer, log) := job.conclude result log
  let written := job.logger.writeAll now { files := job.files } log
  match answer with
  | .ok answer =>
    { exit := .ok answer.code
      output := written.console ++ answer.output
      errors := Text.endLines answer.errors
      files := written.files
      session }
  | .error fault =>
    { exit := .error fault, output := written.console, files := written.files, session }

/-- Does the work of a client in a session. -/
def session (s : Surroundings σ) (work : Client σ → Run σ Answer) : Outcome :=
  match s.connect job.settings.connection with
  | .error failure => job.outcome s.now (.error failure) [] none
  | .ok (client, state) =>
    let (result, session) := (work client).startLogged job.logger.failure? state
    job.outcome s.now result session.log (some (job.settings.connection, session.calls))

end Job

namespace CommandLine

variable {σ : Type}

/-- Runs the program. -/
def run (s : Surroundings σ) (words : List Text) : Outcome :=
  match Job.prepare s.files words with
  | .error fault => { exit := .error fault, files := s.files }
  | .ok job =>
    match job.command with
    | .plan =>
      match job.plan with
      | .ok script => { exit := .ok 0, output := script, files := job.files }
      | .error e => { exit := .error (.failure (.reading e)), files := job.files }
    | .compare => job.session s job.compare
    | .importing => job.session s job.importDump

end CommandLine

end SqlDump
