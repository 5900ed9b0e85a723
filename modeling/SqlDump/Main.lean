import SqlDump.CommandLine.Run
import Std.Time

/-!
The program: it gathers the files that a run reads, runs, and puts down what the run left. No
database can be reached from here, so only plans are made in full.
-/

namespace SqlDump.Main

/-- What is shown for help and for a wrong command line. -/
def usage : String := "usage: sqldump [-h] [--config FILE] compare|plan|import DUMP"

/-- What is told of a fault. -/
def describe : Fault → Text
  | .usage _ => usage
  | .file e => e.message
  | .settings e => e.message
  | .failure f => f.kind ++ ": " ++ f.message

/-- The exit code of a fault. -/
def codeOf : Fault → Nat
  | .usage .help => 0
  | .usage .wrong => 2
  | _ => 1

/-- The files that a command line names. -/
def inputs (words : List Text) : List Text :=
  match Arguments.parse words with
  | .ok arguments => arguments.dump :: arguments.settings.toList
  | .error _ => []

/-- The texts of files, those that cannot be read left out. -/
def load (paths : List Text) : IO (Ordered Text) := do
  let texts ← paths.mapM fun path => do
    try
      let text ← IO.FS.readFile (String.ofList path)
      return some (path, text.toList)
    catch _ => return none
  return texts.filterMap id

/-- Puts down the files that a run left. What was not read before is added to. -/
def save (before after : Files) : IO Unit :=
  after.texts.forM fun (path, text) => do
    if before.texts.get? path = some text then return
    let mode := if before.isFile path then IO.FS.Mode.write else IO.FS.Mode.append
    let directory := Logger.directoryOf path
    unless directory.isEmpty do IO.FS.createDirAll (String.ofList directory)
    let handle ← IO.FS.Handle.mk (String.ofList path) mode
    handle.putStr (String.ofList text)

/-- The time of the clock. -/
def clock : IO Moment := do
  let now ← Std.Time.PlainDateTime.now
  return {
    year := now.date.year.toInt.toNat
    month := now.date.month.val.toNat
    day := now.date.day.val.toNat
    hour := now.time.hour.val.toNat
    minute := now.time.minute.val.toNat
    second := now.time.second.val.toNat }

/-- There is no database to reach. -/
def unreachable (connection : ConnectionSettings) : Except Failure (Client Unit × Unit) :=
  .error (Failure.unreadable ("No connection to a " ++ connection.driver.name ++ " database")
    (some connection.server.database) none)

end SqlDump.Main

open SqlDump in
def main (args : List String) : IO UInt32 := do
  let words : List Text := args.map String.toList
  let files := Files.ofTexts (← Main.load (Main.inputs words))
  let outcome := CommandLine.run
    { files, now := ← Main.clock, connect := Main.unreachable } words
  Main.save files outcome.files
  (← IO.getStdout).putStr (String.ofList outcome.output)
  (← IO.getStderr).putStr (String.ofList outcome.errors)
  match outcome.exit with
  | .ok code => return code.toUInt32
  | .error fault =>
    (← IO.getStderr).putStrLn (String.ofList (Main.describe fault))
    return (Main.codeOf fault).toUInt32
