import SqlDump.Failure
import SqlDump.Files
import SqlDump.Log
import SqlDump.Text.Blank

/-!
Loggers: where log lines go. A line goes to the console, to the end of a file, to both or nowhere,
and to none of them when its level is too low.
-/

namespace SqlDump

structure Logger where
  path : Option Text := none
  /-- The lowest level that is written. -/
  level : Level := .info
  toConsole : Bool := false
  deriving DecidableEq, Repr

/-- A directory tree, and what was printed. -/
structure Output where
  files : Files := {}
  console : Text := []
  deriving DecidableEq, Repr

namespace Logger

/-- A logger for a path, or for none where it is empty. Nothing is made at the path. -/
def create (path : Text) (level : Level) (toConsole : Bool) : Logger :=
  { path := if path.isEmpty then none else some path, level, toConsole }

/-- The directory in front of the last slash of a path, without the slash unless there is nothing
else. -/
def directoryOf (path : Text) : Text :=
  let head := (path.reverse.dropWhile (· ≠ '/')).reverse
  let bare := Text.dropTrailing '/' head
  if bare.isEmpty then head else bare

/-- Writes to another file from now on, which may be emptied first. Its directory is made. Where
that fails, no file is written to, and the answer is no; only a path that names nothing is an
error. -/
def setFile (logger : Logger) (output : Output) (path : Text) (truncate : Bool) :
    Except FileError (Logger × Output × Bool) :=
  match output.files.makeDirectories (directoryOf path) with
  | .error .nullInPath => .error .nullInPath
  | .error _ => .ok ({ logger with path := none }, output, false)
  | .ok files =>
    match if truncate then files.write path [] else .ok files with
    | .ok files => .ok ({ logger with path := some path }, { output with files }, true)
    | .error .nullInPath => .error .nullInPath
    | .error _ => .ok ({ logger with path := none }, { output with files }, false)

/-- Whether an entry is written at all. -/
def takes (logger : Logger) (entry : Entry) : Bool := logger.level.rank ≤ entry.level.rank

/-- Writes an entry. The answer is whether it came to where it should last go. -/
def write (logger : Logger) (now : Moment) (output : Output) (entry : Entry) : Output × Bool :=
  if !logger.takes entry then (output, false)
  else
    let line := entry.line now ++ "\n"
    let output :=
      if logger.toConsole then { output with console := output.console ++ line } else output
    match logger.path with
    | none => (output, logger.toConsole)
    | some path =>
      match output.files.append path line with
      | .ok files => ({ output with files }, true)
      | .error _ => (output, false)

/-- Why writing an entry is an error: its file has a path that names nothing. -/
def flaw? (logger : Logger) (entry : Entry) : Option FileError :=
  if logger.takes entry && logger.path.any Files.hasNull then some .nullInPath else none

/-- The failure that logging an entry is, where it is an error. -/
def failure? (logger : Logger) (entry : Entry) : Option Failure :=
  (logger.flaw? entry).map fun error =>
    .raised { kind := "ValueError", values := [.text error.message] }

/-- Writes an entry, unless that is an error. -/
def tryWrite (logger : Logger) (now : Moment) (output : Output) (entry : Entry) :
    Except FileError (Output × Bool) :=
  match logger.flaw? entry with
  | some error => .error error
  | none => .ok (logger.write now output entry)

/-- Writes entries in order. -/
def writeAll (logger : Logger) (now : Moment) (output : Output) (entries : List Entry) : Output :=
  entries.foldl (fun output entry => (logger.write now output entry).1) output

end Logger

end SqlDump
