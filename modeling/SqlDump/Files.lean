import SqlDump.Ordered
import SqlDump.Text.Lines

/-!
A working directory: its directories and its files with their texts. What cannot be done to a real
directory tree fails here for the same reason.
-/

namespace SqlDump

/-- Why a file or a directory cannot be used. -/
inductive FileError where
  | missing
  | isDirectory
  | notDirectory
  | exists
  /-- The path, or a name in it, is longer than a directory tree takes. -/
  | tooLong
  /-- A path with a null character names nothing. -/
  | nullInPath
  deriving DecidableEq, Repr

namespace FileError

def message : FileError → Text
  | .missing => "No such file"
  | .isDirectory => "The file is a directory"
  | .notDirectory => "A part of the path is not a directory"
  | .exists => "The file exists"
  | .tooLong => "The path is too long"
  | .nullInPath => "embedded null byte"

end FileError

/-- Files and directories by their plain paths, without dots and doubled slashes. The working
directory itself is always there. -/
structure Files where
  texts : Ordered Text := []
  directories : List Text := []
  deriving DecidableEq, Repr

namespace Files

/-- The parts of a path between its slashes. -/
def parts (path : Text) : List Text := Text.splitOn "/" path

/-- Whether a path leads upwards only. -/
def isUpward (path : Text) : Bool := path.isEmpty || (parts path).all (· = "..")

/-- The path below a directory. -/
def below (directory name : Text) : Text :=
  if directory.isEmpty then name else directory ++ "/" ++ name

/-- The directory that holds a directory. The root holds itself. -/
def above (directory : Text) : Text :=
  if directory = "/" then directory
  else if isUpward directory then below directory ".."
  else Text.join "/" (parts directory).dropLast

/-- Where a path starts: at the root, or in the working directory. -/
def origin (path : Text) : Text := if Text.startsWith "/" path then "/" else []

/-- Whether a plain path stays below the working directory. -/
def isInside (path : Text) : Bool := !Text.startsWith "/" path && (parts path).head? ≠ some ".."

/-- How many bytes a text takes. -/
def bytes (s : Text) : Nat := s.foldl (fun n c => n + c.utf8Size) 0

/-- The most bytes that a name in a path takes. -/
def nameLimit : Nat := 255

/-- The most bytes that a path takes. -/
def pathLimit : Nat := 4095

def hasNull (s : Text) : Bool := s.any (· = '\x00')

/-- Why a path cannot be used whatever there is. -/
def flaw? (path : Text) : Option FileError :=
  if hasNull path then some .nullInPath
  else if pathLimit < bytes path then some .tooLong
  else none

/-- The directories that stand in every root. -/
def standard : List Text :=
  let names : List Text := [
    "bin", "boot", "dev", "etc", "home", "lib", "mnt", "opt", "proc", "root", "run", "sbin", "srv",
    "sys", "tmp", "usr", "var"]
  names.map (below "/" ·)

/-- The device that is an empty file and keeps nothing. -/
def nullDevice : Text := below (below "/" "dev") "null"

def isFile (files : Files) (path : Text) : Bool := path = nullDevice || files.texts.has path

/-- The root, what stands in it and everything above the working directory are taken for
granted. -/
def isDirectory (files : Files) (path : Text) : Bool :=
  path = "/" || standard.contains path || isUpward path || files.directories.contains path

/-- Gives the file at a plain path a text. -/
def put (files : Files) (path text : Text) : Files :=
  if path = nullDevice then files else { files with texts := files.texts.set path text }

/-- The directory that parts lead to. -/
def walk (files : Files) : Text → List Text → Except FileError Text
  | directory, [] => .ok directory
  | directory, part :: rest =>
    if part.isEmpty || part = "." then walk files directory rest
    else if part = ".." then walk files (above directory) rest
    else
      let next := below directory part
      if files.isDirectory next then walk files next rest
      else if files.isFile next then .error .notDirectory
      else .error (if nameLimit < bytes part then .tooLong else .missing)

/-- The plain path of a file, whose directory has to be there. -/
def resolve (files : Files) (path : Text) : Except FileError Text := do
  if path.isEmpty then .error .missing
  if let some error := flaw? path then .error error
  let directory ← walk files (origin path) (parts path).dropLast
  let name := (parts path).getLast?.getD []
  if name.isEmpty || name = "." || name = ".." || files.isDirectory (below directory name) then
    .error .isDirectory
  if nameLimit < bytes name then .error .tooLong
  return below directory name

/-- Makes the directories that parts lead to, where they are not there yet. -/
def makeParts (files : Files) : Text → List Text → Except FileError Files
  | _, [] => .ok files
  | directory, part :: rest =>
    if part.isEmpty || part = "." then makeParts files directory rest
    else if part = ".." then makeParts files (above directory) rest
    else
      let next := below directory part
      if hasNull part then .error .nullInPath
      else if nameLimit < bytes part then .error .tooLong
      else if files.isFile next then
        .error (if rest.isEmpty then .exists
          else if rest.head?.any hasNull then .nullInPath
          else .notDirectory)
      else if files.isDirectory next then makeParts files next rest
      else
        makeParts { files with directories := files.directories ++ [next] } next rest

/-- Makes a directory and those that it is in. -/
def makeDirectories (files : Files) (path : Text) : Except FileError Files :=
  if pathLimit < bytes path then .error .tooLong else makeParts files (origin path) (parts path)

/-- The text of a file, every line end being a line feed. -/
def read (files : Files) (path : Text) : Except FileError Text := do
  let path ← files.resolve path
  match files.texts.get? path with
  | some text => return Text.normalizeBreaks text
  | none => if path = nullDevice then return [] else .error .missing

/-- Gives a file a text, whether or not it is there already. -/
def write (files : Files) (path text : Text) : Except FileError Files := do
  return files.put (← files.resolve path) text

/-- Adds a text to a file, which starts empty. -/
def append (files : Files) (path text : Text) : Except FileError Files := do
  let path ← files.resolve path
  return files.put path ((files.texts.get? path).getD [] ++ text)

/-- The directories in the path of a file. -/
def directoriesOf (path : Text) : List Text :=
  let parts := parts path
  (List.range (parts.length - 1)).map fun n => Text.join "/" (parts.take (n + 1))

/-- The files at plain paths, and their directories. -/
def ofTexts (texts : Ordered Text) : Files where
  texts := Ordered.ofList texts
  directories := Text.distinct (texts.keys.flatMap directoriesOf)

/-- The files below the working directory, by their paths in order. -/
def listed (files : Files) : List (Text × Text) :=
  (files.texts.filter fun (path, _) => isInside path).mergeSort fun a b => Text.le a.1 b.1

/-- The listed files that were not there before. -/
def created (before after : Files) : List (Text × Text) :=
  after.listed.filter fun (path, _) => !before.isFile path

end Files

end SqlDump
