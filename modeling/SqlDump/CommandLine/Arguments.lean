import SqlDump.Text.Digit
import SqlDump.Text.Basic

/-!
Arguments of the command line: a command, a dump and options, in any order. Options may be cut short
as long as they are told apart, and a double dash makes everything behind it plain.
-/

namespace SqlDump

/-- What to do with a dump. -/
inductive Command where
  | compare
  | plan
  | importing
  deriving DecidableEq, Repr

namespace Command

def all : List Command := [compare, plan, importing]

def name : Command → Text
  | compare => "compare"
  | plan => "plan"
  | importing => "import"

def named? (name : Text) : Option Command := all.find? (·.name = name)

end Command

/-- What one word of the command line is. -/
inductive Argument where
  | plain (s : Text)
  | divider
  | help
  /-- Names the file of the settings, unless the next word does. -/
  | settings (path : Option Text)
  /-- An option that there is not. -/
  | unknown
  /-- An option with a value that it does not take. -/
  | overfull
  /-- Short for more than one option. -/
  | ambiguous
  deriving DecidableEq, Repr

namespace Argument

/-- Negative numbers are plain. A line feed at their end does not count. -/
def isNegative : Text → Bool
  | '-' :: s =>
    let s := if s.getLast? = some '\n' then s.dropLast else s
    match s.dropWhile isDigit with
    | [] => !s.isEmpty
    | '.' :: r => !r.isEmpty && r.all isDigit
    | _ => false
  | _ => false

/-- What a word that starts with a dash is when no option matches. Texts with spaces are plain. -/
def unmatched (s : Text) : Argument :=
  if isNegative s || ' ' ∈ s then plain s else unknown

/-- The help option in one letter. The letter may be repeated, and other letters behind it do not
keep it from giving help, but a value does. -/
def shortHelp : Text → Argument
  | [] => help
  | c :: s =>
    if c = 'h' then shortHelp s else if c = '=' || c = '-' then overfull else help

/-- An option that is written out or cut short. -/
def long (s : Text) : Argument :=
  let name := s.takeWhile (· ≠ '=')
  let value? := (s.dropWhile (· ≠ '=')).tail?
  match Text.startsWith name "--help", Text.startsWith name "--config" with
  | true, true => ambiguous
  | true, false => if value?.isSome then overfull else help
  | false, true => settings value?
  | false, false => unmatched s

def ofText : Text → Argument
  | ['-', '-'] => divider
  | '-' :: '-' :: s => long ('-' :: '-' :: s)
  | '-' :: 'h' :: s => shortHelp s
  | '-' :: c :: s => unmatched ('-' :: c :: s)
  | s => plain s

/-- The words before a double dash by themselves, those behind it plain. -/
def ofTexts : List Text → List Argument
  | [] => []
  | word :: rest =>
    match ofText word with
    | divider => divider :: rest.map plain
    | argument => argument :: ofTexts rest

end Argument

/-- What a command line asks for. -/
structure Arguments where
  command : Command
  dump : Text
  /-- The file of the settings. -/
  settings : Option Text := none
  deriving DecidableEq, Repr

/-- Why a command line asks for nothing. -/
inductive UsageStop where
  | help
  | wrong
  deriving DecidableEq, Repr

namespace Arguments

/-- What the words so far ask for, and whether any of them was too much. -/
structure Partly where
  command : Option Command := none
  dump : Option Text := none
  settings : Option Text := none
  surplus : Bool := false
  deriving DecidableEq, Repr

/-- Takes a plain word: the command first, then the dump. -/
def Partly.take (p : Partly) (word : Text) : Except UsageStop Partly :=
  match p.command, p.dump with
  | none, _ =>
    match Command.named? word with
    | some command => .ok { p with command := some command }
    | none => .error .wrong
  | some _, none => .ok { p with dump := some word }
  | some _, some _ => .ok { p with surplus := true }

/-- Takes words in order. Help ends it, whatever follows; words that are too much do not. -/
def collect : Partly → List Argument → Except UsageStop Partly
  | p, [] => .ok p
  | p, .plain word :: rest => do collect (← p.take word) rest
  | p, .divider :: rest => collect p rest
  | _, .help :: _ => .error .help
  | p, .settings (some path) :: rest => collect { p with settings := some path } rest
  | p, .settings none :: .plain path :: rest => collect { p with settings := some path } rest
  | _, .settings none :: _ => .error .wrong
  | p, .unknown :: rest => collect { p with surplus := true } rest
  | _, .overfull :: _ => .error .wrong
  | _, .ambiguous :: _ => .error .wrong

/-- Reads a command line. An option that could be several is wrong wherever it stands. -/
def parse (words : List Text) : Except UsageStop Arguments := do
  let arguments := Argument.ofTexts words
  if arguments.contains .ambiguous then .error .wrong
  else
    match ← collect {} arguments with
    | { command := some command, dump := some dump, settings, surplus := false } =>
      .ok { command, dump, settings := settings.filter (!·.isEmpty) }
    | _ => .error .wrong

end Arguments

end SqlDump
