import SqlDump.ReadError
import SqlDump.Value

/-!
Failures of a run, and reports of them. A failure is what stops a step; a report is what is told
of it, with the kind of its cause and the first thing that the cause says.
-/

namespace SqlDump

/-- The library that an error comes from. Clients turn errors of their own library into failures
to read or to execute. -/
inductive Library where
  | sqlite
  | mysql
  | other
  /-- None: an interrupt or an exit, which is to end the program and is handled nowhere. -/
  | halt
  deriving DecidableEq, Repr

/-- An error as a library raises it. -/
structure Raised where
  kind : Text
  values : List Value := []
  library : Library := .other
  /-- The code that the library keeps beside the values. -/
  code : Option Value := none
  /-- What the error says, if its kind makes a sentence of its own of the values. An error of the
  operating system does, and a text that cannot be decoded. -/
  words : Option Text := none
  deriving DecidableEq, Repr

/-- What is told of a cause: its kind and the first thing it says. A message alone has no kind of
its own, and counts as unexpected. -/
structure Cause where
  kind : Option Text := none
  detail : Option Text := none
  deriving DecidableEq, Repr

/-- A report of a failure. -/
inductive Report where
  | unexpected (cause : Cause)
  /-- The structure of the database could not be read, the target naming the part. -/
  | introspection (cause : Cause) (target : Option Text)
  /-- A statement failed, with the database's code for it. -/
  | statement (cause : Cause) (statement : Text) (code : Option Value)
  deriving DecidableEq, Repr

/-- What stops a step. -/
inductive Failure where
  /-- The structure of the database could not be read. -/
  | introspection (message : Text) (report : Report)
  /-- The database refused a statement. -/
  | execution (message : Value) (statement : Text) (code : Option Value)
  | raised (error : Raised)
  | reading (error : ReadError)
  deriving DecidableEq, Repr

namespace Raised

/-- What an error says: its own sentence or else nothing, its one value, or all its values. A missing
key is quoted. -/
def message (e : Raised) : Text :=
  e.words.getD <|
    match e.values with
    | [] => []
    | [value] => if e.kind = "KeyError" then value.listed else value.shown
    | values => "(" ++ Text.join ", " (values.map Value.listed) ++ ")"

end Raised

namespace ReadError

/-- The kind that a report gives. -/
def kind : ReadError → Text
  | numberTooLong _ => "ValueError"
  | unknownObject _ => "KeyError"
  | template { fault := .unknownName _, .. } => "IndexError"
  | template _ => "error"

/-- The first thing that a report tells. -/
def detail : ReadError → Text
  | unknownObject word => word
  | e => e.message

end ReadError

namespace Failure

def kind : Failure → Text
  | introspection _ _ => "IntrospectionError"
  | execution _ _ _ => "StatementExecutionError"
  | raised e => e.kind
  | reading e => e.kind

def message : Failure → Text
  | introspection message _ => message
  | execution message _ _ => message.shown
  | raised e => e.message
  | reading e => e.message

/-- Whether a failure is to end the program. -/
def halts : Failure → Bool
  | raised e => e.library = .halt
  | _ => false

/-- What is told of a failure. -/
def cause (f : Failure) : Cause where
  kind := some f.kind
  detail := some <|
    match f with
    | introspection message _ => message
    | execution message _ _ => message.shown
    | raised e => (e.values.head?.map Value.shown).getD []
    | reading e => e.detail

/-- A part of the database could not be read, for some cause or for what the message says. -/
def unreadable (message : Text) (target : Option Text) (cause : Option Failure) : Failure :=
  .introspection message
    (.introspection ((cause.map Failure.cause).getD
      { kind := some "UnexpectedError", detail := some message }) target)

end Failure

namespace Cause

/-- The cause that a message alone makes. -/
def ofMessage (message : Text) : Cause :=
  { kind := some "UnexpectedError", detail := some message }

def kindText (c : Cause) : Text := c.kind.getD "None"

def detailText (c : Cause) : Text := c.detail.getD "None"

end Cause

namespace Report

def name : Report → Text
  | unexpected _ => "UnexpectedError"
  | introspection _ _ => "IntrospectionFailed"
  | statement _ _ _ => "StatementFailed"

def cause : Report → Cause
  | unexpected c => c
  | introspection c _ => c
  | statement c _ _ => c

/-- The report as it is shown. -/
def message : Report → Text
  | unexpected c =>
    if c.kind.isNone then "An unexpected error occurred."
    else "The following error occurred: " ++ c.kindText ++ ": " ++ c.detailText
  | introspection c target =>
    let place : Text := if (target.getD []).isEmpty then [] else " (" ++ target.getD [] ++ ")"
    "Failed to read the database structure" ++ place ++ ": " ++ c.kindText ++ ": " ++ c.detailText
  | statement c sql code =>
    let code : Text := (code.map fun (value : Value) => "[" ++ value.shown ++ "] ").getD []
    "Failed to execute a statement: " ++ code ++ c.detailText ++ "\n  " ++ sql

end Report

end SqlDump
