import SqlDump.Text.Identifier
import SqlDump.Text.Numeral
import SqlDump.Text.Quoted

/-!
Replacement templates. A backslash in one starts an escape: control characters, octal codes and
references to what is replaced. Nothing but the whole of it can be referred to.
-/

namespace SqlDump.Template

/-- What is wrong with a template. -/
inductive Fault where
  | badEscape (escape : Text)
  | badReference (number : Nat)
  | badName (name : Text)
  | unknownName (name : Text)
  | missingOpening
  | missingName
  | unterminatedName
  | octalRange (escape : Text)
  deriving DecidableEq, Repr

/-- A fault and where in which template it stands. -/
structure Error where
  fault : Fault
  template : Text
  position : Nat
  deriving DecidableEq, Repr

namespace Error

/-- The line and the column of the position, counted from one. -/
def lineAndColumn (e : Error) : Nat × Nat :=
  let before := e.template.take e.position
  (before.count '\n' + 1, (before.reverse.takeWhile (· ≠ '\n')).length + 1)

/-- The position, and in a template of several lines also the line and the column. -/
def place (e : Error) : Text :=
  " at position " ++ natText e.position ++
    if '\n' ∈ e.template then
      " (line " ++ natText e.lineAndColumn.1 ++ ", column " ++ natText e.lineAndColumn.2 ++ ")"
    else ""

def message (e : Error) : Text :=
  match e.fault with
  | .badEscape escape => "bad escape " ++ escape ++ e.place
  | .badReference number => "invalid group reference " ++ natText number ++ e.place
  | .badName name => "bad character in group name " ++ name.quoted ++ e.place
  | .unknownName name => "unknown group name " ++ name.quoted
  | .missingOpening => "missing <" ++ e.place
  | .missingName => "missing group name" ++ e.place
  | .unterminatedName => "missing >, unterminated name" ++ e.place
  | .octalRange escape => "octal escape value " ++ escape ++ " outside of range 0-0o377" ++ e.place

end Error

/-- A part of a template: a character, or the text that is replaced. -/
inductive Part where
  | literal (c : Char)
  | whole
  deriving DecidableEq, Repr

def isOctal (c : Char) : Bool := '0' ≤ c && c ≤ '7'

/-- The control characters that a letter stands for, and the backslash itself. -/
def control? (c : Char) : Option Char :=
  [('a', '\x07'), ('b', '\x08'), ('f', '\x0c'), ('n', '\n'), ('r', '\r'), ('t', '\t'),
    ('v', '\x0b'), ('\\', '\\')].lookup c

/-- The characters up to the closing bracket, and what follows it. An escaped one does not close. -/
def name? : Text → Option (Text × Text)
  | [] => none
  | '>' :: s => some ([], s)
  | ['\\'] => none
  | '\\' :: c :: s => (name? s).map fun (u, r) => ('\\' :: c :: u, r)
  | c :: s => (name? s).map fun (u, r) => (c :: u, r)

/-- A reference by name. The number zero in any spelling is the whole text; no group has another
number or an identifier for its name. -/
def reference (name : Text) : Except Fault Part :=
  if isIdentifier name then .error (.unknownName name)
  else
    match Numeral.whole? 10 name with
    | some (.ofNat 0) => .ok .whole
    | some (.ofNat number) => .error (.badReference number)
    | _ => .error (.badName name)

/-- The escape that starts at `position` with a backslash, `s` being what follows that: its part,
the number of characters read after the backslash, and the rest. -/
def escape (template : Text) (position : Nat) : Text → Except Error (List Part × Nat × Text)
  | [] => .ok ([.literal '\\'], 0, [])
  | c :: s =>
    let fail {α : Type} (fault : Fault) (offset : Nat) : Except Error α :=
      .error ⟨fault, template, position + offset⟩
    if c = 'g' then
      match s with
      | '<' :: s =>
        match name? s with
        | none => fail .unterminatedName 3
        | some ([], _) => fail .missingName 3
        | some (name, r) =>
          match reference name with
          | .ok part => .ok ([part], name.length + 3, r)
          | .error fault => fail fault 3
      | _ => fail .missingOpening 2
    else if c = '0' then
      let code := (s.take 2).takeWhile isOctal
      .ok ([.literal (Char.ofNat (code.foldl (fun n d => 8 * n + (d.toNat - 48)) 0))],
        code.length + 1, s.drop code.length)
    else if c.isDigit then
      match s with
      | d :: e :: r =>
        if isOctal c && isOctal d && isOctal e then
          let n := 64 * (c.toNat - 48) + 8 * (d.toNat - 48) + (e.toNat - 48)
          if n > 255 then fail (.octalRange ['\\', c, d, e]) 0
          else .ok ([.literal (Char.ofNat n)], 3, r)
        else fail (.badReference (natOfDigits (if d.isDigit then [c, d] else [c]))) 1
      | [d] => fail (.badReference (natOfDigits (if d.isDigit then [c, d] else [c]))) 1
      | [] => fail (.badReference (natOfDigits [c])) 1
    else match control? c with
      | some k => .ok ([.literal k], 1, s)
      | none =>
        if c.isAlpha then fail (.badEscape ['\\', c]) 0
        else .ok ([.literal '\\', .literal c], 1, s)

/-- The parts of `s`, which stands at `position`; at most `n` steps. -/
def partsFrom (template : Text) : Nat → Nat → Text → Except Error (List Part)
  | 0, _, _ => .ok []
  | _ + 1, _, [] => .ok []
  | n + 1, position, c :: s =>
    if c = '\\' then do
      let (parts, used, r) ← escape template position s
      return parts ++ (← partsFrom template n (position + used + 1) r)
    else do return .literal c :: (← partsFrom template n (position + 1) s)

def parts (template : Text) : Except Error (List Part) :=
  partsFrom template template.length 0 template

/-- The template with the replaced text put in. -/
def fill (replaced : Text) (parts : List Part) : Text :=
  parts.flatMap fun
    | .literal c => [c]
    | .whole => replaced

end SqlDump.Template
