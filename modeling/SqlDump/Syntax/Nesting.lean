import SqlDump.Text.Blank

/-!
Quotes and parentheses. One quote scanner serves both readers here: the one that cuts a text at a
separator outside quotes and parentheses, and the one that finds where a group closes.
-/

namespace SqlDump

/-- Where a scan stands: outside quotes, or inside those that `mark` opened. -/
inductive Quoting where
  | outside
  | inside (mark : Char) (escaped : Bool)
  deriving DecidableEq, Repr

/-- The three marks that open a quoted stretch. -/
def isQuoteMark (c : Char) : Bool := c = '\x27' || c = '\x22' || c = '\x60'

namespace Quoting

def isOutside : Quoting → Bool
  | outside => true
  | inside _ _ => false

/-- A backslash escapes the next character, except between backquotes. -/
def step : Quoting → Char → Quoting
  | outside, c => if isQuoteMark c then inside c false else outside
  | inside mark true, _ => inside mark false
  | inside mark false, c =>
    if c = '\\' ∧ mark ≠ '\x60' then inside mark true
    else if c = mark then outside
    else inside mark false

def after (q : Quoting) (s : Text) : Quoting := s.foldl step q

end Quoting

namespace Nesting

/-- How deep a scan is after `c`. It may fall below zero, since nothing has to be balanced. -/
def depth (q : Quoting) (d : Int) (c : Char) : Int :=
  if q.isOutside then if c = '(' then d + 1 else if c = ')' then d - 1 else d else d

/-- Whether a scan cuts at `c`: a quote mark never does, nor a parenthesis that counts. -/
def cutsAt (sep : Char) (nested : Bool) (q : Quoting) (d : Int) (c : Char) : Bool :=
  q.isOutside && !isQuoteMark c && !(nested && (c = '(' || c = ')')) && c = sep && d ≤ 0

/-- Puts a character before the first piece. -/
def extend (c : Char) : List Text → List Text
  | [] => [[c]]
  | p :: ps => (c :: p) :: ps

/-- The pieces as they stand, one more than there are cuts. -/
def rawPieces (sep : Char) (nested : Bool) : Quoting → Int → Text → List Text
  | _, _, [] => [[]]
  | q, d, c :: s =>
    if cutsAt sep nested q d c then [] :: rawPieces sep nested q d s
    else extend c (rawPieces sep nested (q.step c) (if nested then depth q d c else d) s)

/-- The trimmed pieces, without a blank last one. -/
def pieces (sep : Char) (nested : Bool) (s : Text) : List Text :=
  let parts := (rawPieces sep nested .outside 0 s).map Text.trim
  if parts.getLast? = some [] then parts.dropLast else parts

/-- The content of a group that is open `d` levels above the outermost, and what follows its
closing parenthesis. -/
def closing? : Quoting → Nat → Text → Option (Text × Text)
  | _, _, [] => none
  | q, d, c :: s =>
    if q.isOutside && c = ')' then
      match d with
      | 0 => some ([], s)
      | d + 1 => (closing? q d s).map fun (u, r) => (c :: u, r)
    else
      (closing? (q.step c) (if q.isOutside && c = '(' then d + 1 else d) s).map
        fun (u, r) => (c :: u, r)

/-- The content of the group at the front, and what follows it. -/
def group? : Text → Option (Text × Text)
  | '(' :: s => closing? .outside 0 s
  | _ => none

end Nesting

end SqlDump
