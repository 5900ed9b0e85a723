import SqlDump.Text.Basic

/-!
String literals. A backslash takes the next character with it, but no line feed; two marks in a
row stand for one. Where the literal would never end that way, the last such pair ends it.
-/

namespace SqlDump.Literal

/-- The rest of a literal that `mark` opened, with the closing mark, and what follows. -/
def rest? (mark : Char) : Text → Option (Text × Text)
  | [] => none
  | [c] => if c = mark then some ([c], []) else none
  | c :: d :: s =>
    if c = '\\' then
      if d = '\n' then none else (rest? mark s).map fun (u, r) => (c :: d :: u, r)
    else if c = mark then
      if d = mark then
        match rest? mark s with
        | some (u, r) => some (c :: d :: u, r)
        | none => some ([c], d :: s)
      else some ([c], d :: s)
    else (rest? mark (d :: s)).map fun (u, r) => (c :: u, r)

/-- The literal at the front, as written, and what follows it. -/
def read? (mark : Char) : Text → Option (Text × Text)
  | [] => none
  | c :: s => if c = mark then (rest? mark s).map fun (u, r) => (c :: u, r) else none

/-- Spaces in place of every literal, everything else at its place. `n` bounds the steps. -/
def maskWithin : Nat → Text → Text
  | 0, s => s
  | _ + 1, [] => []
  | n + 1, c :: s =>
    match (if c = '\x27' || c = '\x22' then read? c (c :: s) else none) with
    | some (u, r) => List.replicate u.length ' ' ++ maskWithin n r
    | none => c :: maskWithin n s

def mask (s : Text) : Text := maskWithin s.length s

end SqlDump.Literal
