import SqlDump.Text.Numeral

/-!
Single values of TOML: strings, whole numbers, floats, truth values, days and times. Floats, days
and times are told apart from the rest but not computed, since no setting has such a value.
-/

namespace SqlDump.Toml

inductive Value where
  | text (s : Text)
  | integer (i : Int)
  | boolean (b : Bool)
  /-- A value of any other type. -/
  | other
  deriving DecidableEq, Repr

/-- Controls that may not stand in text: all but the tab. -/
def isControl (c : Char) : Bool := (c.toNat ≤ 0x1f && c ≠ '\t') || c.toNat = 0x7f

def isSpace (c : Char) : Bool := c = ' ' || c = '\t'

/-! ## Strings -/

/-- The characters that a letter behind a backslash stands for. -/
def shortEscape? (c : Char) : Option Char :=
  [('b', '\x08'), ('t', '\t'), ('n', '\n'), ('f', '\x0c'), ('r', '\r'), ('e', '\x1b'),
    ('\x22', '\x22'), ('\\', '\\')].lookup c

/-- How many characters give the code point behind such a letter. -/
def escapeWidth? (c : Char) : Option Nat := [('x', 2), ('u', 4), ('U', 8)].lookup c

/-- The character whose code point the next `width` characters write in base sixteen, and what
follows them. -/
def codePoint? (width : Nat) (s : Text) : Option (Char × Text) := do
  guard (width ≤ s.length)
  match Numeral.whole? 16 (s.take width) with
  | some (.ofNat n) =>
    guard n.isValidChar
    pure (Char.ofNat n, s.drop width)
  | _ => none

/-- What an escape stands for, `s` being what follows its backslash, and what follows it. In a
string of several lines a backslash at a line's end takes all blanks and breaks behind it away. -/
def escape? (multiline : Bool) : Text → Option (Text × Text)
  | [] => none
  | c :: s =>
    if multiline && (isSpace c || c = '\n' || c = '\r') then
      let blank := fun (c : Char) => isSpace c || c = '\n' || c = '\r'
      if '\n' ∈ (c :: s).takeWhile blank then some ([], (c :: s).dropWhile blank) else none
    else
      match escapeWidth? c with
      | some width => (codePoint? width s).map fun (d, r) => ([d], r)
      | none => (shortEscape? c).map fun d => ([d], s)

/-- The rest of a string on one line, its closing mark dropped, in at most `n` steps. Marks are
double for strings with escapes, single for those without. -/
def lineRest? (mark : Char) : Nat → Text → Option (Text × Text)
  | 0, _ => none
  | _ + 1, [] => none
  | n + 1, c :: s =>
    if isControl c then none
    else if c = mark then some ([], s)
    else if c = '\\' && mark = '\x22' then do
      let (u, r) ← escape? false s
      let (v, r) ← lineRest? mark n r
      pure (u ++ v, r)
    else (lineRest? mark n s).map fun (u, r) => (c :: u, r)

/-- The rest of a string of several lines. Three marks close it; one or two more before them are
part of it. A carriage return stands in front of a line feed only. -/
def blockRest? (mark : Char) : Nat → Text → Option (Text × Text)
  | 0, _ => none
  | _ + 1, [] => none
  | n + 1, c :: s =>
    if isControl c && c ≠ '\n' && !(c = '\r' && s.head? = some '\n') then none
    else if c = mark then
      let marks := (c :: s).takeWhile (· = mark)
      let r := (c :: s).dropWhile (· = mark)
      if marks.length < 3 then (blockRest? mark n r).map fun (u, t) => (marks ++ u, t)
      else if marks.length < 6 then some (marks.drop 3, r)
      else none
    else if c = '\\' && mark = '\x22' then do
      let (u, r) ← escape? true s
      let (v, r) ← blockRest? mark n r
      pure (u ++ v, r)
    else (blockRest? mark n s).map fun (u, r) => (c :: u, r)

/-- A string of one line; a mark opens it. -/
def lineString? (s : Text) : Option (Text × Text) :=
  match s with
  | [] => none
  | c :: r => if c = '\x22' || c = '\x27' then lineRest? c (r.length + 1) r else none

/-- A string of either form. A line break directly behind three opening marks is dropped. -/
def string? (s : Text) : Option (Text × Text) :=
  match s with
  | a :: b :: c :: r =>
    if (a = '\x22' || a = '\x27') && b = a && c = a then
      let r :=
        match r with
        | '\n' :: t => t
        | '\r' :: '\n' :: t => t
        | _ => r
      blockRest? a (r.length + 1) r
    else lineString? s
  | _ => lineString? s

/-! ## Numbers -/

/-- The digits of a base, as they may stand around an underscore. -/
def isBaseDigit (base : Nat) (c : Char) : Bool :=
  c.toNat ≤ 0x7f && (Numeral.digitBelow? base c).isSome

/-- A number without its underscores, each of which stands between two digits. -/
def ungrouped? (isDigit : Char → Bool) : Option Char → Text → Option Text
  | _, [] => some []
  | before, c :: s =>
    if c = '_' then
      if before.any isDigit && s.head?.any isDigit then ungrouped? isDigit (some c) s else none
    else (ungrouped? isDigit (some c) s).map (c :: ·)

/-- The base of a number without its sign. -/
def baseOf : Text → Nat
  | '0' :: 'b' :: _ => 2
  | '0' :: 'o' :: _ => 8
  | '0' :: 'x' :: _ => 16
  | _ => 10

/-- Whether a number without its sign starts as it may. A zero leads a fraction, an exponent or
the mark of a base only; behind a sign stands neither such a mark nor a point. -/
def startsWell (signed : Bool) (s : Text) : Bool :=
  match s with
  | '0' :: c :: _ => c = '.' || c = 'e' || (baseOf s ≠ 10 && !signed)
  | '.' :: _ => !signed
  | _ => true

/-- Whether digits stand behind the point, if there is one. -/
def endsWell (s : Text) : Bool :=
  s.getLast? ≠ some '.' && (baseOf s = 16 || (s.takeWhile (· ≠ 'e')).getLast? ≠ some '.')

/-- A number as written between delimiters. -/
def number? (s : Text) : Option Value := do
  let signed := s.head? = some '+' || s.head? = some '-'
  let body := if signed then s.drop 1 else s
  guard (startsWell signed body)
  let body := (← ungrouped? (isBaseDigit (baseOf body)) none body).map Char.toLower
  guard (endsWell body)
  let s := if signed then s.take 1 ++ body else body
  match Numeral.whole? (baseOf body) s with
  | some i => pure (.integer i)
  | none => if Numeral.isFraction s then pure .other else none

/-! ## Days and times -/

/-- The number of two digits at the front. -/
def two? : Text → Option (Nat × Text)
  | a :: b :: s => if a.isDigit && b.isDigit then some (natOfDigits [a, b], s) else none
  | _ => none

def daysIn (year month : Nat) : Nat :=
  if month = 2 then
    if year % 4 = 0 && (year % 100 ≠ 0 || year % 400 = 0) then 29 else 28
  else if month = 4 || month = 6 || month = 9 || month = 11 then 30
  else 31

/-- A day of the calendar at the front, its year in four digits. -/
def day? (s : Text) : Option Text := do
  let (year, r) ← Text.run? Char.isDigit s
  guard (year.length = 4)
  let (month, r) ← Text.after? "-" r >>= two?
  let (day, r) ← Text.after? "-" r >>= two?
  guard (1 ≤ natOfDigits year && 1 ≤ month && month ≤ 12 && 1 ≤ day &&
    day ≤ daysIn (natOfDigits year) month)
  pure r

/-- A time of day at the front, to the minute, to the second or to a part of it. -/
def time? (s : Text) : Option Text := do
  let (hour, r) ← two? s
  let (minute, r) ← Text.after? ":" r >>= two?
  guard (hour ≤ 23 && minute ≤ 59)
  match r with
  | ':' :: t =>
    let (second, t) ← two? t
    guard (second ≤ 59)
    match t with
    | '.' :: t => (Text.run? Char.isDigit t).map (·.2)
    | _ => pure t
  | _ => pure r

/-- The distance to universal time, if one is written. A bar passes as a plus sign. -/
def offset? : Text → Option Text
  | [] => some []
  | c :: s =>
    if c = 'Z' || c = 'z' then some s
    else if c = '+' || c = '-' || c = '|' then do
      let (hour, r) ← two? s
      let (minute, r) ← Text.after? ":" r >>= two?
      guard (hour ≤ 23 && minute ≤ 59)
      pure r
    else none

/-- Whether the text is a day, a time, or both with a T or a space between them. -/
def isMoment (s : Text) : Bool :=
  match day? s with
  | none => time? s = some []
  | some [] => true
  | some (c :: r) =>
    (c = 'T' || c = 't' || c = ' ') && ((time? r >>= offset?) = some [])

/-- What ends a number, a day or a time. -/
def isDelimiter (c : Char) : Bool := " \t\n\r#,]\x7d".toList.contains c

/-- A number, a day or a time at the front. A day may go on with a time behind a space. -/
def plain? (s : Text) : Option (Value × Text) :=
  let word := s.takeWhile (!isDelimiter ·)
  let rest := s.dropWhile (!isDelimiter ·)
  if word = "inf" || word = "nan" then some (.other, rest)
  else if word.head?.any fun c => c = '+' || c = '-' then (number? word).map (·, rest)
  else if !word.head?.any Char.isDigit then none
  else if day? word = some [] then
    let isTime := fun (c : Char) => c = ' ' || !isDelimiter c
    let time := Text.trimRight (rest.takeWhile isTime)
    if time.isEmpty || isMoment (word ++ time) then some (.other, rest.dropWhile isTime) else none
  else if isMoment word then some (.other, rest)
  else (number? word).map (·, rest)

/-- A value that holds no others. -/
def scalar? (s : Text) : Option (Value × Text) :=
  match Text.after? "true" s, Text.after? "false" s with
  | some r, _ => some (.boolean true, r)
  | _, some r => some (.boolean false, r)
  | none, none =>
    match string? s with
    | some (t, r) => some (.text t, r)
    | none => if s.head?.any fun c => c = '\x22' || c = '\x27' then none else plain? s

end SqlDump.Toml
