import SqlDump.Text.Blank
import SqlDump.Text.Digit

/-!
Numbers as people type them. Blanks may stand around one and a sign before it, digits of every
script count, and single underscores may part the digits of a whole number.
-/

namespace SqlDump.Numeral

/-- Blanks that may stand around a number: all but the four separators. -/
def isMargin (c : Char) : Bool := isBlank c && !(0x1c ≤ c.toNat && c.toNat ≤ 0x1f)

/-- What is left of a text without the blanks around it. -/
def trim (s : Text) : Text := ((s.dropWhile isMargin).reverse.dropWhile isMargin).reverse

/-- Whether a minus sign stands in front, and what follows the sign if there is one. -/
def sign : Text → Bool × Text
  | '-' :: s => (true, s)
  | '+' :: s => (false, s)
  | s => (false, s)

/-- The value of a digit that is a letter: ten and more. -/
def letterDigit? (c : Char) : Option Nat :=
  if 'a' ≤ c && c ≤ 'z' then some (c.toNat - 87)
  else if 'A' ≤ c && c ≤ 'Z' then some (c.toNat - 55)
  else none

/-- The value of a digit below `base`. -/
def digitBelow? (base : Nat) (c : Char) : Option Nat :=
  ((digit? c).or (letterDigit? c)).filter (· < base)

/-- The digits of a whole number, in groups that single underscores part. -/
def digits? (base : Nat) (s : Text) : Option (List Nat) :=
  let groups := Text.splitOn "_" s
  if groups.any List.isEmpty then none else groups.flatten.mapM (digitBelow? base)

/-- The letter behind a zero that says which base the digits have. -/
def letter? (base : Nat) : Option Char := [(2, 'b'), (8, 'o'), (16, 'x')].lookup base

/-- What follows the mark of the base, if there is one. An underscore may part it from the
digits. -/
def unmarked (base : Nat) (s : Text) : Text :=
  match s with
  | zero :: mark :: r =>
    if digit? zero = some 0 && letter? base = some mark.toLower then
      match r with
      | '_' :: t => t
      | _ => r
    else s
  | _ => s

/-- The most digits that a number in base ten can have. -/
def digitLimit : Nat := 4300

/-- The whole number that a text writes in a base. -/
def whole? (base : Nat) (s : Text) : Option Int := do
  let (negative, r) := sign (trim s)
  let digits ← digits? base (unmarked base r)
  guard (base ≠ 10 || digits.length ≤ digitLimit)
  let n := digits.foldl (fun n d => base * n + d) 0
  pure (if negative then -n else n)

/-- Words that stand for a number beyond all numbers, or for none. -/
def words : List Text := ["inf", "infinity", "nan"]

/-- The rest behind an exponent, if the text starts with one that has digits. -/
def afterExponent (s : Text) : Text :=
  match s with
  | c :: r =>
    if c = 'e' || c = 'E' then
      match Text.run? isDigit (sign r).2 with
      | some (_, t) => t
      | none => s
    else s
  | [] => s

/-- Whether a text writes a number with a point or an exponent, or is one of the words. -/
def isFraction (s : Text) : Bool :=
  let body := (sign (trim s)).2
  let rest := body.dropWhile isDigit
  let (places, tail) :=
    match rest with
    | '.' :: r => (r.takeWhile isDigit, r.dropWhile isDigit)
    | _ => ([], rest)
  words.contains (body.map Char.toLower) ||
    ((body.head?.any isDigit || !places.isEmpty) && !rest.isEmpty && (afterExponent tail).isEmpty)

end SqlDump.Numeral
