import SqlDump.Text.Basic

/-!
Lines. Text may come with any of the usual line breaks; two of them in a row, carriage return and
line feed, count as one.
-/

namespace SqlDump

def isLineBreak (c : Char) : Bool :=
  (0xa ≤ c.toNat && c.toNat ≤ 0xd) || (0x1c ≤ c.toNat && c.toNat ≤ 0x1e) ||
    c.toNat = 0x85 || c.toNat = 0x2028 || c.toNat = 0x2029

namespace Text

/-- The lines without their breaks. A break at the end opens no further line. -/
def lines : Text → List Text
  | [] => []
  | '\r' :: '\n' :: r => [] :: lines r
  | c :: r =>
    if isLineBreak c then [] :: lines r
    else match lines r with
      | [] => [[c]]
      | l :: ls => (c :: l) :: ls

/-- What stands between line feeds, the only break that counts here: one piece more than there
are line feeds. -/
def feeds : Text → List Text
  | [] => [[]]
  | c :: r =>
    if c = '\n' then [] :: feeds r
    else match feeds r with
      | [] => [[c]]
      | l :: ls => (c :: l) :: ls

/-- Both other spellings of a line end become a line feed, as when a file is read as text. -/
def normalizeBreaks : Text → Text
  | [] => []
  | '\r' :: '\n' :: r => '\n' :: normalizeBreaks r
  | c :: r => (if c = '\r' then '\n' else c) :: normalizeBreaks r

end Text

end SqlDump
