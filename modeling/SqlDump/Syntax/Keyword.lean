import SqlDump.Text.Blank
import SqlDump.Text.Word

/-!
Keywords, read without regard to case. Besides its two ASCII forms, three letters have further
forms that count as them: the dotless and the dotted i, the long s and the Kelvin sign.
-/

namespace SqlDump

/-- Whether `c` is a form of the capital `k`. -/
def isLetter (k c : Char) : Bool :=
  c = k || c = k.toLower || (k = 'I' && (c = '\u0131' || c = '\u0130')) ||
    (k = 'S' && c = '\u017f') || (k = 'K' && c = '\u212a')

/-- What stands after the keyword, which is given in capitals. -/
def keyword? : Text → Text → Option Text
  | [], s => some s
  | _ :: _, [] => none
  | k :: w, c :: s => if isLetter k c then keyword? w s else none

/-- What stands after one blank or more. -/
def gap? : Text → Option Text
  | [] => none
  | c :: r => if isBlank c then some (Text.trimLeft r) else none

/-- What stands after the keywords in order, with gaps between them. -/
def phrase? : List Text → Text → Option Text
  | [], s => some s
  | [w], s => keyword? w s
  | w :: ws, s => keyword? w s >>= gap? >>= phrase? ws

/-- What stands after the first of the keywords that fits. -/
def anyKeyword? (ws : List Text) (s : Text) : Option Text := ws.findSome? (keyword? · s)

/-- What stands after the keywords and a gap; the text itself where they do not stand. -/
def skipPhrase (ws : List Text) (s : Text) : Text := ((phrase? ws s >>= gap?).getD s)

/-- Whether no word character follows. -/
def wordEnds : Text → Bool
  | [] => true
  | c :: _ => !isWord c

/-- Whether no word character came before. -/
def wordStarts : Option Char → Bool
  | none => true
  | some c => !isWord c

/-- What stands after the keyword, as a word that ends there. -/
def word? (w s : Text) : Option Text := (keyword? w s).filter wordEnds

/-- What stands after the first of the words that fits. -/
def anyWord? (ws : List Text) (s : Text) : Option Text := ws.findSome? (word? · s)

/-- Drops any number of the words, each with the gap behind it. At most `n` are dropped. -/
def skipWords (ws : List Text) : Nat → Text → Text
  | 0, s => s
  | n + 1, s =>
    match anyKeyword? ws s >>= gap? with
    | some r => skipWords ws n r
    | none => s

end SqlDump
