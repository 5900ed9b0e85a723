import SqlDump.Text.Ranges

/-!
Blanks: the white space of every script together with the four ASCII separators. Trimming,
splitting into words and every gap between keywords use this one set.
-/

namespace SqlDump

def blankRanges : List (Nat × Nat) := [
  (0x9, 0xd), (0x1c, 0x20), (0x85, 0x85), (0xa0, 0xa0), (0x1680, 0x1680), (0x2000, 0x200a),
  (0x2028, 0x2029), (0x202f, 0x202f), (0x205f, 0x205f), (0x3000, 0x3000)]

def isBlank (c : Char) : Bool := inRanges blankRanges c.toNat

theorem ne_of_isBlank {c d : Char} (hc : isBlank c = true) (hd : isBlank d = false) : c ≠ d := by
  rintro rfl
  rw [hc] at hd
  cases hd

namespace Text

def trimLeft (s : Text) : Text := s.dropWhile isBlank

def trimRight (s : Text) : Text := (s.reverse.dropWhile isBlank).reverse

def trim (s : Text) : Text := trimRight (trimLeft s)

def allBlank (s : Text) : Bool := s.all isBlank

/-- Drops closing characters `c` from the right. -/
def dropTrailing (c : Char) (s : Text) : Text := (s.reverse.dropWhile (· = c)).reverse

/-- The words between blanks. -/
def words : Text → List Text
  | [] => []
  | c :: r =>
    if isBlank c then words r
    else match r with
      | [] => [[c]]
      | d :: _ =>
        if isBlank d then [c] :: words r
        else match words r with
          | [] => [[c]]
          | w :: ws => (c :: w) :: ws

/-- Every run of blanks becomes one space, and none is left at the ends. -/
def spaced (s : Text) : Text := join " " (words s)

end Text

end SqlDump
