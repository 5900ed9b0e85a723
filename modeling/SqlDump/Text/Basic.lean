/-!
Texts are lists of characters, so that every reader and writer here is an ordinary function on
lists. A reader takes what it recognises off the front of a text and returns what is left.
-/

namespace SqlDump

abbrev Text := List Char

instance : Coe String Text := ⟨String.toList⟩

instance : LawfulBEq Text := inferInstance

namespace Text

/-- What stands after `w`, if the text starts with it. -/
def after? : Text → Text → Option Text
  | [], s => some s
  | _ :: _, [] => none
  | a :: w, c :: s => if a = c then after? w s else none

def startsWith (w s : Text) : Bool := (after? w s).isSome

/-- What stands before and after the first occurrence of `w`. -/
def cut? (w : Text) : Text → Option (Text × Text)
  | [] => (after? w []).map ([], ·)
  | c :: r =>
    match after? w (c :: r) with
    | some v => some ([], v)
    | none => (cut? w r).map fun (u, v) => (c :: u, v)

def contains (w s : Text) : Bool := (cut? w s).isSome

/-- At most `n` cuts at `w`, from the left. -/
def cuts (w : Text) : Nat → Text → List Text
  | 0, s => [s]
  | n + 1, s =>
    match cut? w s with
    | some (u, v) => u :: cuts w n v
    | none => [s]

/-- The pieces between the occurrences of `w`, which is not empty. -/
def splitOn (w s : Text) : List Text := cuts w s.length s

/-- The texts one after another, `sep` between neighbours. -/
def join (sep : Text) (parts : List Text) : Text := sep.intercalate parts

/-- Fills up with spaces on the right, to at least `width` characters. -/
def padRight (width : Nat) (s : Text) : Text := s ++ List.replicate (width - s.length) ' '

/-- Fills up with zeros on the left, to at least `width` characters. -/
def padZeros (width : Nat) (s : Text) : Text := List.replicate (width - s.length) '0' ++ s

/-- The leftmost place where `f` succeeds, no character of `stop` being passed. `f` sees the
character before the place; returned are the text before the place and the value. -/
def search {α : Type} (stop : Char → Bool) (f : Option Char → Text → Option α) :
    Option Char → Text → Option (Text × α)
  | before, [] => (f before []).map ([], ·)
  | before, c :: r =>
    match f before (c :: r) with
    | some a => some ([], a)
    | none => if stop c then none else (search stop f (some c) r).map fun (u, a) => (c :: u, a)

/-- The leftmost place where `f` succeeds, anywhere in the text. -/
def find {α : Type} (f : Option Char → Text → Option α) (s : Text) : Option (Text × α) :=
  search (fun _ => false) f none s

/-- Every way to take a nonempty run of `p` off the front, longest first. -/
def runs (p : Char → Bool) : Text → List (Text × Text)
  | [] => []
  | c :: r => if p c then (runs p r).map (fun (u, v) => (c :: u, v)) ++ [([c], r)] else []

/-- The longest run of `p` at the front, which has to be nonempty. -/
def run? (p : Char → Bool) (s : Text) : Option (Text × Text) :=
  match s.takeWhile p with
  | [] => none
  | u => some (u, s.dropWhile p)

/-- Keeps the first of equal texts. -/
def distinct (parts : List Text) : List Text :=
  parts.foldl (fun seen p => if seen.contains p then seen else seen ++ [p]) []

/-- Order by code points, a beginning before what continues it. -/
def le : Text → Text → Bool
  | [], _ => true
  | _ :: _, [] => false
  | a :: s, b :: t => if a = b then le s t else a.toNat < b.toNat

/-- Texts in increasing order. -/
def sort (parts : List Text) : List Text := parts.mergeSort le

end Text

end SqlDump
