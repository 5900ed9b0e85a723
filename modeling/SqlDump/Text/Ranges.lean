import SqlDump.Text.Basic

/-!
Sets of code points as increasing lists of closed ranges.
-/

namespace SqlDump

/-- Stops at the first range that starts beyond `n`, which is right because ranges increase. -/
def inRanges : List (Nat × Nat) → Nat → Bool
  | [], _ => false
  | (first, last) :: rest, n => if n < first then false else n ≤ last || inRanges rest n

end SqlDump
