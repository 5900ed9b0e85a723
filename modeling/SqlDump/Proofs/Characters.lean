import Mathlib.Data.List.Basic
import SqlDump.Syntax.Identifier
import SqlDump.Syntax.Nesting
import SqlDump.Text.CaseMap
import SqlDump.Text.Digit

/-!
# Classes of characters

Blanks, word characters, quote marks and parentheses are kept apart by their code points. The
tables are compared range by range.
-/

namespace SqlDump

theorem exists_range_of_inRanges {ranges : List (Nat × Nat)} {n : Nat}
    (h : inRanges ranges n = true) : ∃ range ∈ ranges, range.1 ≤ n ∧ n ≤ range.2 := by
  induction ranges with
  | nil => cases h
  | cons range ranges ih =>
    obtain ⟨first, last⟩ := range
    rw [inRanges] at h
    split at h
    · cases h
    · rename_i hfirst
      rcases Bool.or_eq_true_iff.mp h with h | h
      · exact ⟨(first, last), List.mem_cons_self, by omega, by simpa using h⟩
      · obtain ⟨range, hmem, hrange⟩ := ih h
        exact ⟨range, List.mem_cons_of_mem _ hmem, hrange⟩

/-- Ranges that lie apart from all blanks. -/
def ApartFromBlanks (ranges : List (Nat × Nat)) : Prop :=
  ∀ range ∈ ranges, ∀ blank ∈ blankRanges, range.2 < blank.1 ∨ blank.2 < range.1

instance (ranges : List (Nat × Nat)) : Decidable (ApartFromBlanks ranges) :=
  decidable_of_iff (ranges.all fun range => blankRanges.all fun blank =>
      Nat.blt range.2 blank.1 || Nat.blt blank.2 range.1) (by
    simp only [List.all_eq_true, Bool.or_eq_true, Nat.blt_eq]
    exact Iff.rfl)

theorem ApartFromBlanks.isBlank_eq_false {ranges : List (Nat × Nat)} (h : ApartFromBlanks ranges)
    {c : Char} (range : Nat × Nat) (hmem : range ∈ ranges) (hrange : range.1 ≤ c.toNat)
    (hrange' : c.toNat ≤ range.2) : isBlank c = false := by
  by_contra hblank
  rw [Bool.not_eq_false] at hblank
  obtain ⟨blank, hblank, hlow, hhigh⟩ := exists_range_of_inRanges hblank
  have := h range hmem blank hblank
  omega

theorem apart_alphanumeric : ApartFromBlanks alphanumericRanges := by decide +kernel

-- Word characters of ASCII as ranges.
theorem apart_asciiWord : ApartFromBlanks [(0x24, 0x24), (0x30, 0x39), (0x41, 0x5a), (0x5f, 0x5f),
    (0x61, 0x7a)] := by decide

theorem isAlphanum_ranges {c : Char} (h : c.isAlphanum = true) :
    0x30 ≤ c.toNat ∧ c.toNat ≤ 0x39 ∨ 0x41 ≤ c.toNat ∧ c.toNat ≤ 0x5a ∨
      0x61 ≤ c.toNat ∧ c.toNat ≤ 0x7a := by
  change ((decide (c.val ≥ 'A'.val ∧ c.val ≤ 'Z'.val) || (c.val ≥ 'a'.val && c.val ≤ 'z'.val)) ||
    (c.val ≥ '0'.val && c.val ≤ '9'.val)) = true at h
  simp only [Bool.or_eq_true, Bool.and_eq_true, decide_eq_true_eq, UInt32.le_iff_toNat_le,
    ge_iff_le] at h
  change ((65 ≤ c.toNat ∧ c.toNat ≤ 90) ∨ (97 ≤ c.toNat ∧ c.toNat ≤ 122)) ∨
    (48 ≤ c.toNat ∧ c.toNat ≤ 57) at h
  omega

theorem not_isBlank_of_isWord {c : Char} (h : isWord c = true) : isBlank c = false := by
  simp only [isWord, Bool.or_eq_true, Bool.and_eq_true, decide_eq_true_eq] at h
  rcases h with (h | rfl) | ⟨-, h⟩
  · rcases isAlphanum_ranges h with h | h | h
    · exact apart_asciiWord.isBlank_eq_false (0x30, 0x39) (by decide) h.1 h.2
    · exact apart_asciiWord.isBlank_eq_false (0x41, 0x5a) (by decide) h.1 h.2
    · exact apart_asciiWord.isBlank_eq_false (0x61, 0x7a) (by decide) h.1 h.2
  · decide
  · obtain ⟨range, hmem, hlow, hhigh⟩ := exists_range_of_inRanges h
    exact apart_alphanumeric.isBlank_eq_false range hmem hlow hhigh

theorem not_isBlank_of_isNameChar {c : Char} (h : isNameChar c = true) : isBlank c = false := by
  rcases Bool.or_eq_true_iff.mp h with h | h
  · exact not_isBlank_of_isWord h
  · obtain rfl : c = '$' := by simpa using h
    decide

theorem not_isWord_of_isBlank {c : Char} (h : isBlank c = true) : isWord c = false := by
  by_contra hc
  rw [Bool.not_eq_false] at hc
  rw [not_isBlank_of_isWord hc] at h
  cases h

theorem not_isNameChar_of_isBlank {c : Char} (h : isBlank c = true) : isNameChar c = false := by
  by_contra hc
  rw [Bool.not_eq_false] at hc
  rw [not_isBlank_of_isNameChar hc] at h
  cases h

theorem apart_digits :
    ApartFromBlanks (digitZeros.map fun first => (first, first + 9)) := by decide

theorem not_isBlank_of_isDigit {c : Char} (h : isDigit c = true) : isBlank c = false := by
  unfold isDigit digit? at h
  split at h
  · rename_i hdigit
    have hword : c.isAlphanum = true := by simp [Char.isAlphanum, hdigit]
    exact not_isBlank_of_isWord (by simp [isWord, hword])
  · split at h
    · cases h
    · rw [Option.isSome_map, Option.isSome_iff_exists] at h
      obtain ⟨first, hfirst⟩ := h
      have hrange := List.find?_some hfirst
      simp only [Bool.and_eq_true, decide_eq_true_eq] at hrange
      exact apart_digits.isBlank_eq_false (first, first + 9)
        (List.mem_map_of_mem (List.mem_of_find?_eq_some hfirst)) hrange.1 hrange.2

/-! ## Small letters -/

/-- What ends the name of a type: a blank or an opening parenthesis. -/
def isBreak (c : Char) : Bool := isBlank c || c = '('

theorem not_isBreak_of_isWord {c : Char} (h : isWord c = true) : isBreak c = false := by
  have hne : c ≠ '(' := by
    rintro rfl
    exact absurd h (by decide)
  simp [isBreak, not_isBlank_of_isWord h, hne]

theorem isBreak_ofNat {n : Nat} (h : isBreak (Char.ofNat n) = true) :
    n = 0x28 ∨ ∃ blank ∈ blankRanges, blank.1 ≤ n ∧ n ≤ blank.2 := by
  have hnat : (Char.ofNat n).toNat = n := by
    by_cases hvalid : n.isValidChar
    · rw [Char.ofNat, dif_pos hvalid]
      rfl
    · rw [Char.ofNat, dif_neg hvalid] at h
      exact absurd h (by decide)
  rcases Bool.or_eq_true_iff.mp h with h | h
  · have hrange := exists_range_of_inRanges h
    rw [hnat] at hrange
    exact Or.inr hrange
  · left
    rw [← hnat, of_decide_eq_true h]
    rfl

theorem smallRuns_apart : ∀ run ∈ smallRuns, ∀ range ∈ (0x28, 0x28) :: blankRanges,
    run.last + run.shift < (range.1 : Int) ∨ (range.2 : Int) < run.first + run.shift := by
  decide +kernel

theorem not_isBreak_shiftBy {c : Char} (h : isBreak c = false) :
    isBreak (Char.ofNat (shiftBy smallRuns c.toNat)) = false := by
  unfold shiftBy
  split
  · rename_i run hrun
    by_contra hbreak
    rw [Bool.not_eq_false] at hbreak
    have hcovers := List.find?_some hrun
    simp only [CaseRun.covers, Bool.and_eq_true, decide_eq_true_eq] at hcovers
    have hapart := smallRuns_apart run (List.mem_of_find?_eq_some hrun)
    rcases isBreak_ofNat hbreak with h | ⟨blank, hblank, hrange⟩
    · have := hapart (0x28, 0x28) List.mem_cons_self
      dsimp only at this
      omega
    · have := hapart blank (List.mem_cons_of_mem _ hblank)
      have hpos : ∀ blank ∈ blankRanges, 0 < blank.1 := by decide
      have := hpos blank hblank
      omega
  · rw [Char.ofNat_toNat]
    exact h

theorem not_isBreak_toLower : ∀ n < 0x80, isBreak (Char.ofNat n) = false →
    isBreak (Char.ofNat n).toLower = false := by
  decide

theorem not_isBreak_small {c d : Char} (h : isBreak c = false) (hd : d ∈ Text.small c) :
    isBreak d = false := by
  unfold Text.small at hd
  split at hd
  · rename_i hascii
    obtain rfl := List.mem_singleton.mp hd
    have := not_isBreak_toLower c.toNat (by omega)
    rw [Char.ofNat_toNat] at this
    exact this h
  · split at hd
    · rcases List.mem_cons.mp hd with rfl | hd
      · decide
      · obtain rfl := List.mem_singleton.mp hd
        decide
    · obtain rfl := List.mem_singleton.mp hd
      exact not_isBreak_shiftBy h

theorem not_isBreak_lowerAfter {before s : Text} (h : ∀ c ∈ s, isBreak c = false) :
    ∀ d ∈ Text.lowerAfter before s, isBreak d = false := by
  induction s generalizing before with
  | nil =>
    intro d hd
    cases hd
  | cons c s ih =>
    intro d hd
    rw [Text.lowerAfter] at hd
    rcases List.mem_append.mp hd with hd | hd
    · split at hd
      · split at hd
        · obtain rfl := List.mem_singleton.mp hd
          decide
        · obtain rfl := List.mem_singleton.mp hd
          decide
      · exact not_isBreak_small (h c List.mem_cons_self) hd
    · exact ih (fun c hc => h c (List.mem_cons_of_mem _ hc)) d hd

theorem small_ne_nil (c : Char) : Text.small c ≠ [] := by
  unfold Text.small
  split
  · exact List.cons_ne_nil _ _
  · split <;> exact List.cons_ne_nil _ _

theorem lowerAfter_ne_nil {before s : Text} (h : s ≠ []) : Text.lowerAfter before s ≠ [] := by
  cases s with
  | nil => exact absurd rfl h
  | cons c s =>
    rw [Text.lowerAfter]
    intro hnil
    have hfirst := (List.append_eq_nil_iff.mp hnil).1
    split at hfirst
    · split at hfirst <;> cases hfirst
    · exact small_ne_nil c hfirst

end SqlDump
