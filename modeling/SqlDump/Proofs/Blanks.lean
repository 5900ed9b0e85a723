import Mathlib.Data.List.Basic
import SqlDump.Text.Blank

/-!
# Runs of blanks

A text with every run of blanks made one space. What a line is spaced to is this text, up to the
blanks at its ends, and texts are put together under it piece by piece.
-/

namespace SqlDump.Text

/-! ## 1. Collapsed texts -/

/-- Every run of blanks as one space. `after` tells whether the text continues a run. -/
def collapseAfter : Bool → Text → Text
  | _, [] => []
  | after, c :: s =>
    if isBlank c then
      if after then collapseAfter true s else ' ' :: collapseAfter true s
    else c :: collapseAfter false s

def collapse (s : Text) : Text := collapseAfter false s

/-- Whether a text that follows a blank, or follows none, ends in one. -/
def endsBlank : Bool → Text → Bool
  | after, [] => after
  | _, c :: s => endsBlank (isBlank c) s

theorem collapseAfter_cons_blank {c : Char} (h : isBlank c = true) (s : Text) :
    collapseAfter true (c :: s) = collapseAfter true s := by
  simp [collapseAfter, h]

theorem collapse_cons_blank {c : Char} (h : isBlank c = true) (s : Text) :
    collapse (c :: s) = ' ' :: collapseAfter true s := by
  simp [collapse, collapseAfter, h]

theorem collapseAfter_cons {c : Char} (h : isBlank c = false) (after : Bool) (s : Text) :
    collapseAfter after (c :: s) = c :: collapse s := by
  simp [collapse, collapseAfter, h]

theorem collapse_cons {c : Char} (h : isBlank c = false) (s : Text) :
    collapse (c :: s) = c :: collapse s :=
  collapseAfter_cons h false s

@[simp] theorem collapse_nil : collapse [] = [] := rfl

theorem collapseAfter_append (after : Bool) (s t : Text) :
    collapseAfter after (s ++ t) = collapseAfter after s ++ collapseAfter (endsBlank after s) t := by
  induction s generalizing after with
  | nil => rfl
  | cons c s ih =>
    cases h : isBlank c with
    | false => simp [collapseAfter, endsBlank, h, ih]
    | true => cases after <;> simp [collapseAfter, endsBlank, h, ih]

-- No run of blanks goes over the end of a text that ends in none.
theorem collapse_append {s : Text} (h : endsBlank false s = false) (t : Text) :
    collapse (s ++ t) = collapse s ++ collapse t := by
  rw [collapse, collapseAfter_append, h]
  rfl

theorem collapse_append_cons (s : Text) {c : Char} (h : isBlank c = false) (t : Text) :
    collapse (s ++ c :: t) = collapse s ++ c :: collapse t := by
  rw [collapse, collapseAfter_append, collapseAfter_cons h]
  rfl

-- No run of blanks goes over the start of a text that starts with none.
theorem collapse_append_of_starts (s : Text) {t : Text}
    (h : ∃ c r, t = c :: r ∧ isBlank c = false) : collapse (s ++ t) = collapse s ++ collapse t := by
  obtain ⟨c, r, rfl, hc⟩ := h
  rw [collapse_append_cons s hc, collapse_cons hc]

-- What has single blanks only stays as it is.
theorem collapseAfter_collapseAfter (after : Bool) (s : Text) :
    collapseAfter after (collapseAfter after s) = collapseAfter after s := by
  induction s generalizing after with
  | nil => rfl
  | cons c s ih =>
    have hspace : isBlank ' ' = true := by decide
    cases h : isBlank c with
    | false => simp [collapseAfter, h, ih]
    | true => cases after <;> simp [collapseAfter, h, hspace, ih]

theorem collapse_collapse (s : Text) : collapse (collapse s) = collapse s :=
  collapseAfter_collapseAfter false s

theorem endsBlank_append (after : Bool) (s t : Text) :
    endsBlank after (s ++ t) = endsBlank (endsBlank after s) t := by
  induction s generalizing after with
  | nil => rfl
  | cons c s ih => exact ih _

theorem endsBlank_of_ne_nil (after : Bool) {s : Text} (h : s ≠ []) :
    endsBlank after s = endsBlank false s := by
  cases s with
  | nil => exact absurd rfl h
  | cons c s => rfl

theorem endsBlank_concat (after : Bool) (s : Text) (c : Char) :
    endsBlank after (s ++ [c]) = isBlank c :=
  endsBlank_append after s [c]

theorem endsBlank_of_solid {s : Text} (h : ∀ c ∈ s, isBlank c = false) :
    endsBlank false s = false := by
  induction s with
  | nil => rfl
  | cons c s ih =>
    rw [endsBlank, h c List.mem_cons_self]
    exact ih fun d hd => h d (List.mem_cons_of_mem _ hd)

theorem endsBlank_collapseAfter (after : Bool) (s : Text) :
    endsBlank after (collapseAfter after s) = endsBlank after s := by
  induction s generalizing after with
  | nil => rfl
  | cons c s ih =>
    cases hc : isBlank c with
    | false =>
      rw [collapseAfter_cons hc, endsBlank, endsBlank, hc]
      exact ih false
    | true =>
      cases after with
      | true =>
        rw [collapseAfter_cons_blank hc, endsBlank, hc]
        exact ih true
      | false =>
        show endsBlank false (collapse (c :: s)) = _
        rw [collapse_cons_blank hc, endsBlank, endsBlank, hc]
        exact ih true

theorem collapseAfter_true (s : Text) : collapseAfter true s = collapse (trimLeft s) := by
  induction s with
  | nil => rfl
  | cons c s ih =>
    cases h : isBlank c with
    | false => rw [collapseAfter_cons h, trimLeft, List.dropWhile_cons_of_neg (by simp [h]),
        collapse_cons h]
    | true => rw [collapseAfter_cons_blank h, ih, trimLeft, trimLeft,
        List.dropWhile_cons_of_pos (by simp [h])]

-- A text without blanks is as it should be.
theorem collapse_eq_self {s : Text} (h : ∀ c ∈ s, isBlank c = false) : collapse s = s := by
  induction s with
  | nil => rfl
  | cons c s ih =>
    rw [collapse_cons (h c List.mem_cons_self), ih fun d hd => h d (List.mem_cons_of_mem _ hd)]

/-! ## 2. What collapsing keeps -/

theorem count_collapseAfter {c : Char} (hc : isBlank c = false) (after : Bool) (s : Text) :
    (collapseAfter after s).count c = s.count c := by
  have hspace : ∀ d, isBlank d = true → (d == c) = false := by
    intro d hd
    rw [beq_eq_false_iff_ne]
    rintro rfl
    simp [hd] at hc
  induction s generalizing after with
  | nil => rfl
  | cons d s ih =>
    cases hd : isBlank d with
    | false => rw [collapseAfter_cons hd, List.count_cons, List.count_cons, collapse, ih]
    | true =>
      rw [List.count_cons, hspace d hd]
      cases after with
      | true => rw [collapseAfter_cons_blank hd, ih]; rfl
      | false =>
        show (collapse (d :: s)).count c = _
        rw [collapse_cons_blank hd, List.count_cons, hspace ' ' (by decide), ih]

theorem count_collapse {c : Char} (hc : isBlank c = false) (s : Text) :
    (collapse s).count c = s.count c :=
  count_collapseAfter hc false s

theorem mem_collapse {c : Char} (hc : isBlank c = false) {s : Text} :
    c ∈ collapse s ↔ c ∈ s := by
  rw [← List.one_le_count_iff, ← List.one_le_count_iff, count_collapse hc]

-- Two parts of a collapsed text come from two parts of the text.
theorem exists_of_collapseAfter_eq_append {after : Bool} {s u v : Text}
    (h : collapseAfter after s = u ++ v) :
    ∃ s₁ s₂, s = s₁ ++ s₂ ∧ u = collapseAfter after s₁ ∧
      v = collapseAfter (endsBlank after s₁) s₂ := by
  induction s generalizing after u with
  | nil =>
    obtain ⟨rfl, rfl⟩ := List.append_eq_nil_iff.mp h.symm
    exact ⟨[], [], rfl, rfl, rfl⟩
  | cons c s ih =>
    cases u with
    | nil => exact ⟨[], c :: s, rfl, rfl, h.symm⟩
    | cons d u =>
      cases hc : isBlank c with
      | false =>
        rw [collapseAfter_cons hc, List.cons_append, List.cons.injEq] at h
        obtain ⟨rfl, h⟩ := h
        obtain ⟨s₁, s₂, rfl, rfl, rfl⟩ := ih h
        exact ⟨c :: s₁, s₂, rfl, (collapseAfter_cons hc _ _).symm, by rw [endsBlank, hc]⟩
      | true =>
        cases after with
        | true =>
          rw [collapseAfter_cons_blank hc] at h
          obtain ⟨s₁, s₂, rfl, hu, rfl⟩ := ih h
          exact ⟨c :: s₁, s₂, rfl, by rw [collapseAfter_cons_blank hc, hu],
            by rw [endsBlank, hc]⟩
        | false =>
          change collapse (c :: s) = _ at h
          rw [collapse_cons_blank hc, List.cons_append, List.cons.injEq] at h
          obtain ⟨rfl, h⟩ := h
          obtain ⟨s₁, s₂, rfl, rfl, rfl⟩ := ih h
          exact ⟨c :: s₁, s₂, rfl, (collapse_cons_blank hc _).symm, by rw [endsBlank, hc]⟩

-- A leading run of characters that are no blanks stays in front.
theorem takeWhile_collapse {p : Char → Bool} (hp : ∀ c, p c = true → isBlank c = false) (s : Text) :
    (collapse s).takeWhile p = s.takeWhile p := by
  have hspace : p ' ' = false := by
    by_contra h
    exact absurd (hp ' ' (by simpa using h)) (by decide)
  induction s with
  | nil => rfl
  | cons c s ih =>
    cases hc : isBlank c with
    | false =>
      rw [collapse_cons hc, List.takeWhile_cons, List.takeWhile_cons, ih]
    | true =>
      have hpc : p c = false := by
        by_contra h
        exact absurd (hp c (by simpa using h)) (by simp [hc])
      rw [collapse_cons_blank hc, List.takeWhile_cons, List.takeWhile_cons, hspace, hpc]
      rfl

/-! ## 3. Lines with single spaces -/

theorem words_cons_blank {c : Char} (h : isBlank c = true) (s : Text) :
    words (c :: s) = words s := by
  simp [words, h]

theorem words_cons_of_blank_next {c d : Char} (hc : isBlank c = false) (hd : isBlank d = true)
    (s : Text) : words (c :: d :: s) = [c] :: words (d :: s) := by
  simp [words, hc, hd]

theorem words_cons_cons {c d : Char} (hc : isBlank c = false) (hd : isBlank d = false) {s w : Text}
    {ws : List Text} (h : words (d :: s) = w :: ws) :
    words (c :: d :: s) = (c :: w) :: ws := by
  rw [words.eq_def]
  simp only [hc, hd, Bool.false_eq_true, if_false, h]

theorem words_ne_nil {s : Text} (h : endsBlank false s = false) (hs : s ≠ []) : words s ≠ [] := by
  induction s with
  | nil => exact absurd rfl hs
  | cons c s ih =>
    cases s with
    | nil =>
      have hc : isBlank c = false := h
      simp [words, hc]
    | cons d s =>
      have hrest := ih h (List.cons_ne_nil d s)
      cases hc : isBlank c with
      | true => rwa [words_cons_blank hc]
      | false =>
        cases hd : isBlank d with
        | true => rw [words_cons_of_blank_next hc hd]; exact List.cons_ne_nil _ _
        | false =>
          obtain ⟨w, ws, hwords⟩ := List.exists_cons_of_ne_nil hrest
          rw [words_cons_cons hc hd hwords]
          exact List.cons_ne_nil _ _

-- The first word starts with the first character.
theorem words_cons {c : Char} (hc : isBlank c = false) (s : Text) :
    ∃ w ws, words (c :: s) = (c :: w) :: ws := by
  induction s generalizing c with
  | nil => exact ⟨[], [], by simp [words, hc]⟩
  | cons d s ih =>
    cases hd : isBlank d with
    | true => exact ⟨[], words (d :: s), words_cons_of_blank_next hc hd s⟩
    | false =>
      obtain ⟨w, ws, hrest⟩ := ih hd
      exact ⟨d :: w, ws, words_cons_cons hc hd hrest⟩

/-- A line with single spaces has the same words. -/
theorem words_spaced (s : Text) : words (spaced s) = words s := by
  induction s with
  | nil => rfl
  | cons c s ih =>
    cases hc : isBlank c with
    | true => rwa [spaced, words_cons_blank hc]
    | false =>
      cases s with
      | nil => simp [spaced, words, hc, join]
      | cons d s =>
        cases hd : isBlank d with
        | true =>
          have hwords := words_cons_of_blank_next hc hd s
          cases hrest : words (d :: s) with
          | nil =>
            rw [spaced, hwords, hrest]
            simp [words, hc, join]
          | cons w ws =>
            have hspaced : spaced (c :: d :: s) = c :: ' ' :: spaced (d :: s) := by
              rw [spaced, hwords, spaced, hrest]
              rfl
            rw [hspaced, words_cons_of_blank_next hc (by decide), words_cons_blank (by decide), ih,
              hwords]
        | false =>
          obtain ⟨w, ws, hrest⟩ := words_cons hd s
          have hwords := words_cons_cons hc hd hrest
          -- no space comes between the two characters
          have hsame : ∃ t, spaced (d :: s) = d :: t ∧ spaced (c :: d :: s) = c :: d :: t := by
            rw [spaced, spaced, hwords, hrest]
            cases ws <;> exact ⟨_, rfl, rfl⟩
          obtain ⟨t, hdt, hcdt⟩ := hsame
          rw [hdt, hrest] at ih
          rw [hcdt, words_cons_cons hc hd ih, hwords]

theorem spaced_eq_collapseAfter {s : Text} (h : endsBlank false s = false) :
    spaced s = collapseAfter true s := by
  induction s with
  | nil => rfl
  | cons c s ih =>
    cases s with
    | nil =>
      have hc : isBlank c = false := h
      rw [collapseAfter_cons hc]
      simp [spaced, words, hc, join]
    | cons d s =>
      have hrest : spaced (d :: s) = collapseAfter true (d :: s) := ih h
      obtain ⟨w, ws, hwords⟩ := List.exists_cons_of_ne_nil
        (words_ne_nil (s := d :: s) h (List.cons_ne_nil d s))
      cases hc : isBlank c with
      | true => rw [spaced, words_cons_blank hc, collapseAfter_cons_blank hc, ← hrest, spaced]
      | false =>
        rw [collapseAfter_cons hc]
        cases hd : isBlank d with
        | true =>
          rw [collapse_cons_blank hd, ← collapseAfter_cons_blank hd, ← hrest, spaced, spaced,
            words_cons_of_blank_next hc hd, hwords]
          rfl
        | false =>
          rw [collapse_cons hd, ← collapseAfter_cons hd true, ← hrest, spaced, spaced,
            words_cons_cons hc hd hwords, hwords]
          cases ws <;> rfl

end SqlDump.Text
