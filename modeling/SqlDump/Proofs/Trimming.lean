import Mathlib.Data.List.DropRight
import SqlDump.Proofs.Runs
import SqlDump.Text.Blank

/-!
# The ends of texts

What trimming takes off, from the left and from the right, and what it leaves alone.
-/

namespace SqlDump.Text

theorem trimLeft_cons_blank {c : Char} (h : isBlank c = true) (s : Text) :
    trimLeft (c :: s) = trimLeft s :=
  List.dropWhile_cons_of_pos h

theorem trimLeft_cons {c : Char} (h : isBlank c = false) (s : Text) : trimLeft (c :: s) = c :: s :=
  List.dropWhile_cons_of_neg (by simp [h])

theorem not_isBlank_of_trimLeft {s t : Text} {c : Char} (h : trimLeft s = c :: t) :
    isBlank c = false :=
  not_of_dropWhile h

@[simp] theorem trimLeft_trimLeft (s : Text) : trimLeft (trimLeft s) = trimLeft s := by
  cases h : trimLeft s with
  | nil => rfl
  | cons c t => exact trimLeft_cons (not_isBlank_of_trimLeft h) t

theorem trimRight_concat_blank {c : Char} (h : isBlank c = true) (s : Text) :
    trimRight (s ++ [c]) = trimRight s :=
  List.rdropWhile_concat_pos isBlank s c h

theorem trimRight_concat {c : Char} (h : isBlank c = false) (s : Text) :
    trimRight (s ++ [c]) = s ++ [c] :=
  List.rdropWhile_concat_neg isBlank s c (by simp [h])

theorem trimLeft_trim (s : Text) : trimLeft (trim s) = trim s := by
  cases h : trimLeft s with
  | nil =>
    rw [trim, h]
    rfl
  | cons c t =>
    have hc := not_isBlank_of_trimLeft h
    cases ht : trimRight (c :: t) with
    | nil =>
      rw [trim, h, ht]
      rfl
    | cons d u =>
      have hd : d = c := by
        have hprefix := List.rdropWhile_prefix isBlank (l := c :: t)
        rw [show (c :: t).rdropWhile isBlank = d :: u from ht] at hprefix
        exact (List.cons_prefix_cons.mp hprefix).1
      rw [trim, h, ht]
      exact trimLeft_cons (hd ▸ hc) u

theorem trim_blank_append {lead : Text} (h : ∀ c ∈ lead, isBlank c = true) (s : Text) :
    trim (lead ++ s) = trim s := by
  unfold trim trimLeft
  rw [List.dropWhile_append_of_pos h]

theorem trim_concat_blank {c : Char} (h : isBlank c = true) (s : Text) :
    trim (s ++ [c]) = trim s := by
  have hleft : trimLeft (s ++ [c]) = trimLeft s ++ [c] ∨
      trimLeft (s ++ [c]) = [] ∧ trimLeft s = [] := by
    unfold trimLeft
    rw [List.dropWhile_append]
    split
    · rename_i hs
      exact Or.inr ⟨List.dropWhile_cons_of_pos h, List.isEmpty_iff.mp hs⟩
    · exact Or.inl rfl
  unfold trim
  rcases hleft with h' | ⟨h', hs⟩
  · rw [h', trimRight_concat_blank h]
  · rw [h', hs]

theorem trim_append_blank {tail : Text} (h : ∀ c ∈ tail, isBlank c = true) (s : Text) :
    trim (s ++ tail) = trim s := by
  induction tail using List.reverseRecOn with
  | nil => rw [List.append_nil]
  | append_singleton tail c ih =>
    rw [← List.append_assoc, trim_concat_blank (h c (by simp))]
    exact ih fun d hd => h d (List.mem_append_left _ hd)

theorem trim_trim (s : Text) : trim (trim s) = trim s := by
  have hright : ∀ t : Text, trimRight (trimRight t) = trimRight t :=
    List.rdropWhile_idempotent (p := isBlank)
  rw [trim, trimLeft_trim, trim, hright]

theorem rdropWhile_append {q : Char → Bool} {front s : Text} (h : s.rdropWhile q ≠ []) :
    (front ++ s).rdropWhile q = front ++ s.rdropWhile q := by
  induction s using List.reverseRecOn with
  | nil => exact absurd rfl h
  | append_singleton s c ih =>
    rw [← List.append_assoc]
    by_cases hc : q c = true
    · rw [List.rdropWhile_concat_pos q _ _ hc] at h ⊢
      rw [List.rdropWhile_concat_pos q _ _ hc]
      exact ih h
    · rw [List.rdropWhile_concat_neg q _ _ hc, List.rdropWhile_concat_neg q _ _ hc,
        List.append_assoc]

-- What is dropped on the right stands behind the last character that stays.
theorem rdropWhile_append_cons {q : Char → Bool} {c : Char} (hc : q c = false) (front s : Text) :
    (front ++ c :: s).rdropWhile q = front ++ c :: s.rdropWhile q := by
  have hcons : (c :: s).rdropWhile q = c :: s.rdropWhile q := by
    induction s using List.reverseRecOn with
    | nil => exact List.rdropWhile_concat_neg q [] c (by simp [hc])
    | append_singleton s d ih =>
      by_cases hd : q d = true
      · rw [← List.cons_append, List.rdropWhile_concat_pos q _ _ hd,
          List.rdropWhile_concat_pos q _ _ hd, ih]
      · rw [← List.cons_append, List.rdropWhile_concat_neg q _ _ hd,
          List.rdropWhile_concat_neg q _ _ hd]
        rfl
  rw [rdropWhile_append, hcons]
  rw [hcons]
  exact List.cons_ne_nil _ _

-- A text that starts with no blank is trimmed on the right only, and ends in no blank then.
theorem trim_cons {c : Char} (hc : isBlank c = false) (t : Text) :
    (∃ v, trim (c :: t) = c :: v) ∧ ∃ u d, trim (c :: t) = u ++ [d] ∧ isBlank d = false := by
  have htrim : trim (c :: t) = c :: t.rdropWhile isBlank := by
    rw [trim, trimLeft_cons hc]
    exact rdropWhile_append_cons hc [] t
  refine ⟨⟨_, htrim⟩, ?_⟩
  rcases List.eq_nil_or_concat (t.rdropWhile isBlank) with hnil | ⟨u, d, hu⟩
  · exact ⟨[], c, by rw [htrim, hnil]; rfl, hc⟩
  · rw [List.concat_eq_append] at hu
    have hne : t.rdropWhile isBlank ≠ [] := by simp [hu]
    have hlast := List.rdropWhile_last_not isBlank t hne
    have hd : (t.rdropWhile isBlank).getLast hne = d := by
      rw [List.getLast_congr hne (by simp) hu]
      exact List.getLast_concat
    rw [hd, Bool.not_eq_true] at hlast
    exact ⟨c :: u, d, by rw [htrim, hu]; rfl, hlast⟩

end SqlDump.Text
