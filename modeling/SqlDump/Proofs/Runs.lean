import Mathlib.Data.List.TakeWhile
import SqlDump.Text.Basic

/-!
# Runs of characters

A run is as long as the characters at the front are of a kind. It stays the same where the text goes
on with another character, and the front it takes off and the rest are the text again.
-/

namespace SqlDump.Text

variable {p : Char → Bool} {s t u r : Text}

/-! ## 1. Where a run stops -/

section Stop

variable (ht : ∀ c r, t = c :: r → p c = false)

include ht

-- Where the text itself has only characters of the kind, the run ends in front of `t`.
theorem takeWhile_append_stop (s : Text) : (s ++ t).takeWhile p = s.takeWhile p := by
  induction s with
  | nil =>
    cases t with
    | nil => rfl
    | cons c r => exact List.takeWhile_cons_of_neg (by simp [ht c r rfl])
  | cons c s ih =>
    by_cases hc : p c = true
    · rw [List.cons_append, List.takeWhile_cons_of_pos hc, List.takeWhile_cons_of_pos hc, ih]
    · rw [List.cons_append, List.takeWhile_cons_of_neg hc, List.takeWhile_cons_of_neg hc]

theorem dropWhile_append_stop (s : Text) : (s ++ t).dropWhile p = s.dropWhile p ++ t := by
  have hsplit : (s ++ t).takeWhile p ++ (s ++ t).dropWhile p =
      (s ++ t).takeWhile p ++ (s.dropWhile p ++ t) := by
    rw [List.takeWhile_append_dropWhile, takeWhile_append_stop ht, ← List.append_assoc,
      List.takeWhile_append_dropWhile]
  exact List.append_cancel_left hsplit

theorem takeWhile_append_eq (hs : ∀ c ∈ s, p c = true) : (s ++ t).takeWhile p = s := by
  rw [takeWhile_append_stop ht, List.takeWhile_eq_self_iff.mpr hs]

theorem dropWhile_append_eq (hs : ∀ c ∈ s, p c = true) : (s ++ t).dropWhile p = t := by
  rw [dropWhile_append_stop ht, List.dropWhile_eq_nil_iff.mpr hs, List.nil_append]

theorem run?_append (s : Text) : run? p (s ++ t) = (run? p s).map fun q => (q.1, q.2 ++ t) := by
  unfold run?
  rw [takeWhile_append_stop ht, dropWhile_append_stop ht]
  split <;> rfl

end Stop

theorem dropWhile_eq_cons_iff {c : Char} :
    s.dropWhile p = c :: r ↔ ∃ u, s = u ++ c :: r ∧ (∀ d ∈ u, p d = true) ∧ p c = false := by
  constructor
  · intro h
    refine ⟨s.takeWhile p, ?_, fun _ => List.mem_takeWhile_imp, ?_⟩
    · rw [← h, List.takeWhile_append_dropWhile]
    · have := List.head?_dropWhile_not (p := p) (l := s)
      rw [h] at this
      simpa using this
  · rintro ⟨u, rfl, hu, hc⟩
    rw [List.dropWhile_append_of_pos hu, List.dropWhile_cons_of_neg (by simp [hc])]

theorem not_of_dropWhile {c : Char} (h : s.dropWhile p = c :: r) : p c = false := by
  obtain ⟨u, -, -, hc⟩ := dropWhile_eq_cons_iff.mp h
  exact hc

theorem suffix_of_dropWhile {c : Char} (h : s.dropWhile p = c :: r) : r <:+ s := by
  obtain ⟨u, rfl, -⟩ := dropWhile_eq_cons_iff.mp h
  exact ⟨u ++ [c], by simp⟩

/-! ## 2. The longest run -/

/-- The longest run is followed by no character of its kind. -/
theorem run?_eq_some_iff : run? p s = some (u, r) ↔
    s = u ++ r ∧ u ≠ [] ∧ (∀ c ∈ u, p c = true) ∧ ∀ c ∈ r.head?, p c = false := by
  constructor
  · intro h
    unfold run? at h
    split at h
    · cases h
    · rename_i hne
      cases h
      refine ⟨List.takeWhile_append_dropWhile.symm, fun e => hne e, fun _ => List.mem_takeWhile_imp,
        fun c hc => ?_⟩
      obtain ⟨rest, hrest⟩ := List.head?_eq_some_iff.mp hc
      exact not_of_dropWhile hrest
  · rintro ⟨rfl, hne, hall, hstop⟩
    have hstop : ∀ c v, r = c :: v → p c = false := by
      rintro c v rfl
      exact hstop c rfl
    rw [run?, takeWhile_append_eq hstop hall, dropWhile_append_eq hstop hall]
    cases u with
    | nil => exact absurd rfl hne
    | cons c u => rfl

theorem takeWhile_of_run? (h : run? p s = some (u, r)) : s.takeWhile p = u := by
  obtain ⟨rfl, -, hall, hstop⟩ := run?_eq_some_iff.mp h
  exact takeWhile_append_eq (fun c v e => hstop c (by rw [e]; rfl)) hall

theorem append_of_run? (h : run? p s = some (u, r)) : s = u ++ r :=
  (run?_eq_some_iff.mp h).1

theorem mem_run (h : run? p s = some (u, r)) : u ≠ [] ∧ ∀ c ∈ u, p c = true :=
  ⟨(run?_eq_some_iff.mp h).2.1, (run?_eq_some_iff.mp h).2.2.1⟩

/-! ## 3. Every run -/

theorem mem_runs (h : (u, r) ∈ runs p s) :
    u ≠ [] ∧ (∀ c ∈ u, p c = true) ∧ s = u ++ r := by
  induction s generalizing u with
  | nil => cases h
  | cons c s ih =>
    rw [runs] at h
    split at h
    · rename_i hc
      rcases List.mem_append.mp h with h | h
      · obtain ⟨⟨v, r'⟩, hmem, heq⟩ := List.mem_map.mp h
        cases heq
        obtain ⟨-, hall, rfl⟩ := ih hmem
        exact ⟨List.cons_ne_nil _ _, List.forall_mem_cons.mpr ⟨hc, hall⟩, rfl⟩
      · cases List.mem_singleton.mp h
        exact ⟨List.cons_ne_nil _ _, List.forall_mem_singleton.mpr hc, rfl⟩
    · cases h

theorem runs_eq_nil (h : run? p s = none) : runs p s = [] := by
  cases s with
  | nil => rfl
  | cons c s =>
    by_cases hc : p c = true
    · rw [run?, List.takeWhile_cons_of_pos hc] at h
      cases h
    · rw [runs, if_neg hc]

-- A run at the front can be cut short anywhere.
theorem runs_eq_cons (h : run? p s = some (u, r)) :
    ∃ shorter, runs p s = (u, r) :: shorter ∧
      ∀ q ∈ shorter, ∃ v, v ≠ [] ∧ u = q.1 ++ v ∧ q.2 = v ++ r := by
  induction s generalizing u with
  | nil => cases h
  | cons c s ih =>
    unfold run? at h
    by_cases hc : p c = true
    · rw [List.takeWhile_cons_of_pos hc, List.dropWhile_cons_of_pos hc] at h
      cases h
      rw [runs, if_pos hc]
      cases hu : s.takeWhile p with
      | nil =>
        have hnil : runs p s = [] := runs_eq_nil (by rw [run?, hu])
        have hs := List.takeWhile_append_dropWhile (p := p) (l := s)
        rw [hu, List.nil_append] at hs
        rw [hnil, hs]
        exact ⟨[], rfl, fun q hq => (List.not_mem_nil hq).elim⟩
      | cons d u =>
        have hread : run? p s = some (d :: u, s.dropWhile p) := by rw [run?, hu]
        obtain ⟨shorter, hruns, hshorter⟩ := ih hread
        have hs := List.takeWhile_append_dropWhile (p := p) (l := s)
        rw [hu] at hs
        rw [hruns]
        refine ⟨shorter.map (fun q => (c :: q.1, q.2)) ++ [([c], s)], rfl, fun q hq => ?_⟩
        rcases List.mem_append.mp hq with hq | hq
        · obtain ⟨q', hq', rfl⟩ := List.mem_map.mp hq
          obtain ⟨v, hv, hcut, hrest⟩ := hshorter q' hq'
          exact ⟨v, hv, congrArg (c :: ·) hcut, hrest⟩
        · rw [List.mem_singleton.mp hq]
          exact ⟨d :: u, List.cons_ne_nil _ _, rfl, hs.symm⟩
    · rw [List.takeWhile_cons_of_neg hc] at h
      cases h

end SqlDump.Text
