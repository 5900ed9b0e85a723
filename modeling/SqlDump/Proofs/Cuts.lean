import SqlDump.Proofs.Trimming

/-!
# Where texts are cut

A text that is cut at a word falls into pieces without that word, and with the word between them the
pieces make up the text again. Trimming takes blanks off the ends and nothing else. What a search finds stands at some place of the text, and one that finds nothing was at all of them.
-/

namespace SqlDump.Text

/-! ## 1. The first occurrence of a word -/

theorem append_of_after? {w s r : Text} (h : after? w s = some r) : s = w ++ r := by
  induction w generalizing s with
  | nil =>
    cases s <;> cases h <;> rfl
  | cons a w ih =>
    cases s with
    | nil => cases h
    | cons c s =>
      rw [after?] at h
      split at h
      · rename_i hac
        rw [ih h, hac, List.cons_append]
      · cases h

theorem after?_append (w r : Text) : after? w (w ++ r) = some r := by
  induction w with
  | nil => cases r <;> rfl
  | cons a w ih => rw [List.cons_append, after?, if_pos rfl, ih]

theorem after?_singleton {c : Char} {s r : Text} : after? [c] s = some r ↔ s = c :: r := by
  constructor
  · intro h
    exact append_of_after? h
  · rintro rfl
    exact after?_append [c] r

theorem append_of_cut? {w s u v : Text} (h : cut? w s = some (u, v)) : s = u ++ w ++ v := by
  induction s generalizing u with
  | nil =>
    obtain ⟨r, hr, e⟩ := Option.map_eq_some_iff.mp h
    cases e
    exact append_of_after? hr
  | cons c s ih =>
    rw [cut?] at h
    split at h
    · rename_i r hr
      cases h
      exact append_of_after? hr
    · obtain ⟨⟨u, v⟩, hu, e⟩ := Option.map_eq_some_iff.mp h
      cases e
      rw [ih hu]
      rfl

theorem cut?_nil {w : Text} (hw : w ≠ []) : cut? w [] = none := by
  cases w with
  | nil => exact absurd rfl hw
  | cons a w => rfl

-- A word that does not stand at the front of a text does not stand at the front of its beginning.
theorem after?_eq_none_of_append {w s t : Text} (h : after? w (s ++ t) = none) :
    after? w s = none := by
  cases hs : after? w s with
  | none => rfl
  | some r =>
    rw [append_of_after? hs, List.append_assoc, after?_append] at h
    cases h

theorem cut?_eq_none_of_append {w s t : Text} (h : cut? w (s ++ t) = none) : cut? w s = none := by
  induction s with
  | nil =>
    cases hs : cut? w [] with
    | none => rfl
    | some p =>
      have hw : w = [] := by
        by_contra hw
        rw [cut?_nil hw] at hs
        cases hs
      subst hw
      cases t <;> cases h
  | cons c s ih =>
    rw [List.cons_append, cut?] at h
    split at h
    · cases h
    · rename_i hafter
      rw [cut?, after?_eq_none_of_append (s := c :: s) hafter, ih (Option.map_eq_none_iff.mp h)]
      rfl

-- What stands at the front of a text as long as the word does not depend on what follows.
theorem after?_append_of_length {w s : Text} (h : w.length ≤ s.length) (t : Text) :
    after? w (s ++ t) = (after? w s).map (· ++ t) := by
  induction w generalizing s with
  | nil => cases s <;> rfl
  | cons a w ih =>
    cases s with
    | nil => cases h
    | cons c s =>
      rw [List.cons_append, after?, after?]
      split
      · exact ih (Nat.le_of_succ_le_succ h)
      · rfl

/-- The first occurrence of a word stays the first one, whatever follows. -/
theorem cut?_append {w s u v : Text} (h : cut? w s = some (u, v)) (t : Text) :
    cut? w (s ++ t) = some (u, v ++ t) := by
  have hlength : w.length ≤ s.length := by
    rw [append_of_cut? h, List.length_append, List.length_append]
    omega
  induction s generalizing u with
  | nil =>
    obtain ⟨r, hr, e⟩ := Option.map_eq_some_iff.mp h
    cases e
    obtain rfl := List.eq_nil_of_length_eq_zero (Nat.le_zero.mp hlength)
    cases hr
    cases t <;> rfl
  | cons c s ih =>
    rw [List.cons_append, cut?, ← List.cons_append, after?_append_of_length hlength]
    rw [cut?] at h
    cases hafter : after? w (c :: s) with
    | some r =>
      rw [hafter] at h
      cases h
      rfl
    | none =>
      rw [hafter] at h
      obtain ⟨⟨u', v'⟩, hu, e⟩ := Option.map_eq_some_iff.mp h
      cases e
      have hshorter : w.length ≤ s.length := by
        rw [append_of_cut? hu, List.length_append, List.length_append]
        omega
      rw [Option.map_none]
      exact congrArg (Option.map _) (ih hu hshorter)

-- Before its first occurrence a word does not occur.
theorem cut?_eq_none_of_cut? {w s u v : Text} (hw : w ≠ []) (h : cut? w s = some (u, v)) :
    cut? w u = none := by
  induction s generalizing u with
  | nil =>
    rw [cut?_nil hw] at h
    cases h
  | cons c s ih =>
    have hs := append_of_cut? h
    rw [cut?] at h
    split at h
    · cases h
      exact cut?_nil hw
    · rename_i hafter
      obtain ⟨⟨u, v⟩, hu, e⟩ := Option.map_eq_some_iff.mp h
      cases e
      rw [hs, List.append_assoc] at hafter
      rw [cut?, after?_eq_none_of_append (s := c :: u) hafter, ih hu]
      rfl

-- Where a word is not found it does not stand.
theorem not_infix_of_cut? {w s : Text} (h : cut? w s = none) : ¬ w <:+: s := by
  rintro ⟨u, v, rfl⟩
  induction u with
  | nil =>
    have hcut := cut?_eq_none_of_append (s := w) h
    have hafter : after? w w = some [] := by simpa using after?_append w []
    cases w with
    | nil => cases hcut
    | cons a w =>
      rw [cut?, hafter] at hcut
      cases hcut
  | cons c u ih =>
    rw [List.cons_append, List.cons_append, cut?] at h
    split at h
    · cases h
    · exact ih (Option.map_eq_none_iff.mp h)

theorem length_lt_of_cut? {w s u v : Text} (hw : w ≠ []) (h : cut? w s = some (u, v)) :
    v.length < s.length := by
  have := List.length_pos_iff.mpr hw
  rw [append_of_cut? h, List.length_append, List.length_append]
  omega

/-! ## 2. All pieces -/

theorem mem_of_mem_cuts {w : Text} {n : Nat} {s part : Text} (h : part ∈ cuts w n s) {c : Char}
    (hc : c ∈ part) : c ∈ s := by
  induction n generalizing s with
  | zero =>
    rw [List.mem_singleton.mp h] at hc
    exact hc
  | succ n ih =>
    rw [cuts] at h
    split at h
    · rename_i u v hcut
      rw [append_of_cut? hcut]
      rcases List.mem_cons.mp h with rfl | h
      · exact List.mem_append_left _ (List.mem_append_left _ hc)
      · exact List.mem_append_right _ (ih h)
    · rw [List.mem_singleton.mp h] at hc
      exact hc

-- As many cuts as there are characters are enough.
theorem cuts_eq_splitOn {w : Text} (hw : w ≠ []) {n : Nat} {s : Text} (h : s.length ≤ n) :
    cuts w n s = splitOn w s := by
  have enough : ∀ n m (s : Text), s.length ≤ n → s.length ≤ m → cuts w n s = cuts w m s := by
    intro n
    induction n with
    | zero =>
      intro m s hs _
      obtain rfl := List.eq_nil_of_length_eq_zero (Nat.le_zero.mp hs)
      cases m with
      | zero => rfl
      | succ m => rw [cuts, cuts, cut?_nil hw]
    | succ n ih =>
      intro m s hs hm
      cases m with
      | zero =>
        obtain rfl := List.eq_nil_of_length_eq_zero (Nat.le_zero.mp hm)
        rw [cuts, cuts, cut?_nil hw]
      | succ m =>
        rw [cuts, cuts]
        cases hcut : cut? w s with
        | none => rfl
        | some p =>
          have := length_lt_of_cut? hw hcut
          exact congrArg (p.1 :: ·) (ih m p.2 (by omega) (by omega))
  exact enough n s.length s h le_rfl

theorem splitOn_of_cut? {w s u v : Text} (hw : w ≠ []) (h : cut? w s = some (u, v)) :
    splitOn w s = u :: splitOn w v := by
  have hlt := length_lt_of_cut? hw h
  rw [splitOn]
  cases hs : s.length with
  | zero => omega
  | succ n => rw [cuts, h, ← cuts_eq_splitOn hw (n := n) (s := v) (by omega)]

/-- A text is one piece without the word, or has a first piece without it. -/
theorem splitOn_cases {w : Text} (hw : w ≠ []) (s : Text) :
    cut? w s = none ∧ splitOn w s = [s] ∨
      ∃ u v, s = u ++ w ++ v ∧ cut? w u = none ∧ splitOn w s = u :: splitOn w v := by
  cases hcut : cut? w s with
  | none =>
    refine Or.inl ⟨rfl, ?_⟩
    rw [splitOn]
    cases hs : s.length with
    | zero => rfl
    | succ n => rw [cuts, hcut]
  | some p =>
    obtain ⟨u, v⟩ := p
    exact Or.inr ⟨u, v, append_of_cut? hcut, cut?_eq_none_of_cut? hw hcut, splitOn_of_cut? hw hcut⟩

theorem mem_join {sep : Text} {parts : List Text} {c : Char} (h : c ∈ join sep parts) :
    c ∈ sep ∨ ∃ part ∈ parts, c ∈ part := by
  induction parts with
  | nil => cases h
  | cons part parts ih =>
    cases parts with
    | nil => exact Or.inr ⟨part, List.mem_cons_self, by simpa [join] using h⟩
    | cons next parts =>
      rw [join, List.intercalate_cons_cons] at h
      rcases List.mem_append.mp h with h | h
      · rcases List.mem_append.mp h with h | h
        · exact Or.inr ⟨part, List.mem_cons_self, h⟩
        · exact Or.inl h
      · rcases ih h with h | ⟨other, hother, h⟩
        · exact Or.inl h
        · exact Or.inr ⟨other, List.mem_cons_of_mem _ hother, h⟩

/-! ## 3. What trimming takes off -/

theorem mem_of_mem_trim {s : Text} {c : Char} (h : c ∈ trim s) : c ∈ s := by
  unfold trim trimRight at h
  rw [List.mem_reverse] at h
  have h := (List.dropWhile_sublist _).mem h
  rw [List.mem_reverse] at h
  exact (List.dropWhile_sublist _).mem h

theorem exists_trimLeft (s : Text) :
    ∃ lead, s = lead ++ trimLeft s ∧ ∀ c ∈ lead, isBlank c = true :=
  ⟨s.takeWhile isBlank, (List.takeWhile_append_dropWhile ..).symm, fun _ => List.mem_takeWhile_imp⟩

theorem exists_trimRight (s : Text) :
    ∃ tail, s = trimRight s ++ tail ∧ ∀ c ∈ tail, isBlank c = true := by
  obtain ⟨lead, hs, hlead⟩ := exists_trimLeft s.reverse
  refine ⟨lead.reverse, ?_, fun c hc => hlead c (List.mem_reverse.mp hc)⟩
  rw [trimRight, ← trimLeft, ← List.reverse_append, ← hs, List.reverse_reverse]

/-- A text is what trimming leaves of it, between blanks. -/
theorem exists_trim (s : Text) : ∃ lead tail, s = lead ++ trim s ++ tail ∧
    (∀ c ∈ lead, isBlank c = true) ∧ ∀ c ∈ tail, isBlank c = true := by
  obtain ⟨lead, hs, hlead⟩ := exists_trimLeft s
  obtain ⟨tail, ht, htail⟩ := exists_trimRight (trimLeft s)
  exact ⟨lead, tail, by rw [trim, List.append_assoc, ← ht, ← hs], hlead, htail⟩

/-! ## 4. The leftmost place -/

-- What a search finds stands at some place of the text, and sees the character before it.
theorem exists_of_search {α : Type} {stop : Char → Bool} {f : Option Char → Text → Option α}
    {before : Option Char} {s u : Text} {a : α} (h : search stop f before s = some (u, a)) :
    ∃ t, s = u ++ t ∧ f (u.getLast?.or before) t = some a := by
  induction s generalizing before u with
  | nil =>
    obtain ⟨a', ha, e⟩ := Option.map_eq_some_iff.mp h
    cases e
    exact ⟨[], rfl, ha⟩
  | cons c s ih =>
    unfold search at h
    split at h
    · rename_i ha
      cases h
      exact ⟨c :: s, rfl, ha⟩
    · split at h
      · cases h
      · obtain ⟨⟨v, a'⟩, hfound, e⟩ := Option.map_eq_some_iff.mp h
        cases e
        obtain ⟨t, rfl, ha⟩ := ih hfound
        refine ⟨t, rfl, ?_⟩
        rw [List.getLast?_cons]
        cases hlast : v.getLast? with
        | none => rwa [hlast] at ha
        | some d => rwa [hlast] at ha

-- A search that finds nothing was at every place.
theorem search_eq_none {α : Type} {f : Text → Option α} {before : Option Char} {s t : Text}
    (h : search (fun _ => false) (fun _ => f) before s = none) (ht : t <:+ s) : f t = none := by
  induction s generalizing before with
  | nil =>
    rw [List.suffix_nil.mp ht]
    exact Option.map_eq_none_iff.mp h
  | cons c s ih =>
    unfold search at h
    split at h
    · cases h
    · rename_i hnone
      rcases List.suffix_cons_iff.mp ht with rfl | ht
      · exact hnone
      · exact ih (Option.map_eq_none_iff.mp h) ht

/-- What a search finds is at the first place where there is something to find. -/
theorem search_eq_some_iff {α : Type} {f : Text → Option α} {before : Option Char} {s u : Text}
    {a : α} : search (fun _ => false) (fun _ => f) before s = some (u, a) ↔
      ∃ t, s = u ++ t ∧ f t = some a ∧ ∀ v w, u = v ++ w → w ≠ [] → f (w ++ t) = none := by
  constructor
  · intro h
    induction s generalizing before u with
    | nil =>
      obtain ⟨a', ha, e⟩ := Option.map_eq_some_iff.mp h
      cases e
      exact ⟨[], rfl, ha, fun v w e hw => absurd (List.append_eq_nil_iff.mp e.symm).2 hw⟩
    | cons c s ih =>
      unfold search at h
      split at h
      · rename_i ha
        cases h
        exact ⟨c :: s, rfl, ha, fun v w e hw => absurd (List.append_eq_nil_iff.mp e.symm).2 hw⟩
      · rename_i hnone
        obtain ⟨⟨u', a'⟩, hfound, e⟩ := Option.map_eq_some_iff.mp h
        cases e
        obtain ⟨t, rfl, ha, hfirst⟩ := ih hfound
        refine ⟨t, rfl, ha, fun v w e hw => ?_⟩
        cases v with
        | nil =>
          obtain rfl : c :: u' = w := e
          exact hnone
        | cons d v => exact hfirst v w (List.cons.inj e).2 hw
  · rintro ⟨t, rfl, ha, hfirst⟩
    induction u generalizing before with
    | nil =>
      cases t with
      | nil => exact Option.map_eq_some_iff.mpr ⟨a, ha, rfl⟩
      | cons c t => rw [List.nil_append, search, ha]
    | cons c u ih =>
      have hnone : f (c :: (u ++ t)) = none := hfirst [] (c :: u) rfl (List.cons_ne_nil c u)
      have hrest := @ih (some c) fun v w e => hfirst (c :: v) w (e ▸ rfl)
      rw [List.cons_append, search, hnone, hrest]
      rfl

end SqlDump.Text
