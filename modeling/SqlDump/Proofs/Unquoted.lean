import SqlDump.Proofs.Strings

/-!
# What stands outside quotes

A text is taken apart into characters outside quotes and strings, the last of which may be left
open. A string goes on to the next mark of its kind; a backslash takes the next character with it,
but not between backquotes. There is one way to take a text apart, and that is the scanner's.
-/

namespace SqlDump.Quoting

/-- What may stand between two marks of a kind. -/
inductive Content (mark : Char) : Text → Prop
  | nil : Content mark []
  | plain {c : Char} {u : Text} (hc : c ≠ mark) (hplain : c = '\\' → mark = '\x60')
    (hu : Content mark u) : Content mark (c :: u)
  | escaped {c : Char} {u : Text} (hmark : mark ≠ '\x60') (hu : Content mark u) :
    Content mark ('\\' :: c :: u)

/-- A text, and what is left of it without its strings. -/
inductive Unquotes : Text → Text → Prop
  | nil : Unquotes [] []
  | plain {c : Char} {s t : Text} (hc : isQuoteMark c = false) (hs : Unquotes s t) :
    Unquotes (c :: s) (c :: t)
  | string {mark : Char} {u s t : Text} (hmark : isQuoteMark mark = true) (hu : Content mark u)
    (hs : Unquotes s t) : Unquotes (mark :: (u ++ mark :: s)) t
  | unclosed {mark : Char} {u : Text} (hmark : isQuoteMark mark = true) (hu : Content mark u) :
    Unquotes (mark :: u) []
  -- a backslash at the end of a text takes nothing with it, and leaves the string open
  | unescaped {mark : Char} {u : Text} (hmark : isQuoteMark mark = true) (hne : mark ≠ '\x60')
    (hu : Content mark u) : Unquotes (mark :: (u ++ ['\\'])) []

/-- What stands outside quotes, the marks left out, if the scan stands at `q` before the text. -/
def unquoted : Quoting → Text → Text
  | _, [] => []
  | q, c :: s =>
    if q = outside ∧ isQuoteMark c = false then c :: unquoted outside s else unquoted (q.step c) s

theorem unquoted_inside (mark : Char) (escaped : Bool) (c : Char) (s : Text) :
    unquoted (inside mark escaped) (c :: s) = unquoted ((inside mark escaped).step c) s :=
  if_neg fun h => Quoting.noConfusion h.1

theorem unquoted_plain {c : Char} (h : isQuoteMark c = false) (s : Text) :
    unquoted outside (c :: s) = c :: unquoted outside s :=
  if_pos ⟨rfl, h⟩

theorem unquoted_mark {mark : Char} (h : isQuoteMark mark = true) (s : Text) :
    unquoted outside (mark :: s) = unquoted (inside mark false) s := by
  rw [unquoted, if_neg (by simp [h]), step_mark h]

theorem Content.skip {mark : Char} {u : Text} (h : Content mark u) (s : Text) :
    unquoted (inside mark false) (u ++ s) = unquoted (inside mark false) s := by
  induction h with
  | nil => rfl
  | plain hc hplain _ ih =>
    have hescape : ¬ (_ = '\\' ∧ mark ≠ '\x60') := fun h => h.2 (hplain h.1)
    rw [List.cons_append, unquoted_inside, step, if_neg hescape, if_neg hc, ih]
  | escaped hmark _ ih =>
    have hescape : (inside mark false).step '\\' = inside mark true := if_pos ⟨rfl, hmark⟩
    rw [List.cons_append, List.cons_append, unquoted_inside, hescape, unquoted_inside]
    exact ih

theorem Unquotes.eq {s t : Text} (h : Unquotes s t) : t = unquoted outside s := by
  induction h with
  | nil => rfl
  | plain hc _ ih => rw [unquoted_plain hc, ih]
  | @string mark u s t hmark hu _ ih =>
    have hclose : (inside mark false).step mark = outside := by
      have hne : mark ≠ '\\' := by
        rintro rfl
        cases hmark
      rw [step, if_neg fun h => hne h.1, if_pos rfl]
    rw [unquoted_mark hmark, hu.skip, unquoted_inside, hclose, ih]
  | @unclosed mark u hmark hu => rw [unquoted_mark hmark, ← List.append_nil u, hu.skip]; rfl
  | @unescaped mark u hmark _ hu =>
    rw [unquoted_mark hmark, hu.skip, unquoted_inside]
    rfl

/-- A string is closed, or left open, perhaps behind a backslash. -/
theorem content_cases (mark : Char) : ∀ s : Text, (∃ u r, s = u ++ mark :: r ∧ Content mark u) ∨
    Content mark s ∨ mark ≠ '\x60' ∧ ∃ u, s = u ++ ['\\'] ∧ Content mark u
  | [] => Or.inr (Or.inl .nil)
  | c :: s => by
    by_cases hc : c = mark
    · exact Or.inl ⟨[], s, hc ▸ rfl, .nil⟩
    by_cases hescape : c = '\\' ∧ mark ≠ '\x60'
    · obtain ⟨rfl, hmark⟩ := hescape
      match s with
      | [] => exact Or.inr (Or.inr ⟨hmark, [], rfl, .nil⟩)
      | d :: s =>
        rcases content_cases mark s with ⟨u, r, rfl, hu⟩ | hs | ⟨-, u, rfl, hu⟩
        · exact Or.inl ⟨'\\' :: d :: u, r, rfl, .escaped hmark hu⟩
        · exact Or.inr (Or.inl (.escaped hmark hs))
        · exact Or.inr (Or.inr ⟨hmark, '\\' :: d :: u, rfl, .escaped hmark hu⟩)
    · have hplain : c = '\\' → mark = '\x60' := fun h => not_not.mp fun hm => hescape ⟨h, hm⟩
      rcases content_cases mark s with ⟨u, r, rfl, hu⟩ | hs | ⟨hmark, u, rfl, hu⟩
      · exact Or.inl ⟨c :: u, r, rfl, .plain hc hplain hu⟩
      · exact Or.inr (Or.inl (.plain hc hplain hs))
      · exact Or.inr (Or.inr ⟨hmark, c :: u, rfl, .plain hc hplain hu⟩)

theorem exists_unquotes (s : Text) : ∃ t, Unquotes s t := by
  -- a string is taken off as a whole, so the induction is on the length
  induction hn : s.length using Nat.strong_induction_on generalizing s with
  | _ n ih =>
    match s with
    | [] => exact ⟨[], .nil⟩
    | c :: s =>
      rw [List.length_cons] at hn
      cases hc : isQuoteMark c with
      | false =>
        obtain ⟨t, ht⟩ := ih s.length (by omega) s rfl
        exact ⟨c :: t, .plain hc ht⟩
      | true =>
        rcases content_cases c s with ⟨u, r, rfl, hu⟩ | hs | ⟨hne, u, rfl, hu⟩
        · rw [List.length_append, List.length_cons] at hn
          obtain ⟨t, ht⟩ := ih r.length (by omega) r rfl
          exact ⟨t, .string hc hu ht⟩
        · exact ⟨[], .unclosed hc hs⟩
        · exact ⟨[], .unescaped hc hne hu⟩

/-- The scanner leaves out the strings of a text and nothing else. -/
theorem unquotes_iff {s t : Text} : Unquotes s t ↔ t = unquoted outside s := by
  refine ⟨Unquotes.eq, ?_⟩
  rintro rfl
  obtain ⟨t, ht⟩ := exists_unquotes s
  rwa [← ht.eq]

end SqlDump.Quoting
