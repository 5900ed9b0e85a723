import SqlDump.Column.Parse
import SqlDump.Proofs.Blanks
import SqlDump.Proofs.Cuts

/-!
# Arguments of types

What stands between the parentheses behind a type, as rules beside the reader. Tidying arguments and
collapsing their blanks keeps them arguments, and arguments in front of a closing parenthesis are
read back whatever follows.
-/

namespace SqlDump.Column

/-- Arguments up to their closing parenthesis. `mark` is the quote that stands open. -/
inductive Enclosed : Option Char → Text → Prop
  | done : Enclosed none []
  | plain {c : Char} {s : Text} : c ≠ ')' → c ≠ '(' →
      Enclosed (if c = '\x27' || c = '\x22' then some c else none) s → Enclosed none (c :: s)
  | escaped {mark d : Char} {s : Text} : d ≠ '\n' → Enclosed (some mark) s →
      Enclosed (some mark) ('\\' :: d :: s)
  | quoted {mark c : Char} {s : Text} : c ≠ '\\' →
      Enclosed (if c = mark then none else some mark) s → Enclosed (some mark) (c :: s)

/-! ## 1. Reading arguments -/

theorem Enclosed.of_read {mark : Option Char} {s u r : Text}
    (h : argumentsRest? mark s = some (u, r)) : Enclosed mark u ∧ s = u ++ ')' :: r := by
  fun_induction argumentsRest? mark s generalizing u r with
  | case1 => cases h
  | case2 s =>
    cases h
    exact ⟨.done, rfl⟩
  | case3 => cases h
  | case4 c s hclose hopen ih =>
    obtain ⟨⟨v, t⟩, hv, e⟩ := Option.map_eq_some_iff.mp h
    cases e
    obtain ⟨hu, rfl⟩ := ih hv
    exact ⟨.plain hclose hopen hu, rfl⟩
  | case5 => cases h
  | case6 => cases h
  | case7 mark d s hd ih =>
    obtain ⟨⟨v, t⟩, hv, e⟩ := Option.map_eq_some_iff.mp h
    cases e
    obtain ⟨hu, rfl⟩ := ih hv
    exact ⟨.escaped hd hu, rfl⟩
  | case8 mark c d s hc ih =>
    obtain ⟨⟨v, t⟩, hv, e⟩ := Option.map_eq_some_iff.mp h
    cases e
    obtain ⟨hu, hs⟩ := ih hv
    exact ⟨.quoted hc hu, by rw [hs]; rfl⟩

theorem Enclosed.read {mark : Option Char} {u : Text} (h : Enclosed mark u) (r : Text) :
    argumentsRest? mark (u ++ ')' :: r) = some (u, r) := by
  induction h with
  | done => rfl
  | @plain c s hclose hopen _ ih =>
    rw [List.cons_append, argumentsRest?, if_neg hclose, if_neg hopen, ih]
    rfl
  | @escaped mark d s hd _ ih =>
    rw [List.cons_append, List.cons_append, argumentsRest?, if_pos rfl, if_neg hd, ih]
    rfl
  | @quoted mark c s hc _ ih =>
    have hne : s ++ ')' :: r ≠ [] := by simp
    obtain ⟨d, t, hs⟩ := List.exists_cons_of_ne_nil hne
    rw [List.cons_append, hs, argumentsRest?, if_neg hc, ← hs, ih]
    rfl

/-- Arguments are told from what follows their parenthesis. -/
theorem Enclosed.unique {a b r t : Text} (ha : Enclosed none a) (hb : Enclosed none b)
    (h : a ++ ')' :: r = b ++ ')' :: t) : a = b ∧ r = t := by
  have hread := ha.read r
  rw [h, hb.read t] at hread
  cases hread
  exact ⟨rfl, rfl⟩

/-! ## 2. Arguments with other blanks -/

-- A blank outside quotes opens none.
theorem mark_of_isBlank {c : Char} (hc : isBlank c = true) :
    (if c = '\x27' || c = '\x22' then some c else none) = none := by
  have h := ne_of_isBlank hc (show isBlank '\x27' = false by decide)
  have h' := ne_of_isBlank hc (show isBlank '\x22' = false by decide)
  simp [h, h']

/-- Quotes are opened by characters that are no blanks. -/
def SolidMark (mark : Option Char) : Prop := ∀ c, mark = some c → isBlank c = false

theorem solidMark_none : SolidMark none := fun _ h => by cases h

theorem solidMark_open (c : Char) :
    SolidMark (if c = '\x27' || c = '\x22' then some c else none) := by
  intro d hd
  split at hd
  · rename_i hc
    cases hd
    rcases Bool.or_eq_true_iff.mp hc with h | h
    · rw [of_decide_eq_true h]
      decide
    · rw [of_decide_eq_true h]
      decide
  · cases hd

theorem solidMark_close {mark c : Char} (h : SolidMark (some mark)) :
    SolidMark (if c = mark then none else some mark) := by
  split
  · exact solidMark_none
  · exact h

theorem Enclosed.collapseAfter {mark : Option Char} {u : Text} (h : Enclosed mark u)
    (solid : SolidMark mark) (after : Bool) : Enclosed mark (Text.collapseAfter after u) := by
  induction h generalizing after with
  | done => exact .done
  | @plain c s hclose hopen _ ih =>
    have hrest := ih (solidMark_open c)
    cases hc : isBlank c with
    | false =>
      rw [Text.collapseAfter_cons hc]
      exact .plain hclose hopen (hrest false)
    | true =>
      rw [mark_of_isBlank hc] at hrest
      cases after with
      | true =>
        rw [Text.collapseAfter_cons_blank hc]
        exact hrest true
      | false =>
        show Enclosed none (Text.collapse (c :: s))
        rw [Text.collapse_cons_blank hc]
        exact .plain (by decide) (by decide) (hrest true)
  | @escaped mark d s hd _ ih =>
    rw [Text.collapseAfter_cons (by decide)]
    cases hblank : isBlank d with
    | false =>
      rw [Text.collapse_cons hblank]
      exact .escaped hd (ih solid false)
    | true =>
      rw [Text.collapse_cons_blank hblank]
      exact .escaped (by decide) (ih solid true)
  | @quoted mark c s hc _ ih =>
    have hmark := solid mark rfl
    have hrest := ih (solidMark_close solid)
    cases hblank : isBlank c with
    | false =>
      rw [Text.collapseAfter_cons hblank]
      exact .quoted hc (hrest false)
    | true =>
      rw [if_neg (ne_of_isBlank hblank hmark)] at hrest
      cases after with
      | true =>
        rw [Text.collapseAfter_cons_blank hblank]
        exact hrest true
      | false =>
        show Enclosed (some mark) (Text.collapse (c :: s))
        rw [Text.collapse_cons_blank hblank]
        refine .quoted (by decide) ?_
        rw [if_neg (ne_of_isBlank (by decide) hmark)]
        exact hrest true

theorem Enclosed.trimLeft {u : Text} (h : Enclosed none u) : Enclosed none (Text.trimLeft u) := by
  induction u with
  | nil => exact h
  | cons c s ih =>
    cases hc : isBlank c with
    | false => rwa [Text.trimLeft, List.dropWhile_cons_of_neg (by simp [hc])]
    | true =>
      rw [Text.trimLeft, List.dropWhile_cons_of_pos hc]
      cases h with
      | plain _ _ h =>
        rw [mark_of_isBlank hc] at h
        exact ih h

theorem Enclosed.of_concat_blank {mark : Option Char} {u : Text} {c : Char} (hc : isBlank c = true)
    (solid : SolidMark mark) (h : Enclosed mark (u ++ [c])) : Enclosed mark u := by
  generalize hv : u ++ [c] = v at h
  induction h generalizing u with
  | done => simp at hv
  | @plain d s hclose hopen hrest ih =>
    cases u with
    | nil => exact .done
    | cons e u =>
      obtain ⟨rfl, rfl⟩ := List.cons.inj hv
      exact .plain hclose hopen (ih (solidMark_open e) rfl)
  | @escaped mark d s hd hrest ih =>
    match u with
    | [] =>
      obtain ⟨rfl, -⟩ := List.cons.inj hv
      exact absurd hc (by decide)
    | [e] =>
      obtain ⟨-, hv⟩ := List.cons.inj hv
      obtain ⟨rfl, rfl⟩ := List.cons.inj hv
      cases hrest
    | e :: f :: u =>
      obtain ⟨he, hv⟩ := List.cons.inj hv
      rw [he]
      obtain ⟨rfl, rfl⟩ := List.cons.inj hv
      exact .escaped hd (ih solid rfl)
  | @quoted mark d s hd hrest ih =>
    cases u with
    | nil =>
      obtain ⟨rfl, rfl⟩ := List.cons.inj hv
      rw [if_neg (ne_of_isBlank hc (solid mark rfl))] at hrest
      cases hrest
    | cons e u =>
      obtain ⟨rfl, rfl⟩ := List.cons.inj hv
      exact .quoted hd (ih (solidMark_close solid) rfl)

theorem Enclosed.trim {u : Text} (h : Enclosed none u) : Enclosed none (Text.trim u) := by
  have key : ∀ v : Text, Enclosed none v.reverse → Enclosed none (v.dropWhile isBlank).reverse := by
    intro v
    induction v with
    | nil => exact id
    | cons c v ih =>
      intro hv
      cases hc : isBlank c with
      | false => rwa [List.dropWhile_cons_of_neg (by simp [hc])]
      | true =>
        rw [List.dropWhile_cons_of_pos hc]
        rw [List.reverse_cons] at hv
        exact ih (hv.of_concat_blank hc solidMark_none)
  have hleft := h.trimLeft
  rw [← List.reverse_reverse (Text.trimLeft u)] at hleft
  exact key _ hleft

/-! ## 3. Tidy arguments -/

/-- Characters that mean nothing to the reader of arguments. -/
def isPlain (c : Char) : Bool := c ≠ '\x27' && c ≠ '\x22' && c ≠ '(' && c ≠ ')'

theorem Enclosed.of_plain {u : Text} (h : ∀ c ∈ u, isPlain c = true) : Enclosed none u := by
  induction u with
  | nil => exact .done
  | cons c u ih =>
    have hc := h c List.mem_cons_self
    simp only [isPlain, Bool.and_eq_true, decide_eq_true_eq] at hc
    refine .plain hc.2 hc.1.2 ?_
    rw [if_neg (by simp [hc.1.1.1, hc.1.1.2])]
    exact ih fun d hd => h d (List.mem_cons_of_mem _ hd)

theorem Enclosed.plain_of_unquoted {u : Text} (h : Enclosed none u) (hsingle : '\x27' ∉ u)
    (hdouble : '\x22' ∉ u) : ∀ c ∈ u, isPlain c = true := by
  induction u with
  | nil => exact fun c hc => absurd hc (List.not_mem_nil)
  | cons c u ih =>
    rw [List.mem_cons, not_or] at hsingle hdouble
    cases h with
    | plain hclose hopen h =>
      have hne : c ≠ '\x27' ∧ c ≠ '\x22' := ⟨Ne.symm hsingle.1, Ne.symm hdouble.1⟩
      rw [if_neg (by simp [hne])] at h
      intro d hd
      rcases List.mem_cons.mp hd with rfl | hd
      · simp [isPlain, hne, hclose, hopen]
      · exact ih h hsingle.2 hdouble.2 d hd

theorem Enclosed.tidy {u : Text} (h : Enclosed none u) : Enclosed none (tidyArguments u) := by
  unfold tidyArguments
  dsimp only
  split
  · exact h.trim
  · rename_i hquotes
    rw [not_or] at hquotes
    have hplain := h.trim.plain_of_unquoted hquotes.1 hquotes.2
    refine .of_plain fun c hc => ?_
    rcases Text.mem_join hc with hc | ⟨part, hpart, hc⟩
    · rw [show c = ',' by simpa using hc]
      decide
    · obtain ⟨piece, hpiece, rfl⟩ := List.mem_map.mp hpart
      exact hplain c (Text.mem_of_mem_cuts hpiece (Text.mem_of_mem_trim hc))

end SqlDump.Column
