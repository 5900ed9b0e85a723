import Mathlib.Data.List.TakeWhile
import SqlDump.Column.Parse
import SqlDump.Proofs.Blanks
import SqlDump.Proofs.Characters
import SqlDump.Proofs.Cuts
import SqlDump.Proofs.Outcome

/-!
# Tokens of definitions

A token starts and ends in no blank. A blank or a semicolon stands in a token only inside a string,
a group or a quoted name, so what is left of the token from there on closes one of them.
-/

open SqlDump.Outcome

namespace SqlDump.Token

/-- Text that closes a string, a group or a quoted name that it does not open. -/
def Closing (s : Text) : Prop :=
  '\x27' ∈ s ∨ '\x22' ∈ s ∨ s.count '(' < s.count ')' ∨ s.count '\x60' % 2 = 1

/-- Text that closes something wherever one starts to read in it. -/
def AllClosing (s : Text) : Prop := ∀ u v, s = u ++ v → v ≠ [] → Closing v

/-- A blank, or a semicolon. -/
def isStop (c : Char) : Bool := isBlank c || c = ';'

structure Delimited (t : Text) : Prop where
  starts : ∃ c s, t = c :: s ∧ isBlank c = false
  ends : Text.endsBlank false t = false
  closing : ∀ u c v, u ≠ [] → t = u ++ c :: v → isStop c = true → Closing (c :: v)

/-! ## 1. Texts that close something -/

theorem AllClosing.nil : AllClosing [] := by
  intro u v h hv
  exact absurd (List.append_eq_nil_iff.mp h.symm).2 hv

theorem AllClosing.cons {c : Char} {s : Text} (hs : AllClosing s) (h : Closing (c :: s)) :
    AllClosing (c :: s) := by
  intro u v huv hv
  cases u with
  | nil =>
    rw [List.nil_append] at huv
    exact huv ▸ h
  | cons d u => exact hs u v (List.cons.inj huv).2 hv

theorem Closing.of_mem {s : Text} (h : '\x27' ∈ s ∨ '\x22' ∈ s) : Closing s :=
  h.elim Or.inl fun h => Or.inr (Or.inl h)

theorem AllClosing.of_quote {w : Text} {mark : Char} (h : mark = '\x27' ∨ mark = '\x22') :
    AllClosing (w ++ [mark]) := by
  intro u v huv hv
  obtain ⟨v, d, rfl⟩ := List.eq_nil_or_concat v |>.resolve_left hv
  rw [List.concat_eq_append, ← List.append_assoc] at huv
  obtain ⟨-, hd⟩ := List.append_inj' huv rfl
  cases hd
  rw [List.concat_eq_append]
  exact .of_mem (h.imp (fun e => by simp [e]) fun e => by simp [e])

theorem AllClosing.of_backquote {w : Text} (h : '\x60' ∉ w) : AllClosing (w ++ ['\x60']) := by
  intro u v huv hv
  have hcount : v.count '\x60' + u.count '\x60' = 1 := by
    have := congrArg (List.count '\x60') huv
    rw [List.count_append, List.count_append, List.count_eq_zero.mpr h] at this
    simp at this
    omega
  obtain ⟨v, d, rfl⟩ := List.eq_nil_or_concat v |>.resolve_left hv
  rw [List.concat_eq_append, ← List.append_assoc] at huv
  obtain ⟨-, hd⟩ := List.append_inj' huv rfl
  cases hd
  rw [List.concat_eq_append] at hcount ⊢
  have hpos : 0 < (v ++ ['\x60']).count '\x60' := List.count_pos_iff.mpr (by simp)
  right; right; right
  omega

/-- A token is a character, then characters that stop nothing, then text that closes something. -/
theorem Delimited.of_parts {c : Char} {w g : Text} (hc : isBlank c = false)
    (hw : ∀ d ∈ w, isStop d = false) (hg : AllClosing g) (hends : Text.endsBlank false g = false) :
    Delimited (c :: w ++ g) where
  starts := ⟨c, w ++ g, rfl, hc⟩
  ends := by
    rw [Text.endsBlank_append]
    have hfront : Text.endsBlank false (c :: w) = false := by
      refine Text.endsBlank_of_solid fun d hd => ?_
      rcases List.mem_cons.mp hd with rfl | hd
      · exact hc
      · exact (Bool.or_eq_false_iff.mp (hw d hd)).1
    rw [hfront]
    exact hends
  closing := by
    intro u d v hu huv hd
    cases u with
    | nil => exact absurd rfl hu
    | cons a u =>
      rw [List.cons_append, List.cons_append] at huv
      obtain ⟨-, huv⟩ := List.cons.inj huv
      rcases List.append_eq_append_iff.mp huv with ⟨x, -, hx⟩ | ⟨x, hx, hx'⟩
      · exact hg x _ hx (List.cons_ne_nil d v)
      · cases x with
        | nil => exact hg [] _ hx'.symm (List.cons_ne_nil d v)
        | cons e x =>
          obtain ⟨rfl, -⟩ := List.cons.inj hx'
          have hmem : d ∈ w := by
            rw [hx]
            simp
          rw [hw d hmem] at hd
          cases hd

theorem Delimited.of_solid {c : Char} {w : Text} (hc : isBlank c = false)
    (hw : ∀ d ∈ w, isStop d = false) : Delimited (c :: w) := by
  have := Delimited.of_parts hc hw .nil rfl
  rwa [List.append_nil] at this

theorem Closing.collapseAfter {s : Text} (h : Closing s) (after : Bool) :
    Closing (Text.collapseAfter after s) := by
  have hcount : ∀ c, isBlank c = false → (Text.collapseAfter after s).count c = s.count c :=
    fun c hc => Text.count_collapseAfter hc after s
  have hmem : ∀ c, isBlank c = false → c ∈ s → c ∈ Text.collapseAfter after s := by
    intro c hc h
    rw [← List.count_pos_iff, hcount c hc]
    exact List.count_pos_iff.mpr h
  rcases h with h | h | h | h
  · exact Or.inl (hmem _ (by decide) h)
  · exact Or.inr (Or.inl (hmem _ (by decide) h))
  · right; right; left
    rw [hcount _ (by decide), hcount _ (by decide)]
    exact h
  · right; right; right
    rw [hcount _ (by decide)]
    exact h

theorem Delimited.collapse {t : Text} (h : Delimited t) : Delimited (Text.collapse t) where
  starts := by
    obtain ⟨c, s, rfl, hc⟩ := h.starts
    exact ⟨c, Text.collapse s, Text.collapse_cons hc s, hc⟩
  ends := (Text.endsBlank_collapseAfter false t).trans h.ends
  closing := by
    intro u c v hu hsplit hstop
    obtain ⟨s₁, s₂, rfl, rfl, hv⟩ := Text.exists_of_collapseAfter_eq_append hsplit
    cases s₂ with
    | nil => cases hv
    | cons d s₂ =>
      have hstop' : isStop d = true := by
        cases hd : isBlank d with
        | true => simp [isStop, hd]
        | false =>
          rw [Text.collapseAfter_cons hd] at hv
          exact (List.cons.inj hv).1 ▸ hstop
      have hs₁ : s₁ ≠ [] := by
        rintro rfl
        exact hu rfl
      rw [hv]
      exact (h.closing s₁ d s₂ hs₁ rfl hstop').collapseAfter _

/-! ## 2. Parts of tokens -/

theorem exists_concat_of_literal {mark : Char} {s u r : Text}
    (h : Literal.rest? mark s = some (u, r)) : ∃ w, u = w ++ [mark] := by
  fun_induction Literal.rest? mark s generalizing u r with
  | case1 => cases h
  | case2 =>
    cases h
    exact ⟨[], rfl⟩
  | case3 => cases h
  | case4 => cases h
  | case5 d s hd ih =>
    obtain ⟨⟨v, t⟩, hv, e⟩ := Option.map_eq_some_iff.mp h
    cases e
    obtain ⟨w, rfl⟩ := ih hv
    exact ⟨'\\' :: d :: w, rfl⟩
  | case6 s v t hv hmark ih =>
    cases h
    obtain ⟨w, rfl⟩ := ih hv
    exact ⟨mark :: mark :: w, rfl⟩
  | case7 =>
    cases h
    exact ⟨[], rfl⟩
  | case8 =>
    cases h
    exact ⟨[], rfl⟩
  | case9 c d s hc hmark ih =>
    obtain ⟨⟨v, t⟩, hv, e⟩ := Option.map_eq_some_iff.mp h
    cases e
    obtain ⟨w, rfl⟩ := ih hv
    exact ⟨c :: w, rfl⟩

/-- How many groups are open at a level. -/
def Level.depth : Level → Nat
  | .inner => 2
  | _ => 1

-- The rest of a group closes more groups than it opens, unless it closes a string.
def Level.Closed (level : Level) (u : Text) : Prop :=
  '\x27' ∈ u ∨ level ≠ .string ∧ u.count '(' + level.depth = u.count ')'

theorem Level.Closed.closing {level : Level} {u : Text} (h : level.Closed u) : Closing u := by
  rcases h with h | ⟨-, h⟩
  · exact Or.inl h
  · have hdepth : 0 < level.depth := by cases level <;> decide
    right; right; left
    omega

theorem Level.Closed.quote {u : Text} (h : Level.Closed .string u) : '\x27' ∈ u := by
  rcases h with h | ⟨hlevel, -⟩
  · exact h
  · exact absurd rfl hlevel

theorem Level.Closed.top {c : Char} {u : Text} (hclose : c ≠ ')')
    (h : Level.Closed
      (if c = '\x27' then .string else if c = '(' then .inner else .top) u) :
    Level.Closed .top (c :: u) := by
  by_cases hc : c = '\x27'
  · exact Or.inl (hc ▸ List.mem_cons_self)
  rw [if_neg hc] at h
  rcases h with hquote | ⟨-, hcount⟩
  · exact Or.inl (List.mem_cons_of_mem _ hquote)
  refine Or.inr ⟨by decide, ?_⟩
  rw [List.count_cons_of_ne hclose]
  by_cases hopen : c = '('
  · rw [if_pos hopen] at hcount
    rw [hopen, List.count_cons_self, ← hcount]
    rfl
  · rw [if_neg hopen] at hcount
    rw [List.count_cons_of_ne hopen, ← hcount]

theorem Level.Closed.inner {c : Char} {u : Text} (hopen : c ≠ '(')
    (h : Level.Closed (if c = ')' then .top else .inner) u) : Level.Closed .inner (c :: u) := by
  rcases h with hquote | ⟨-, hcount⟩
  · exact Or.inl (List.mem_cons_of_mem _ hquote)
  refine Or.inr ⟨by decide, ?_⟩
  rw [List.count_cons_of_ne hopen]
  by_cases hclose : c = ')'
  · rw [if_pos hclose] at hcount
    rw [hclose, List.count_cons_self, ← hcount]
    rfl
  · rw [if_neg hclose] at hcount
    rw [List.count_cons_of_ne hclose, ← hcount]

theorem closed_of_groupRest {level : Level} {s u r : Text}
    (h : groupRest? level s = some (u, r)) : level.Closed u := by
  fun_induction groupRest? level s generalizing u r with
  | case1 => cases h
  | case2 =>
    cases h
    exact Or.inr ⟨by decide, by decide⟩
  | case3 => cases h
  | case4 c s hclose hdouble next =>
    rename_i ih
    obtain ⟨⟨v, t⟩, hv, e⟩ := Option.map_eq_some_iff.mp h
    cases e
    exact (ih hv).top hclose
  | case5 => cases h
  | case6 c s hopen ih =>
    obtain ⟨⟨v, t⟩, hv, e⟩ := Option.map_eq_some_iff.mp h
    cases e
    exact (ih hv).inner hopen
  | case7 => cases h
  | case8 => cases h
  | case9 d s hd ih =>
    obtain ⟨⟨v, t⟩, hv, e⟩ := Option.map_eq_some_iff.mp h
    cases e
    exact Or.inl (List.mem_cons_of_mem _ (List.mem_cons_of_mem _ (ih hv).quote))
  | case10 c d s hc ih =>
    obtain ⟨⟨v, t⟩, hv, e⟩ := Option.map_eq_some_iff.mp h
    cases e
    by_cases hmark : c = '\x27'
    · exact Or.inl (hmark ▸ List.mem_cons_self)
    · have hstring := ih hv
      rw [if_neg hmark] at hstring
      exact Or.inl (List.mem_cons_of_mem _ hstring.quote)

theorem exists_concat_of_groupRest {level : Level} {s u r : Text}
    (h : groupRest? level s = some (u, r)) : ∃ w, u = w ++ [')'] := by
  fun_induction groupRest? level s generalizing u r with
  | case1 => cases h
  | case2 =>
    cases h
    exact ⟨[], rfl⟩
  | case3 => cases h
  | case4 c s hclose hdouble next =>
    rename_i ih
    obtain ⟨⟨v, t⟩, hv, e⟩ := Option.map_eq_some_iff.mp h
    cases e
    obtain ⟨w, rfl⟩ := ih hv
    exact ⟨c :: w, rfl⟩
  | case5 => cases h
  | case6 c s hopen ih =>
    obtain ⟨⟨v, t⟩, hv, e⟩ := Option.map_eq_some_iff.mp h
    cases e
    obtain ⟨w, rfl⟩ := ih hv
    exact ⟨c :: w, rfl⟩
  | case7 => cases h
  | case8 => cases h
  | case9 d s hd ih =>
    obtain ⟨⟨v, t⟩, hv, e⟩ := Option.map_eq_some_iff.mp h
    cases e
    obtain ⟨w, rfl⟩ := ih hv
    exact ⟨'\\' :: d :: w, rfl⟩
  | case10 c d s hc ih =>
    obtain ⟨⟨v, t⟩, hv, e⟩ := Option.map_eq_some_iff.mp h
    cases e
    obtain ⟨w, rfl⟩ := ih hv
    exact ⟨c :: w, rfl⟩

theorem allClosing_of_groupRest {level : Level} {s u r : Text}
    (h : groupRest? level s = some (u, r)) : AllClosing u := by
  have whole := (closed_of_groupRest h).closing
  fun_induction groupRest? level s generalizing u r with
  | case1 => cases h
  | case2 =>
    cases h
    exact AllClosing.nil.cons whole
  | case3 => cases h
  | case4 c s hclose hdouble next =>
    rename_i ih
    obtain ⟨⟨v, t⟩, hv, e⟩ := Option.map_eq_some_iff.mp h
    cases e
    exact (ih hv (closed_of_groupRest hv).closing).cons whole
  | case5 => cases h
  | case6 c s hopen ih =>
    obtain ⟨⟨v, t⟩, hv, e⟩ := Option.map_eq_some_iff.mp h
    cases e
    exact (ih hv (closed_of_groupRest hv).closing).cons whole
  | case7 => cases h
  | case8 => cases h
  | case9 d s hd ih =>
    obtain ⟨⟨v, t⟩, hv, e⟩ := Option.map_eq_some_iff.mp h
    cases e
    -- the escaped character stands in front of what the string still holds
    have hinner := closed_of_groupRest hv
    exact ((ih hv hinner.closing).cons (Or.inl (List.mem_cons_of_mem _ hinner.quote))).cons whole
  | case10 c d s hc ih =>
    obtain ⟨⟨v, t⟩, hv, e⟩ := Option.map_eq_some_iff.mp h
    cases e
    exact (ih hv (closed_of_groupRest hv).closing).cons whole

/-! ## 3. Tokens -/

theorem not_isStop_of_isNameChar {c : Char} (h : isNameChar c = true) : isStop c = false := by
  have hne : c ≠ ';' := by
    rintro rfl
    exact absurd h (by decide)
  simp [isStop, not_isBlank_of_isNameChar h, hne]

theorem not_isStop_of_isDigit {c : Char} (h : isDigit c = true) : isStop c = false := by
  have hne : c ≠ ';' := by
    rintro rfl
    exact absurd h (by decide)
  simp [isStop, not_isBlank_of_isDigit h, hne]

theorem exists_of_literal {mark : Char} {s u r : Text}
    (h : Literal.read? mark s = some (u, r)) : ∃ w, u = mark :: (w ++ [mark]) := by
  cases s with
  | nil => cases h
  | cons c s =>
    rw [Literal.read?] at h
    split at h
    · rename_i hc
      obtain ⟨⟨v, t⟩, hv, e⟩ := Option.map_eq_some_iff.mp h
      cases e
      obtain ⟨w, rfl⟩ := exists_concat_of_literal hv
      exact ⟨w, by rw [hc]⟩
    · cases h

-- A text that ends in a quote mark is delimited, whatever comes before the mark.
theorem Delimited.of_mark {c mark : Char} {w : Text} (hc : isBlank c = false)
    (hmark : mark = '\x27' ∨ mark = '\x22') : Delimited (c :: (w ++ [mark])) := by
  have hends : Text.endsBlank false (w ++ [mark]) = false := by
    rw [Text.endsBlank_concat]
    rcases hmark with rfl | rfl <;> decide
  exact .of_parts (w := []) hc (fun _ h => by cases h) (.of_quote hmark) hends

theorem delimited_of_literal {mark : Char} (hmark : mark = '\x27' ∨ mark = '\x22') {s u r : Text}
    (h : Literal.read? mark s = some (u, r)) : Delimited u := by
  obtain ⟨w, rfl⟩ := exists_of_literal h
  exact .of_mark (by rcases hmark with rfl | rfl <;> decide) hmark

theorem delimited_of_string {s u r : Text} (h : string? s = some (u, r)) : Delimited u := by
  unfold string? at h
  rcases orElse_eq_some.mp h with h | ⟨-, h⟩
  · split at h
    · cases h
    · rename_i c t _
      split at h
      · rename_i hc
        obtain ⟨⟨v, t⟩, hv, e⟩ := Option.map_eq_some_iff.mp h
        cases e
        obtain ⟨w, rfl⟩ := exists_of_literal hv
        have hsolid : isBlank c = false := by
          have hall : ("bBxXnN".toList.all (!isBlank ·)) = true := by decide
          have hmem : c ∈ "bBxXnN".toList := List.contains_iff_mem.mp hc
          simpa using List.all_eq_true.mp hall c hmem
        exact .of_mark (w := '\x27' :: w) hsolid (Or.inl rfl)
      · split at h
        · rename_i hc
          obtain ⟨⟨w, t⟩, -, h⟩ := Option.bind_eq_some_iff.mp h
          obtain ⟨⟨v, t⟩, hv, h⟩ := Option.bind_eq_some_iff.mp h
          cases h
          obtain ⟨x, rfl⟩ := exists_of_literal hv
          have := Delimited.of_mark (c := c) (w := w ++ '\x27' :: x) (by rw [hc]; decide) (Or.inl rfl)
          simpa using this
        · cases h
  · rcases orElse_eq_some.mp h with h | ⟨-, h⟩
    · exact delimited_of_literal (Or.inl rfl) h
    · exact delimited_of_literal (Or.inr rfl) h

theorem delimited_of_backquoted {s u r : Text} (h : backquoted? s = some (u, r)) :
    Delimited u := by
  unfold backquoted? at h
  split at h
  · rename_i s
    split at h
    · rename_i c t hrest
      cases h
      have hc : c = '\x60' := by simpa using Text.not_of_dropWhile hrest
      subst hc
      have hname : '\x60' ∉ s.takeWhile (· ≠ '\x60') := by
        intro hmem
        have := List.mem_takeWhile_imp hmem
        simp at this
      have hends : Text.endsBlank false (s.takeWhile (· ≠ '\x60') ++ ['\x60']) = false := by
        rw [Text.endsBlank_concat]
        decide
      exact .of_parts (w := []) (by decide) (fun _ h => by cases h) (.of_backquote hname) hends
    · cases h
  · cases h

theorem delimited_of_group {s u r : Text} (h : group? s = some (u, r)) :
    ∃ g, u = '(' :: g ∧ AllClosing g ∧ Text.endsBlank false g = false := by
  unfold group? at h
  split at h
  · obtain ⟨⟨v, t⟩, hv, e⟩ := Option.map_eq_some_iff.mp h
    cases e
    refine ⟨v, rfl, allClosing_of_groupRest hv, ?_⟩
    obtain ⟨w, rfl⟩ := exists_concat_of_groupRest hv
    rw [Text.endsBlank_concat]
    decide
  · cases h

theorem delimited_of_word {s u r : Text} (h : word? s = some (u, r)) : Delimited u := by
  unfold word? at h
  split at h
  · cases h
  · rename_i c s
    split at h
    · rename_i hc
      have hsolid : isBlank c = false := by
        refine not_isBlank_of_isNameChar ?_
        rcases Bool.or_eq_true_iff.mp hc with hc | hc
        · rcases Bool.or_eq_true_iff.mp hc with hc | hc
          · simp [isNameChar, isWord, Char.isAlphanum, hc]
          · rw [of_decide_eq_true hc]
            decide
        · rw [of_decide_eq_true hc]
          decide
      have hrest : ∀ d ∈ s.takeWhile isNameChar, isStop d = false := fun d hd =>
        not_isStop_of_isNameChar (List.mem_takeWhile_imp hd)
      dsimp only at h
      split at h
      · rename_i g t hg
        cases h
        obtain ⟨g, rfl, hclosing, hends⟩ := delimited_of_group hg
        have := Delimited.of_parts (w := s.takeWhile isNameChar ++ ['(']) hsolid (by
          intro d hd
          rcases List.mem_append.mp hd with hd | hd
          · exact hrest d hd
          · rw [List.mem_singleton.mp hd]
            decide) hclosing hends
        simpa using this
      · cases h
        exact .of_solid hsolid hrest
    · cases h

/-- Whether a number may hold a character. -/
def isNumeric (c : Char) : Bool := isDigit c || "-.eE+".toList.contains c

-- What neither digits nor signs are, no character of a number is.
theorem not_of_isNumeric {p : Char → Bool} (hdigit : ∀ c, isDigit c = true → p c = false)
    (hsigns : ("-.eE+".toList.all (!p ·)) = true) {c : Char} (h : isNumeric c = true) :
    p c = false := by
  rcases Bool.or_eq_true_iff.mp h with h | h
  · exact hdigit c h
  · simpa using List.all_eq_true.mp hsigns c (List.contains_iff_mem.mp h)

theorem isNumeric_of_point {s v t : Text} (h : point? s = some (v, t)) :
    ∀ c ∈ v, isNumeric c = true := by
  intro c hc
  unfold point? at h
  split at h
  · cases h
    rw [List.mem_singleton.mp hc]
    decide
  · cases h

theorem isNumeric_of_exponent {s v t : Text} (h : exponent? s = some (v, t)) :
    ∀ c ∈ v, isNumeric c = true := by
  intro c hc
  unfold exponent? at h
  split at h
  · rename_i a b s
    split at h
    · rename_i ha
      have hletter : isNumeric a = true := by
        rcases Bool.or_eq_true_iff.mp ha with h | h <;> rw [of_decide_eq_true h] <;> decide
      split at h
      · rename_i hb
        have hsign : isNumeric b = true := by
          rcases Bool.or_eq_true_iff.mp hb with h | h <;> rw [of_decide_eq_true h] <;> decide
        cases h
        rcases List.mem_cons.mp hc with rfl | hc
        · exact hletter
        · rw [List.mem_singleton.mp hc]
          exact hsign
      · cases h
        rw [List.mem_singleton.mp hc]
        exact hletter
    · cases h
  · cases h

theorem isNumeric_of_digits {s v t : Text} (h : Text.run? isDigit s = some (v, t)) :
    ∀ c ∈ v, isNumeric c = true :=
  fun c hc => Bool.or_eq_true_iff.mpr (Or.inl ((Text.mem_run h).2 c hc))

theorem isNumeric_of_digitsAfter {lead : Text → Option (Text × Text)}
    (hlead : ∀ s v t, lead s = some (v, t) → ∀ c ∈ v, isNumeric c = true) (s : Text) :
    ∀ c ∈ (digitsAfter lead s).1, isNumeric c = true := by
  intro c hc
  unfold digitsAfter at hc
  split at hc
  · rename_i found hfound
    obtain ⟨⟨v, t⟩, hv, hfound⟩ := Option.bind_eq_some_iff.mp hfound
    obtain ⟨⟨w, t⟩, hw, hfound⟩ := Option.bind_eq_some_iff.mp hfound
    cases hfound
    rcases List.mem_append.mp hc with hc | hc
    · exact hlead _ _ _ hv c hc
    · exact isNumeric_of_digits hw c hc
  · cases hc

theorem isNumeric_of_number {s u r : Text} (h : number? s = some (u, r)) :
    u ≠ [] ∧ ∀ c ∈ u, isNumeric c = true := by
  unfold number? at h
  obtain ⟨⟨whole, t⟩, hwhole, h⟩ := Option.bind_eq_some_iff.mp h
  have hu : List.take 1 (s.takeWhile (· = '-')) ++ whole ++ (digitsAfter point? t).1 ++
      (digitsAfter exponent? (digitsAfter point? t).2).1 = u :=
    congrArg Prod.fst (Option.some.inj h)
  have hne := (Text.mem_run hwhole).1
  refine ⟨by rw [← hu]; simp [hne], fun c hc => ?_⟩
  rw [← hu] at hc
  simp only [List.mem_append] at hc
  -- the sign, the digits, the fraction and the exponent
  rcases hc with ((hc | hc) | hc) | hc
  · have := List.mem_takeWhile_imp (List.mem_of_mem_take hc)
    rw [of_decide_eq_true this]
    decide
  · exact isNumeric_of_digits hwhole c hc
  · exact isNumeric_of_digitsAfter (fun _ _ _ => isNumeric_of_point) _ c hc
  · exact isNumeric_of_digitsAfter (fun _ _ _ => isNumeric_of_exponent) _ c hc

theorem delimited_of_number {s u r : Text} (h : number? s = some (u, r)) : Delimited u := by
  obtain ⟨hne, hnumeric⟩ := isNumeric_of_number h
  have hall : ∀ c ∈ u, isStop c = false := fun c hc =>
    not_of_isNumeric (fun _ => not_isStop_of_isDigit) (by decide) (hnumeric c hc)
  obtain ⟨c, w, rfl⟩ := List.exists_cons_of_ne_nil hne
  exact .of_solid (Bool.or_eq_false_iff.mp (hall c List.mem_cons_self)).1
    fun d hd => hall d (List.mem_cons_of_mem _ hd)

theorem Delimited.of_read {s u r : Text} (hs : ∀ c t, s = c :: t → isBlank c = false)
    (h : read? s = some (u, r)) : Delimited u := by
  unfold read? at h
  rcases orElse_eq_some.mp h with h | ⟨-, h⟩
  · exact delimited_of_string h
  rcases orElse_eq_some.mp h with h | ⟨-, h⟩
  · exact delimited_of_backquoted h
  rcases orElse_eq_some.mp h with h | ⟨-, h⟩
  · exact delimited_of_number h
  rcases orElse_eq_some.mp h with h | ⟨-, h⟩
  · exact delimited_of_word h
  rcases orElse_eq_some.mp h with h | ⟨-, h⟩
  · obtain ⟨g, rfl, hclosing, hends⟩ := delimited_of_group h
    exact .of_parts (w := []) (by decide) (fun _ h => by cases h) hclosing hends
  split at h
  · cases h
  · cases h
    exact .of_solid (hs _ _ rfl) fun _ h => by cases h

theorem delimited_of_mem_all {s t : Text} (h : t ∈ all s) : Delimited t := by
  have key : ∀ n s, t ∈ readMany n s → Delimited t := by
    intro n
    induction n with
    | zero =>
      intro s h
      cases h
    | succ n ih =>
      intro s h
      rw [readMany] at h
      split at h
      · rename_i u r hread
        rcases List.mem_cons.mp h with rfl | h
        · refine Delimited.of_read ?_ hread
          intro c rest hrest
          exact Text.not_of_dropWhile hrest
        · exact ih r h
      · cases h
  exact key _ s h

end SqlDump.Token
