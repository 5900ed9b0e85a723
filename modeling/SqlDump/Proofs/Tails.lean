import SqlDump.Column.Parse
import SqlDump.Proofs.Tokens
import SqlDump.Proofs.Trimming

/-!
# What can follow a definition

A comma and text that closes nothing can follow a definition without becoming part of it: every
token is read as before, and the qualifiers end at the comma.
-/

namespace SqlDump

/-- A comma, and behind it nothing that closes a string, a name or a group. -/
structure Tail (x : Text) : Prop where
  comma : ∃ y, x = ',' :: y
  closesNone : ∀ c ∈ x, isQuoteMark c = false ∧ c ≠ ')'

theorem Tail.not_mem {x : Text} (hx : Tail x) {c : Char} (hc : isQuoteMark c = true ∨ c = ')') :
    c ∉ x := by
  intro hmem
  obtain ⟨hquote, hclose⟩ := hx.closesNone c hmem
  rcases hc with hc | hc
  · rw [hquote] at hc
    cases hc
  · exact hclose hc

/-- Whether no token but a string, a name or a group goes on with a character. -/
def isBreaking (c : Char) : Bool := isBlank c || c = ',' || c = ')'

/-- Whether a text is empty or starts with a blank, a comma or a closing parenthesis. -/
def Breaks (x : Text) : Prop := ∀ c r, x = c :: r → isBreaking c = true

theorem breaks_cons {c : Char} (h : isBreaking c = true) (r : Text) : Breaks (c :: r) := by
  rintro d t ⟨⟩
  exact h

theorem Tail.breaks {x : Text} (hx : Tail x) : Breaks x := by
  obtain ⟨y, rfl⟩ := hx.comma
  exact breaks_cons (by decide) y

theorem Breaks.ne {x r : Text} {c d : Char} (hx : Breaks x) (h : x = c :: r)
    (hd : isBreaking d = false) : c ≠ d := by
  rintro rfl
  rw [hx c r h] at hd
  cases hd

/-- Whether no breaking character is of a kind. -/
def StopsAtBreaks (p : Char → Bool) : Prop := ∀ c, isBreaking c = true → p c = false

theorem stopsAtBreaks_of_solid {p : Char → Bool} (hcomma : p ',' = false) (hclose : p ')' = false)
    (h : ∀ c, p c = true → isBlank c = false) : StopsAtBreaks p := by
  intro c hc
  rw [isBreaking, Bool.or_eq_true, Bool.or_eq_true, decide_eq_true_eq, decide_eq_true_eq] at hc
  rcases hc with (hc | rfl) | rfl
  · by_contra hp
    rw [Bool.not_eq_false] at hp
    rw [h c hp] at hc
    cases hc
  · exact hcomma
  · exact hclose

theorem stopsAtBreaks_isDigit : StopsAtBreaks isDigit :=
  stopsAtBreaks_of_solid (by decide) (by decide) fun _ => not_isBlank_of_isDigit

theorem stopsAtBreaks_isWord : StopsAtBreaks isWord :=
  stopsAtBreaks_of_solid (by decide) (by decide) fun _ => not_isBlank_of_isWord

theorem stopsAtBreaks_isNameChar : StopsAtBreaks isNameChar :=
  stopsAtBreaks_of_solid (by decide) (by decide) fun _ => not_isBlank_of_isNameChar

theorem stopsAtBreaks_eq {d : Char} (hd : isBreaking d = false) : StopsAtBreaks (· = d) := by
  intro c hc
  refine decide_eq_false fun e => ?_
  rw [e, hd] at hc
  cases hc

/-- A reader that takes off a front of the text, the same one if the text goes on with `x`. -/
structure Steady (x : Text) (read : Text → Option (Text × Text)) : Prop where
  splits : ∀ s u r, read s = some (u, r) → s = u ++ r
  append : ∀ s, s ≠ [] → read (s ++ x) = (read s).map fun p => (p.1, p.2 ++ x)

theorem Steady.orElse {x : Text} {f g : Text → Option (Text × Text)} (hf : Steady x f)
    (hg : Steady x g) : Steady x fun s => f s <|> g s where
  splits := fun s u r h => by
    rcases Outcome.orElse_eq_some.mp h with h | ⟨-, h⟩
    · exact hf.splits s u r h
    · exact hg.splits s u r h
  append := fun s hs => by
    rw [hf.append s hs, hg.append s hs]
    cases f s <;> rfl

/-! ## 1. Literals and groups -/

namespace Literal

theorem rest?_eq_none {mark : Char} {s : Text} (h : mark ∉ s) : rest? mark s = none := by
  fun_induction rest? mark s with
  | case1 => rfl
  | case2 => exact absurd List.mem_cons_self h
  | case3 => rfl
  | case4 => rfl
  | case5 d s _ ih =>
    rw [ih fun hmem => h (List.mem_cons_of_mem _ (List.mem_cons_of_mem _ hmem))]
    rfl
  | case6 => exact absurd List.mem_cons_self h
  | case7 => exact absurd List.mem_cons_self h
  | case8 => exact absurd List.mem_cons_self h
  | case9 c d s _ _ ih =>
    rw [ih fun hmem => h (List.mem_cons_of_mem _ hmem)]
    rfl

theorem rest?_splits {mark : Char} {s u r : Text} (h : rest? mark s = some (u, r)) : s = u ++ r := by
  fun_induction rest? mark s generalizing u r with
  | case1 => cases h
  | case2 =>
    cases h
    rfl
  | case3 => cases h
  | case4 => cases h
  | case5 d s _ ih =>
    obtain ⟨⟨v, t⟩, hv, e⟩ := Option.map_eq_some_iff.mp h
    cases e
    exact congrArg (fun s => '\\' :: d :: s) (ih hv)
  | case6 s u' r' hread _ ih =>
    cases h
    exact congrArg (fun s => mark :: mark :: s) (ih hread)
  | case7 =>
    cases h
    rfl
  | case8 =>
    cases h
    rfl
  | case9 c d s _ _ ih =>
    obtain ⟨⟨v, t⟩, hv, e⟩ := Option.map_eq_some_iff.mp h
    cases e
    exact congrArg (c :: ·) (ih hv)

theorem rest?_append {mark : Char} (hmark : mark ≠ '\\') {x : Text} (hx : mark ∉ x) (s : Text) :
    rest? mark (s ++ x) = (rest? mark s).map fun p => (p.1, p.2 ++ x) := by
  fun_induction rest? mark s with
  | case1 => exact rest?_eq_none hx
  | case2 =>
    cases x with
    | nil => simp [rest?]
    | cons d x =>
      have hd : d ≠ mark := fun e => hx (e ▸ List.mem_cons_self)
      simp [rest?, hmark, hd]
  | case3 c hc =>
    refine rest?_eq_none fun hmem => ?_
    rcases List.mem_cons.mp hmem with e | hmem
    · exact hc e.symm
    · exact hx hmem
  | case4 => rfl
  | case5 d s hd ih =>
    show rest? mark ('\\' :: d :: (s ++ x)) = _
    rw [rest?, if_pos rfl, if_neg hd, ih]
    cases rest? mark s <;> rfl
  | case6 s u r hread _ ih =>
    show rest? mark (mark :: mark :: (s ++ x)) = _
    rw [rest?, if_neg hmark, if_pos rfl, if_pos rfl, ih, hread]
    rfl
  | case7 s hread _ ih =>
    show rest? mark (mark :: mark :: (s ++ x)) = _
    rw [rest?, if_neg hmark, if_pos rfl, if_pos rfl, ih, hread]
    rfl
  | case8 d s hd =>
    show rest? mark (mark :: d :: (s ++ x)) = _
    rw [rest?, if_neg hmark, if_pos rfl, if_neg hd]
    rfl
  | case9 c d s hescape hc ih =>
    show rest? mark (c :: d :: (s ++ x)) = _
    rw [rest?, if_neg hescape, if_neg hc]
    rw [List.cons_append] at ih
    rw [ih]
    cases rest? mark (d :: s) <;> rfl

theorem read?_splits {mark : Char} {s u r : Text} (h : read? mark s = some (u, r)) :
    s = u ++ r := by
  cases s with
  | nil => cases h
  | cons c s =>
    rw [read?] at h
    split at h
    · obtain ⟨⟨v, t⟩, hv, e⟩ := Option.map_eq_some_iff.mp h
      cases e
      exact congrArg (c :: ·) (rest?_splits hv)
    · cases h

theorem steady {x : Text} (hx : Tail x) {mark : Char} (hmark : isQuoteMark mark = true) :
    Steady x (read? mark) where
  splits := fun _ _ _ => read?_splits
  append := by
    intro s hs
    have hescape : mark ≠ '\\' := by
      rintro rfl
      exact absurd hmark (by decide)
    cases s with
    | nil => exact absurd rfl hs
    | cons c s =>
      rw [List.cons_append, read?, read?]
      split
      · rw [rest?_append hescape (hx.not_mem (Or.inl hmark))]
        cases rest? mark s <;> rfl
      · rfl

-- No literal starts with a comma.
theorem read?_tail {x : Text} (hx : Tail x) {mark : Char} (hmark : isQuoteMark mark = true) :
    read? mark x = none := by
  obtain ⟨y, rfl⟩ := hx.comma
  have hne : ¬ ',' = mark := by
    rintro rfl
    exact absurd hmark (by decide)
  rw [read?, if_neg hne]

end Literal

namespace Token

theorem groupRest?_eq_none {level : Level} {s : Text} (h : ')' ∉ s) : groupRest? level s = none := by
  fun_induction groupRest? level s with
  | case1 => rfl
  | case2 => exact absurd List.mem_cons_self h
  | case3 => rfl
  | case4 c s _ _ _ ih =>
    rw [ih fun hmem => h (List.mem_cons_of_mem _ hmem)]
    rfl
  | case5 => rfl
  | case6 c s _ ih =>
    rw [ih fun hmem => h (List.mem_cons_of_mem _ hmem)]
    rfl
  | case7 => rfl
  | case8 => rfl
  | case9 d s _ ih =>
    rw [ih fun hmem => h (List.mem_cons_of_mem _ (List.mem_cons_of_mem _ hmem))]
    rfl
  | case10 c d s _ ih =>
    rw [ih fun hmem => h (List.mem_cons_of_mem _ hmem)]
    rfl

theorem groupRest?_splits {level : Level} {s u r : Text} (h : groupRest? level s = some (u, r)) :
    s = u ++ r := by
  fun_induction groupRest? level s generalizing u r with
  | case1 => cases h
  | case2 =>
    cases h
    rfl
  | case3 => cases h
  | case4 c s =>
    rename_i ih
    obtain ⟨⟨v, t⟩, hv, e⟩ := Option.map_eq_some_iff.mp h
    cases e
    exact congrArg (c :: ·) (ih hv)
  | case5 => cases h
  | case6 c s _ ih =>
    obtain ⟨⟨v, t⟩, hv, e⟩ := Option.map_eq_some_iff.mp h
    cases e
    exact congrArg (c :: ·) (ih hv)
  | case7 => cases h
  | case8 => cases h
  | case9 d s _ ih =>
    obtain ⟨⟨v, t⟩, hv, e⟩ := Option.map_eq_some_iff.mp h
    cases e
    exact congrArg (fun s => '\\' :: d :: s) (ih hv)
  | case10 c d s _ ih =>
    obtain ⟨⟨v, t⟩, hv, e⟩ := Option.map_eq_some_iff.mp h
    cases e
    exact congrArg (c :: ·) (ih hv)

theorem groupRest?_append {x : Text} (hx : ')' ∉ x) (level : Level) (s : Text) :
    groupRest? level (s ++ x) = (groupRest? level s).map fun p => (p.1, p.2 ++ x) := by
  fun_induction groupRest? level s with
  | case1 => exact groupRest?_eq_none hx
  | case2 => rfl
  | case3 => rfl
  | case4 c s hclose hquote next ih =>
    rw [List.cons_append, groupRest?, if_neg hclose, if_neg hquote]
    show (groupRest? next (s ++ x)).map _ = _
    rw [ih]
    cases groupRest? next s <;> rfl
  | case5 => rfl
  | case6 c s hopen ih =>
    rw [List.cons_append, groupRest?, if_neg hopen, ih]
    cases groupRest? (if c = ')' then Level.top else Level.inner) s <;> rfl
  | case7 c =>
    -- only `x` could close the group
    cases x with
    | nil => rfl
    | cons d x =>
      have hnone : ∀ level, groupRest? level (d :: x) = none := fun _ => groupRest?_eq_none hx
      have hnone' : groupRest? .string x = none :=
        groupRest?_eq_none fun hmem => hx (List.mem_cons_of_mem _ hmem)
      show groupRest? .string (c :: d :: x) = none
      rw [groupRest?, hnone, hnone']
      split
      · split <;> rfl
      · rfl
  | case8 => rfl
  | case9 d s hd ih =>
    show groupRest? .string ('\\' :: d :: (s ++ x)) = _
    rw [groupRest?, if_pos rfl, if_neg hd, ih]
    cases groupRest? .string s <;> rfl
  | case10 c d s hc ih =>
    show groupRest? .string (c :: d :: (s ++ x)) = _
    rw [groupRest?, if_neg hc]
    rw [List.cons_append] at ih
    rw [ih]
    cases groupRest? (if c = '\x27' then Level.top else Level.string) (d :: s) <;> rfl

theorem group?_steady {x : Text} (hx : Tail x) : Steady x group? where
  splits := by
    intro s u r h
    unfold group? at h
    split at h
    · obtain ⟨⟨v, t⟩, hv, e⟩ := Option.map_eq_some_iff.mp h
      cases e
      exact congrArg ('(' :: ·) (groupRest?_splits hv)
    · cases h
  append := by
    intro s hs
    cases s with
    | nil => exact absurd rfl hs
    | cons c s =>
      by_cases hc : c = '('
      · subst hc
        show (groupRest? .top (s ++ x)).map _ = ((groupRest? .top s).map _).map _
        rw [groupRest?_append (hx.not_mem (Or.inr rfl))]
        cases groupRest? .top s <;> rfl
      · have hnone : ∀ t, group? (c :: t) = none := by
          intro t
          unfold group?
          split
          · rename_i heq
            exact absurd (List.cons.inj heq).1 hc
          · rfl
        rw [List.cons_append, hnone, hnone]
        rfl

/-! ## 2. Tokens -/

theorem takeWhile_append {x : Text} (hx : Breaks x) {p : Char → Bool} (hp : StopsAtBreaks p)
    (s : Text) :
    (s ++ x).takeWhile p = s.takeWhile p ∧ (s ++ x).dropWhile p = s.dropWhile p ++ x :=
  have hstop := fun c r e => hp c (hx c r e)
  ⟨Text.takeWhile_append_stop hstop s, Text.dropWhile_append_stop hstop s⟩

theorem run?_append {x : Text} (hx : Breaks x) {p : Char → Bool} (hp : StopsAtBreaks p) (s : Text) :
    Text.run? p (s ++ x) = (Text.run? p s).map fun r => (r.1, r.2 ++ x) :=
  Text.run?_append (fun c r e => hp c (hx c r e)) s

theorem span_append {p : Char → Bool} {s r : Text} {c : Char} (h : s.dropWhile p = c :: r) (x : Text) :
    (s ++ x).takeWhile p = s.takeWhile p ∧ (s ++ x).dropWhile p = c :: (r ++ x) := by
  induction s with
  | nil => cases h
  | cons d s ih =>
    by_cases hd : p d = true
    · rw [List.dropWhile_cons_of_pos hd] at h
      rw [List.cons_append, List.takeWhile_cons_of_pos hd, List.takeWhile_cons_of_pos hd,
        List.dropWhile_cons_of_pos hd, (ih h).1, (ih h).2]
      exact ⟨rfl, rfl⟩
    · rw [List.dropWhile_cons_of_neg hd] at h
      rw [List.cons_append, List.takeWhile_cons_of_neg hd, List.takeWhile_cons_of_neg hd,
        List.dropWhile_cons_of_neg hd, ← List.cons_append, h]
      exact ⟨rfl, rfl⟩

theorem backquoted?_of_ne {c : Char} (hc : c ≠ '\x60') (s : Text) : backquoted? (c :: s) = none := by
  unfold backquoted?
  split
  · rename_i heq
    exact absurd (List.cons.inj heq).1 hc
  · rfl

theorem backquoted?_splits {s u r : Text} (h : backquoted? s = some (u, r)) : s = u ++ r := by
  unfold backquoted? at h
  split at h
  · rename_i s
    split at h
    · rename_i c t ht
      cases h
      have hsplit : s.takeWhile (· ≠ '\x60') ++ c :: r = s := by
        rw [← ht]
        exact List.takeWhile_append_dropWhile
      show '\x60' :: s = '\x60' :: (s.takeWhile (· ≠ '\x60') ++ [c]) ++ r
      rw [List.cons_append, List.append_assoc, List.singleton_append, hsplit]
    · cases h
  · cases h

theorem backquoted?_append {x : Text} (hx : Tail x) (s : Text) :
    backquoted? ('\x60' :: (s ++ x)) = (backquoted? ('\x60' :: s)).map fun p => (p.1, p.2 ++ x) := by
  rw [backquoted?.eq_1, backquoted?.eq_1]
  cases hrest : s.dropWhile (· ≠ '\x60') with
  | nil =>
    -- `x` does not close the name either
    have hall : ∀ c ∈ s ++ x, decide (c ≠ '\x60') = true := by
      intro c hmem
      rcases List.mem_append.mp hmem with hmem | hmem
      · exact List.dropWhile_eq_nil_iff.mp hrest c hmem
      · have hne : c ≠ '\x60' := by
          rintro rfl
          exact hx.not_mem (Or.inl (by decide)) hmem
        exact decide_eq_true hne
    rw [List.dropWhile_eq_nil_iff.mpr hall]
    rfl
  | cons d r =>
    obtain ⟨htake, hdrop⟩ := span_append hrest x
    rw [htake, hdrop]
    rfl

theorem backquoted?_steady {x : Text} (hx : Tail x) : Steady x backquoted? where
  splits := fun _ _ _ => backquoted?_splits
  append := by
    intro s hs
    cases s with
    | nil => exact absurd rfl hs
    | cons c s =>
      by_cases hc : c = '\x60'
      · rw [hc]
        exact backquoted?_append hx s
      · rw [List.cons_append, backquoted?_of_ne hc, backquoted?_of_ne hc]
        rfl

theorem string?_steady {x : Text} (hx : Tail x) : Steady x string? := by
  have hsingle := @Literal.steady x hx '\x27' (by decide)
  have hdouble := @Literal.steady x hx '\x22' (by decide)
  have hread : ∀ s, Literal.read? '\x27' (s ++ x) =
      (Literal.read? '\x27' s).map fun p => (p.1, p.2 ++ x) := by
    intro s
    cases s with
    | nil => exact Literal.read?_tail hx (by decide)
    | cons c s => exact hsingle.append _ (List.cons_ne_nil c s)
  refine Steady.orElse ?_ (Steady.orElse hsingle hdouble)
  constructor
  · intro s u r h
    split at h
    · cases h
    · rename_i c s
      split at h
      · obtain ⟨⟨v, t⟩, hv, e⟩ := Option.map_eq_some_iff.mp h
        cases e
        exact congrArg (c :: ·) (hsingle.splits _ _ _ hv)
      · split at h
        · obtain ⟨⟨w, t⟩, hw, h⟩ := Option.bind_eq_some_iff.mp h
          obtain ⟨⟨v, t'⟩, hv, h⟩ := Option.bind_eq_some_iff.mp h
          cases h
          rw [Text.append_of_run? hw, hsingle.splits _ _ _ hv]
          simp
        · cases h
  · intro s hs
    cases s with
    | nil => exact absurd rfl hs
    | cons c s =>
      dsimp only [List.cons_append]
      split
      · rw [hread]
        cases Literal.read? '\x27' s <;> rfl
      · split
        · rw [run?_append hx.breaks stopsAtBreaks_isWord]
          cases Text.run? isWord s with
          | none => rfl
          | some p =>
            show (Literal.read? '\x27' (p.2 ++ x)).bind _ = ((Literal.read? '\x27' p.2).bind _).map _
            rw [hread]
            cases Literal.read? '\x27' p.2 <;> rfl
        · rfl

theorem digitsAfter_eq {lead : Text → Option (Text × Text)} {x : Text} {s : Text}
    (h : (do let (u, r) ← lead (s ++ x); let (v, t) ← Text.run? isDigit r; pure (u ++ v, t)) =
      (do let (u, r) ← lead s; let (v, t) ← Text.run? isDigit r; pure (u ++ v, t)).map
        fun p : Text × Text => (p.1, p.2 ++ x)) :
    digitsAfter lead (s ++ x) = ((digitsAfter lead s).1, (digitsAfter lead s).2 ++ x) := by
  unfold digitsAfter
  rw [h]
  generalize (do let (u, r) ← lead s; let (v, t) ← Text.run? isDigit r; pure (u ++ v, t)) = found
  cases found <;> rfl

theorem digitsAfter_splits {lead : Text → Option (Text × Text)}
    (hlead : ∀ s u r, lead s = some (u, r) → s = u ++ r) (s : Text) :
    s = (digitsAfter lead s).1 ++ (digitsAfter lead s).2 := by
  unfold digitsAfter
  split
  · rename_i found hfound
    obtain ⟨⟨u, r⟩, hu, hfound⟩ := Option.bind_eq_some_iff.mp hfound
    obtain ⟨⟨v, t⟩, hv, hfound⟩ := Option.bind_eq_some_iff.mp hfound
    cases hfound
    rw [hlead _ _ _ hu, Text.append_of_run? hv]
    simp
  · rfl

theorem point?_append {x : Text} (hx : Breaks x) (s : Text) :
    digitsAfter point? (s ++ x) = ((digitsAfter point? s).1, (digitsAfter point? s).2 ++ x) := by
  refine digitsAfter_eq ?_
  have hother : ∀ c t, c ≠ '.' → point? (c :: t) = none := by
    intro c t hc
    unfold point?
    split
    · rename_i heq
      exact absurd (List.cons.inj heq).1 hc
    · rfl
  cases s with
  | nil =>
    cases x with
    | nil => rfl
    | cons d y =>
      have hd : d ≠ '.' := by
        rintro rfl
        exact absurd (hx _ _ rfl) (by decide)
      rw [List.nil_append, hother d _ hd]
      rfl
  | cons c s =>
    by_cases hc : c = '.'
    · subst hc
      show (Text.run? isDigit (s ++ x)).bind _ = ((Text.run? isDigit s).bind _).map _
      rw [run?_append hx stopsAtBreaks_isDigit]
      cases Text.run? isDigit s <;> rfl
    · rw [List.cons_append, hother c _ hc, hother c _ hc]
      rfl

theorem run?_breaks {x : Text} (hx : Breaks x) {p : Char → Bool} (hp : StopsAtBreaks p) :
    Text.run? p x = none :=
  run?_append hx hp []

-- No exponent starts at a break, and no digits stand there.
theorem exponent?_breaks {x : Text} (hx : Breaks x) : exponent? x = none := by
  unfold exponent?
  split
  · rename_i c d s
    have he := hx.ne rfl (d := 'e') (by decide)
    have hE := hx.ne rfl (d := 'E') (by decide)
    rw [if_neg (by simp [he, hE])]
  · rfl

theorem exponent?_cons_breaks {x : Text} (hx : Breaks x) (c : Char) :
    exponent? (c :: x) = none ∨ exponent? (c :: x) = some ([c], x) := by
  cases x with
  | nil => exact Or.inl rfl
  | cons d y =>
    have hplus := hx.ne rfl (d := '+') (by decide)
    have hminus := hx.ne rfl (d := '-') (by decide)
    rw [exponent?]
    split
    · rw [if_neg (by simp [hplus, hminus])]
      exact Or.inr rfl
    · exact Or.inl rfl

theorem exponent?_append {x : Text} (hx : Breaks x) (s : Text) :
    digitsAfter exponent? (s ++ x) =
      ((digitsAfter exponent? s).1, (digitsAfter exponent? s).2 ++ x) := by
  refine digitsAfter_eq ?_
  match s with
  | [] =>
    rw [List.nil_append, exponent?_breaks hx]
    rfl
  | [c] =>
    show (exponent? (c :: x)).bind _ = none
    rcases exponent?_cons_breaks hx c with h | h
    · rw [h]
      rfl
    · rw [h, Option.bind_some]
      dsimp only
      rw [run?_breaks hx stopsAtBreaks_isDigit]
      rfl
  | c :: d :: s =>
    show (exponent? (c :: d :: (s ++ x))).bind _ = ((exponent? (c :: d :: s)).bind _).map _
    rw [exponent?, exponent?]
    split
    · split
      · show (Text.run? isDigit (s ++ x)).bind _ = ((Text.run? isDigit s).bind _).map _
        rw [run?_append hx stopsAtBreaks_isDigit]
        cases Text.run? isDigit s <;> rfl
      · show (Text.run? isDigit (d :: s ++ x)).bind _ = ((Text.run? isDigit (d :: s)).bind _).map _
        rw [run?_append hx stopsAtBreaks_isDigit]
        cases Text.run? isDigit (d :: s) <;> rfl
    · rfl

theorem exponent?_splits {s u r : Text} (h : exponent? s = some (u, r)) : s = u ++ r := by
  unfold exponent? at h
  split at h
  · split at h
    · split at h <;> cases h <;> rfl
    · cases h
  · cases h

theorem point?_splits {s u r : Text} (h : point? s = some (u, r)) : s = u ++ r := by
  unfold point? at h
  split at h
  · cases h
    rfl
  · cases h

theorem number?_append {x : Text} (hx : Breaks x) (s : Text) :
    number? (s ++ x) = (number? s).map fun p => (p.1, p.2 ++ x) := by
  obtain ⟨htake, -⟩ := takeWhile_append hx (stopsAtBreaks_eq (d := '-') (by decide)) s
  have hlength : ((s.takeWhile (· = '-')).take 1).length ≤ s.length :=
    ((List.take_prefix _ _).trans (List.takeWhile_prefix _)).length_le
  unfold number?
  dsimp only
  rw [htake, List.drop_append_of_le_length hlength, run?_append hx stopsAtBreaks_isDigit]
  cases Text.run? isDigit (s.drop ((s.takeWhile (· = '-')).take 1).length) with
  | none => rfl
  | some p =>
    show some (_ ++ p.1 ++ (digitsAfter point? (p.2 ++ x)).1 ++
      (digitsAfter exponent? (digitsAfter point? (p.2 ++ x)).2).1,
        (digitsAfter exponent? (digitsAfter point? (p.2 ++ x)).2).2) = _
    rw [point?_append hx, exponent?_append hx]
    rfl

theorem number?_splits {s u r : Text} (h : number? s = some (u, r)) : s = u ++ r := by
  unfold number? at h
  obtain ⟨⟨whole, t⟩, hwhole, h⟩ := Option.bind_eq_some_iff.mp h
  have hu : List.take 1 (s.takeWhile (· = '-')) ++ whole ++ (digitsAfter point? t).1 ++
      (digitsAfter exponent? (digitsAfter point? t).2).1 = u :=
    congrArg Prod.fst (Option.some.inj h)
  have hr : (digitsAfter exponent? (digitsAfter point? t).2).2 = r :=
    congrArg Prod.snd (Option.some.inj h)
  have hpoint := @digitsAfter_splits point? (fun _ _ _ => point?_splits) t
  have hexponent := @digitsAfter_splits exponent? (fun _ _ _ => exponent?_splits)
    (digitsAfter point? t).2
  have hsign : (s.takeWhile (· = '-')).take 1 ++
      s.drop ((s.takeWhile (· = '-')).take 1).length = s := by
    have hprefix : (s.takeWhile (· = '-')).take 1 <+: s :=
      (List.take_prefix _ _).trans (List.takeWhile_prefix _)
    exact List.prefix_iff_eq_append.mp hprefix
  rw [← hu, ← hr, List.append_assoc, ← hexponent, List.append_assoc, ← hpoint, List.append_assoc,
    ← Text.append_of_run? hwhole]
  exact hsign.symm

theorem number?_steady {x : Text} (hx : Tail x) : Steady x number? where
  splits := fun _ _ _ => number?_splits
  append := fun s _ => number?_append hx.breaks s

theorem word?_steady {x : Text} (hx : Tail x) : Steady x word? where
  splits := by
    intro s u r h
    unfold word? at h
    split at h
    · cases h
    · rename_i c s
      split at h
      · dsimp only at h
        have hsplit : s = s.takeWhile isNameChar ++ s.dropWhile isNameChar :=
          List.takeWhile_append_dropWhile.symm
        split at h
        · rename_i g t hg
          cases h
          have hrest := (group?_steady hx).splits _ _ _ hg
          rw [hrest] at hsplit
          simpa using hsplit
        · cases h
          exact congrArg (c :: ·) hsplit
      · cases h
  append := by
    intro s hs
    cases s with
    | nil => exact absurd rfl hs
    | cons c s =>
      rw [List.cons_append]
      unfold word?
      dsimp only
      split
      · obtain ⟨htake, hdrop⟩ := takeWhile_append hx.breaks stopsAtBreaks_isNameChar s
        rw [htake, hdrop]
        have hgroup : group? (s.dropWhile isNameChar ++ x) =
            (group? (s.dropWhile isNameChar)).map fun p => (p.1, p.2 ++ x) := by
          cases hrest : s.dropWhile isNameChar with
          | nil =>
            obtain ⟨y, rfl⟩ := hx.comma
            rfl
          | cons d r => exact (group?_steady hx).append _ (List.cons_ne_nil d r)
        rw [hgroup]
        cases group? (s.dropWhile isNameChar) <;> rfl
      · rfl

theorem read?_steady {x : Text} (hx : Tail x) : Steady x read? := by
  refine (string?_steady hx).orElse ((backquoted?_steady hx).orElse ((number?_steady hx).orElse
    ((word?_steady hx).orElse ((group?_steady hx).orElse ⟨?_, ?_⟩))))
  · intro s u r h
    cases s with
    | nil => cases h
    | cons c s =>
      cases h
      rfl
  · intro s hs
    cases s with
    | nil => exact absurd rfl hs
    | cons c s => rfl

theorem read?_splits {s u r : Text} (h : read? s = some (u, r)) : s = u ++ r := by
  have hcomma : Tail [','] := by
    refine ⟨⟨[], rfl⟩, fun c hc => ?_⟩
    rw [List.mem_singleton.mp hc]
    decide
  exact (read?_steady hcomma).splits _ _ _ h

-- Every token has a character, so reading one shortens the text.
theorem length_of_read? {s u r : Text} (h : read? (Text.trimLeft s) = some (u, r)) :
    r.length < s.length := by
  have hdelimited : Delimited u := Delimited.of_read (fun c t hs => Text.not_isBlank_of_trimLeft hs) h
  obtain ⟨c, v, rfl, -⟩ := hdelimited.starts
  have hle := List.length_dropWhile_le isBlank s
  change (Text.trimLeft s).length ≤ _ at hle
  rw [read?_splits h] at hle
  simp only [List.length_append, List.length_cons] at hle
  omega

theorem readMany_eq {n m : Nat} {s : Text} (hn : s.length ≤ n) (hm : s.length ≤ m) :
    readMany n s = readMany m s := by
  have hnil : ∀ k, readMany k [] = [] := by
    intro k
    cases k <;> rfl
  induction n generalizing m s with
  | zero =>
    rw [List.length_eq_zero_iff.mp (Nat.le_zero.mp hn), hnil, hnil]
  | succ n ih =>
    cases m with
    | zero => rw [List.length_eq_zero_iff.mp (Nat.le_zero.mp hm), hnil, hnil]
    | succ m =>
      rw [readMany, readMany]
      split
      · rename_i t r hread
        have hlength := length_of_read? hread
        rw [@ih m r (by omega) (by omega)]
      · rfl

theorem all_eq (s : Text) : all s = match read? (Text.trimLeft s) with
    | some (t, r) => t :: all r
    | none => [] := by
  cases s with
  | nil => rfl
  | cons c s =>
    rw [all, List.length_cons, readMany]
    cases hread : read? (Text.trimLeft (c :: s)) with
    | none => rfl
    | some p =>
      have hlength := length_of_read? hread
      rw [List.length_cons] at hlength
      exact congrArg (p.1 :: ·) (readMany_eq (Nat.le_of_lt_succ hlength) (Nat.le_refl _))

theorem read?_cons_ne_none (c : Char) (s : Text) : read? (c :: s) ≠ none := by
  intro h
  unfold read? at h
  have h := (Outcome.orElse_eq_none.mp h).2
  have h := (Outcome.orElse_eq_none.mp h).2
  have h := (Outcome.orElse_eq_none.mp h).2
  have h := (Outcome.orElse_eq_none.mp h).2
  have h := (Outcome.orElse_eq_none.mp h).2
  cases h

theorem trimLeft_append {x : Text} (hx : Tail x) (s : Text) :
    Text.trimLeft (s ++ x) = Text.trimLeft s ++ x := by
  obtain ⟨y, rfl⟩ := hx.comma
  refine Text.dropWhile_append_stop ?_ s
  rintro c r ⟨⟩
  decide

/-- The tokens of a definition stay the same with a comma behind it. -/
theorem all_append {x : Text} (hx : Tail x) (s : Text) : all (s ++ x) = all s ++ all x := by
  generalize hn : s.length = n
  induction n using Nat.strong_induction_on generalizing s with
  | _ n ih =>
    cases htrim : Text.trimLeft s with
    | nil =>
      have hs : all s = [] := by
        rw [all_eq, htrim]
        rfl
      have hx' : Text.trimLeft x = x := trimLeft_append hx []
      rw [hs, List.nil_append, all_eq, trimLeft_append hx, htrim, List.nil_append, all_eq x, hx']
    | cons c t =>
      have happend := (read?_steady hx).append (Text.trimLeft s) (by rw [htrim]; exact List.cons_ne_nil c t)
      rw [all_eq, trimLeft_append hx, happend, all_eq s]
      cases hread : read? (Text.trimLeft s) with
      | none =>
        rw [htrim] at hread
        exact absurd hread (read?_cons_ne_none c t)
      | some p =>
        have hlength := length_of_read? hread
        show p.1 :: all (p.2 ++ x) = p.1 :: all p.2 ++ all x
        rw [ih p.2.length (by omega) p.2 rfl]
        rfl

section Digits

variable {c : Char} {n : Text} (hn : ∀ d ∈ c :: n, isDigit d = true)

include hn

theorem ne_of_isDigit {e : Char} (he : isDigit e = false) : c ≠ e := by
  rintro rfl
  rw [hn c List.mem_cons_self] at he
  cases he

theorem string?_digits : string? (c :: n) = none := by
  have hmarks : ¬ ("bBxXnN".toList.contains c) = true := by
    intro hmem
    have hall : ("bBxXnN".toList.all (!isDigit ·)) = true := by decide
    have := List.all_eq_true.mp hall c (List.contains_iff_mem.mp hmem)
    rw [hn c List.mem_cons_self] at this
    cases this
  have hliteral : ∀ mark, isDigit mark = false → Literal.read? mark (c :: n) = none := by
    intro mark hmark
    rw [Literal.read?, if_neg (ne_of_isDigit hn hmark)]
  unfold string?
  dsimp only
  rw [if_neg hmarks, if_neg (@ne_of_isDigit c n hn '_' (by decide)), hliteral _ (by decide),
    hliteral _ (by decide)]
  rfl

theorem number?_digits : number? (c :: n) = some (c :: n, []) := by
  have htake : (c :: n).takeWhile isDigit = c :: n := List.takeWhile_eq_self_iff.mpr hn
  have hdrop : (c :: n).dropWhile isDigit = [] := List.dropWhile_eq_nil_iff.mpr hn
  have hrun : Text.run? isDigit (c :: n) = some (c :: n, []) := by
    unfold Text.run?
    rw [htake, hdrop]
  have hsign : (c :: n).takeWhile (· = '-') = [] :=
    List.takeWhile_cons_of_neg (by simpa using @ne_of_isDigit c n hn '-' (by decide))
  unfold number?
  rw [hsign]
  dsimp only
  rw [List.take_nil, List.length_nil, List.drop_zero, hrun]
  show some (c :: n ++ [] ++ [], []) = _
  rw [List.append_nil, List.append_nil]

-- Digits are one token: no string and no quoted name starts with one.
theorem all_digits : all (c :: n) = [c :: n] := by
  have htrim : Text.trimLeft (c :: n) = c :: n :=
    Text.trimLeft_cons (not_isBlank_of_isDigit (hn c List.mem_cons_self)) n
  have hread : read? (c :: n) = some (c :: n, []) := by
    unfold read?
    rw [string?_digits hn, backquoted?_of_ne (ne_of_isDigit hn (by decide)), number?_digits hn]
    rfl
  rw [all_eq, htrim, hread]
  rfl

end Digits

-- The tokens of a number to start from.
theorem all_start (n : Text) :
    all (", AUTO_INCREMENT=" ++ n) = ([",", "AUTO_INCREMENT", "="] : List Text) ++ all n := by
  rw [all_eq]
  show (",".toList) :: all (" AUTO_INCREMENT=" ++ n) = _
  rw [all_eq]
  show (",".toList) :: "AUTO_INCREMENT".toList :: all ("=" ++ n) = _
  rw [all_eq]
  rfl

end Token

/-! ## 3. Definitions -/

namespace Column

variable {x : Text}

theorem argumentsRest?_eq_none {mark : Option Char} {s : Text} (h : ')' ∉ s) :
    argumentsRest? mark s = none := by
  fun_induction argumentsRest? mark s with
  | case1 => rfl
  | case2 => exact absurd List.mem_cons_self h
  | case3 => rfl
  | case4 c s _ _ ih =>
    rw [ih fun hmem => h (List.mem_cons_of_mem _ hmem)]
    rfl
  | case5 => rfl
  | case6 => rfl
  | case7 mark d s _ ih =>
    rw [ih fun hmem => h (List.mem_cons_of_mem _ (List.mem_cons_of_mem _ hmem))]
    rfl
  | case8 mark c d s _ ih =>
    rw [ih fun hmem => h (List.mem_cons_of_mem _ hmem)]
    rfl

theorem argumentsRest?_append (hx : ')' ∉ x) (mark : Option Char) (s : Text) :
    argumentsRest? mark (s ++ x) = (argumentsRest? mark s).map fun p => (p.1, p.2 ++ x) := by
  fun_induction argumentsRest? mark s with
  | case1 => exact argumentsRest?_eq_none hx
  | case2 => rfl
  | case3 => rfl
  | case4 c s hclose hopen ih =>
    rw [List.cons_append, argumentsRest?, if_neg hclose, if_neg hopen, ih]
    generalize argumentsRest? _ s = found
    cases found <;> rfl
  | case5 mark c =>
    cases x with
    | nil => rfl
    | cons d x =>
      have hnone : ∀ mark, argumentsRest? mark (d :: x) = none := fun _ => argumentsRest?_eq_none hx
      have hnone' : argumentsRest? (some mark) x = none :=
        argumentsRest?_eq_none fun hmem => hx (List.mem_cons_of_mem _ hmem)
      show argumentsRest? (some mark) (c :: d :: x) = none
      rw [argumentsRest?, hnone, hnone']
      split
      · split <;> rfl
      · rfl
  | case6 => rfl
  | case7 mark d s hd ih =>
    show argumentsRest? (some mark) ('\\' :: d :: (s ++ x)) = _
    rw [argumentsRest?, if_pos rfl, if_neg hd, ih]
    cases argumentsRest? (some mark) s <;> rfl
  | case8 mark c d s hc ih =>
    show argumentsRest? (some mark) (c :: d :: (s ++ x)) = _
    rw [argumentsRest?, if_neg hc]
    rw [List.cons_append] at ih
    rw [ih]
    generalize argumentsRest? _ (d :: s) = found
    cases found <;> rfl

/-- What neither goes on with a type nor belongs to its arguments: it starts with no character of a
word, nor behind blanks with a letter or a parenthesis, and closes no parenthesis. -/
structure Apart (x : Text) : Prop where
  noWord : ∀ c r, x = c :: r → isWord c = false
  noStart : ∀ c r, Text.trimLeft x = c :: r → c ≠ '(' ∧ c.isAlpha = false
  closesNone : ')' ∉ x

theorem apart_of_tail (hx : Tail x) : Apart x := by
  refine ⟨?_, ?_, hx.not_mem (Or.inr rfl)⟩ <;> obtain ⟨y, rfl⟩ := hx.comma
  · rintro c r ⟨⟩
    decide
  · rintro c r ⟨⟩
    decide

theorem trimLeft_append_cases (s x : Text) :
    (∃ c t, Text.trimLeft s = c :: t ∧ Text.trimLeft (s ++ x) = c :: (t ++ x)) ∨
      Text.trimLeft s = [] ∧ Text.trimLeft (s ++ x) = Text.trimLeft x := by
  cases hs : s.dropWhile isBlank with
  | nil =>
    have hsx : (s ++ x).dropWhile isBlank = x.dropWhile isBlank :=
      List.dropWhile_append_of_pos (List.dropWhile_eq_nil_iff.mp hs)
    exact Or.inr ⟨hs, hsx⟩
  | cons c t => exact Or.inl ⟨c, t, hs, (Token.span_append hs x).2⟩

theorem arguments?_append (hx : Apart x) (s : Text) :
    arguments? (s ++ x) = (arguments? s).map fun p => (p.1, p.2 ++ x) := by
  have hother : ∀ {c : Char}, c ≠ '(' → ∀ {t : Text} {u : Text}, Text.trimLeft u = c :: t →
      arguments? u = none := by
    intro c hc t u hu
    unfold arguments?
    rw [hu]
    split
    · rename_i heq
      exact absurd (List.cons.inj heq).1 hc
    · rfl
  rcases trimLeft_append_cases s x with ⟨c, t, hs, hsx⟩ | ⟨hs, hsx⟩
  · by_cases hc : c = '('
    · subst hc
      unfold arguments?
      rw [hs, hsx]
      exact argumentsRest?_append hx.closesNone none t
    · rw [hother hc hs, hother hc hsx]
      rfl
  · have hnone : arguments? s = none := by
      unfold arguments?
      rw [hs]
    rw [hnone]
    cases hrest : Text.trimLeft x with
    | nil =>
      unfold arguments?
      rw [hsx, hrest]
      rfl
    | cons c t => exact hother (hx.noStart c t hrest).1 (hsx.trans hrest)

theorem type?_append (hx : Apart x) (s : Text) :
    type? (s ++ x) = (type? s).map fun p => (p.1, p.2.1, p.2.2 ++ x) := by
  unfold type?
  rcases trimLeft_append_cases s x with ⟨c, t, hs, hsx⟩ | ⟨hs, hsx⟩
  · rw [hs, hsx]
    dsimp only
    split
    · rw [Text.takeWhile_append_stop hx.noWord, Text.dropWhile_append_stop hx.noWord,
        arguments?_append hx]
      cases arguments? (t.dropWhile isWord) <;> rfl
    · rfl
  · rw [hs, hsx]
    cases hrest : Text.trimLeft x with
    | nil => rfl
    | cons c t =>
      dsimp only
      rw [(hx.noStart c t hrest).2, if_neg (by decide)]
      rfl

/-! ## 4. Qualifiers -/

/-- Whether a definition ends in a DEFAULT that still waits for its value. -/
def endsInDefault (text : Text) : Bool :=
  match type? text with
  | some (_, _, rest) => (Token.all rest).getLast?.any fun token => Text.upper token = "DEFAULT"
  | none => false

theorem qualifier_skip_le (q : Qualifiers) (token : Text) (following : Option Text) :
    (qualifier q token following).2 ≤ 2 := by
  unfold qualifier
  dsimp only
  repeat' split
  all_goals
    dsimp only
    omega

-- A comma is part of no qualifier but DEFAULT.
theorem qualifier_comma {token : Text} (h : Text.upper token ≠ "DEFAULT") (q : Qualifiers) :
    qualifier q token (some ",") = qualifier q token none ∧ (qualifier q token none).2 ≤ 1 := by
  have hcomma : ∀ w : String, ([','] == w.toList) = false →
      ¬ some (Text.upper ",") = (do let a ← some w; pure a.toList) := by
    intro w hw e
    rw [← Option.some.inj e] at hw
    exact absurd hw (by decide)
  have hnone : ∀ w : String, ¬ (none : Option Text) = (do let a ← some w; pure a.toList) :=
    fun _ e => by cases e
  have hdefault : ∀ following : Option Text,
      ¬ (Text.upper token = "DEFAULT" ∧ following.isSome = true) := fun _ e => h e.1
  unfold qualifier
  dsimp only
  rw [Option.map_some, Option.map_none]
  constructor
  · simp only [hcomma "NULL" (by decide), hcomma "SET" (by decide), hcomma "=" (by decide),
      hcomma "UPDATE" (by decide), hcomma "KEY" (by decide), hnone, hdefault, and_false, if_false]
  · simp only [hnone, hdefault, and_false, if_false]
    repeat' split
    all_goals
      dsimp only
      omega

variable {n : Text}

-- The word behind the comma is read as a qualifier, together with the number.
theorem qualifiers_number {tail : List Text} (htail : tail.length ≤ 1) (q : Qualifiers) :
    qualifiers q 1 (([",", "AUTO_INCREMENT", "="] : List Text) ++ tail) =
      { q with autoIncrement := true } := by
  have hend : ∀ q, qualifiers q 1 tail = q := by
    intro q
    match tail with
    | [] => rfl
    | [token] => rfl
  exact hend _

-- A number to start from, behind a definition, says at most that the column counts up.
theorem qualifiers_start {tail : List Text} (htail : tail.length ≤ 1) {tokens : List Text}
    (hlast : ∀ token, tokens.getLast? = some token → Text.upper token ≠ "DEFAULT")
    (q : Qualifiers) {skip : Nat} (hskip : skip ≤ tokens.length + 1) :
    qualifiers q skip (tokens ++ (([",", "AUTO_INCREMENT", "="] : List Text) ++ tail)) =
        qualifiers q skip tokens ∨
      qualifiers q skip (tokens ++ (([",", "AUTO_INCREMENT", "="] : List Text) ++ tail)) =
        { qualifiers q skip tokens with autoIncrement := true } := by
  induction tokens generalizing q skip with
  | nil =>
    match skip with
    | 0 => exact Or.inl rfl
    | 1 => exact Or.inr (qualifiers_number htail q)
    | skip + 2 => simp at hskip
  | cons token tokens ih =>
    have hrest : ∀ t, tokens.getLast? = some t → Text.upper t ≠ "DEFAULT" := by
      intro t ht
      refine hlast t ?_
      rw [List.getLast?_cons, ht]
      rfl
    cases skip with
    | succ skip => exact ih hrest q (Nat.le_of_succ_le_succ hskip)
    | zero =>
      rw [List.cons_append, qualifiers, qualifiers]
      by_cases hcomma : token = ","
      · rw [if_pos hcomma, if_pos hcomma]
        exact Or.inl rfl
      · rw [if_neg hcomma, if_neg hcomma]
        dsimp only
        cases tokens with
        | nil =>
          have htoken := hlast token rfl
          obtain ⟨hsame, hle⟩ := qualifier_comma htoken q
          have hend := ih hrest (qualifier q token none).1 hle
          rw [List.nil_append] at hend ⊢
          show qualifiers (qualifier q token (some ",")).1 (qualifier q token (some ",")).2 _ = _ ∨
            qualifiers (qualifier q token (some ",")).1 (qualifier q token (some ",")).2 _ = _
          rw [hsame]
          exact hend
        | cons next tokens =>
          have hle : (qualifier q token (some next)).2 ≤ (next :: tokens).length + 1 :=
            (qualifier_skip_le q token (some next)).trans (by simp)
          exact ih hrest _ hle

/-- What follows the definition of a column that counts up: nothing, or the number to start from. -/
inductive Start : Text → Prop
  | none : Start []
  | number {n : Text} (h : ∀ c ∈ n, isDigit c = true) : Start (", AUTO_INCREMENT=" ++ n)

theorem tail_start {n : Text} (h : ∀ c ∈ n, isDigit c = true) :
    Tail (", AUTO_INCREMENT=".toList ++ n) := by
  refine ⟨⟨" AUTO_INCREMENT=".toList ++ n, rfl⟩, fun c hc => ?_⟩
  rcases List.mem_append.mp hc with hc | hc
  · have hall : (", AUTO_INCREMENT=".toList.all fun c => !isQuoteMark c && decide (c ≠ ')')) = true := by
      decide
    have := List.all_eq_true.mp hall c hc
    rwa [Bool.and_eq_true, Bool.not_eq_true', decide_eq_true_iff] at this
  · have hne : ∀ e, isDigit e = false → c ≠ e := by
      rintro e he rfl
      rw [h c hc] at he
      cases he
    refine ⟨?_, hne _ (by decide)⟩
    simp [isQuoteMark, hne '\x27' (by decide), hne '\x22' (by decide), hne '\x60' (by decide)]

/-- A column that counts up is defined alike with a number to start from behind its definition. -/
theorem parse_start {text start : Text} {column : Column} (h : parse text = .ok (some column))
    (hcounts : column.autoIncrement = true) (hdefault : endsInDefault text = false)
    (hstart : Start start) : parse (text ++ start) = .ok (some column) := by
  cases hstart with
  | none =>
    rw [List.append_nil]
    exact h
  | @number n hn =>
    unfold parse at h ⊢
    unfold endsInDefault at hdefault
    rw [type?_append (apart_of_tail (tail_start hn))]
    cases htype : type? text with
    | none =>
      rw [htype] at h
      cases h
    | some p =>
      obtain ⟨name, arguments, rest⟩ := p
      rw [htype] at h hdefault
      dsimp only [Option.map_some] at h hdefault ⊢
      have htail : (Token.all n).length ≤ 1 := by
        cases n with
        | nil => exact Nat.zero_le _
        | cons c n =>
          rw [Token.all_digits hn]
          exact Nat.le_refl _
      have hlast : ∀ token, (Token.all rest).getLast? = some token → Text.upper token ≠ "DEFAULT" := by
        intro token htoken e
        rw [htoken] at hdefault
        simp [e] at hdefault
      have htokens := qualifiers_start htail hlast {} (Nat.zero_le _)
      rw [← Token.all_start, ← Token.all_append (tail_start hn)] at htokens
      obtain ⟨size, hsize, h⟩ := Outcome.bind_eq_ok.mp h
      refine Outcome.bind_eq_ok.mpr ⟨size, hsize, ?_⟩
      rcases htokens with htokens | htokens
      · rw [htokens]
        exact h
      · rw [htokens]
        cases h
        dsimp only at hcounts
        rw [hcounts]
        rfl

end Column

end SqlDump
