import SqlDump.Proofs.StandingTokens

/-!
# Expressions between parentheses

An expression has its parentheses and its quotes in pairs. Whatever follows the parentheses that it
stands between, its tokens are the same, and the last one ends with the closing parenthesis: a group
is told only two levels deep, but where it is not told the parenthesis is a token by itself.
-/

namespace SqlDump

/-- The quote marks and the parentheses. -/
def isDelimiter (c : Char) : Bool := isQuoteMark c || c = '(' || c = ')'

/-- A text without parentheses. -/
def Open (w : Text) : Prop := ∀ c ∈ w, c ≠ '(' ∧ c ≠ ')'

instance (w : Text) : Decidable (Open w) :=
  List.decidableBAll (fun c => c ≠ '(' ∧ c ≠ ')') w

/-- A quoted name that holds neither quotes nor parentheses. -/
def IsName (w : Text) : Prop :=
  ∃ v, w = '\x60' :: (v ++ ['\x60']) ∧ ∀ c ∈ v, isDelimiter c = false

/-- Text with its parentheses and quotes in pairs. A literal inside an inner group holds no
parenthesis. `inner` tells an inner group. -/
inductive Expression : Bool → Text → Prop
  | nil {inner : Bool} : Expression inner []
  | plain {inner : Bool} {c : Char} {e : Text} (hc : isDelimiter c = false)
      (he : Expression inner e) : Expression inner (c :: e)
  | literal {inner : Bool} {mark : Char} {w e : Text} (hmark : mark = '\x27' ∨ mark = '\x22')
      (hw : Literal.read? mark w = some (w, [])) (hinner : inner = true → Open w)
      (hnext : ∀ r, e ≠ mark :: r) (he : Expression inner e) : Expression inner (w ++ e)
  | name {inner : Bool} {w e : Text} (hw : IsName w) (he : Expression inner e) :
      Expression inner (w ++ e)
  | group {inner : Bool} {e f : Text} (he : Expression true e) (hf : Expression inner f) :
      Expression inner ('(' :: (e ++ ')' :: f))

/-- An expression whose groups hold no groups, and no double quote outside of them. -/
inductive Flat : Text → Prop
  | nil : Flat []
  | plain {c : Char} {e : Text} (hc : isDelimiter c = false) (he : Flat e) : Flat (c :: e)
  | literal {w e : Text} (hw : Literal.read? '\x27' w = some (w, [])) (he : Flat e) : Flat (w ++ e)
  | name {w e : Text} (hw : IsName w) (he : Flat e) : Flat (w ++ e)
  | group {w e : Text} (hw : Open w) (he : Flat e) : Flat ('(' :: (w ++ ')' :: e))

theorem Expression.plains {inner : Bool} {w e : Text} (hw : w.all (!isDelimiter ·) = true)
    (he : Expression inner e) : Expression inner (w ++ e) := by
  induction w with
  | nil => exact he
  | cons c w ih =>
    rw [List.all_cons, Bool.and_eq_true, Bool.not_eq_true'] at hw
    exact .plain hw.1 (ih hw.2)

theorem Flat.plains {w e : Text} (hw : w.all (!isDelimiter ·) = true) (he : Flat e) :
    Flat (w ++ e) := by
  induction w with
  | nil => exact he
  | cons c w ih =>
    rw [List.all_cons, Bool.and_eq_true, Bool.not_eq_true'] at hw
    exact .plain hw.1 (ih hw.2)

theorem ne_of_not_isDelimiter {c d : Char} (h : isDelimiter c = false)
    (hd : isDelimiter d = true) : c ≠ d := by
  rintro rfl
  rw [h] at hd
  cases hd

/-- A character that a group passes over at its own level. -/
def Passed (c : Char) : Prop := (c ≠ '(' ∧ c ≠ ')') ∧ c ≠ '\x27' ∧ c ≠ '\x22'

theorem passed_of_not_isDelimiter {c : Char} (h : isDelimiter c = false) : Passed c :=
  have hne : ∀ d, isDelimiter d = true → c ≠ d := fun _ => ne_of_not_isDelimiter h
  ⟨⟨hne _ rfl, hne _ rfl⟩, hne _ rfl, hne _ rfl⟩

theorem IsName.passed {w : Text} (hw : IsName w) : ∀ c ∈ w, Passed c := by
  obtain ⟨v, rfl, hv⟩ := hw
  intro c hc
  simp only [List.mem_cons, List.mem_append, List.not_mem_nil, or_false] at hc
  rcases hc with rfl | hc | rfl
  · exact ⟨by decide, by decide⟩
  · exact passed_of_not_isDelimiter (hv c hc)
  · exact ⟨by decide, by decide⟩

namespace Token

/-- Text in `n` open groups, up to where it has closed them all. -/
inductive Closes : Nat → Text → Prop
  | nil : Closes 0 []
  | plain {n : Nat} {c : Char} {s : Text} (hc : isDelimiter c = false) (h : Closes (n + 1) s) :
      Closes (n + 1) (c :: s)
  | literal {n : Nat} {mark : Char} {w s : Text} (hmark : mark = '\x27' ∨ mark = '\x22')
      (hw : Literal.read? mark w = some (w, [])) (hinner : n ≠ 0 → Open w)
      (hnext : ∀ r, s ≠ mark :: r) (h : Closes (n + 1) s) : Closes (n + 1) (w ++ s)
  | name {n : Nat} {w s : Text} (hw : IsName w) (h : Closes (n + 1) s) : Closes (n + 1) (w ++ s)
  | opens {n : Nat} {s : Text} (h : Closes (n + 2) s) : Closes (n + 1) ('(' :: s)
  | closes {n : Nat} {s : Text} (h : Closes n s) : Closes (n + 1) (')' :: s)

/-! ## 1. Texts that close groups -/

variable {n : Nat} {s : Text}

-- An expression closes nothing of what is open around it.
theorem Closes.of_expression {inner : Bool} {e : Text} (he : Expression inner e)
    (hinner : inner = false → n = 0) (h : Closes n s) : Closes (n + 1) (e ++ ')' :: s) := by
  induction he generalizing n s with
  | nil => exact .closes h
  | plain hc _ ih => exact .plain hc (ih hinner h)
  | @literal inner mark w e hmark hw hopen hnext _ ih =>
    rw [List.append_assoc]
    refine .literal hmark hw (fun hn => hopen ?_) ?_ (ih hinner h)
    · by_contra hfalse
      exact hn (hinner (Bool.not_eq_true _ ▸ hfalse))
    · intro r heq
      cases e with
      | nil => rcases hmark with rfl | rfl <;> cases heq
      | cons d e => exact hnext e (congrArg (· :: e) (List.cons.inj heq).1)
  | name hw _ ih =>
    rw [List.append_assoc]
    exact .name hw (ih hinner h)
  | group _ _ ihe ihf =>
    rw [List.cons_append, List.append_assoc, List.cons_append]
    exact .opens (ihe nofun (ihf hinner h))

theorem Closes.getLast? (h : Closes n s) (hn : n ≠ 0) : s.getLast? = some ')' := by
  have hcons : ∀ {t : Text} (u : Text), t.getLast? = some ')' → (u ++ t).getLast? = some ')' := by
    intro t u ht
    rw [List.getLast?_append, ht]
    rfl
  induction h with
  | nil => exact absurd rfl hn
  | plain _ _ ih => exact hcons [_] (ih (Nat.succ_ne_zero _))
  | literal _ _ _ _ _ ih => exact hcons _ (ih (Nat.succ_ne_zero _))
  | name _ _ ih => exact hcons _ (ih (Nat.succ_ne_zero _))
  | opens _ ih => exact hcons ['('] (ih (Nat.succ_ne_zero _))
  | @closes n s h ih =>
    cases n with
    | zero =>
      cases h
      rfl
    | succ n => exact hcons [')'] (ih (Nat.succ_ne_zero n))

theorem Closes.exists_cons (h : Closes n s) (hn : n ≠ 0) : ∃ c r, s = c :: r := by
  refine List.exists_cons_of_ne_nil ?_
  rintro rfl
  cases h.getLast? hn

theorem isDelimiter_of_mark {mark : Char} (h : mark = '\x27' ∨ mark = '\x22') :
    isDelimiter mark = true := by
  rcases h with rfl | rfl <;> rfl

-- A run of characters that are no delimiters ends before the groups are closed.
theorem Closes.dropWhile {p : Char → Bool} (hp : ∀ c, isDelimiter c = true → p c = false)
    (h : Closes n s) (hn : n ≠ 0) : Closes n (s.dropWhile p) := by
  induction h with
  | nil => exact absurd rfl hn
  | @plain n c s hc h ih =>
    rw [List.dropWhile_cons]
    split
    · exact ih (Nat.succ_ne_zero _)
    · exact .plain hc h
  | @literal n mark w s hmark hw hinner hnext h ih =>
    obtain ⟨v, rfl⟩ := exists_of_literal hw
    have hstop : ¬ p mark = true := by simp [hp mark (isDelimiter_of_mark hmark)]
    rw [List.cons_append, List.dropWhile_cons_of_neg hstop]
    exact .literal hmark hw hinner hnext h
  | name hw h ih =>
    obtain ⟨v, rfl, -⟩ := id hw
    rw [List.cons_append, List.dropWhile_cons_of_neg (by simp [hp '\x60' rfl])]
    exact .name hw h
  | opens h ih =>
    rw [List.dropWhile_cons_of_neg (by simp [hp '(' rfl])]
    exact .opens h
  | closes h ih =>
    rw [List.dropWhile_cons_of_neg (by simp [hp ')' rfl])]
    exact .closes h

theorem Closes.span {p : Char → Bool} (hp : ∀ c, isDelimiter c = true → p c = false)
    (h : Closes n s) (hn : n ≠ 0) (x : Text) :
    (s ++ x).takeWhile p = s.takeWhile p ∧ (s ++ x).dropWhile p = s.dropWhile p ++ x := by
  obtain ⟨c, r, hrest⟩ := (h.dropWhile hp hn).exists_cons hn
  rw [hrest]
  exact span_append hrest x

theorem Closes.run? {p : Char → Bool} (hp : ∀ c, isDelimiter c = true → p c = false)
    (h : Closes n s) (hn : n ≠ 0) (x : Text) :
    Text.run? p (s ++ x) = (Text.run? p s).map fun r => (r.1, r.2 ++ x) := by
  obtain ⟨htake, hdrop⟩ := h.span hp hn x
  unfold Text.run?
  rw [htake, hdrop]
  split <;> rfl

-- What does not go on with a literal in open groups does not do so in what follows them.
theorem Closes.apart {mark : Char} (h : Closes (n + 1) s) (hnext : ∀ r, s ≠ mark :: r) (x r : Text) :
    s ++ x ≠ mark :: r := by
  obtain ⟨d, t, rfl⟩ := h.exists_cons (Nat.succ_ne_zero n)
  exact fun heq => hnext t (congrArg (· :: t) (List.cons.inj heq).1)

/-! ## 2. Readers that keep to the groups -/

/-- A reader that reads nothing off a text, or the same front, and leaves groups to close, whatever
follows the text. -/
def Fits (read : Text → Option (Text × Text)) (s : Text) : Prop :=
  (∀ x, read (s ++ x) = none) ∨
    ∃ u r k, s = u ++ r ∧ Closes k r ∧ ∀ x, read (s ++ x) = some (u, r ++ x)

variable {f g : Text → Option (Text × Text)}

theorem Fits.orElse (hf : Fits f s) (hg : Fits g s) : Fits (fun s => f s <|> g s) s := by
  rcases hf with hf | ⟨u, r, k, hs, hr, hf⟩
  · have hleft : ∀ x, (f (s ++ x) <|> g (s ++ x)) = g (s ++ x) := fun x => by
      rw [hf]
      rfl
    rcases hg with hg | ⟨u, r, k, hs, hr, hg⟩
    · exact Or.inl fun x => (hleft x).trans (hg x)
    · exact Or.inr ⟨u, r, k, hs, hr, fun x => (hleft x).trans (hg x)⟩
  · have hleft : ∀ x, (f (s ++ x) <|> g (s ++ x)) = some (u, r ++ x) := fun x => by
      rw [hf]
      rfl
    exact Or.inr ⟨u, r, k, hs, hr, hleft⟩

-- What a reader reads off behind a front, with the front before it.
theorem Fits.map {w : Text} (hf : Fits f s)
    (hg : ∀ x, g (w ++ (s ++ x)) = (f (s ++ x)).map fun p => (w ++ p.1, p.2)) :
    Fits g (w ++ s) := by
  rcases hf with hf | ⟨u, r, k, hs, hr, hf⟩
  · refine Or.inl fun x => ?_
    rw [List.append_assoc, hg, hf]
    rfl
  · refine Or.inr ⟨w ++ u, r, k, by rw [hs, List.append_assoc], hr, fun x => ?_⟩
    rw [List.append_assoc, hg, hf]
    rfl

theorem Closes.fits_literal {mark : Char} (hmark : mark = '\x27' ∨ mark = '\x22')
    (h : Closes n s) (hn : n ≠ 0) : Fits (Literal.read? mark) s := by
  have hdelimiter := isDelimiter_of_mark hmark
  cases h with
  | nil => exact absurd rfl hn
  | plain hc h =>
    exact Or.inl fun x => Literal.read?_of_ne (ne_of_not_isDelimiter hc hdelimiter) _
  | @literal n mark' w s _ hw _ hnext h =>
    by_cases hsame : mark' = mark
    · subst hsame
      refine Or.inr ⟨w, s, _, rfl, h, fun x => ?_⟩
      have hescape : mark' ≠ '\\' := by rcases hmark with rfl | rfl <;> decide
      rw [List.append_assoc, Literal.read?_whole hescape hw (h.apart hnext x)]
    · obtain ⟨v, rfl⟩ := exists_of_literal hw
      exact Or.inl fun x => Literal.read?_of_ne hsame _
  | name hw =>
    obtain ⟨v, rfl, -⟩ := hw
    exact Or.inl fun x => Literal.read?_of_ne (by rcases hmark with rfl | rfl <;> decide) _
  | opens => exact Or.inl fun x => Literal.read?_of_ne (by rcases hmark with rfl | rfl <;> decide) _
  | closes => exact Or.inl fun x => Literal.read?_of_ne (by rcases hmark with rfl | rfl <;> decide) _

/-! ## 3. Groups -/

theorem groupRest?_string {w : Text} (h : Literal.rest? '\x27' w = some (w, [])) (t : Text) :
    groupRest? .string (w ++ t) = (groupRest? .top t).map fun p => (w ++ p.1, p.2) := by
  fun_induction Literal.rest? '\x27' w with
  | case1 => cases h
  | case2 =>
    cases t with
    | nil => rfl
    | cons d t => rfl
  | case3 => cases h
  | case4 => cases h
  | case5 d s hd ih =>
    obtain ⟨⟨v, r⟩, hv, e⟩ := Option.map_eq_some_iff.mp h
    cases e
    show groupRest? .string ('\\' :: d :: (s ++ t)) = _
    rw [groupRest?, if_pos rfl, if_neg hd, ih hv, Option.map_map]
    rfl
  | case6 s u r hread _ ih =>
    cases h
    show groupRest? .string ('\x27' :: '\x27' :: (s ++ t)) = _
    rw [groupRest?, if_neg (by decide), if_pos rfl, groupRest?, if_neg (by decide),
      if_neg (by decide)]
    show Option.map _ (Option.map _ (groupRest? .string (s ++ t))) = _
    rw [ih hread, Option.map_map, Option.map_map]
    rfl
  | case7 => cases h
  | case8 => cases h
  | case9 c d s hescape hc ih =>
    obtain ⟨⟨v, r⟩, hv, e⟩ := Option.map_eq_some_iff.mp h
    cases e
    show groupRest? .string (c :: d :: (s ++ t)) = _
    rw [groupRest?, if_neg hescape, if_neg hc, ← List.cons_append, ih hv, Option.map_map]
    rfl

-- A group goes on behind a literal at its own level.
theorem groupRest?_literal {w : Text} (h : Literal.read? '\x27' w = some (w, [])) (t : Text) :
    groupRest? .top (w ++ t) = (groupRest? .top t).map fun p => (w ++ p.1, p.2) := by
  obtain ⟨v, rfl, hv⟩ := Literal.exists_of_read? h
  rw [List.cons_append, groupRest?, if_neg (by decide), if_neg (by decide)]
  dsimp only
  rw [if_pos rfl, groupRest?_string hv, Option.map_map]
  rfl

theorem groupRest?_inner {w : Text} (h : Open w) (t : Text) :
    groupRest? .inner (w ++ t) = (groupRest? .inner t).map fun p => (w ++ p.1, p.2) := by
  induction w with
  | nil => exact Option.map_id'.symm
  | cons c w ih =>
    obtain ⟨hc, hw⟩ := List.forall_mem_cons.mp h
    rw [List.cons_append, groupRest?, if_neg hc.1, if_neg hc.2, ih hw, Option.map_map]
    rfl

theorem groupRest?_passed {w : Text} (h : ∀ c ∈ w, Passed c) (t : Text) :
    groupRest? .top (w ++ t) = (groupRest? .top t).map fun p => (w ++ p.1, p.2) := by
  induction w with
  | nil => exact Option.map_id'.symm
  | cons c w ih =>
    obtain ⟨⟨⟨hopen, hclose⟩, hsingle, hdouble⟩, hw⟩ := List.forall_mem_cons.mp h
    rw [List.cons_append, groupRest?, if_neg hclose, if_neg hdouble]
    dsimp only
    rw [if_neg hsingle, if_neg hopen, ih hw, Option.map_map]
    rfl

theorem groupRest?_group {w : Text} (h : Open w) (t : Text) :
    groupRest? .top ('(' :: (w ++ ')' :: t)) =
      (groupRest? .top t).map fun p => ('(' :: (w ++ ')' :: p.1), p.2) := by
  show (groupRest? .inner (w ++ ')' :: t)).map _ = _
  rw [groupRest?_inner h]
  show Option.map _ (Option.map _ (Option.map _ (groupRest? .top t))) = _
  rw [Option.map_map, Option.map_map]
  rfl

-- The level of a group that is read tells how many groups are open.
theorem Closes.fits_groupRest (h : Closes n s) :
    (n ≠ 0 → Fits (groupRest? .top) s) ∧ (1 < n → Fits (groupRest? .inner) s) := by
  induction h with
  | nil => exact ⟨fun h => absurd rfl h, fun h => absurd h (by decide)⟩
  | @plain n c s hc _ ih =>
    have hpassed := List.forall_mem_singleton.mpr (passed_of_not_isDelimiter hc)
    exact ⟨fun hn => (ih.1 hn).map (w := [c]) fun x => groupRest?_passed hpassed _,
      fun hn => (ih.2 hn).map (w := [c]) fun x =>
        groupRest?_inner (fun d hd => (hpassed d hd).1) _⟩
  | @literal n mark w s hmark hw hinner _ _ ih =>
    refine ⟨fun hn => ?_, fun hn => (ih.2 hn).map fun x => groupRest?_inner (hinner (by omega)) _⟩
    rcases hmark with rfl | rfl
    · exact (ih.1 hn).map fun x => groupRest?_literal hw _
    · -- no group goes on with a double quote
      obtain ⟨v, rfl⟩ := exists_of_literal hw
      exact Or.inl fun x => rfl
  | name hw _ ih =>
    exact ⟨fun hn => (ih.1 hn).map fun x => groupRest?_passed hw.passed _,
      fun hn => (ih.2 hn).map fun x => groupRest?_inner (fun c hc => (hw.passed c hc).1) _⟩
  | opens _ ih =>
    exact ⟨fun _ => (ih.2 (by omega)).map (w := ['(']) fun x => rfl, fun _ => Or.inl fun x => rfl⟩
  | @closes n s h ih =>
    refine ⟨fun _ => Or.inr ⟨[')'], s, n, rfl, h, fun x => rfl⟩, fun hn => ?_⟩
    exact (ih.1 (by omega)).map (w := [')']) fun x => rfl

theorem Closes.fits_group (h : Closes n s) (hn : n ≠ 0) : Fits group? s := by
  cases h with
  | nil => exact absurd rfl hn
  | plain hc => exact Or.inl fun x => group?_of_ne (ne_of_not_isDelimiter hc rfl) _
  | literal hmark hw =>
    obtain ⟨v, rfl⟩ := exists_of_literal hw
    exact Or.inl fun x => group?_of_ne (by rcases hmark with rfl | rfl <;> decide) _
  | name hw =>
    obtain ⟨v, rfl, -⟩ := hw
    exact Or.inl fun x => rfl
  | opens h => exact (h.fits_groupRest.1 (Nat.succ_ne_zero _)).map (w := ['(']) fun x => rfl
  | closes => exact Or.inl fun x => rfl

/-! ## 4. Tokens -/

-- What no delimiter satisfies, seen on each of them.
theorem not_of_isDelimiter {p : Char → Bool}
    (hp : (['\x27', '\x22', '\x60', '(', ')'].all (!p ·)) = true) (c : Char)
    (h : isDelimiter c = true) : p c = false := by
  have hmem : c ∈ ['\x27', '\x22', '\x60', '(', ')'] := by
    simpa [isDelimiter, isQuoteMark, or_assoc] using h
  simpa using List.all_eq_true.mp hp c hmem

theorem not_isNameChar_of_isDelimiter : ∀ c, isDelimiter c = true → isNameChar c = false :=
  not_of_isDelimiter (by decide)

theorem not_isWord_of_isDelimiter : ∀ c, isDelimiter c = true → isWord c = false :=
  not_of_isDelimiter (by decide)

theorem not_isBlank_of_isDelimiter : ∀ c, isDelimiter c = true → isBlank c = false :=
  not_of_isDelimiter (by decide)

theorem not_isNumeric_of_isDelimiter : ∀ c, isDelimiter c = true → isNumeric c = false :=
  not_of_isDelimiter (by decide)

theorem Closes.fits_word (h : Closes n s) (hn : n ≠ 0) (c : Char) : Fits word? (c :: s) := by
  have hspan := fun x => h.span not_isNameChar_of_isDelimiter hn x
  by_cases hc : startsWord c = true
  · have hsplit : s.takeWhile isNameChar ++ s.dropWhile isNameChar = s :=
      List.takeWhile_append_dropWhile
    have hrest := h.dropWhile not_isNameChar_of_isDelimiter hn
    rcases hrest.fits_group hn with hgroup | ⟨g, r, k, hr, hk, hgroup⟩
    · refine Or.inr ⟨c :: s.takeWhile isNameChar, _, n, congrArg (c :: ·) hsplit.symm, hrest, ?_⟩
      intro x
      simp only [List.cons_append, word?, (hspan x).1, (hspan x).2, hgroup]
      exact if_pos hc
    · refine Or.inr ⟨c :: s.takeWhile isNameChar ++ g, r, k, ?_, hk, fun x => ?_⟩
      · rw [List.append_assoc, ← hr]
        exact congrArg (c :: ·) hsplit.symm
      · simp only [List.cons_append, word?, (hspan x).1, (hspan x).2, hgroup]
        exact if_pos hc
  · exact Or.inl fun x => word?_eq_none.mpr (by simpa using hc)

theorem Closes.of_plain {u : Text} (hu : ∀ c ∈ u, isDelimiter c = false)
    (h : Closes n (u ++ s)) : Closes n s := by
  induction u with
  | nil => exact h
  | cons c u ih =>
    obtain ⟨hc, hu⟩ := List.forall_mem_cons.mp hu
    refine ih hu ?_
    generalize ht : c :: u ++ s = t at h
    cases h with
    | nil => cases ht
    | plain _ h =>
      cases ht
      exact h
    | literal hmark hw =>
      obtain ⟨v, rfl⟩ := exists_of_literal hw
      obtain ⟨rfl, -⟩ := List.cons.inj ht
      rw [isDelimiter_of_mark hmark] at hc
      cases hc
    | name hw =>
      obtain ⟨v, rfl, -⟩ := hw
      obtain ⟨rfl, -⟩ := List.cons.inj ht
      cases hc
    | opens =>
      cases ht
      cases hc
    | closes =>
      cases ht
      cases hc

theorem Closes.fits_number (h : Closes n s) (hn : n ≠ 0) : Fits number? s := by
  -- a number ends before the first closing parenthesis
  obtain ⟨a, b, rfl⟩ := List.append_of_mem (List.mem_of_getLast? (h.getLast? hn))
  have hnumber : ∀ x, number? (a ++ ')' :: b ++ x) =
      (number? a).map fun p => (p.1, p.2 ++ (')' :: b ++ x)) := by
    intro x
    rw [List.append_assoc]
    exact number?_append (breaks_cons (by decide) _) a
  cases ha : number? a with
  | none => exact Or.inl fun x => by rw [hnumber, ha, Option.map_none]
  | some p =>
    obtain ⟨u, r⟩ := p
    have hnumeric := (isNumeric_of_number ha).2
    obtain rfl := number?_splits ha
    rw [List.append_assoc] at h
    refine Or.inr ⟨u, r ++ ')' :: b, n, List.append_assoc _ _ _, ?_, fun x => ?_⟩
    · refine h.of_plain fun c hc => ?_
      by_contra hdelimiter
      have := not_isNumeric_of_isDelimiter c (by simpa using hdelimiter)
      rw [hnumeric c hc] at this
      cases this
    · rw [hnumber, ha, List.append_assoc]
      rfl

theorem Closes.fits_string {c : Char} (hc : isDelimiter c = false) (h : Closes n s) (hn : n ≠ 0) :
    Fits string? (c :: s) := by
  have hliteral := fun s : Text => Literal.read?_of_ne (ne_of_not_isDelimiter hc (d := '\x27') rfl) s
  have hliteral' := fun s : Text => Literal.read?_of_ne (ne_of_not_isDelimiter hc (d := '\x22') rfl) s
  refine Fits.orElse ?_ (Fits.orElse (Or.inl fun x => hliteral _) (Or.inl fun x => hliteral' _))
  by_cases hmark : "bBxXnN".toList.contains c = true
  · exact (h.fits_literal (Or.inl rfl) hn).map (w := [c]) fun x => if_pos hmark
  by_cases hname : c = '_'
  · have hlead : ∀ x, (if "bBxXnN".toList.contains c then
        (Literal.read? '\x27' (s ++ x)).map fun p => (c :: p.1, p.2)
      else if c = '_' then (Text.run? isWord (s ++ x)).bind fun p =>
        (Literal.read? '\x27' p.2).bind fun q => some (c :: p.1 ++ q.1, q.2)
      else none) = ((Text.run? isWord s).map fun p => (p.1, p.2 ++ x)).bind fun p =>
        (Literal.read? '\x27' p.2).bind fun q => some (c :: p.1 ++ q.1, q.2) := by
      intro x
      rw [if_neg hmark, if_pos hname, h.run? not_isWord_of_isDelimiter hn]
    cases hrun : Text.run? isWord s with
    | none => exact Or.inl fun x => (hlead x).trans (by rw [hrun]; rfl)
    | some p =>
      obtain ⟨w, r⟩ := p
      obtain rfl := Text.append_of_run? hrun
      have hr : Closes n r := h.of_plain fun d hd => by
        by_contra hdelimiter
        have := not_isWord_of_isDelimiter d (by simpa using hdelimiter)
        rw [(Text.mem_run hrun).2 d hd] at this
        cases this
      refine (hr.fits_literal (Or.inl rfl) hn).map (w := c :: w) fun x => ?_
      have := hlead x
      rw [List.append_assoc, hrun] at this
      refine this.trans ?_
      show (Literal.read? '\x27' (r ++ x)).bind _ = _
      cases Literal.read? '\x27' (r ++ x) <;> rfl
  · exact Or.inl fun x => (if_neg hmark).trans (if_neg hname)

-- A literal or a name is read whole.
theorem read?_literal {mark : Char} {w x : Text} (hmark : mark = '\x27' ∨ mark = '\x22')
    (hw : Literal.read? mark w = some (w, [])) (hx : ∀ r, x ≠ mark :: r) :
    read? (w ++ x) = some (w, x) := by
  have hescape : mark ≠ '\\' := by rcases hmark with rfl | rfl <;> decide
  have hread := Literal.read?_whole hescape hw hx
  have hstring : string? (w ++ x) = some (w, x) := by
    obtain ⟨v, rfl⟩ := exists_of_literal hw
    rcases hmark with rfl | rfl
    · show (none <|> Literal.read? '\x27' _ <|> _) = _
      rw [hread]
      rfl
    · show (none <|> Literal.read? '\x27' _ <|> _) = _
      rw [hread]
      rfl
  show (string? (w ++ x) <|> _) = _
  rw [hstring]
  rfl

theorem read?_name {w : Text} (hw : IsName w) (x : Text) : read? (w ++ x) = some (w, x) := by
  obtain ⟨v, rfl, hv⟩ := hw
  have hplain : ∀ c ∈ v, decide (c ≠ '\x60') = true := fun c hc =>
    decide_eq_true (ne_of_not_isDelimiter (hv c hc) rfl)
  have hname : backquoted? ('\x60' :: (v ++ '\x60' :: x)) = some ('\x60' :: (v ++ ['\x60']), x) := by
    rw [backquoted?.eq_1, List.takeWhile_append_of_pos hplain, List.dropWhile_append_of_pos hplain,
      List.dropWhile_cons_of_neg (by decide), List.takeWhile_cons_of_neg (by decide),
      List.append_nil]
    rfl
  rw [List.cons_append, List.append_assoc, List.singleton_append]
  show (none <|> backquoted? _ <|> _) = _
  rw [hname]
  rfl

/-- In open groups, the token at the front is the same whatever follows the groups. -/
theorem Closes.fits_read (h : Closes n s) (hn : n ≠ 0) : Fits read? s := by
  cases h with
  | nil => exact absurd rfl hn
  | @plain n c s hc h =>
    refine (fits_string hc h (Nat.succ_ne_zero n)).orElse (Fits.orElse ?_ (Fits.orElse ?_
      ((h.fits_word (Nat.succ_ne_zero n) c).orElse (Fits.orElse ?_ ?_))))
    · exact Or.inl fun x => backquoted?_of_ne (ne_of_not_isDelimiter hc rfl) _
    · exact (Closes.plain hc h).fits_number (Nat.succ_ne_zero n)
    · exact Or.inl fun x => group?_of_ne (ne_of_not_isDelimiter hc rfl) _
    · exact Or.inr ⟨[c], s, _, rfl, h, fun x => rfl⟩
  | literal hmark hw _ hnext h =>
    refine Or.inr ⟨_, _, _, rfl, h, fun x => ?_⟩
    rw [List.append_assoc]
    exact read?_literal hmark hw (h.apart hnext x)
  | name hw h =>
    refine Or.inr ⟨_, _, _, rfl, h, fun x => ?_⟩
    rw [List.append_assoc]
    exact read?_name hw _
  | @opens n s h =>
    have hread : ∀ x, read? ('(' :: s ++ x) = (group? ('(' :: s ++ x) <|> some (['('], s ++ x)) :=
      fun x => rfl
    rcases (Closes.opens h).fits_group (Nat.succ_ne_zero n) with hgroup | ⟨u, r, k, hs, hr, hgroup⟩
    · refine Or.inr ⟨['('], s, _, rfl, h, fun x => ?_⟩
      rw [hread, hgroup]
      rfl
    · refine Or.inr ⟨u, r, k, hs, hr, fun x => ?_⟩
      rw [hread, hgroup]
      rfl
  | closes h => exact Or.inr ⟨[')'], _, _, rfl, h, fun x => rfl⟩

/-! ## 5. The tokens of an expression -/

/-- In open groups, the tokens are the same whatever follows the groups, and the last one ends with
the last closing parenthesis. -/
theorem Closes.all_append (h : Closes n s) (hn : n ≠ 0) : ∃ tokens last,
    last.getLast? = some ')' ∧ ∀ x, all (s ++ x) = tokens ++ last :: all x := by
  generalize hlength : s.length = m
  induction m using Nat.strong_induction_on generalizing n s with
  | _ m ih =>
    have hblank : ∀ c, isDelimiter c = true → isBlank c = false := not_isBlank_of_isDelimiter
    have htrim : ∀ x, Text.trimLeft (s ++ x) = Text.trimLeft s ++ x := fun x =>
      (h.span hblank hn x).2
    have hclosed : Closes n (Text.trimLeft s) := h.dropWhile hblank hn
    rcases hclosed.fits_read hn with hread | ⟨u, r, k, hs, hr, hread⟩
    · obtain ⟨c, t, hcons⟩ := hclosed.exists_cons hn
      have := hread []
      rw [List.append_nil, hcons] at this
      exact absurd this (read?_cons_ne_none c t)
    have hall : ∀ x, all (s ++ x) = u :: all (r ++ x) := by
      intro x
      rw [all_eq, htrim, hread]
    by_cases hk : k = 0
    · -- the groups are closed with this token
      subst hk
      cases hr
      rw [List.append_nil] at hs
      refine ⟨[], u, ?_, fun x => hall x⟩
      rw [← hs]
      exact hclosed.getLast? hn
    · have hshort : r.length < m := by
        have := hread []
        rw [List.append_nil, List.append_nil] at this
        exact hlength ▸ length_of_read? this
      obtain ⟨tokens, last, hlast, htokens⟩ := ih r.length hshort hr hk rfl
      exact ⟨u :: tokens, last, hlast, fun x => by rw [hall, htokens]; rfl⟩

theorem all_open {t u x : Text} (h : (group? ('(' :: t) <|> some (['('], t)) = some (u, x)) :
    all ('(' :: t) = u :: all x := by
  have hread : read? ('(' :: t) = some (u, x) := h
  have htrim : Text.trimLeft ('(' :: t) = '(' :: t := Text.trimLeft_cons (by decide) t
  rw [all_eq, htrim, hread]

/-- **The tokens of an expression in parentheses are the same whatever follows them.** -/
theorem all_expression {e : Text} (h : Expression false e) : ∃ tokens last,
    last.getLast? = some ')' ∧
      ∀ x, all ('(' :: (e ++ ')' :: x)) = tokens ++ last :: all x := by
  have hclosed : Closes 1 (e ++ [')']) := .of_expression h (fun _ => rfl) .nil
  have hshift : ∀ x, e ++ ')' :: x = e ++ [')'] ++ x := fun x => by simp
  rcases hclosed.fits_groupRest.1 Nat.one_ne_zero with hgroup | ⟨u, r, k, hs, hr, hgroup⟩
  · -- the parenthesis stands alone
    obtain ⟨tokens, last, hlast, htokens⟩ := hclosed.all_append Nat.one_ne_zero
    refine ⟨['('] :: tokens, last, hlast, fun x => ?_⟩
    rw [List.cons_append, ← htokens, hshift]
    refine all_open ?_
    rw [group?, hgroup]
    rfl
  have hall : ∀ x, all ('(' :: (e ++ ')' :: x)) = ('(' :: u) :: all (r ++ x) := by
    intro x
    refine all_open ?_
    rw [group?, hshift, hgroup]
    rfl
  by_cases hk : k = 0
  · subst hk
    cases hr
    rw [List.append_nil] at hs
    refine ⟨[], '(' :: u, ?_, hall⟩
    rw [← hs, ← List.cons_append, List.getLast?_concat]
  · obtain ⟨tokens, last, hlast, htokens⟩ := hr.all_append hk
    exact ⟨('(' :: u) :: tokens, last, hlast, fun x => by rw [hall, htokens]; rfl⟩

theorem groupRest?_flat {e : Text} (h : Flat e) (x : Text) :
    groupRest? .top (e ++ ')' :: x) = some (e ++ [')'], x) := by
  induction h with
  | nil => rfl
  | @plain c e hc _ ih =>
    have hpassed := List.forall_mem_singleton.mpr (passed_of_not_isDelimiter hc)
    refine (groupRest?_passed hpassed (e ++ ')' :: x)).trans ?_
    rw [ih]
    rfl
  | literal hw _ ih =>
    rw [List.append_assoc, groupRest?_literal hw, ih]
    simp
  | name hw _ ih =>
    rw [List.append_assoc, groupRest?_passed hw.passed, ih]
    simp
  | group hw _ ih =>
    rw [List.cons_append, List.append_assoc, List.cons_append, groupRest?_group hw, ih]
    simp

theorem all_flat {e : Text} (h : Flat e) (x : Text) :
    all ('(' :: (e ++ ')' :: x)) = ('(' :: (e ++ [')'])) :: all x := by
  refine all_open ?_
  rw [group?, groupRest?_flat h]
  rfl

end Token

end SqlDump
