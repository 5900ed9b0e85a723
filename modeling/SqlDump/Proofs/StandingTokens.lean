import SqlDump.Proofs.Tails

/-!
# Tokens that stand by themselves

A text that is one token by itself is read as that token in front of a blank, a comma, a closing
parenthesis or nothing, unless it is a mark that opens something. So tokens with blanks before them
are the tokens of the text that they make up, whatever follows behind a break.
-/

namespace SqlDump

/-! ## 1. Literals -/

namespace Literal

theorem read?_of_ne {mark c : Char} (h : c ≠ mark) (s : Text) : read? mark (c :: s) = none :=
  if_neg h

theorem first_of_read? {mark c : Char} {s : Text} {p : Text × Text}
    (h : read? mark (c :: s) = some p) : c = mark := by
  by_contra hc
  rw [read?_of_ne hc] at h
  cases h

/-- A literal that goes to the end of a text goes no further if no other mark follows. -/
theorem rest?_whole {mark : Char} (hmark : mark ≠ '\\') {s x : Text}
    (h : rest? mark s = some (s, [])) (hx : ∀ r, x ≠ mark :: r) :
    rest? mark (s ++ x) = some (s, x) := by
  fun_induction rest? mark s with
  | case1 => cases h
  | case2 =>
    cases x with
    | nil => simp [rest?]
    | cons d x =>
      have hd : d ≠ mark := fun e => hx x (e ▸ rfl)
      simp [rest?, hmark, hd]
  | case3 => cases h
  | case4 => cases h
  | case5 d s hd ih =>
    obtain ⟨⟨v, t⟩, hv, e⟩ := Option.map_eq_some_iff.mp h
    cases e
    show rest? mark ('\\' :: d :: (s ++ x)) = _
    rw [rest?, if_pos rfl, if_neg hd, ih hv]
    rfl
  | case6 s u r hread _ ih =>
    cases h
    show rest? mark (mark :: mark :: (s ++ x)) = _
    rw [rest?, if_neg hmark, if_pos rfl, if_pos rfl, ih hread]
  | case7 => cases h
  | case8 => cases h
  | case9 c d s hescape hc ih =>
    obtain ⟨⟨v, t⟩, hv, e⟩ := Option.map_eq_some_iff.mp h
    cases e
    show rest? mark (c :: d :: (s ++ x)) = _
    rw [rest?, if_neg hescape, if_neg hc, ← List.cons_append, ih hv]
    rfl

theorem exists_of_read? {mark : Char} {s : Text} (h : read? mark s = some (s, [])) :
    ∃ v, s = mark :: v ∧ rest? mark v = some (v, []) := by
  cases s with
  | nil => cases h
  | cons c s =>
    obtain rfl := first_of_read? h
    rw [read?, if_pos rfl] at h
    obtain ⟨⟨v, t⟩, hv, e⟩ := Option.map_eq_some_iff.mp h
    cases e
    exact ⟨s, rfl, hv⟩

theorem read?_whole {mark : Char} (hmark : mark ≠ '\\') {s x : Text}
    (h : read? mark s = some (s, [])) (hx : ∀ r, x ≠ mark :: r) :
    read? mark (s ++ x) = some (s, x) := by
  obtain ⟨v, rfl, hv⟩ := exists_of_read? h
  rw [List.cons_append, read?, if_pos rfl, rest?_whole hmark hv hx]
  rfl

end Literal

namespace Token

variable {x : Text}

/-! ## 2. Groups and names -/

-- A group is read alike whatever follows it.
theorem groupRest?_of_some {level : Level} {s u r : Text} (h : groupRest? level s = some (u, r))
    (x : Text) : groupRest? level (s ++ x) = some (u, r ++ x) := by
  fun_induction groupRest? level s generalizing u r with
  | case1 => cases h
  | case2 =>
    cases h
    rfl
  | case3 => cases h
  | case4 c s hclose hquote next =>
    rename_i ih
    obtain ⟨⟨v, t⟩, hv, e⟩ := Option.map_eq_some_iff.mp h
    cases e
    rw [List.cons_append, groupRest?, if_neg hclose, if_neg hquote]
    exact congrArg (Option.map _) (ih hv)
  | case5 => cases h
  | case6 c s hopen ih =>
    obtain ⟨⟨v, t⟩, hv, e⟩ := Option.map_eq_some_iff.mp h
    cases e
    rw [List.cons_append, groupRest?, if_neg hopen, ih hv]
    rfl
  | case7 => cases h
  | case8 => cases h
  | case9 d s hd ih =>
    obtain ⟨⟨v, t⟩, hv, e⟩ := Option.map_eq_some_iff.mp h
    cases e
    show groupRest? .string ('\\' :: d :: (s ++ x)) = _
    rw [groupRest?, if_pos rfl, if_neg hd, ih hv]
    rfl
  | case10 c d s hc ih =>
    obtain ⟨⟨v, t⟩, hv, e⟩ := Option.map_eq_some_iff.mp h
    cases e
    show groupRest? .string (c :: d :: (s ++ x)) = _
    rw [groupRest?, if_neg hc, ← List.cons_append, ih hv]
    rfl

theorem group?_of_some {s u r : Text} (h : group? s = some (u, r)) (x : Text) :
    group? (s ++ x) = some (u, r ++ x) := by
  unfold group? at h
  split at h
  · obtain ⟨⟨v, t⟩, hv, e⟩ := Option.map_eq_some_iff.mp h
    cases e
    rw [List.cons_append, group?, groupRest?_of_some hv]
    rfl
  · cases h

theorem group?_of_ne {c : Char} (hc : c ≠ '(') (s : Text) : group? (c :: s) = none := by
  unfold group?
  split
  · rename_i heq
    exact absurd (List.cons.inj heq).1 hc
  · rfl

theorem group?_of_breaks (hx : Breaks x) : group? x = none := by
  cases x with
  | nil => rfl
  | cons c r => exact group?_of_ne (hx.ne rfl (by decide)) r

theorem backquoted?_of_some {s u r : Text} (h : backquoted? s = some (u, r)) (x : Text) :
    backquoted? (s ++ x) = some (u, r ++ x) := by
  unfold backquoted? at h
  split at h
  · rename_i s
    split at h
    · rename_i c t ht
      cases h
      obtain ⟨htake, hdrop⟩ := span_append ht x
      rw [List.cons_append, backquoted?.eq_1, htake, hdrop]
    · cases h
  · cases h

/-! ## 3. Strings, numbers and words -/

/-- Whether a letter marks the notation of a string, or starts the name of a character set. -/
def marksString (c : Char) : Bool := "bBxXnN".toList.contains c || c = '_'

theorem string?_of_first {c : Char} (hmark : marksString c = false) (hsingle : c ≠ '\x27')
    (hdouble : c ≠ '\x22') (s : Text) : string? (c :: s) = none := by
  rw [marksString, Bool.or_eq_false_iff, decide_eq_false_iff_not] at hmark
  unfold string?
  dsimp only
  rw [hmark.1, if_neg Bool.false_ne_true, if_neg hmark.2, Literal.read?_of_ne hsingle,
    Literal.read?_of_ne hdouble]
  rfl

-- No string starts with a character of a name if no mark follows the name.
theorem string?_of_name {c : Char} {s : Text} (hsingle : c ≠ '\x27') (hdouble : c ≠ '\x22')
    (h : ∀ r, s.dropWhile isNameChar ≠ '\x27' :: r) : string? (c :: s) = none := by
  have hnone : ∀ {u r : Text}, s = u ++ r → (∀ d ∈ u, isNameChar d = true) →
      Literal.read? '\x27' r = none := by
    intro u r hs hu
    cases r with
    | nil => rfl
    | cons d r =>
      refine Literal.read?_of_ne ?_ r
      rintro rfl
      refine h r ?_
      rw [hs, List.dropWhile_append_of_pos hu, List.dropWhile_cons_of_neg (by decide)]
  unfold string?
  dsimp only
  rw [Literal.read?_of_ne hsingle, Literal.read?_of_ne hdouble]
  split
  · rw [hnone (List.nil_append s).symm fun _ hd => (List.not_mem_nil hd).elim]
    rfl
  · split
    · cases hrun : Text.run? isWord s with
      | none => rfl
      | some p =>
        have hword : ∀ d ∈ p.1, isNameChar d = true := fun d hd => by
          rw [isNameChar, (Text.mem_run hrun).2 d hd]
          rfl
        show ((Literal.read? '\x27' p.2).bind _ <|> none) = none
        rw [hnone (Text.append_of_run? hrun) hword]
        rfl
    · rfl

theorem string?_whole {t : Text} (h : string? t = some (t, [])) (hx : Breaks x) :
    string? (t ++ x) = some (t, x) := by
  have hsingle : ∀ r, x ≠ '\x27' :: r := fun r e => hx.ne e (by decide) rfl
  have hdouble : ∀ r, x ≠ '\x22' :: r := fun r e => hx.ne e (by decide) rfl
  cases t with
  | nil => cases h
  | cons c s =>
    unfold string? at h ⊢
    rw [List.cons_append]
    dsimp only at h ⊢
    rcases Outcome.orElse_eq_some.mp h with h | ⟨hnone, h⟩
    · split at h
      · rename_i hmark
        obtain ⟨⟨v, r⟩, hv, e⟩ := Option.map_eq_some_iff.mp h
        cases e
        rw [if_pos hmark, Literal.read?_whole (by decide) hv hsingle]
        rfl
      · rename_i hmark
        split at h
        · rename_i hname
          obtain ⟨⟨w, r⟩, hw, h⟩ := Option.bind_eq_some_iff.mp h
          obtain ⟨⟨v, r'⟩, hv, h⟩ := Option.bind_eq_some_iff.mp h
          cases h
          obtain rfl := List.append_cancel_left (Text.append_of_run? hw)
          rw [if_neg hmark, if_pos hname, run?_append hx stopsAtBreaks_isWord, hw]
          show ((Literal.read? '\x27' (v ++ x)).bind _ <|> _) = _
          rw [Literal.read?_whole (by decide) hv hsingle]
          rfl
        · cases h
    · -- no letter marks the notation
      rcases Outcome.orElse_eq_some.mp h with h | ⟨-, h⟩
      · obtain rfl := Literal.first_of_read? h
        rw [if_neg (by decide), if_neg (by decide), ← List.cons_append,
          Literal.read?_whole (by decide) h hsingle]
        rfl
      · obtain rfl := Literal.first_of_read? h
        rw [if_neg (by decide), if_neg (by decide), Literal.read?_of_ne (by decide),
          ← List.cons_append, Literal.read?_whole (by decide) h hdouble]
        rfl

theorem word?_whole {t : Text} (h : word? t = some (t, [])) (hx : Breaks x) :
    word? (t ++ x) = some (t, x) := by
  cases t with
  | nil => cases h
  | cons c s =>
    unfold word? at h ⊢
    rw [List.cons_append]
    dsimp only at h ⊢
    split at h
    · rename_i hc
      rw [if_pos hc]
      obtain ⟨htake, hdrop⟩ := takeWhile_append hx stopsAtBreaks_isNameChar s
      rw [htake, hdrop]
      split at h
      · rename_i g r hg
        obtain ⟨ht, rfl⟩ := Prod.mk.inj (Option.some.inj h)
        rw [group?_of_some hg]
        exact congrArg (fun u => some (u, x)) ht
      · obtain ⟨ht, hr⟩ := Prod.mk.inj (Option.some.inj h)
        rw [hr, List.nil_append, group?_of_breaks hx]
        exact congrArg (fun u => some (u, x)) ht
    · cases h

/-- Whether a word may start with a character. -/
def startsWord (c : Char) : Bool := c.isAlpha || c = '_' || c = '$'

theorem word?_eq_none {c : Char} {s : Text} : word? (c :: s) = none ↔ startsWord c = false := by
  unfold word?
  dsimp only
  rw [← Bool.not_eq_true, startsWord]
  split
  · rename_i hc
    split <;> simp [hc]
  · rename_i hc
    simp [hc]

theorem startsWord_of_marksString {c : Char} (h : marksString c = true) : startsWord c = true := by
  rw [marksString, Bool.or_eq_true, decide_eq_true_eq] at h
  rcases h with h | rfl
  · have hall : "bBxXnN".toList.all startsWord = true := by decide
    exact List.all_eq_true.mp hall c (List.contains_iff_mem.mp h)
  · rfl

-- No mark stands behind the name that a word starts with.
theorem not_quote_of_word? {c : Char} {s u : Text} (h : word? (c :: s) = some (u, [])) (r : Text) :
    s.dropWhile isNameChar ++ x = '\x27' :: r → x = '\x27' :: r := by
  intro e
  unfold word? at h
  dsimp only at h
  split at h
  · split at h
    · rename_i g t hg
      cases hdrop : s.dropWhile isNameChar with
      | nil =>
        rw [hdrop] at hg
        cases hg
      | cons d t' =>
        rw [hdrop] at hg e
        rw [(List.cons.inj e).1, group?_of_ne (by decide)] at hg
        cases hg
    · rw [(Prod.mk.inj (Option.some.inj h)).2] at e
      exact e
  · cases h

theorem ne_of_startsWord {c d : Char} (h : startsWord c = true) (hd : startsWord d = false) :
    c ≠ d := by
  rintro rfl
  rw [h] at hd
  cases hd

-- A number starts with a sign or a digit.
theorem first_of_number? {c : Char} {s : Text} {p : Text × Text} (h : number? (c :: s) = some p) :
    c = '-' ∨ isDigit c = true := by
  by_contra hc
  rw [not_or, Bool.not_eq_true] at hc
  unfold number? at h
  have hsign : (c :: s).takeWhile (· = '-') = [] := List.takeWhile_cons_of_neg (by simp [hc.1])
  have hdigits : (c :: s).takeWhile isDigit = [] := List.takeWhile_cons_of_neg (by simp [hc.2])
  rw [hsign] at h
  dsimp only at h
  rw [List.take_nil, List.length_nil, List.drop_zero, Text.run?, hdigits] at h
  cases h

-- No string or name does.
theorem apart_of_number? {c : Char} {s : Text} {p : Text × Text} (h : number? (c :: s) = some p) :
    marksString c = false ∧ c ≠ '\x27' ∧ c ≠ '\x22' ∧ c ≠ '\x60' := by
  rcases first_of_number? h with rfl | hc
  · decide
  have hne : ∀ d, isDigit d = false → c ≠ d := by
    rintro d hd rfl
    rw [hc] at hd
    cases hd
  have hmarks : "bBxXnN".toList.all (!isDigit ·) = true := by decide
  refine ⟨?_, hne _ (by decide), hne _ (by decide), hne _ (by decide)⟩
  rw [marksString, Bool.or_eq_false_iff, decide_eq_false_iff_not]
  refine ⟨?_, hne _ (by decide)⟩
  by_contra hmem
  rw [Bool.not_eq_false] at hmem
  have := List.all_eq_true.mp hmarks c (List.contains_iff_mem.mp hmem)
  rw [hc] at this
  cases this

/-! ## 4. Standing tokens -/

/-- The marks that open a string, a name or a group. -/
def openers : List Text := [['\x27'], ['\x22'], ['\x60'], ['(']]

/-- One token by itself, and no mark that opens something. -/
structure Standing (t : Text) : Prop where
  whole : all t = [t]
  closed : t ∉ openers

instance (t : Text) : Decidable (Standing t) :=
  decidable_of_iff (all t = [t] ∧ t ∉ openers) ⟨fun h => ⟨h.1, h.2⟩, fun h => ⟨h.whole, h.closed⟩⟩

namespace Standing

variable {t : Text}

theorem read_self (h : Standing t) : Text.trimLeft t = t ∧ read? t = some (t, []) := by
  have hwhole := h.whole
  rw [all_eq] at hwhole
  cases hread : read? (Text.trimLeft t) with
  | none =>
    rw [hread] at hwhole
    cases hwhole
  | some p =>
    obtain ⟨u, r⟩ := p
    rw [hread] at hwhole
    obtain rfl : u = t := (List.cons.inj hwhole).1
    have hsplits := read?_splits hread
    have hlength : (Text.trimLeft u).length ≤ u.length := List.length_dropWhile_le isBlank u
    rw [hsplits, List.length_append] at hlength
    have hr : r.length = 0 := by omega
    obtain rfl := List.eq_nil_of_length_eq_zero hr
    rw [List.append_nil] at hsplits
    rw [hsplits] at hread
    exact ⟨hsplits, hread⟩

theorem starts (h : Standing t) : ∃ c r, t = c :: r ∧ isBlank c = false := by
  cases t with
  | nil => cases h.whole
  | cons c r => exact ⟨c, r, rfl, Text.not_isBlank_of_trimLeft h.read_self.1⟩

/-- A standing token is read as it stands in front of a break. -/
theorem read (h : Standing t) (hx : Breaks x) : read? (t ++ x) = some (t, x) := by
  have hwhole := h.read_self.2
  obtain ⟨c, s, rfl, -⟩ := h.starts
  unfold read? at hwhole ⊢
  rcases Outcome.orElse_eq_some.mp hwhole with hstring | ⟨hstring, hwhole⟩
  · rw [string?_whole hstring hx]
    rfl
  rcases Outcome.orElse_eq_some.mp hwhole with hname | ⟨hname, hwhole⟩
  · obtain rfl : c = '\x60' := by
      by_contra hc
      rw [backquoted?_of_ne hc] at hname
      cases hname
    rw [backquoted?_of_some hname, List.cons_append,
      string?_of_first (by decide) (by decide) (by decide)]
    rfl
  have hnumber' := number?_append hx (c :: s)
  rcases Outcome.orElse_eq_some.mp hwhole with hnumber | ⟨hnumber, hwhole⟩
  · obtain ⟨hmark, hsingle, hdouble, hname⟩ := apart_of_number? hnumber
    rw [hnumber', hnumber, List.cons_append, string?_of_first hmark hsingle hdouble,
      backquoted?_of_ne hname]
    rfl
  rw [hnumber] at hnumber'
  rcases Outcome.orElse_eq_some.mp hwhole with hword | ⟨hword, hwhole⟩
  · have hfirst : startsWord c = true := by
      by_contra hc
      rw [word?_eq_none.mpr (by simpa using hc)] at hword
      cases hword
    have hstring' : string? (c :: (s ++ x)) = none := by
      refine string?_of_name (ne_of_startsWord hfirst (by decide))
        (ne_of_startsWord hfirst (by decide)) fun r e => ?_
      rw [(takeWhile_append hx stopsAtBreaks_isNameChar s).2] at e
      exact hx.ne (not_quote_of_word? hword r e) (by decide) rfl
    rw [hnumber', word?_whole hword hx, List.cons_append, hstring',
      backquoted?_of_ne (ne_of_startsWord hfirst (by decide))]
    rfl
  have hfirst := word?_eq_none.mp hword
  have hmark : marksString c = false := by
    by_contra hc
    rw [startsWord_of_marksString (by simpa using hc)] at hfirst
    cases hfirst
  have hword' : word? (c :: (s ++ x)) = none := word?_eq_none.mpr hfirst
  rcases Outcome.orElse_eq_some.mp hwhole with hgroup | ⟨hgroup, hwhole⟩
  · obtain rfl : c = '(' := by
      by_contra hc
      rw [group?_of_ne hc] at hgroup
      cases hgroup
    rw [hnumber', group?_of_some hgroup, List.cons_append, hword',
      string?_of_first hmark (by decide) (by decide), backquoted?_of_ne (by decide)]
    rfl
  obtain rfl : s = [] := (Prod.mk.inj (Option.some.inj hwhole)).2
  have hclosed := h.closed
  simp only [openers, List.mem_cons, List.cons.injEq, and_true, List.not_mem_nil, or_false,
    not_or] at hclosed
  obtain ⟨hsingle, hdouble, hname, hopen⟩ := hclosed
  rw [hnumber', List.cons_append, hword', string?_of_first hmark hsingle hdouble,
    backquoted?_of_ne hname, group?_of_ne hopen]
  rfl

theorem trimLeft_append (h : Standing t) {gap : Text} (hgap : ∀ c ∈ gap, isBlank c = true)
    (rest : Text) : Text.trimLeft (gap ++ t ++ rest) = t ++ rest := by
  obtain ⟨c, r, rfl, hc⟩ := h.starts
  rw [List.append_assoc, Text.trimLeft, List.dropWhile_append_of_pos hgap]
  exact Text.trimLeft_cons hc _

end Standing

/-- Each token behind one blank or more. -/
inductive Spread : List Text → Text → Prop
  | nil : Spread [] []
  | cons {gap t s : Text} {tokens : List Text} (hne : gap ≠ []) (hgap : ∀ c ∈ gap, isBlank c = true)
      (ht : Standing t) (hs : Spread tokens s) : Spread (t :: tokens) (gap ++ t ++ s)

theorem spread_spaced {tokens : List Text} (h : ∀ t ∈ tokens, Standing t) :
    Spread tokens (tokens.flatMap (' ' :: ·)) := by
  induction tokens with
  | nil => exact .nil
  | cons t tokens ih =>
    obtain ⟨ht, hrest⟩ := List.forall_mem_cons.mp h
    exact .cons (List.cons_ne_nil ' ' []) (List.forall_mem_singleton.mpr (by decide)) ht (ih hrest)

theorem Spread.append {tokens more : List Text} {s t : Text} (h : Spread tokens s)
    (hmore : Spread more t) : Spread (tokens ++ more) (s ++ t) := by
  induction h with
  | nil => exact hmore
  | cons hne hgap ht _ ih =>
    rw [List.append_assoc]
    exact .cons hne hgap ht ih

theorem Spread.breaks {tokens : List Text} {s : Text} (h : Spread tokens s) (hx : Breaks x) :
    Breaks (s ++ x) := by
  cases h with
  | nil => exact hx
  | cons hne hgap ht hs =>
    rename_i gap t s tokens
    obtain ⟨d, gap, rfl⟩ := List.exists_cons_of_ne_nil hne
    rintro c r e
    obtain ⟨rfl, -⟩ := List.cons.inj e
    rw [isBreaking, hgap d List.mem_cons_self]
    rfl

/-- Spread tokens are the tokens of their text, whatever follows behind a break. -/
theorem all_spread {tokens : List Text} {s : Text} (h : Spread tokens s) (hx : Breaks x) :
    all (s ++ x) = tokens ++ all x := by
  induction h with
  | nil => rfl
  | cons hne hgap ht hs ih =>
    rename_i gap t s tokens
    rw [List.append_assoc, all_eq, ht.trimLeft_append hgap, ht.read (hs.breaks hx)]
    exact congrArg (_ :: ·) ih

theorem all_comma {s r : Text} (h : Text.trimLeft s = ',' :: r) : all s = [','] :: all r := by
  rw [all_eq, h]
  rfl

end Token

end SqlDump
