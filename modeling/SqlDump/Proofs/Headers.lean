import SqlDump.Proofs.Cuts
import SqlDump.Proofs.Stripping

/-!
# The table that an ALTER statement changes

A statement's name is read the same with and without the semicolons at its end, so the changes of a
statement are made to the table that it names. Taken apart, a statement changes no other table,
unless its first change goes on with the name.
-/

namespace SqlDump

/-- Blanks and semicolons, as they stand behind a statement. -/
def Ending (x : Text) : Prop := ∀ c ∈ x, isBlank c = true ∨ c = ';'

theorem Ending.of_isBlank {x : Text} (h : ∀ c ∈ x, isBlank c = true) : Ending x :=
  fun c hc => Or.inl (h c hc)

theorem Ending.append {x y : Text} (hx : Ending x) (hy : Ending y) : Ending (x ++ y) :=
  fun c hc => (List.mem_append.mp hc).elim (hx c) (hy c)

theorem Ending.dropWhile {x : Text} (hx : Ending x) (p : Char → Bool) : Ending (x.dropWhile p) :=
  fun c hc => hx c ((List.dropWhile_sublist p).mem hc)

/-! ## 1. Names in front of an ending -/

namespace Identifier

variable {x : Text}

theorem not_isNameChar_of_ending (hx : Ending x) {c : Char} (hc : c ∈ x) :
    isNameChar c = false ∧ isNameMark c = false := by
  rcases hx c hc with hblank | rfl
  · exact ⟨not_isNameChar_of_isBlank hblank, isNameMark_of_isBlank hblank⟩
  · decide

theorem read?_ending (hx : Ending x) : read? x = none := by
  cases x with
  | nil => rfl
  | cons c x =>
    obtain ⟨hname, hmark⟩ := not_isNameChar_of_ending hx List.mem_cons_self
    rw [read?, hmark]
    show Text.run? isNameChar (c :: x) = none
    rw [Text.run?, List.takeWhile_cons_of_neg (by simp [hname])]

-- An ending neither closes a name nor goes on with it.
theorem quoted?_append (hx : Ending x) {mark : Char} (hmark : isNameMark mark = true) (s : Text) :
    quoted? mark (s ++ x) = (quoted? mark s).map fun p => (p.1, p.2 ++ x) := by
  unfold quoted?
  cases hrest : s.dropWhile (· ≠ mark) with
  | nil =>
    have hall : ∀ c ∈ s ++ x, decide (c ≠ mark) = true := by
      intro c hc
      rcases List.mem_append.mp hc with hc | hc
      · exact List.dropWhile_eq_nil_iff.mp hrest c hc
      · refine decide_eq_true ?_
        rintro rfl
        rw [(not_isNameChar_of_ending hx hc).2] at hmark
        cases hmark
    rw [List.dropWhile_eq_nil_iff.mpr hall]
    cases (s ++ x).takeWhile (· ≠ mark) <;> cases s.takeWhile (· ≠ mark) <;> rfl
  | cons c r =>
    obtain ⟨htake, hdrop⟩ := Token.span_append hrest x
    rw [htake, hdrop]
    cases s.takeWhile (· ≠ mark) <;> rfl

theorem read?_append (hx : Ending x) (s : Text) :
    read? (s ++ x) = (read? s).map fun p => (p.1, p.2 ++ x) := by
  cases s with
  | nil => exact read?_ending hx
  | cons c s =>
    rw [List.cons_append, read?, read?]
    cases hmark : isNameMark c with
    | true => exact quoted?_append hx hmark s
    | false =>
      show Text.run? isNameChar (c :: s ++ x) = (Text.run? isNameChar (c :: s)).map _
      refine Text.run?_append ?_ (c :: s)
      rintro d r rfl
      exact (not_isNameChar_of_ending hx List.mem_cons_self).1

theorem dot?_of_ending (hx : Ending x) : dot? x = none := by
  refine dot?_eq_none fun r hr => ?_
  have hmem : '.' ∈ x := (List.dropWhile_sublist isBlank).mem (hr ▸ List.mem_cons_self)
  rcases hx '.' hmem with h | h
  · exact absurd h (by decide)
  · exact absurd h (by decide)

-- Only blanks stand between a dot and the name behind it, so no semicolon gets there.
theorem dotted?_append (hx : Ending x) (s : Text) :
    dotted? (s ++ x) = (dotted? s).map fun p => (p.1, p.2 ++ x) := by
  cases hrest : s.dropWhile isBlank with
  | nil =>
    have hblank := List.dropWhile_eq_nil_iff.mp hrest
    have hending : Ending (s ++ x) := (Ending.of_isBlank hblank).append hx
    rw [dotted?, dotted?, dot?_of_ending hending, dot?_of_ending (.of_isBlank hblank)]
    rfl
  | cons c r =>
    obtain ⟨htake, hdrop⟩ := Token.span_append hrest x
    by_cases hc : c = '.'
    · subst hc
      rw [dotted?, dotted?, dot?_of_dropWhile hrest, dot?_of_dropWhile hdrop, htake,
        Option.bind_some, Option.bind_some]
      dsimp only
      cases hname : r.dropWhile isBlank with
      | nil =>
        have hblank := List.dropWhile_eq_nil_iff.mp hname
        rw [List.dropWhile_append_of_pos hblank, read?_ending (hx.dropWhile _)]
        rfl
      | cons d t =>
        obtain ⟨htake', hdrop'⟩ := Token.span_append hname x
        rw [htake', hdrop', ← List.cons_append, read?_append hx]
        cases read? (d :: t) <;> rfl
    · rw [dotted?, dotted?, dot?_eq_none, dot?_eq_none]
      · rfl
      · intro t ht
        rw [hrest] at ht
        exact hc (List.cons.inj ht).1
      · intro t ht
        rw [hdrop] at ht
        exact hc (List.cons.inj ht).1

/-- A name is read in front of an ending as it is without it. -/
theorem qualified?_append (hx : Ending x) (s : Text) :
    qualified? (s ++ x) = (qualified? s).map fun p => (p.1, p.2 ++ x) := by
  rw [qualified?_eq, qualified?_eq, read?_append hx]
  cases read? s with
  | none => rfl
  | some p =>
    rw [Option.map_some, Option.bind_some, Option.bind_some]
    dsimp only
    rw [dotted?_append hx]
    cases dotted? p.2 <;> rfl

end Identifier

/-! ## 2. Statements in front of an ending -/

theorem keyword?_of_append {w s r : Text} (h : keyword? w s = some r) (x : Text) :
    keyword? w (s ++ x) = some (r ++ x) := by
  obtain ⟨u, rfl, -, -, hu⟩ := exists_of_keyword? h
  rw [List.append_assoc, hu]

theorem gap?_append {s r : Text} (h : gap? s = some r) (hne : r ≠ []) (x : Text) :
    gap? (s ++ x) = some (r ++ x) := by
  obtain ⟨hr, c, t, rfl, hc⟩ := gap?_eq_some h
  rw [Text.trimLeft_cons_blank hc] at hr
  rw [List.cons_append, gap?, if_pos hc]
  obtain ⟨d, v, rfl⟩ := List.exists_cons_of_ne_nil hne
  exact congrArg some (Token.span_append hr.symm x).2

theorem phrase?_append {ws : List Text} (hws : ∀ w ∈ ws, w ≠ []) {s r : Text}
    (h : phrase? ws s = some r) (x : Text) : phrase? ws (s ++ x) = some (r ++ x) := by
  induction ws generalizing s with
  | nil =>
    cases h
    rfl
  | cons w ws ih =>
    cases ws with
    | nil => exact keyword?_of_append h x
    | cons v ws =>
      rw [phrase?_cons_cons] at h ⊢
      obtain ⟨t, ht, hr⟩ := Option.bind_eq_some_iff.mp h
      obtain ⟨u, hu, hgap⟩ := Option.bind_eq_some_iff.mp ht
      have hne : t ≠ [] := by
        rintro rfl
        obtain ⟨k, v', rfl⟩ := List.exists_cons_of_ne_nil (hws v (by simp))
        cases ws <;> cases hr
      rw [keyword?_of_append hu]
      show (gap? (u ++ x)).bind _ = _
      rw [gap?_append hgap hne, Option.bind_some]
      exact ih (fun w hw => hws w (List.mem_cons_of_mem _ hw)) hr

-- Of words that clash, at most one stands at the front, whatever follows.
theorem anyKeyword?_append {ws : List Text} (apart : ws.Pairwise fun v w => clash w v = true)
    {s r : Text} (h : anyKeyword? ws s = some r) (x : Text) :
    anyKeyword? ws (s ++ x) = some (r ++ x) := by
  induction ws with
  | nil => cases h
  | cons w ws ih =>
    obtain ⟨hclash, apart⟩ := List.pairwise_cons.mp apart
    unfold anyKeyword? at h ⊢
    rw [List.findSome?_cons] at h ⊢
    cases hw : keyword? w s with
    | some r' =>
      rw [hw] at h
      cases h
      rw [keyword?_of_append hw]
    | none =>
      rw [hw] at h
      obtain ⟨v, hv, hread⟩ := List.exists_of_findSome?_eq_some h
      have hread := keyword?_of_append hread x
      rw [keyword?_of_clash (hclash v hv) (by rw [hread]; rfl)]
      exact ih apart h

/-- Words are passed over, whatever follows the keyword behind them. -/
theorem skipWords_append {ws : List Text} {w : Text}
    (apart : (ws ++ [w]).Pairwise fun v w => clash w v = true) (hne : ∀ v ∈ ws ++ [w], v ≠ [])
    {n m : Nat} (hn : n ≤ m) {s : Text} (h : (keyword? w (skipWords ws n s)).isSome = true)
    (x : Text) : skipWords ws m (s ++ x) = skipWords ws n s ++ x := by
  obtain ⟨hwords, -, hlast⟩ := List.pairwise_append.mp apart
  -- the keyword is none of the words
  have hstay : ∀ {t : Text}, (keyword? w t).isSome = true → ∀ k, skipWords ws k (t ++ x) = t ++ x := by
    intro t ht k
    obtain ⟨r, hr⟩ := Option.isSome_iff_exists.mp ht
    refine skipWords_of_none (List.findSome?_eq_none_iff.mpr fun v hv => ?_) k
    exact keyword?_of_clash (hlast v hv w (List.mem_singleton_self w))
      (by rw [keyword?_of_append hr]; rfl)
  have hnil : ∀ v ∈ ws ++ [w], keyword? v [] = none := by
    intro v hv
    obtain ⟨k, v', rfl⟩ := List.exists_cons_of_ne_nil (hne v hv)
    rfl
  have hempty : ∀ k, skipWords ws k [] = [] := fun k =>
    skipWords_of_none (List.findSome?_eq_none_iff.mpr fun v hv =>
      hnil v (List.mem_append_left _ hv)) k
  induction n generalizing m s with
  | zero => exact hstay h m
  | succ n ih =>
    obtain ⟨m, rfl⟩ := Nat.exists_eq_add_of_lt hn
    cases hskip : anyKeyword? ws s >>= gap? with
    | none =>
      have hs : skipWords ws (n + 1) s = s := by rw [skipWords, hskip]
      rw [hs] at h ⊢
      exact hstay h _
    | some r =>
      have hs : skipWords ws (n + 1) s = skipWords ws n r := by rw [skipWords, hskip]
      rw [hs] at h ⊢
      obtain ⟨t, hany, hgap⟩ := Option.bind_eq_some_iff.mp hskip
      have hr : r ≠ [] := by
        rintro rfl
        rw [hempty, hnil w (by simp)] at h
        cases h
      have hskip' : (anyKeyword? ws (s ++ x) >>= gap?) = some (r ++ x) := by
        rw [anyKeyword?_append hwords hany]
        exact gap?_append hgap hr x
      rw [skipWords, hskip']
      exact ih (Nat.le_add_right n m) h

/-- A statement's table is read in front of an ending as it is without it. -/
theorem alteredTable?_ending {s raw r x : Text} (hx : Ending x)
    (h : alteredTable? s = some (raw, r)) : alteredTable? (s ++ x) = some (raw, r ++ x) := by
  obtain ⟨b, halter, h⟩ := Option.bind_eq_some_iff.mp h
  dsimp only at h
  obtain ⟨e, htable, hname⟩ := Option.bind_eq_some_iff.mp h
  obtain ⟨d, hword, hgap⟩ := Option.bind_eq_some_iff.mp htable
  obtain ⟨a, hcreate, hgap'⟩ := Option.bind_eq_some_iff.mp halter
  have he : e ≠ [] := by
    rintro rfl
    cases hname
  have hb : b ≠ [] := by
    rintro rfl
    cases hword
  have hskip := @skipWords_append ["ONLINE", "IGNORE"] "TABLE" (by decide) (by decide) b.length
    (b ++ x).length (by simp) b (by rw [hword]; rfl) x
  unfold alteredTable?
  rw [keyword?_of_append hcreate]
  show (gap? (a ++ x)).bind _ = _
  rw [gap?_append hgap' hb, Option.bind_some]
  dsimp only
  rw [hskip, keyword?_of_append hword]
  show (gap? (d ++ x)).bind Identifier.qualified? = _
  rw [gap?_append hgap he, Option.bind_some, Identifier.qualified?_append hx, hname]
  rfl

/-! ## 3. The name of a statement -/

theorem Flush.of_begins {s t : Text} (h : Flush t) (hbegins : s <+: t) : Flush s := by
  obtain ⟨x, rfl⟩ := hbegins
  cases s with
  | nil => rfl
  | cons c s => exact .cons (Text.not_isBlank_of_trimLeft h) s

theorem exists_rdropWhile (q : Char → Bool) (s : Text) :
    ∃ tail, s = s.rdropWhile q ++ tail ∧ ∀ c ∈ tail, q c = true := by
  refine ⟨(s.reverse.takeWhile q).reverse, ?_, fun c hc =>
    List.mem_takeWhile_imp (List.mem_reverse.mp hc)⟩
  rw [List.rdropWhile, ← List.reverse_append, List.takeWhile_append_dropWhile, List.reverse_reverse]

namespace Alter

theorem trim_eq_content_append (text : Text) :
    ∃ x, Ending x ∧ Text.trim text = content text ++ x := by
  obtain ⟨semicolons, hdrop, hsemicolons⟩ := exists_rdropWhile (· = ';') (Text.trim text)
  have hflush : Flush (Text.dropTrailing ';' (Text.trim text)) :=
    Flush.of_begins (Text.trimLeft_trim text) (List.rdropWhile_prefix (· = ';') _)
  obtain ⟨blanks, hright, hblanks⟩ := Text.exists_trimRight (Text.dropTrailing ';' (Text.trim text))
  refine ⟨blanks ++ semicolons, (Ending.of_isBlank hblanks).append fun c hc =>
    Or.inr (of_decide_eq_true (hsemicolons c hc)), ?_⟩
  have hcontent : content text = Text.trimRight (Text.dropTrailing ';' (Text.trim text)) :=
    congrArg Text.trimRight hflush
  rw [hcontent, ← List.append_assoc, ← hright]
  exact hdrop

theorem trimLeft_eq_content_append (text : Text) :
    ∃ x, Ending x ∧ Text.trimLeft text = content text ++ x := by
  obtain ⟨x, hx, htrim⟩ := trim_eq_content_append text
  obtain ⟨blanks, hright, hblanks⟩ := Text.exists_trimRight (Text.trimLeft text)
  refine ⟨x ++ blanks, hx.append (.of_isBlank hblanks), ?_⟩
  rw [← List.append_assoc, ← htrim]
  exact hright

theorem alteredTable?_of_split {text raw : Text} (h : (split text).1 = some raw) :
    ∃ r, alteredTable? (content text) = some (raw, r) := by
  cases hread : alteredTable? (content text) with
  | none =>
    rw [split_of_none hread] at h
    cases h
  | some p =>
    rw [split_of_some hread] at h
    cases h
    exact ⟨p.2, rfl⟩

/-- The table of a statement is the one that it names. -/
theorem nameIn_of_split {text raw : Text} (h : (split text).1 = some raw) :
    Kind.alter.nameIn text = some (Identifier.bare raw) := by
  obtain ⟨r, hread⟩ := alteredTable?_of_split h
  obtain ⟨x, hx, htrim⟩ := trim_eq_content_append text
  have hname : Kind.alter.rawName? (Text.trim text) = some (raw, r ++ x) := by
    rw [htrim]
    exact alteredTable?_ending hx hread
  rw [Kind.nameIn, hname]
  rfl

theorem qualified_of_split {text raw : Text} (h : (split text).1 = some raw) :
    Identifier.Qualified raw := by
  obtain ⟨r, hread⟩ := alteredTable?_of_split h
  obtain ⟨a, -, hread⟩ := Option.bind_eq_some_iff.mp hread
  obtain ⟨b, -, hread⟩ := Option.bind_eq_some_iff.mp hread
  exact (Identifier.Qualified.of_read? hread).1

/-! ## 4. Statements that are put together -/

/-- What goes on with no name that has no schema goes on with no quoted name. -/
theorem quote_reads {raw t : Text} (hraw : Identifier.Qualified raw) (ht : Identifier.NoNameChar t)
    (hdot : (Identifier.read? raw).any (·.2.isEmpty) = true → Identifier.dotted? t = none) :
    Identifier.qualified? (Identifier.quote raw ++ t) = some (Identifier.quote raw, t) := by
  cases hraw with
  | plain ha =>
    have hread := ha.read .nil
    rw [List.append_nil] at hread
    exact ha.quote.1.read_plain ht (hdot (by rw [hread]; rfl))
  | dotted ha hu hv hb =>
    rw [ha.quote_dotted hu hv hb]
    exact ha.read_dotted hu hv hb ht

/-- A statement that is put together changes the table whose name it is given, if the change does
not go on with the name. -/
theorem bare_of_split_statement {raw change found : Text} (hraw : Identifier.Qualified raw)
    (hdot : (Identifier.read? raw).any (·.2.isEmpty) = true →
      Identifier.dotted? (' ' :: change) = none)
    (h : (split (statement raw change)).1 = some found) :
    Identifier.bare found = Identifier.bare raw := by
  obtain ⟨r, hread⟩ := alteredTable?_of_split h
  obtain ⟨x, hx, hcontent⟩ := trimLeft_eq_content_append (statement raw change)
  have hflush : Text.trimLeft (statement raw change) = statement raw change := by
    rw [statement_eq]
    rfl
  have hwhole := alteredTable?_of_qualified? hraw.quote.1.starts
    (quote_reads hraw (.cons (by decide) change) hdot)
  rw [← statement_eq, ← hflush, hcontent, alteredTable?_ending hx hread] at hwhole
  rw [(Prod.mk.inj (Option.some.inj hwhole)).1, hraw.quote.2]

/-! ## 5. Changes one by one -/

/-- The words that a change starts with. -/
def changeWords : List Text := ["ADD", "MODIFY", "CHANGE", "DROP", "ALTER", "RENAME"]

/-- What starts with one of the words. -/
def StartsChange (s : Text) : Prop := ∃ w ∈ changeWords, (keyword? w s).isSome = true

theorem StartsChange.append {s : Text} (h : StartsChange s) (x : Text) : StartsChange (s ++ x) := by
  obtain ⟨w, hw, hs⟩ := h
  obtain ⟨r, hr⟩ := Option.isSome_iff_exists.mp hs
  exact ⟨w, hw, by rw [keyword?_of_append hr]; rfl⟩

theorem StartsChange.stopsName {s : Text} (h : StartsChange s) :
    Identifier.StopsName (' ' :: s) := by
  obtain ⟨w, hw, hs⟩ := h
  have hall : changeWords.all (fun w => w.head?.any fun k =>
      (letterForms k).all fun c => !isBlank c && decide (c ≠ '.')) = true := by decide
  exact stopsName_of_keyword (List.all_eq_true.mp hall w hw) hs

theorem StartsChange.of_part {part : Text} (h : startsChange part = true) : StartsChange part := by
  obtain ⟨r, hr⟩ := Option.isSome_iff_exists.mp h
  obtain ⟨w, hw, hword⟩ := List.exists_of_findSome?_eq_some hr
  exact ⟨w, hw, CreateTable.isSome_of_word? (by rw [hword]; rfl)⟩

-- Only the first change can start with something else than one of the words.
theorem gather_eq (current : Text) (parts : List Text) : ∃ x rest,
    gather current parts = (current ++ x) :: rest ∧ ∀ change ∈ rest, StartsChange change := by
  induction parts generalizing current with
  | nil => exact ⟨[], [], by rw [List.append_nil]; rfl, fun _ h => (List.not_mem_nil h).elim⟩
  | cons part parts ih =>
    rw [gather]
    split
    · rename_i hstarts
      obtain ⟨x, rest, hgather, hrest⟩ := ih part
      refine ⟨[], gather part parts, by rw [List.append_nil], fun change hchange => ?_⟩
      rw [hgather] at hchange
      rcases List.mem_cons.mp hchange with rfl | hchange
      · exact (StartsChange.of_part hstarts).append x
      · exact hrest change hchange
    · obtain ⟨x, rest, hgather, hrest⟩ := ih (current ++ ", " ++ part)
      exact ⟨", ".toList ++ part ++ x, rest, by rw [hgather]; simp, hrest⟩

theorem mem_changes {body change : Text} (h : change ∈ changes body) :
    (changes body).head? = some change ∨ StartsChange change := by
  unfold changes at h ⊢
  split at h
  · cases h
  · rename_i part parts hparts
    obtain ⟨x, rest, hgather, hrest⟩ := gather_eq part parts
    rw [hgather] at h ⊢
    rcases List.mem_cons.mp h with rfl | h
    · exact Or.inl rfl
    · exact Or.inr (hrest change h)

/-- Whether a statement that is taken apart has a first change that goes on with its table's name:
the name has no schema, and the change starts with a dot and a name. -/
def continuesName (text : Text) : Bool :=
  match split text with
  | (none, _) => false
  | (some raw, body) =>
    1 < (changes body).countP startsAddOrModify && (Identifier.read? raw).any (·.2.isEmpty) &&
      (changes body).head?.any fun change => (Identifier.dotted? change).isSome

theorem dotted?_cons_blank {c : Char} (hc : isBlank c = true) {s : Text}
    (h : Identifier.dotted? s = none) : Identifier.dotted? (c :: s) = none := by
  have hdot : Identifier.dot? (c :: s) = (Identifier.dot? s).map fun p => (c :: p.1, p.2) := by
    unfold Identifier.dot?
    rw [List.dropWhile_cons_of_pos hc, List.takeWhile_cons_of_pos hc]
    split <;> rfl
  unfold Identifier.dotted? at h ⊢
  rw [hdot]
  cases hs : Identifier.dot? s with
  | none => rfl
  | some p =>
    rw [hs, Option.bind_some] at h
    cases hp : Identifier.read? p.2 with
    | none =>
      show (Identifier.read? p.2).bind _ = none
      rw [hp]
      rfl
    | some q =>
      rw [hp] at h
      cases h

/-- A statement's changes one by one are made to the table that the statement names. -/
theorem nameIn_of_mem_singles {text single found : Text} (hname : continuesName text = false)
    (hmem : single ∈ singles text) (h : (split single).1 = some found) :
    Kind.alter.nameIn text = some (Identifier.bare found) := by
  unfold singles at hmem
  unfold continuesName at hname
  split at hmem
  · rw [List.mem_singleton.mp hmem] at h
    exact nameIn_of_split h
  · rename_i raw body hsplit
    rw [hsplit] at hname
    dsimp only at hmem hname
    split at hmem
    · rw [List.mem_singleton.mp hmem] at h
      exact nameIn_of_split h
    · rename_i hcount
      obtain ⟨change, hchange, rfl⟩ := List.mem_map.mp hmem
      have htext : (split text).1 = some raw := by rw [hsplit]
      rw [nameIn_of_split htext]
      refine congrArg some (bare_of_split_statement (qualified_of_split htext) ?_ h).symm
      intro hplain
      -- the first change may start with anything, the others start with a word
      rcases mem_changes hchange with hfirst | hstarts
      · rw [hplain, hfirst, decide_eq_true (Nat.not_le.mp hcount)] at hname
        refine dotted?_cons_blank (by decide) (Option.isNone_iff_eq_none.mp ?_)
        simpa using hname
      · rw [Identifier.dotted?, hstarts.stopsName.noDot]
        rfl

-- An empty part in front of the first change leaves it a dot to start with.
example : (singles "ALTER TABLE t , .x ADD a int, ADD b int, ADD c int").map Kind.alter.nameIn =
    [some ['x'], some ['t'], some ['t']] := by
  decide +kernel

end Alter

/-! ## 6. Keys that move -/

namespace CreateTable

/-- The keys that move are added to the table that the statement creates. -/
theorem bare_of_mem_relocated {text name alter found : Text}
    (named : Kind.createTable.nameIn text = some name) (hmem : alter ∈ (relocateKeys text).alters)
    (h : (Alter.split alter).1 = some found) : Identifier.bare found = name := by
  cases hlayout : layout? (Text.trim text) with
  | none =>
    rw [relocateKeys_of_none hlayout] at hmem
    cases hmem
  | some l =>
    obtain ⟨front, gap, -, hframe, -⟩ := frame_of_layout? hlayout
    obtain ⟨start, -, halters, -⟩ := relocateKeys_of_layout hlayout
    have hput : ∃ change, Alter.StartsChange change ∧ alter = Alter.statement l.rawName change := by
      rw [halters] at hmem
      rcases List.mem_append.mp hmem with hmem | hmem
      · obtain ⟨line, -, rfl⟩ := List.mem_map.mp hmem
        exact ⟨_, ⟨"ADD", by simp [Alter.changeWords], rfl⟩, rfl⟩
      · obtain ⟨counter, -, rfl⟩ := List.mem_map.mp hmem
        refine ⟨_, ⟨"MODIFY", by simp [Alter.changeWords], ?_⟩, rfl⟩
        rw [List.append_assoc, List.append_assoc]
        rfl
    obtain ⟨change, hchange, rfl⟩ := hput
    rw [← nameIn_of_layout? hlayout named]
    refine Alter.bare_of_split_statement hframe.named (fun _ => ?_) h
    rw [Identifier.dotted?, hchange.stopsName.noDot]
    rfl

end CreateTable

end SqlDump
