import SqlDump.Proofs.KeyLines
import SqlDump.Statement.CreateTable

/-!
# Keys as lines and as statements

A key line in the body of a table is read as the change that it says. The ALTER statement made of
the line is read as the same change to the table, with the names collapsed.
-/

namespace SqlDump

open Text (collapse collapseAfter)

/-! ## 1. The words of key lines -/

/-- The words that a key line starts with. -/
def lineWords : List Text :=
  ["PRIMARY", "FOREIGN", "UNIQUE", "KEY", "INDEX", "CONSTRAINT", "FULLTEXT", "SPATIAL", "CHECK",
    "PERIOD"]

/-- Whether a text starts with one of the words. -/
def StartsLine (s : Text) : Prop := ∃ w ∈ lineWords, (keyword? w s).isSome = true

theorem StartsLine.keyword?_eq_none {s v : Text} (h : StartsLine s)
    (hv : lineWords.all (clash · v) = true) : keyword? v s = none := by
  obtain ⟨w, hw, hs⟩ := h
  exact keyword?_of_clash (List.all_eq_true.mp hv w hw) hs

-- What starts with one of the words starts with no blank, and with no quote mark.
theorem StartsLine.cons {s : Text} (h : StartsLine s) :
    ∃ c t, s = c :: t ∧ isBlank c = false ∧ isNameMark c = false := by
  obtain ⟨w, hw, hs⟩ := h
  have hletters : lineWords.all (fun w => w.head?.any fun k =>
      (letterForms k).all fun c => !isBlank c && !isNameMark c) = true := by decide +kernel
  have hletters := List.all_eq_true.mp hletters w hw
  cases w with
  | nil => cases hletters
  | cons k w =>
    cases s with
    | nil => cases hs
    | cons c s =>
      rw [keyword?] at hs
      split at hs
      · rename_i hk
        have := List.all_eq_true.mp hletters c (mem_letterForms hk)
        rw [Bool.and_eq_true, Bool.not_eq_true', Bool.not_eq_true'] at this
        exact ⟨c, s, rfl, this.1, this.2⟩
      · cases hs

theorem StartsLine.collapse {s : Text} (h : StartsLine s) : StartsLine (Text.collapse s) := by
  have hsolid : lineWords.all (·.all isSolid) = true := by decide
  obtain ⟨w, hw, hs⟩ := h
  refine ⟨w, hw, ?_⟩
  rw [keyword?_collapse (List.all_eq_true.mp hsolid w hw), Option.isSome_map]
  exact hs

namespace CreateTable

theorem isSome_of_phrase? {w v : Text} {s : Text} (h : (phrase? [w, v] s).isSome = true) :
    (keyword? w s).isSome = true := by
  rw [phrase?] at h
  · cases hw : keyword? w s with
    | none =>
      rw [hw] at h
      cases h
    | some r => rfl
  · exact List.cons_ne_nil _ _

theorem isSome_of_word? {w s : Text} (h : (word? w s).isSome = true) :
    (keyword? w s).isSome = true := by
  unfold word? at h
  cases hw : keyword? w s with
  | none =>
    rw [hw] at h
    cases h
  | some r => rfl

theorem startsLine_of_isKeyLine {part : Text} (h : isKeyLine part = true) : StartsLine part := by
  unfold isKeyLine at h
  rw [Bool.or_eq_true, Bool.or_eq_true] at h
  rcases h with (h | h) | h
  · exact ⟨"PRIMARY", by simp [lineWords], isSome_of_phrase? h⟩
  · exact ⟨"FOREIGN", by simp [lineWords], isSome_of_phrase? h⟩
  · obtain ⟨r, hr⟩ := Option.isSome_iff_exists.mp h
    obtain ⟨w, hw, hword⟩ := List.exists_of_findSome?_eq_some hr
    have hall : (["UNIQUE", "KEY", "INDEX", "CONSTRAINT", "FULLTEXT", "SPATIAL", "CHECK",
        "PERIOD"] : List Text).all (lineWords.contains ·) = true := by decide
    have hmem := List.all_eq_true.mp hall w hw
    exact ⟨w, List.contains_iff_mem.mp hmem, isSome_of_word? (by rw [hword]; rfl)⟩

theorem isKeyLine_of_isRelocated {part : Text} (h : isRelocated part = true) :
    isKeyLine part = true := by
  have hany : ∀ ws vs : List Text, ws.all (vs.contains ·) = true →
      (anyWord? ws part).isSome = true → (anyWord? vs part).isSome = true := by
    intro ws vs hsub hsome
    obtain ⟨r, hr⟩ := Option.isSome_iff_exists.mp hsome
    obtain ⟨w, hw, hword⟩ := List.exists_of_findSome?_eq_some hr
    have hmem := List.contains_iff_mem.mp (List.all_eq_true.mp hsub w hw)
    exact List.findSome?_isSome_iff.mpr ⟨w, hmem, by rw [hword]; rfl⟩
  unfold isRelocated at h
  unfold isKeyLine
  rw [Bool.or_eq_true, Bool.or_eq_true] at h
  rw [Bool.or_eq_true]
  rcases h with (h | h) | h
  · exact Or.inl h
  · exact Or.inr (hany _ _ (by decide) h)
  · refine Or.inr (hany ["CONSTRAINT"] _ (by decide) ?_)
    -- a gap follows the word CONSTRAINT, so the word ends there
    obtain ⟨reading, hmem, -⟩ := List.any_eq_true.mp h
    unfold constraintReadings at hmem
    cases hword : keyword? "CONSTRAINT" part with
    | none =>
      rw [hword] at hmem
      cases hmem
    | some r =>
      have hends : wordEnds r = true := by
        rw [hword] at hmem
        cases r with
        | nil => rfl
        | cons c t =>
          cases hc : isBlank c with
          | false =>
            have hgap : gap? (c :: t) = none := by
              rw [gap?, hc]
              rfl
            rw [show (some (c :: t) >>= gap?) = gap? (c :: t) from rfl, hgap] at hmem
            cases hmem
          | true =>
            rw [wordEnds, not_isWord_of_isBlank hc]
            rfl
      show (List.findSome? _ ["CONSTRAINT".toList]).isSome = true
      rw [List.findSome?_cons, word?, hword, Option.filter_some, hends]
      rfl

end CreateTable

/-! ## 2. The ends of statements -/

namespace Alter

/-- A statement without the semicolons at its end and the blanks at its ends. -/
def content (text : Text) : Text := Text.trim (Text.dropTrailing ';' (Text.trim text))

-- A statement that ends in neither a blank nor a semicolon loses nothing.
theorem content_eq_self {s : Text} (hfirst : ∃ c t, s = c :: t ∧ isBlank c = false)
    (hlast : ∃ u c, s = u ++ [c] ∧ isBlank c = false ∧ c ≠ ';') : content s = s := by
  have hleft : Text.trimLeft s = s := by
    obtain ⟨c, t, rfl, hc⟩ := hfirst
    exact Text.trimLeft_cons hc t
  obtain ⟨u, c, hs, hblank, hsemicolon⟩ := hlast
  have hright : Text.trimRight s = s := by
    rw [hs]
    exact Text.trimRight_concat hblank u
  have hdrop : Text.dropTrailing ';' s = s := by
    rw [hs]
    exact List.rdropWhile_concat_neg (· = ';') u c (by simpa using hsemicolon)
  have htrim : Text.trim s = s := by rw [Text.trim, hleft, hright]
  rw [content, htrim, hdrop, htrim]

theorem content_collapse (s : Text) : content (collapse s) = collapse (content s) := by
  unfold content
  rw [collapse, Text.trim_collapseAfter, Text.dropTrailing_collapse (by decide), collapse,
    Text.trim_collapseAfter]

-- What is left of a statement that starts with a keyword is the statement up to its right end, and
-- it still starts with the keyword.
theorem content_of_keyword {w s : Text} (hw : isSolidWord w = true) (hne : w ≠ [])
    (h : (keyword? w s).isSome = true) :
    content s = ((s.rdropWhile isBlank).rdropWhile (· = ';')).rdropWhile isBlank ∧
      (keyword? w (content s)).isSome = true := by
  obtain ⟨hblank, hsemicolon⟩ := spares_of_isSolidWord hw
  have hleft : ∀ t : Text, (keyword? w t).isSome = true → Text.trimLeft t = t := by
    intro t ht
    cases w with
    | nil => exact absurd rfl hne
    | cons k w =>
      cases t with
      | nil => rfl
      | cons c t =>
        rw [keyword?] at ht
        split at ht
        · rename_i hk
          exact Text.trimLeft_cons (hblank k List.mem_cons_self c (mem_letterForms hk)) t
        · cases ht
  have h₁ := keyword?_rdropWhile hblank h
  have h₂ := keyword?_rdropWhile hsemicolon h₁
  have h₃ := keyword?_rdropWhile hblank h₂
  have hcontent : content s =
      ((s.rdropWhile isBlank).rdropWhile (· = ';')).rdropWhile isBlank := by
    have htrim : Text.trim s = s.rdropWhile isBlank := by
      rw [Text.trim, hleft s h]
      rfl
    rw [content, htrim]
    show Text.trim ((s.rdropWhile isBlank).rdropWhile (· = ';')) = _
    rw [Text.trim, hleft _ h₂]
    rfl
  exact ⟨hcontent, hcontent ▸ h₃⟩

-- Only the change at the end of a statement loses anything.
theorem content_append {w front change : Text} (hw : isSolidWord w = true) (hne : w ≠ [])
    (h : (keyword? w change).isSome = true) (hfront : ∃ c t, front = c :: t ∧ isBlank c = false) :
    content (front ++ change) = front ++ content change := by
  obtain ⟨hblank, hsemicolon⟩ := spares_of_isSolidWord hw
  have h₁ := keyword?_rdropWhile hblank h
  have h₂ := keyword?_rdropWhile hsemicolon h₁
  have h₃ := keyword?_rdropWhile hblank h₂
  have hsome : ∀ t : Text, (keyword? w t).isSome = true → t ≠ [] := by
    rintro t ht rfl
    cases w with
    | nil => exact hne rfl
    | cons k w => cases ht
  have hleft : ∀ t, Text.trim (front ++ t) = (front ++ t).rdropWhile isBlank := by
    intro t
    obtain ⟨c, u, rfl, hc⟩ := hfront
    rw [Text.trim, List.cons_append, Text.trimLeft_cons hc]
    rfl
  rw [(content_of_keyword hw hne h).1, content, hleft, Text.rdropWhile_append (hsome _ h₁)]
  show Text.trim ((front ++ change.rdropWhile isBlank).rdropWhile (· = ';')) = _
  rw [Text.rdropWhile_append (hsome _ h₂), hleft, Text.rdropWhile_append (hsome _ h₃)]

/-! ## 3. What a statement is taken apart to -/

theorem alteredTable?_eq_qualified? {raw : Text} (hstarts : ∃ c v, raw = c :: v ∧ isBlank c = false)
    (change : Text) :
    alteredTable? ("ALTER".toList ++ ' ' :: ("TABLE".toList ++ ' ' :: (raw ++ ' ' :: change))) =
      Identifier.qualified? (raw ++ ' ' :: change) := by
  have hstarts : ∃ c r, raw ++ ' ' :: change = c :: r ∧ isBlank c = false := by
    obtain ⟨c, r, hr, hc⟩ := hstarts
    exact ⟨c, r ++ ' ' :: change, by rw [hr]; rfl, hc⟩
  have hskip : anyKeyword? ["ONLINE", "IGNORE"]
      ("TABLE".toList ++ ' ' :: (raw ++ ' ' :: change)) = none := rfl
  have hgap := @gap?_cons ("TABLE".toList ++ ' ' :: (raw ++ ' ' :: change)) ⟨'T', _, rfl, by decide⟩
  unfold alteredTable?
  rw [keyword?_append]
  show (gap? (' ' :: ("TABLE".toList ++ ' ' :: (raw ++ ' ' :: change)))).bind _ = _
  rw [hgap, Option.bind_some, skipWords_of_none hskip]
  dsimp only
  rw [keyword?_append]
  show (gap? (' ' :: (raw ++ ' ' :: change))).bind Identifier.qualified? = _
  rw [gap?_cons hstarts]
  rfl

theorem alteredTable?_of_qualified? {raw change : Text} (hstarts : ∃ c v, raw = c :: v ∧ isBlank c = false)
    (hread : Identifier.qualified? (raw ++ ' ' :: change) = some (raw, ' ' :: change)) :
    alteredTable? ("ALTER".toList ++ ' ' :: ("TABLE".toList ++ ' ' :: (raw ++ ' ' :: change))) =
      some (raw, ' ' :: change) := by
  rw [alteredTable?_eq_qualified? hstarts, hread]

theorem alteredTable?_append {raw change : Text} (hraw : Identifier.Qualified raw)
    (hchange : Identifier.StopsName (' ' :: change)) :
    alteredTable? ("ALTER".toList ++ ' ' :: ("TABLE".toList ++ ' ' :: (raw ++ ' ' :: change))) =
      some (raw, ' ' :: change) :=
  alteredTable?_of_qualified? hraw.starts (hraw.read hchange)

theorem split_of_some {text raw r : Text} (h : alteredTable? (content text) = some (raw, r)) :
    split text = (some raw, Text.trimLeft r) := by
  unfold content at h
  unfold split
  dsimp only
  rw [h]

theorem split_of_none {text : Text} (h : alteredTable? (content text) = none) :
    split text = (none, content text) := by
  unfold content at h ⊢
  unfold split
  dsimp only
  rw [h]

/-- The statement that makes a change to a table with a name as written. -/
def statement (raw change : Text) : Text :=
  "ALTER TABLE " ++ Identifier.quote raw ++ " " ++ change

theorem statement_eq (raw change : Text) : statement raw change =
    "ALTER".toList ++ ' ' :: ("TABLE".toList ++ ' ' :: (Identifier.quote raw ++ ' ' :: change)) := by
  unfold statement
  rw [List.append_assoc, List.append_assoc]
  rfl

theorem statement_append (raw : Text) : ∃ front,
    (∃ c t, front = c :: t ∧ isBlank c = false) ∧ ∀ change, statement raw change = front ++ change :=
  ⟨"ALTER TABLE ".toList ++ Identifier.quote raw ++ " ".toList,
    ⟨'A', "LTER TABLE ".toList ++ Identifier.quote raw ++ " ".toList, rfl, by decide⟩,
    fun _ => rfl⟩

theorem stopsName_of_keyword {w change : Text}
    (hw : (w.head?.any fun k => (letterForms k).all fun c => !isBlank c && decide (c ≠ '.')) = true)
    (h : (keyword? w change).isSome = true) : Identifier.StopsName (' ' :: change) := by
  refine ⟨.cons (by decide) _, Identifier.dot?_eq_none fun r hr => ?_⟩
  rw [List.dropWhile_cons_of_pos (by decide)] at hr
  cases w with
  | nil => cases hw
  | cons k w =>
    cases change with
    | nil => cases h
    | cons c change =>
      rw [keyword?] at h
      split at h
      · rename_i hk
        have := List.all_eq_true.mp hw c (mem_letterForms hk)
        rw [Bool.and_eq_true, Bool.not_eq_true', decide_eq_true_iff] at this
        rw [List.dropWhile_cons_of_neg (by simp [this.1])] at hr
        exact this.2 (List.cons.inj hr).1
      · cases h

theorem split_statement {w raw change : Text} (hraw : Identifier.Qualified raw)
    (hw : isSolidWord w = true) (hdot : (w.head?.any fun k =>
      (letterForms k).all fun c => !isBlank c && decide (c ≠ '.')) = true)
    (h : (keyword? w change).isSome = true) :
    split (statement raw change) = (some (Identifier.quote raw), content change) := by
  have hne : w ≠ [] := by
    rintro rfl
    cases hdot
  have hkeyword := (content_of_keyword hw hne h).2
  obtain ⟨front, hfront, htext⟩ := statement_append raw
  have hcontent : content (statement raw change) = statement raw (content change) := by
    rw [htext, htext]
    exact content_append hw hne h hfront
  have htable := alteredTable?_append hraw.quote.1 (stopsName_of_keyword hdot hkeyword)
  have htrim : Text.trimLeft (' ' :: content change) = content change := by
    rw [Text.trimLeft_cons_blank (by decide)]
    exact Text.trimLeft_trim _
  have hread : alteredTable? (content (statement raw change)) =
      some (Identifier.quote raw, ' ' :: content change) := by
    rw [hcontent, statement_eq]
    exact htable
  rw [split_of_some hread, htrim]

-- A key line is no statement.
theorem split_of_startsLine {s : Text} (h : StartsLine s) :
    split s = (none, content s) ∧ StartsLine (content s) := by
  have hsolid : lineWords.all (fun w => isSolidWord w && decide (w ≠ [])) = true := by decide +kernel
  have hstarts : StartsLine (content s) := by
    obtain ⟨w, hw, hs⟩ := h
    have := List.all_eq_true.mp hsolid w hw
    rw [Bool.and_eq_true, decide_eq_true_iff] at this
    exact ⟨w, hw, (content_of_keyword this.1 this.2 hs).2⟩
  have hnone : alteredTable? (content s) = none := by
    unfold alteredTable?
    rw [hstarts.keyword?_eq_none (by decide)]
    rfl
  exact ⟨split_of_none hnone, hstarts⟩

end Alter

/-! ## 4. What key lines say -/

namespace Clause

theorem columnBehind?_of_keyword {word s : Text} (phrase : List Text) (h : keyword? word s = none) :
    columnBehind? word phrase s = none := by
  unfold columnBehind?
  rw [h]
  rfl

/-- The change that a key line says. -/
def lineChange? (line : Text) : Option Change := (readKey? (Alter.content line)).join

/-- A key line is always read, and never as a change to a column. -/
theorem parse_line {line : Text} (h : StartsLine line) : parse line =
    .ok ((lineChange? line).map fun change => { table := none, change }) := by
  obtain ⟨hsplit, hstarts⟩ := Alter.split_of_startsLine h
  have hmodify := columnBehind?_of_keyword ["IF", "EXISTS"]
    (hstarts.keyword?_eq_none (v := "MODIFY") (by decide))
  have hadd := columnBehind?_of_keyword ["IF", "NOT", "EXISTS"]
    (hstarts.keyword?_eq_none (v := "ADD") (by decide))
  have hread : readChange (Alter.content line) = .ok (lineChange? line) := by
    unfold lineChange?
    cases hkey : readKey? (Alter.content line) with
    | none =>
      refine readChange_of_readKey?_eq_none hmodify hkey fun raw text hcolumn => ?_
      rw [hadd] at hcolumn
      cases hcolumn
    | some change => exact readChange_of_readKey? hmodify hkey
  unfold parse
  rw [hsplit]
  show (readChange (Alter.content line) >>= _) = _
  rw [hread]
  rfl

theorem constrained_add {s : Text} (h : StartsLine s) :
    constrained ("ADD".toList ++ ' ' :: s) = constrained s := by
  have hstarts : ∃ c r, s = c :: r ∧ isBlank c = false := by
    obtain ⟨c, r, hs, hc, -⟩ := h.cons
    exact ⟨c, r, hs, hc⟩
  have hskip : skipPhrase ["ADD"] ("ADD".toList ++ ' ' :: s) = s := by
    unfold skipPhrase
    rw [phrase?, keyword?_append]
    show (gap? (' ' :: s)).getD _ = s
    rw [gap?_cons hstarts]
    rfl
  have hskip' : skipPhrase ["ADD"] s = s := by
    unfold skipPhrase
    rw [phrase?, h.keyword?_eq_none (by decide)]
    rfl
  unfold constrained
  dsimp only
  rw [hskip, hskip']

theorem readKey?_add {s : Text} (h : StartsLine s) :
    readKey? ("ADD".toList ++ ' ' :: s) = readKey? s := by
  unfold readKey? primaryKey? foreignKey? key?
  rw [constrained_add h]

-- Behind ADD, a text that starts as a key line can be read as a column only by its first word.
theorem columnBehind?_add {s raw text : Text} (h : StartsLine s)
    (hcolumn : columnBehind? "ADD" ["IF", "NOT", "EXISTS"] ("ADD".toList ++ ' ' :: s) =
      some (raw, text)) : raw = s.takeWhile isNameChar := by
  obtain ⟨c, r, hs, hblank, hmark⟩ := h.cons
  have hgap := gap?_cons ⟨c, r, hs, hblank⟩
  have hphrase : phrase? ["IF", "NOT", "EXISTS"] s = none := by
    rw [phrase?, h.keyword?_eq_none (by decide)]
    · rfl
    · exact List.cons_ne_nil _ _
  unfold columnBehind? at hcolumn
  rw [keyword?_append] at hcolumn
  change ((gap? (' ' :: s)).bind fun r => _) = _ at hcolumn
  rw [hgap, Option.bind_some, h.keyword?_eq_none (by decide)] at hcolumn
  change ([s].flatMap fun r => (phrase? ["IF", "NOT", "EXISTS"] r >>= gap?).toList ++ [r]).findSome?
    namedText? = _ at hcolumn
  rw [List.flatMap_cons, hphrase] at hcolumn
  change ([s].findSome? namedText?) = _ at hcolumn
  rw [List.findSome?_singleton] at hcolumn
  obtain ⟨⟨u, t⟩, hread, hcolumn⟩ := Option.bind_eq_some_iff.mp hcolumn
  obtain ⟨t', -, hcolumn⟩ := Option.bind_eq_some_iff.mp hcolumn
  split at hcolumn
  · cases hcolumn
  · cases hcolumn
    rw [hs, Identifier.read?, hmark] at hread
    change Text.run? isNameChar (c :: r) = _ at hread
    rw [← hs] at hread
    exact (Text.takeWhile_of_run? hread).symm

/-- Whether an ALTER statement can add what a key line says: the name is where it is read, and a
line that says nothing starts with a word that names no column. -/
def isMovable (line : Text) : Bool :=
  !skipsUsing (Alter.content line) && ((readKey? (Alter.content line)).isSome ||
    isReserved ((Alter.content line).takeWhile isNameChar))

theorem readChange_add {line : Text} (h : StartsLine line) (hmovable : isMovable line = true) :
    readChange ("ADD".toList ++ ' ' :: collapse (Alter.content line)) =
      .ok ((lineChange? line).map Change.blurred) := by
  unfold isMovable at hmovable
  rw [Bool.and_eq_true, Bool.not_eq_true', Bool.or_eq_true] at hmovable
  obtain ⟨husing, hreserved⟩ := hmovable
  have hstarts := (Alter.split_of_startsLine h).2
  have hstarts' := hstarts.collapse
  have hmodify : columnBehind? "MODIFY" ["IF", "EXISTS"]
      ("ADD".toList ++ ' ' :: collapse (Alter.content line)) = none :=
    columnBehind?_of_keyword _ rfl
  have hkey := (readKey?_add hstarts').trans (readKey?_collapse husing)
  unfold lineChange?
  cases hline : readKey? (Alter.content line) with
  | none =>
    rw [hline] at hkey hreserved
    refine readChange_of_readKey?_eq_none hmodify hkey fun raw text hcolumn => ?_
    rw [columnBehind?_add hstarts' hcolumn, Text.takeWhile_collapse fun _ => not_isBlank_of_isNameChar]
    exact hreserved.resolve_left (by decide)
  | some change =>
    rw [hline] at hkey
    exact readChange_of_readKey? hmodify hkey

/-- The statement made of a key line makes the change that the line says, names collapsed. -/
theorem parse_added {line raw : Text} (hraw : Identifier.Qualified raw) (h : StartsLine line)
    (hends : Text.endsBlank false line = false) (hmovable : isMovable line = true) :
    parse (Alter.statement raw ("ADD " ++ Text.spaced line)) =
      .ok ((lineChange? line).map fun change =>
        { table := some (Identifier.bare raw), change := change.blurred }) := by
  have hspaced : Text.spaced line = collapse line := by
    obtain ⟨c, t, rfl, hc, -⟩ := h.cons
    rw [Text.spaced_eq_collapseAfter hends, Text.collapseAfter_cons hc, Text.collapse_cons hc]
  have htext : ∀ s : Text, "ADD ".toList ++ s = "ADD".toList ++ ' ' :: s := fun _ => rfl
  have hcontent : Alter.content ("ADD ".toList ++ Text.spaced line) =
      "ADD".toList ++ ' ' :: collapse (Alter.content line) := by
    obtain ⟨w, hw, hs⟩ := h.collapse
    have hsolid : lineWords.all (fun w => isSolidWord w && decide (w ≠ [])) = true := by
      decide +kernel
    have hword := List.all_eq_true.mp hsolid w hw
    rw [Bool.and_eq_true, decide_eq_true_iff] at hword
    have hfront := @Alter.content_append w "ADD ".toList _ hword.1 hword.2 hs
      ⟨'A', _, rfl, by decide⟩
    rw [hspaced, hfront, Alter.content_collapse]
    exact htext _
  have hsplit := @Alter.split_statement "ADD" raw ("ADD ".toList ++ Text.spaced line) hraw
    (by decide) (by decide) (by rw [htext, keyword?_append]; rfl)
  unfold parse
  rw [hsplit, hcontent]
  show (readChange _ >>= _) = _
  rw [readChange_add h hmovable]
  cases lineChange? line with
  | none => rfl
  | some change =>
    show (Except.ok (some (Clause.mk (some (Identifier.bare (Identifier.quote raw))) _)) :
      Except ReadError (Option Clause)) = _
    rw [hraw.quote.2]
    rfl

end Clause

end SqlDump
