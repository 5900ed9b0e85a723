import SqlDump.Proofs.Relocating

/-!
# Columns that count up

The first column that counts up loses its AUTO_INCREMENT, and a statement behind the keys defines it
again. This statement is read as the definition of the column that it was made of.
-/

namespace SqlDump

namespace CreateTable

/-! ## 1. The counter of a table -/

theorem releaseCounter_eq_of_some {parts : List Text} {counter : Counter}
    (h : (releaseCounter parts).2 = some counter) : ∃ front part rest,
      parts = front ++ part :: rest ∧ (releaseCounter parts).1 = front ++ counter.part :: rest ∧
        isKeyLine part = false ∧ counter? part = some counter := by
  induction parts with
  | nil => cases h
  | cons part rest ih =>
    unfold releaseCounter at h ⊢
    dsimp only at h ⊢
    have hlater : (releaseCounter rest).2 = some counter → ∃ front p r,
        part :: rest = front ++ p :: r ∧ part :: (releaseCounter rest).1 = front ++ counter.part :: r ∧
          isKeyLine p = false ∧ counter? p = some counter := by
      intro h
      obtain ⟨front, p, r, hrest, hcolumns, hp⟩ := ih h
      exact ⟨part :: front, p, r, congrArg (part :: ·) hrest, congrArg (part :: ·) hcolumns, hp⟩
    split at h
    · rename_i hkey
      rw [if_pos hkey]
      exact hlater h
    · rename_i hkey
      rw [if_neg hkey]
      split at h
      · exact hlater h
      · rename_i found hfound
        split at h
        · cases h
        · rename_i hdeclares
          cases h
          rw [if_neg hdeclares]
          exact ⟨[], part, rest, rfl, rfl, by simpa using hkey, hfound⟩

-- The name and the definition of a counter are those of its column.
theorem exists_of_counter? {part : Text} {counter : Counter} (h : counter? part = some counter) :
    ∃ name text, namedText? part = some (name, text) ∧ counter.name = Identifier.quote name ∧
      counter.definition = Text.trim text := by
  obtain ⟨⟨name, text⟩, hnamed, h⟩ := Option.bind_eq_some_iff.mp h
  obtain ⟨found, -, h⟩ := Option.bind_eq_some_iff.mp h
  cases h
  exact ⟨name, text, hnamed, rfl, rfl⟩

theorem exists_of_namedText? {part name text : Text} (h : namedText? part = some (name, text)) :
    Identifier.Name name ∧ ∃ c t, text = c :: t ∧ isBlank c = false := by
  obtain ⟨⟨u, r⟩, hread, h⟩ := Option.bind_eq_some_iff.mp h
  obtain ⟨t, hgap, h⟩ := Option.bind_eq_some_iff.mp h
  split at h
  · cases h
  · rename_i hne
    cases h
    refine ⟨(Identifier.Name.of_read? hread).1, ?_⟩
    cases htext : text with
    | nil => simp [htext] at hne
    | cons c t =>
      have hflush := flush_of_gap? hgap
      rw [htext] at hflush
      exact ⟨c, t, rfl, Text.not_isBlank_of_trimLeft hflush⟩

-- What a counter's column is called and how it is defined.
theorem columnText?_of_counter? {part : Text} {counter : Counter} (hkey : isKeyLine part = false)
    (h : counter? part = some counter) :
    columnText? part = some (Identifier.bare counter.name, counter.definition) := by
  obtain ⟨name, text, hnamed, hname, hdefinition⟩ := exists_of_counter? h
  obtain ⟨hraw, -⟩ := exists_of_namedText? hnamed
  unfold columnText?
  rw [hkey, if_neg (by decide), hnamed, hname, hdefinition, hraw.quote.2.2]
  rfl

/-- What a counter has to be for its statement to say what its column said: the part without the
word is one part still and names a column of the same name, a primary one only if the column is, and
the definition ends where the statement does. -/
structure Counter.ReadsBack (counter : Counter) (column rest : Column) : Prop where
  whole : Nesting.Whole counter.part
  defined : Column.parse counter.definition = .ok (some column)
  left : ∃ text, columnText? (Text.trim counter.part) =
    some (Identifier.bare counter.name, text) ∧ Column.parse text = .ok (some rest)
  counts : column.autoIncrement = true
  primary : rest.primary = true → column.primary = true
  ends : counter.definition.getLast? ≠ some ';'
  default : Column.endsInDefault counter.definition = false

end CreateTable

/-! ## 2. The statement of a counter -/

-- What stands behind a counter's name ends in a character that stays.
theorem Column.Start.ends {definition start : Text} (hstart : Column.Start start)
    (hlast : ∃ u c, definition = u ++ [c] ∧ isBlank c = false ∧ c ≠ ';') :
    ∃ u c, definition ++ start = u ++ [c] ∧ isBlank c = false ∧ c ≠ ';' := by
  cases hstart with
  | none =>
    rw [List.append_nil]
    exact hlast
  | @number n hn =>
    rcases List.eq_nil_or_concat n with rfl | ⟨n, c, rfl⟩
    · have hsetting : ", AUTO_INCREMENT=".toList = ", AUTO_INCREMENT".toList ++ ['='] := rfl
      exact ⟨definition ++ ", AUTO_INCREMENT".toList, '=', by rw [List.append_nil, hsetting]; simp,
        by decide, by decide⟩
    · have hc := hn c (by simp)
      refine ⟨definition ++ (", AUTO_INCREMENT=".toList ++ n), c, by simp, not_isBlank_of_isDigit hc, ?_⟩
      rintro rfl
      exact absurd hc (by decide)

namespace Clause

theorem namedText?_append {name text : Text} (hname : Identifier.Name name)
    (htext : ∃ c t, text = c :: t ∧ isBlank c = false) :
    namedText? (name ++ ' ' :: text) = some (name, text) := by
  have hread := hname.read (@Identifier.NoNameChar.cons ' ' (by decide) text)
  have hgap := gap?_cons htext
  have hne : text.isEmpty = false := by
    obtain ⟨d, t, rfl, -⟩ := htext
    rfl
  unfold namedText?
  rw [hread]
  show (do let r ← gap? (' ' :: text); if r.isEmpty then none else pure (name, r)) = _
  rw [hgap]
  show (if text.isEmpty = true then none else some (name, text)) = _
  rw [hne]
  rfl

-- No mark is a form of the letters that COLUMN and IF start with.
theorem keyword?_of_isNameMark {c : Char} (hc : isNameMark c = true) (s : Text) :
    keyword? "COLUMN" (c :: s) = none ∧ keyword? "IF" (c :: s) = none := by
  have hforms : (letterForms 'C' ++ letterForms 'I').all (!isNameMark ·) = true := by decide +kernel
  have hletter : ∀ k, k = 'C' ∨ k = 'I' → isLetter k c = false := by
    intro k hk
    rw [Bool.eq_false_iff]
    intro hk'
    have hmem : c ∈ letterForms 'C' ++ letterForms 'I' := by
      rcases hk with rfl | rfl
      · exact List.mem_append_left _ (mem_letterForms hk')
      · exact List.mem_append_right _ (mem_letterForms hk')
    have := List.all_eq_true.mp hforms c hmem
    rw [hc] at this
    cases this
  constructor
  · show (if isLetter 'C' c then _ else none) = none
    rw [hletter 'C' (Or.inl rfl), if_neg (by decide)]
  · show (if isLetter 'I' c then _ else none) = none
    rw [hletter 'I' (Or.inr rfl), if_neg (by decide)]

-- Behind the word, what starts with a quote is the name of a column.
theorem columnBehind?_quoted (word : Text) {v s : Text} {ws : List Text}
    (hmark : ∃ c t, s = c :: t ∧ isNameMark c = true) :
    columnBehind? word ("IF" :: v :: ws) (word ++ ' ' :: s) = namedText? s := by
  obtain ⟨hcolumn, hif⟩ : keyword? "COLUMN" s = none ∧ keyword? "IF" s = none := by
    obtain ⟨c, t, rfl, hc⟩ := hmark
    exact keyword?_of_isNameMark hc t
  have hgap : gap? (' ' :: s) = some s := by
    obtain ⟨c, t, rfl, hc⟩ := hmark
    exact gap?_cons ⟨c, t, rfl, Identifier.not_isBlank_of_isNameMark hc⟩
  have hphrase : phrase? ("IF" :: v :: ws) s = none := by
    rw [phrase?_cons_cons, hif]
    rfl
  unfold columnBehind?
  rw [keyword?_append]
  show (gap? (' ' :: s)).bind _ = _
  rw [hgap, Option.bind_some, hcolumn]
  -- without COLUMN and IF EXISTS, one place is left where the name can start
  show ([s].flatMap fun r => (phrase? ("IF" :: v :: ws) r >>= gap?).toList ++ [r]
    ).findSome? namedText? = _
  rw [List.flatMap_cons, hphrase]
  show [s].findSome? namedText? = _
  rw [List.findSome?_singleton]

theorem readChange_modify {name text : Text} {column : Column} (hname : Identifier.Name name)
    (hmark : ∃ c v, name = c :: v ∧ isNameMark c = true)
    (htext : ∃ c t, text = c :: t ∧ isBlank c = false) (h : Column.parse text = .ok (some column)) :
    readChange ("MODIFY".toList ++ ' ' :: (name ++ ' ' :: text)) =
      .ok (some (.modify [Identifier.bare name] (some column))) := by
  have hprimary : ∀ s, primaryKey? ("MODIFY".toList ++ s) = none := fun _ => rfl
  have hstarts : ∃ c t, name ++ ' ' :: text = c :: t ∧ isNameMark c = true := by
    obtain ⟨c, v, hname, hc⟩ := hmark
    exact ⟨c, v ++ ' ' :: text, by rw [hname]; rfl, hc⟩
  unfold readChange
  rw [hprimary, columnBehind?_quoted "MODIFY" hstarts, namedText?_append hname htext]
  show (Column.parse text >>= fun c => _) = _
  rw [h]
  rfl

theorem modify_eq (name definition start : Text) :
    ("MODIFY " ++ name ++ " " ++ definition ++ start : Text) =
      "MODIFY".toList ++ ' ' :: (name ++ ' ' :: (definition ++ start)) := by
  have hspace : " ".toList = [' '] := rfl
  have hword : "MODIFY ".toList = "MODIFY".toList ++ [' '] := rfl
  rw [hspace, hword]
  generalize "MODIFY".toList = word
  simp

open CreateTable in
/-- The statement of a counter defines its column as the counter says, from any number on. -/
theorem parse_restart {raw part start : Text} {counter : Counter} {column rest : Column}
    (hraw : Identifier.Qualified raw) (hcounter : counter? part = some counter)
    (hreads : counter.ReadsBack column rest) (hstart : Column.Start start) :
    parse (restart raw start counter) = .ok (some
      { table := some (Identifier.bare raw)
        change := .modify [Identifier.bare counter.name] (some column) }) := by
  obtain ⟨name, text, hnamed, hname, hdefinition⟩ := exists_of_counter? hcounter
  obtain ⟨hraw', c, t, htext, hc⟩ := exists_of_namedText? hnamed
  obtain ⟨hquoted, hmark, -⟩ := hraw'.quote
  rw [← hname] at hquoted hmark
  obtain ⟨⟨v, hv⟩, u, d, hu, hd⟩ := Text.trim_cons hc t
  rw [← htext, ← hdefinition] at hv hu
  have hfirst : ∃ c t, counter.definition ++ start = c :: t ∧ isBlank c = false :=
    ⟨c, v ++ start, by rw [hv]; rfl, hc⟩
  have hends : ∃ u c, counter.definition = u ++ [c] ∧ isBlank c = false ∧ c ≠ ';' := by
    refine ⟨u, d, hu, hd, ?_⟩
    rintro rfl
    exact hreads.ends (by rw [hu, List.getLast?_concat])
  have hcontent : Alter.content
      ("MODIFY".toList ++ ' ' :: (counter.name ++ ' ' :: (counter.definition ++ start))) = _ :=
    Alter.content_eq_self ⟨'M', _, rfl, by decide⟩ (by
      obtain ⟨u, d, hu, hd⟩ := hstart.ends hends
      exact ⟨"MODIFY".toList ++ ' ' :: (counter.name ++ ' ' :: u), d, by rw [hu]; simp, hd⟩)
  have hsplit := @Alter.split_statement "MODIFY" raw
    ("MODIFY".toList ++ ' ' :: (counter.name ++ ' ' :: (counter.definition ++ start))) hraw
    (by decide) (by decide) (by rw [keyword?_append]; rfl)
  have hparse := Column.parse_start hreads.defined hreads.counts hreads.default hstart
  unfold parse restart
  rw [modify_eq, hsplit, hcontent]
  show (readChange _ >>= _) = _
  rw [readChange_modify hquoted hmark hfirst hparse]
  show (Except.ok (some (Clause.mk (some (Identifier.bare (Identifier.quote raw))) _)) :
    Except ReadError (Option Clause)) = _
  rw [hraw.quote.2]

end Clause

end SqlDump
