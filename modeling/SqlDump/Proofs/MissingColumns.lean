import SqlDump.Proofs.Coherence
import SqlDump.Proofs.LeavingOut

/-!
# Columns that existing tables lack

An import that keeps what exists adds the columns that existing tables lack. Each is added by a
statement made of the table, the column and the text of the definition, and this statement is read
as the addition of the column, unless a name holds the quotes that are put around it.
-/

namespace SqlDump

open Outcome

/-! ## 1. Names between backquotes -/

/-- A name that can stand between backquotes. -/
def Quotable (name : Text) : Prop := name ≠ [] ∧ '\x60' ∉ name

instance (name : Text) : Decidable (Quotable name) := inferInstanceAs (Decidable (_ ∧ _))

namespace Identifier

/-- A name between backquotes. -/
def backquoted (name : Text) : Text := '\x60' :: name ++ ['\x60']

theorem name_backquoted {name : Text} (h : Quotable name) : Name (backquoted name) :=
  .quoted (by decide) h.1 h.2

theorem bare_backquoted_eq {name : Text} (h : Quotable name) (unmarked : Unmarked name) :
    bare (backquoted name) = name :=
  unmarked.bare_quoted (by decide) h.1 h.2

-- A name that is quoted is not quoted again.
theorem quote_backquoted {name : Text} (h : Quotable name) :
    quote (backquoted name) = backquoted name := by
  have htrim := (Qualified.plain (name_backquoted h)).trim
  unfold backquoted at htrim ⊢
  rw [List.cons_append] at htrim ⊢
  have hmark : isNameMark '\x60' = true := by decide
  rw [quote_cons _ _ htrim, hmark, Bool.true_or, if_pos rfl]

theorem isSome_read?_of_name {u : Text} (h : Name u) : (read? u).isSome = true := by
  have hread := h.read .nil
  rw [List.append_nil] at hread
  rw [hread]
  rfl

theorem isSome_read?_of_qualified {raw : Text} (h : Qualified raw) : (read? raw).isSome = true := by
  have hread := h.read ⟨.nil, rfl⟩
  rw [List.append_nil, qualified?_eq] at hread
  obtain ⟨p, hp, -⟩ := Option.bind_eq_some_iff.mp hread
  rw [hp]
  rfl

end Identifier

/-! ## 2. Definitions in front of an ending -/

theorem Ending.apart {x : Text} (hx : Ending x) : Column.Apart x where
  noWord := by
    rintro c r rfl
    have hname := (Identifier.not_isNameChar_of_ending hx List.mem_cons_self).1
    rw [isNameChar, Bool.or_eq_false_iff] at hname
    exact hname.1
  noStart := by
    intro c r hc
    have hmem : c ∈ Text.trimLeft x := by
      rw [hc]
      exact List.mem_cons_self
    rcases hx c ((List.dropWhile_sublist isBlank).mem hmem) with hblank | rfl
    · rw [Text.not_isBlank_of_trimLeft hc] at hblank
      cases hblank
    · decide
  closesNone := by
    intro hmem
    rcases hx ')' hmem with h | h
    · exact absurd h (by decide)
    · exact absurd h (by decide)

/-- An ending behind a definition changes nothing about whether it is understood. -/
theorem Column.parse_ending {x : Text} (hx : Ending x) (s : Text) :
    (parse (s ++ x)).map Option.isSome = (parse s).map Option.isSome := by
  unfold parse
  rw [type?_append hx.apart]
  cases type? s with
  | none => rfl
  | some p =>
    obtain ⟨name, arguments, rest⟩ := p
    dsimp only [Option.map_some]
    cases sizeOf ((arguments.map tidyArguments).getD []) <;> rfl

/-! ## 3. The statement of a missing column -/

/-- A column that a table lacks, and the text of its definition. -/
structure Missing where
  table : Text
  column : Text
  text : Text
  deriving DecidableEq

/-- The statement that adds the column. -/
def Missing.statement (m : Missing) : Text :=
  "ALTER TABLE `" ++ m.table ++ "` ADD `" ++ m.column ++ "` " ++ m.text

namespace Alter

-- Behind what stays, only an ending is lost.
theorem content_append_ending {front t : Text} (hfirst : ∃ c s, front = c :: s ∧ isBlank c = false)
    (hlast : ∃ u d, front = u ++ [d] ∧ isBlank d = false ∧ d ≠ ';') :
    ∃ kept x, t = kept ++ x ∧ Ending x ∧ content (front ++ t) = front ++ kept := by
  obtain ⟨u, d, hfront, hblank, hsemicolon⟩ := hlast
  have hright : ∀ {p : Char → Bool}, p d = false → ∀ s, (front ++ s).rdropWhile p =
      front ++ s.rdropWhile p := by
    intro p hp s
    rw [hfront, List.append_assoc, List.append_assoc]
    exact Text.rdropWhile_append_cons hp u s
  have htrim : ∀ s, Text.trim (front ++ s) = front ++ s.rdropWhile isBlank := by
    intro s
    rw [← hright hblank]
    obtain ⟨c, v, rfl, hc⟩ := hfirst
    rw [Text.trim, List.cons_append, Text.trimLeft_cons hc]
    rfl
  obtain ⟨x₁, h₁, hx₁⟩ := exists_rdropWhile isBlank t
  obtain ⟨x₂, h₂, hx₂⟩ := exists_rdropWhile (· = ';') (t.rdropWhile isBlank)
  obtain ⟨x₃, h₃, hx₃⟩ := exists_rdropWhile isBlank ((t.rdropWhile isBlank).rdropWhile (· = ';'))
  refine ⟨((t.rdropWhile isBlank).rdropWhile (· = ';')).rdropWhile isBlank, x₃ ++ (x₂ ++ x₁), ?_,
    (Ending.of_isBlank hx₃).append (Ending.append (fun c hc => Or.inr (of_decide_eq_true (hx₂ c hc)))
      (.of_isBlank hx₁)), ?_⟩
  · rw [← List.append_assoc, ← h₃, ← List.append_assoc, ← h₂]
    exact h₁
  · rw [content, htrim]
    show Text.trim ((front ++ t.rdropWhile isBlank).rdropWhile (· = ';')) = _
    rw [hright (by simpa using hsemicolon), htrim]

end Alter

namespace Clause

open Identifier (backquoted)

-- A name between backquotes is read with the text behind it, if there is one.
theorem namedText?_backquoted {name : Text} (h : Quotable name) (s : Text)
    (hs : Identifier.NoNameChar s) : namedText? (backquoted name ++ s) =
      (gap? s).bind fun r => if r.isEmpty then none else some (backquoted name, r) := by
  unfold namedText?
  rw [(Identifier.name_backquoted h).read hs]
  rfl

-- Behind ADD and a backquote, only a column can be added.
theorem readChange_addColumn (s : Text) : readChange ("ADD".toList ++ ' ' :: '\x60' :: s) =
    match namedText? ('\x60' :: s) with
    | some (raw, text) =>
      if isReserved raw then .ok none
      else do
        return (← Column.parse text).map fun column =>
          .addColumn [Identifier.bare raw] (some column)
    | none => .ok none := by
  have hprimary : primaryKey? ("ADD".toList ++ ' ' :: '\x60' :: s) = none := rfl
  have hmodify : columnBehind? "MODIFY" ["IF", "EXISTS"] ("ADD".toList ++ ' ' :: '\x60' :: s) = none :=
    rfl
  have hforeign : foreignKey? ("ADD".toList ++ ' ' :: '\x60' :: s) = none := rfl
  have hkey : key? ("ADD".toList ++ ' ' :: '\x60' :: s) = none := rfl
  have hadd := @columnBehind?_quoted "ADD" "NOT" ('\x60' :: s) ["EXISTS"] ⟨_, _, rfl, by decide⟩
  unfold readChange
  rw [hprimary, hmodify, hforeign, hkey]
  cases hname : namedText? ('\x60' :: s) with
  | none => simp only [hadd, hname]
  | some found => simp only [hadd, hname]

end Clause

namespace Missing

open Identifier (backquoted)

theorem statement_eq {m : Missing} (table : Quotable m.table) : m.statement =
    Alter.statement (backquoted m.table) ("ADD".toList ++ ' ' :: (backquoted m.column ++ ' ' :: m.text)) := by
  unfold Alter.statement
  rw [Identifier.quote_backquoted table]
  unfold statement backquoted
  simp

-- What is left of the statement names the column and a definition without its ending.
theorem exists_content {m : Missing} (table : Quotable m.table) (column : Quotable m.column)
    (htext : ∃ c t, m.text = c :: t ∧ isBlank c = false) :
    ∃ s text x, Alter.split m.statement =
        (some (backquoted m.table), "ADD".toList ++ ' ' :: '\x60' :: s) ∧
      m.text = text ++ x ∧ Ending x ∧
      namedText? ('\x60' :: s) = if text.isEmpty then none else some (backquoted m.column, text) := by
  have hname := Identifier.name_backquoted column
  have hsplit := @Alter.split_statement "ADD" (backquoted m.table)
    ("ADD".toList ++ ' ' :: (backquoted m.column ++ ' ' :: m.text))
    (.plain (Identifier.name_backquoted table)) (by decide) (by decide) (by rw [keyword?_append]; rfl)
  obtain ⟨kept, x, hkept, hx, hcontent⟩ := @Alter.content_append_ending
    ("ADD".toList ++ ' ' :: backquoted m.column) (' ' :: m.text) ⟨'A', _, rfl, by decide⟩
    ⟨"ADD".toList ++ ' ' :: '\x60' :: m.column, '\x60', by simp [backquoted], by decide, by decide⟩
  have hchange : "ADD".toList ++ ' ' :: (backquoted m.column ++ ' ' :: m.text) =
      "ADD".toList ++ ' ' :: backquoted m.column ++ ' ' :: m.text := by simp
  rw [Identifier.quote_backquoted table, ← statement_eq table, hchange, hcontent] at hsplit
  have hcontent' : "ADD".toList ++ ' ' :: backquoted m.column ++ kept =
      "ADD".toList ++ ' ' :: '\x60' :: (m.column ++ '\x60' :: kept) := by simp [backquoted]
  have hnamed : '\x60' :: (m.column ++ '\x60' :: kept) = backquoted m.column ++ kept := by
    simp [backquoted]
  rw [hcontent'] at hsplit
  cases kept with
  | nil =>
    obtain rfl : x = ' ' :: m.text := hkept.symm
    refine ⟨_, [], m.text, hsplit, rfl, fun c hc => hx c (List.mem_cons_of_mem _ hc), ?_⟩
    · rw [hnamed, Clause.namedText?_backquoted column [] .nil]
      rfl
  | cons c text =>
    obtain ⟨rfl, htext'⟩ := List.cons.inj hkept
    refine ⟨_, text, x, hsplit, htext', hx, ?_⟩
    rw [hnamed, Clause.namedText?_backquoted column _ (.cons (by decide) text)]
    cases text with
    | nil => rfl
    | cons d text =>
      obtain ⟨d, t, hd, hblank⟩ := htext
      obtain ⟨rfl, -⟩ := List.cons.inj (htext'.symm.trans hd)
      rw [gap?_cons ⟨_, _, rfl, hblank⟩]
      rfl

/-- The statement of a missing column is read as the addition of the column, if its definition is
understood, and as nothing else. -/
theorem parse_statement {m : Missing} (table : Quotable m.table) (column : Quotable m.column)
    (unmarked : Identifier.Unmarked m.table) (unmarked' : Identifier.Unmarked m.column)
    (htext : ∃ c t, m.text = c :: t ∧ isBlank c = false) {found : Option Column}
    (h : Column.parse m.text = .ok found) :
    ∃ added : Option Column, added.isSome = found.isSome ∧ Clause.parse m.statement =
      .ok (added.map fun definition =>
        { table := some m.table, change := .addColumn [m.column] (some definition) }) := by
  obtain ⟨s, text, x, hsplit, hcut, hx, hnamed⟩ := exists_content table column htext
  have hending := Column.parse_ending hx text
  rw [← hcut, h] at hending
  obtain ⟨added, hadded, hsome⟩ := map_eq_ok.mp hending.symm
  have hread : Clause.readChange ("ADD".toList ++ ' ' :: '\x60' :: s) =
      .ok (added.map fun definition => .addColumn [m.column] (some definition)) := by
    rw [Clause.readChange_addColumn, hnamed]
    cases text with
    | nil =>
      obtain rfl := Except.ok.inj hadded
      rfl
    | cons c text =>
      have hreserved : Clause.isReserved (backquoted m.column) = false := rfl
      rw [List.isEmpty_cons, if_neg (by decide)]
      dsimp only
      rw [hreserved, if_neg (by decide), hadded,
        Identifier.bare_backquoted_eq column unmarked']
      rfl
  refine ⟨added, hsome, ?_⟩
  unfold Clause.parse
  rw [hsplit]
  dsimp only
  rw [hread]
  show Except.ok _ = _
  rw [Option.map_some, Identifier.bare_backquoted_eq table unmarked]
  cases added <;> rfl

end Missing

/-! ## 4. What changes keep -/

namespace Change

/-- The column that a change defines. -/
def column? : Change → Option Text
  | .modify (column :: _) (some _) => some column
  | .addColumn (column :: _) (some _) => some column
  | _ => none

end Change

namespace Table

theorem keys_mark (columns : List Text) (f : Text → Column → Column) (table : Table) :
    (table.mark columns f).columns.keys = table.columns.keys := by
  unfold mark
  dsimp only
  induction columns generalizing table with
  | nil => rfl
  | cons column columns ih =>
    rw [List.foldl_cons]
    exact (ih { table with columns := table.columns.update column (f column) }).trans
      (Ordered.keys_update _ _ _)

theorem keys_refer (name : Text) (reference : Reference) (position : Nat) (columns : List Text)
    (all : Ordered Column) : (refer name reference position columns all).keys = all.keys := by
  induction columns generalizing position all with
  | nil => rfl
  | cons column columns ih => rw [refer, ih, Ordered.keys_update]

theorem mem_keys_define (table : Table) (name : Text) (definition : Column) {column : Text} :
    column ∈ (table.define name definition).columns.keys ↔
      column = name ∨ column ∈ table.columns.keys := by
  unfold define
  dsimp only
  split
  · rename_i h
    rw [Ordered.keys_update]
    have hmem := Ordered.has_eq_true_iff.mp h
    exact ⟨Or.inr, fun h => h.elim (fun e => e ▸ hmem) id⟩
  · exact Ordered.mem_keys_set.trans or_comm

/-- After a change a table has the columns that it had, and the one that the change defines. -/
theorem mem_keys_apply (table : Table) (change : Change) {column : Text} :
    column ∈ (table.apply change).columns.keys ↔
      change.column? = some column ∨ column ∈ table.columns.keys := by
  have hnone : ∀ {columns : Ordered Column}, columns.keys = table.columns.keys →
      (column ∈ columns.keys ↔ (none : Option Text) = some column ∨ column ∈ table.columns.keys) := by
    intro columns h
    simp [h]
  have hdefine : ∀ name definition, column ∈ (table.define name definition).columns.keys ↔
      some name = some column ∨ column ∈ table.columns.keys := by
    intro name definition
    rw [mem_keys_define, Option.some.injEq, eq_comm]
  cases change with
  | primaryKey columns => exact hnone (keys_mark columns _ table)
  | unique name columns => exact hnone (keys_mark columns _ table)
  | index name columns => exact hnone (keys_mark columns _ table)
  | foreignKey name columns reference =>
    cases reference with
    | none => exact hnone rfl
    | some reference => exact hnone (keys_refer _ reference 0 columns _)
  | modify columns definition =>
    rcases columns with _ | ⟨name, columns⟩
    · exact hnone rfl
    · cases definition with
      | none => exact hnone rfl
      | some definition => exact hdefine name definition
  | addColumn columns definition =>
    rcases columns with _ | ⟨name, columns⟩
    · exact hnone rfl
    · cases definition with
      | none => exact hnone rfl
      | some definition => exact hdefine name definition

end Table

/-- After clauses a table has the columns that it had, and those that clauses on it define. -/
theorem Clause.mem_keys_foldl_applyTo {name : Text} (clauses : List Clause) (table : Table) :
    ∃ changed, clauses.foldl (applyTo name) (some table) = some changed ∧ ∀ column,
      column ∈ changed.columns.keys ↔ (∃ clause ∈ clauses, clause.table = some name ∧
        clause.change.column? = some column) ∨ column ∈ table.columns.keys := by
  induction clauses generalizing table with
  | nil => exact ⟨table, rfl, by simp⟩
  | cons clause clauses ih =>
    by_cases h : clause.table = some name
    · obtain ⟨changed, hchanged, hkeys⟩ := ih (table.apply clause.change)
      refine ⟨changed, ?_, fun column => ?_⟩
      · rw [List.foldl_cons, applyTo, if_pos h]
        exact hchanged
      · rw [hkeys, Table.mem_keys_apply, ← or_assoc, List.exists_mem_cons_iff]
        simp only [h, true_and]
        rw [or_comm (a := ∃ clause ∈ clauses, _)]
    · obtain ⟨changed, hchanged, hkeys⟩ := ih table
      refine ⟨changed, ?_, fun column => ?_⟩
      · rw [List.foldl_cons, applyTo, if_neg h]
        exact hchanged
      · rw [hkeys, List.exists_mem_cons_iff]
        simp [h]

/-- After ALTER statements a table is still there, with the columns that it had and those that the
statements on it define. -/
theorem Model.mem_keys_applyAlters {model result : Model} {alters : List Text}
    (h : model.applyAlters alters = .ok result) {name : Text} {table : Table}
    (there : model.get? name = some table) :
    ∃ changed, result.get? name = some changed ∧ ∀ column, column ∈ changed.columns.keys ↔
      (∃ clause ∈ alters.filterMap Clause.read?, clause.table = some name ∧
        clause.change.column? = some column) ∨ column ∈ table.columns.keys := by
  rw [applyAlters_eq_foldl h, get?_foldl_apply, there]
  obtain ⟨changed, hchanged, hkeys⟩ := Clause.mem_keys_foldl_applyTo
    ((alters.filterMap Clause.read?).filter (·.table = some name)) table
  refine ⟨changed, hchanged, fun column => ?_⟩
  rw [hkeys]
  simp [and_assoc]

/-! ## 5. The statements of a dump's missing columns -/

theorem Ordered.get?_map {α β : Type} (m : Ordered α) (f : Text → α → β) (name : Text) :
    get? (m.map fun (other, a) => (other, f other a)) name = (m.get? name).map (f name) := by
  induction m with
  | nil => rfl
  | cons entry m ih =>
    obtain ⟨other, a⟩ := entry
    simp only [get?, List.map_cons, List.lookup_cons] at ih ⊢
    by_cases h : name = other
    · subst h
      simp
    · have h' : (name == other) = false := by simpa using h
      simp [h', ih]

theorem CreateTable.exists_of_get?_columnTexts {query name text : Text}
    (h : (columnTexts query).get? name = some text) :
    Identifier.Unmarked name ∧ ∃ c t, text = c :: t ∧ isBlank c = false := by
  rw [get?_columnTexts] at h
  obtain ⟨part, -, hpart⟩ := List.mem_filterMap.mp (List.mem_reverse.mp (Ordered.mem_of_get? h))
  unfold columnText? at hpart
  split at hpart
  · cases hpart
  · obtain ⟨⟨raw, r⟩, hnamed, hpart⟩ := Option.map_eq_some_iff.mp hpart
    cases hpart
    obtain ⟨hraw, c, t, hr, hc⟩ := exists_of_namedText? hnamed
    obtain ⟨⟨v, hv⟩, -⟩ := Text.trim_cons hc t
    refine ⟨Identifier.unmarked_bare (Identifier.isSome_read?_of_name hraw), c, v, ?_, hc⟩
    rw [hr, hv]

namespace Dump

variable {account : Account} {sql : Text} {dump : Dump}

/-- A table of a dump has a statement that creates it, and is named as names are read. -/
theorem exists_of_mem_tables (read : parse account sql = .ok dump) {name : Text}
    (h : name ∈ dump.tables.keys) :
    Identifier.Unmarked name ∧ ∃ query rest, dump.tables.get? name = some (query :: rest) := by
  obtain ⟨statements, -, split, -⟩ := parse_eq_ok read
  have htables := (agrees_of_parse split read).tables
  obtain ⟨creates, hcreates⟩ := Option.isSome_iff_exists.mp (Ordered.has_eq_true_iff.mpr h)
  obtain ⟨s, hs, htable, rest, rfl⟩ := exists_of_get?_tables (htables ▸ hcreates)
  refine ⟨?_, _, rest, hcreates⟩
  obtain ⟨hkind, hname⟩ := Statement.of_tableOf? htable
  rw [Statement.name_of_split split hs (Or.inl hkind), hkind] at hname
  obtain ⟨⟨raw, r⟩, hread, rfl⟩ := Option.map_eq_some_iff.mp hname
  obtain ⟨-, -, hraw, -⟩ := CreateTable.front_of_createdTable? hread
  exact Identifier.unmarked_bare (Identifier.isSome_read?_of_qualified hraw)

-- The definitions of a dump that has a model can be read.
theorem exists_parse_of_ofDump {model : Model} (understood : Model.ofDump dump = .ok model)
    {name query : Text} {rest : List Text} (h : dump.tables.get? name = some (query :: rest))
    {column text : Text} (htext : (CreateTable.columnTexts query).get? column = some text) :
    ∃ found, Column.parse text = .ok found := by
  obtain ⟨created, hcreated, -⟩ := bind_eq_ok.mp understood
  obtain ⟨entry, hentry⟩ := exists_mapM_iff.mp ⟨created, hcreated⟩ _ (Ordered.mem_of_get? h)
  obtain ⟨table, htable, -⟩ := bind_eq_ok.mp hentry
  obtain ⟨columns, -, hcolumns, -⟩ := Table.ofCreate_eq_ok.mp htable
  obtain ⟨parsed, hparsed, -⟩ := bind_eq_ok.mp hcolumns
  obtain ⟨found, hfound⟩ := exists_mapM_iff.mp ⟨parsed, hparsed⟩ _ (Ordered.mem_of_get? htext)
  obtain ⟨found, hfound, -⟩ := bind_eq_ok.mp hfound
  exact ⟨found, hfound⟩

end Dump

namespace Plan

/-- The columns that existing tables lack, the tables in the order of the dump. -/
def missing (dump : Dump) (existing : Ordered (List Text)) : List Missing :=
  (present dump existing).eraseDups.flatMap fun table =>
    ((CreateTable.columnTexts (((dump.tables.get? table).getD []).head?.getD [])).filter
      fun (column, _) => !((existing.get? table).getD []).contains column).map
        fun (column, text) => { table, column, text }

theorem alters_excludeExisting (dump : Dump) (existing : Ordered (List Text)) (routines : List Text) :
    (excludeExisting dump existing routines).alters =
      (missing dump existing).map Missing.statement ++ dump.alters := by
  rw [excludeExisting_eq]
  unfold missing
  rw [List.map_flatMap]
  simp only [List.map_map]
  rfl

variable {account : Account} {sql : Text} {dump : Dump}

/-- The names of the columns of each table. -/
def columnNames (model : Model) : Ordered (List Text) :=
  model.map fun (name, table) => (name, table.columns.keys)

theorem mem_missing (read : Dump.parse account sql = .ok dump) {existing : Model} {m : Missing} :
    m ∈ missing dump (columnNames existing) ↔ ∃ table query rest,
      existing.get? m.table = some table ∧ dump.tables.get? m.table = some (query :: rest) ∧
      (CreateTable.columnTexts query).get? m.column = some m.text ∧
      m.column ∉ table.columns.keys := by
  have hordered := (places read).2.1
  have hnames : ∀ name, (columnNames existing).get? name =
      (existing.get? name).map fun table => table.columns.keys :=
    Ordered.get?_map existing fun _ table => table.columns.keys
  unfold missing present
  simp only [List.mem_flatMap, List.mem_eraseDups, List.mem_filter, List.mem_map, isPresent,
    Bool.and_eq_true, Ordered.has, hnames, Option.isSome_map]
  constructor
  · rintro ⟨name, ⟨-, hexisting, hcreated⟩, ⟨column, text⟩, ⟨hmem, hnew⟩, rfl⟩
    obtain ⟨table, htable⟩ := Option.isSome_iff_exists.mp hexisting
    obtain ⟨-, query, rest, hquery⟩ :=
      Dump.exists_of_mem_tables read (Ordered.has_eq_true_iff.mp hcreated)
    rw [hquery] at hmem
    rw [htable] at hnew
    refine ⟨table, query, rest, htable, hquery,
      Ordered.get?_of_mem (CreateTable.nodup_keys_columnTexts query) hmem, ?_⟩
    simpa using hnew
  · rintro ⟨table, query, rest, htable, hquery, htext, hnew⟩
    refine ⟨m.table, ⟨hordered _ (Ordered.mem_keys_of_get? hquery), ?_, ?_⟩, (m.column, m.text),
      ⟨?_, ?_⟩, rfl⟩
    · rw [htable]
      rfl
    · rw [hquery]
      rfl
    · rw [hquery]
      exact Ordered.mem_of_get? htext
    · rw [htable]
      simpa using hnew

-- The statements for quotable names are read as what they are made of.
theorem parse_of_mem_missing {model : Model} (read : Dump.parse account sql = .ok dump)
    (understood : Model.ofDump dump = .ok model) {existing : Model} {m : Missing}
    (hm : m ∈ missing dump (columnNames existing)) (table : Quotable m.table)
    (column : Quotable m.column) : ∃ found added : Option Column,
      Column.parse m.text = .ok found ∧ added.isSome = found.isSome ∧ Clause.parse m.statement =
        .ok (added.map fun definition =>
          { table := some m.table, change := .addColumn [m.column] (some definition) }) := by
  obtain ⟨-, query, rest, -, hquery, htext, -⟩ := (mem_missing read).mp hm
  obtain ⟨unmarked, -⟩ := Dump.exists_of_mem_tables read (Ordered.mem_keys_of_get? hquery)
  obtain ⟨unmarked', hstarts⟩ := CreateTable.exists_of_get?_columnTexts htext
  obtain ⟨found, hfound⟩ := Dump.exists_parse_of_ofDump understood hquery htext
  obtain ⟨added, hadded⟩ := Missing.parse_statement table column unmarked unmarked' hstarts hfound
  exact ⟨found, added, hfound, hadded⟩

/-- No column is added twice. -/
theorem nodup_missing (read : Dump.parse account sql = .ok dump) (existing : Ordered (List Text)) :
    ((missing dump existing).map fun m => (m.table, m.column)).Nodup := by
  have unique : (present dump existing).Nodup :=
    (List.nodup_append.mp (places read).1).1.filter _
  unfold missing
  rw [eraseDups_of_nodup unique, List.map_flatMap]
  simp only [List.map_map]
  refine List.nodup_flatMap.mpr ⟨fun table _ => ?_, unique.imp fun {table other} h => ?_⟩
  · generalize ((dump.tables.get? table).getD []).head?.getD [] = query
    have hkeys := ((List.filter_sublist (p := fun (column, _) =>
      !((existing.get? table).getD []).contains column)).map Prod.fst).nodup
        (CreateTable.nodup_keys_columnTexts query)
    have hpairs := hkeys.map (Prod.mk_right_injective table)
    rw [List.map_map] at hpairs
    exact hpairs
  · refine List.disjoint_left.mpr fun pair hpair hpair' => h ?_
    obtain ⟨entry, -, rfl⟩ := List.mem_map.mp hpair
    obtain ⟨entry', -, hentry⟩ := List.mem_map.mp hpair'
    exact (Prod.mk.inj hentry).1.symm

/-- **What an import adds to existing tables.** The statements of an import that keeps what exists
are one for each column that an existing table lacks of those that the dump creates it with, and
then those of the dump. No table loses a column, whatever statements are made. All of the import's
can be made unless one for a name that is empty or holds a backquote cannot be read, and then each
table has every column that the dump defines, as far as its name and the column's are no such
names. -/
theorem excludeExisting_completes {model : Model} (read : Dump.parse account sql = .ok dump)
    (understood : Model.ofSql account sql = .ok model) (existing : Model) (routines : List Text) :
    let reduced := excludeExisting dump (columnNames existing) routines
    (∃ missing : List Missing,
      reduced.alters = missing.map Missing.statement ++ dump.alters ∧
      (missing.map fun m => (m.table, m.column)).Nodup ∧
      (∀ m, m ∈ missing ↔ ∃ table query rest, existing.get? m.table = some table ∧
        dump.tables.get? m.table = some (query :: rest) ∧
        (CreateTable.columnTexts query).get? m.column = some m.text ∧
        m.column ∉ table.columns.keys) ∧
      ((∃ result, existing.applyAlters reduced.alters = .ok result) ↔
        ∀ m ∈ missing, Quotable m.table ∧ Quotable m.column ∨
          ∃ clause, Clause.parse m.statement = .ok clause)) ∧
    (∀ made result, existing.applyAlters made = .ok result → ∀ name table,
      existing.get? name = some table →
        ∃ changed, result.get? name = some changed ∧ table.columns.keys ⊆ changed.columns.keys) ∧
    ∀ result, existing.applyAlters reduced.alters = .ok result →
      ∀ name query rest column, name ∈ existing.keys →
        dump.tables.get? name = some (query :: rest) → Quotable name → Quotable column →
        CreateTable.Defines query column →
        ∃ table, result.get? name = some table ∧ column ∈ table.columns.keys := by
  intro reduced
  obtain ⟨found, hfound, understood⟩ := bind_eq_ok.mp understood
  obtain rfl := Except.ok.inj (hfound.symm.trans read)
  have halters : reduced.alters = _ := alters_excludeExisting found _ routines
  refine ⟨⟨missing found (columnNames existing), halters, nodup_missing read _,
    fun m => mem_missing read, ?_⟩, ?_, ?_⟩
  · have hown : ∀ alter ∈ found.alters, ∃ clause, Clause.parse alter = .ok clause := by
      obtain ⟨created, -, hchanges⟩ := bind_eq_ok.mp understood
      exact Model.exists_applyAlters_iff.mp ⟨model, hchanges⟩
    rw [Model.exists_applyAlters_iff, halters, List.forall_mem_append, List.forall_mem_map]
    constructor
    · exact fun h m hm => Or.inr (h.1 m hm)
    · refine fun h => ⟨fun m hm => ?_, hown⟩
      rcases h m hm with ⟨htable, hcolumn⟩ | h
      · obtain ⟨-, added, -, -, hadded⟩ := parse_of_mem_missing read understood hm htable hcolumn
        exact ⟨_, hadded⟩
      · exact h
  · intro made result hmade name table htable
    obtain ⟨changed, hchanged, hkeys⟩ := Model.mem_keys_applyAlters hmade htable
    exact ⟨changed, hchanged, fun column hcolumn => (hkeys column).mpr (Or.inr hcolumn)⟩
  · rintro result hmade name query rest column hname hquery htable hcolumn ⟨text, htext, hdefined⟩
    obtain ⟨table, hexisting⟩ := Option.isSome_iff_exists.mp (Ordered.has_eq_true_iff.mpr hname)
    obtain ⟨changed, hchanged, hkeys⟩ := Model.mem_keys_applyAlters hmade hexisting
    refine ⟨changed, hchanged, (hkeys column).mpr ?_⟩
    by_cases hthere : column ∈ table.columns.keys
    · exact Or.inr hthere
    -- a column that the table lacked was added by its own statement
    · have hm := (@mem_missing _ _ _ read existing { table := name, column, text }).mpr
        ⟨table, query, rest, hexisting, hquery, htext, hthere⟩
      obtain ⟨parsed, added, hparsed, hsome, hread⟩ :=
        parse_of_mem_missing read understood hm htable hcolumn
      obtain ⟨definition, hdefinition⟩ := hdefined
      rw [hparsed] at hdefinition
      obtain rfl := Except.ok.inj hdefinition
      obtain ⟨definition, rfl⟩ := Option.isSome_iff_exists.mp hsome
      refine Or.inl ⟨_, List.mem_filterMap.mpr ⟨_, ?_, by rw [Clause.read?, hread]; rfl⟩, rfl, rfl⟩
      rw [halters]
      exact List.mem_append_left _ (List.mem_map_of_mem hm)

/-- A table that lacks one of two columns, and a change of the dump's own. -/
theorem excludeExisting_completes_column :
    let sql : Text := "CREATE TABLE t (x int, c int); ALTER TABLE t ADD d int"
    let existing : Model := [(['t'], {
      name := ['t'], columns := [(['x'], { type := "int", datatype := "int" })] })]
    ∃ dump model result table, Dump.parse {} sql = .ok dump ∧ Model.ofSql {} sql = .ok model ∧
      existing.applyAlters (excludeExisting dump (columnNames existing) []).alters =
        .ok result ∧
      result.get? ['t'] = some table ∧ ['x'] ∈ table.columns.keys ∧ ['c'] ∈ table.columns.keys := by
  intro sql existing
  let create : Text := "CREATE TABLE t (x int, c int)"
  obtain ⟨dump, read, hview⟩ := exists_ok (x := Dump.parse {} sql)
    (f := fun dump => (dump.tables.get? ['t'], (existing.applyAlters
      (excludeExisting dump (columnNames existing) []).alters).toOption.isSome))
    (b := (some [create], true)) (by decide +kernel)
  obtain ⟨hcreate, hmade⟩ := Prod.mk.inj hview
  obtain ⟨model, understood, -⟩ := exists_ok (x := Model.ofSql {} sql) (f := fun _ => ()) (b := ())
    (by decide +kernel)
  obtain ⟨-, hkept, hadded⟩ := excludeExisting_completes read understood existing []
  obtain ⟨result, hresult⟩ := Option.isSome_iff_exists.mp hmade
  obtain ⟨result, hresult, -⟩ := exists_ok (f := fun _ => ()) (b := ())
    (congrArg (Option.map fun _ => ()) hresult)
  obtain ⟨table, htable, hcolumn⟩ := hadded result hresult ['t'] create [] ['c'] (by decide) hcreate
    (by decide) (by decide) (by decide +kernel)
  obtain ⟨changed, hchanged, hkeys⟩ := hkept _ result hresult ['t'] _ rfl
  obtain rfl := Option.some.inj (hchanged.symm.trans htable)
  exact ⟨dump, model, result, changed, read, understood, hresult, htable, hkeys (by decide), hcolumn⟩

end Plan

end SqlDump
