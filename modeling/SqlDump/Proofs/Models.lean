import SqlDump.Model
import SqlDump.Proofs.Buckets
import SqlDump.Proofs.Outcome

/-!
# What all columns of a dump's model have in common

Every definition in a model was read from a text, by a CREATE TABLE statement or by a change that
defines a column. Keys leave definitions alone. So what holds of every definition that is read holds
of every column, and names stand for one table and one column each.
-/

namespace SqlDump

open Outcome

/-! ## 1. Changes -/

namespace Change

/-- The definition that a change gives to a column. -/
def definition? : Change → Option Column
  | .modify _ definition => definition
  | .addColumn _ definition => definition
  | _ => none

end Change

namespace Clause

theorem definition?_keyChange (isUnique : Bool) (name : Option Text) (s : Text) (change : Change)
    (h : keyChange isUnique name s = some change) : change.definition? = none := by
  unfold keyChange at h
  obtain ⟨group, -, h⟩ := Option.bind_eq_some_iff.mp h
  obtain ⟨first, -, h⟩ := Option.bind_eq_some_iff.mp h
  cases isUnique <;> cases h <;> rfl

theorem definition?_foreignChange (name : Option Text) (s : Text) (change : Change)
    (h : foreignChange name s = some change) : change.definition? = none := by
  unfold foreignChange at h
  obtain ⟨group, -, h⟩ := Option.bind_eq_some_iff.mp h
  obtain ⟨reference, -, h⟩ := Option.bind_eq_some_iff.mp h
  obtain ⟨columns, -, h⟩ := Option.bind_eq_some_iff.mp h
  cases h
  rfl

-- A definition in a change was read from a text.
theorem exists_parse_of_readChange {s : Text} {change : Change} {definition : Column}
    (read : readChange s = .ok (some change)) (h : change.definition? = some definition) :
    ∃ text, Column.parse text = .ok (some definition) := by
  unfold readChange at read
  split at read
  case h_1 =>
    obtain ⟨group, -, rfl⟩ := Option.map_eq_some_iff.mp (Except.ok.inj read)
    cases h
  case h_2 =>
  split at read
  case h_1 raw text _ =>
    obtain ⟨column, parsed, read⟩ := bind_eq_ok.mp read
    obtain ⟨column, rfl, rfl⟩ := Option.map_eq_some_iff.mp (Except.ok.inj read)
    cases h
    exact ⟨text, parsed⟩
  case h_2 =>
  split at read
  case h_1 =>
    rw [definition?_foreignChange _ _ _ (Except.ok.inj read)] at h
    cases h
  case h_2 =>
  split at read
  case h_1 =>
    rw [definition?_keyChange _ _ _ _ (Except.ok.inj read)] at h
    cases h
  case h_2 =>
  split at read
  case h_1 raw text _ =>
    split at read
    · cases read
    · obtain ⟨column, parsed, read⟩ := bind_eq_ok.mp read
      obtain ⟨column, rfl, rfl⟩ := Option.map_eq_some_iff.mp (Except.ok.inj read)
      cases h
      exact ⟨text, parsed⟩
  case h_2 => cases read

theorem exists_parse_of_parse {text : Text} {clause : Clause} {definition : Column}
    (read : parse text = .ok (some clause)) (h : clause.change.definition? = some definition) :
    ∃ text, Column.parse text = .ok (some definition) := by
  unfold parse at read
  obtain ⟨change, hchange, read⟩ := bind_eq_ok.mp read
  obtain ⟨change, rfl, rfl⟩ := Option.map_eq_some_iff.mp (Except.ok.inj read)
  exact exists_parse_of_readChange hchange h

end Clause

/-! ## 2. Tables -/

namespace CreateTable

theorem nodup_keys_columnTexts (query : Text) : (columnTexts query).keys.Nodup := by
  unfold columnTexts
  generalize (parts query).filterMap columnText? = texts
  have key : ∀ columns : Ordered Text, columns.keys.Nodup →
      (texts.foldl (fun columns entry => columns.set entry.1 entry.2) columns).keys.Nodup := by
    induction texts with
    | nil => exact fun _ h => h
    | cons entry texts ih => exact fun columns h => ih _ (Ordered.nodup_keys_set h _ _)
  exact key [] List.nodup_nil

end CreateTable

namespace Table

theorem columnsOf_cons {name text : Text} {texts : Ordered Text} {columns : Ordered Column} :
    columnsOf ((name, text) :: texts) = .ok columns ↔
      ∃ column rest, Column.parse text = .ok column ∧ columnsOf texts = .ok rest ∧
        columns = (column.map (name, ·)).toList ++ rest := by
  unfold columnsOf
  rw [List.mapM_cons]
  constructor
  · intro h
    obtain ⟨parsed, hparsed, h⟩ := bind_eq_ok.mp h
    obtain ⟨entry, hentry, hparsed⟩ := bind_eq_ok.mp hparsed
    obtain ⟨column, hcolumn, hentry⟩ := bind_eq_ok.mp hentry
    obtain ⟨rest, hrest, hparsed⟩ := bind_eq_ok.mp hparsed
    obtain rfl := Except.ok.inj hentry
    obtain rfl := Except.ok.inj hparsed
    refine ⟨column, _, hcolumn, bind_eq_ok.mpr ⟨rest, hrest, rfl⟩, ?_⟩
    rw [← Except.ok.inj h]
    cases column <;> rfl
  · rintro ⟨column, rest, hcolumn, hrest, rfl⟩
    obtain ⟨parsed, hparsed, hrest⟩ := bind_eq_ok.mp hrest
    obtain rfl := Except.ok.inj hrest
    refine bind_eq_ok.mpr ⟨(name, column) :: parsed, ?_, ?_⟩
    · exact bind_eq_ok.mpr ⟨(name, column), bind_eq_ok.mpr ⟨column, hcolumn, rfl⟩,
        bind_eq_ok.mpr ⟨parsed, hparsed, rfl⟩⟩
    · cases column <;> rfl

theorem columnsOf_nil {columns : Ordered Column} : columnsOf [] = .ok columns ↔ columns = [] :=
  ⟨fun h => (Except.ok.inj h).symm, fun h => h ▸ rfl⟩

theorem keys_columnsOf {texts : Ordered Text} {columns : Ordered Column}
    (h : columnsOf texts = .ok columns) : columns.keys.Sublist texts.keys := by
  induction texts generalizing columns with
  | nil =>
    rw [columnsOf_nil.mp h]
    exact List.Sublist.slnil
  | cons entry texts ih =>
    obtain ⟨column, rest, -, hrest, rfl⟩ := columnsOf_cons.mp h
    cases column with
    | none => exact (ih hrest).cons _
    | some column => exact (ih hrest).cons_cons _

theorem exists_parse_of_columnsOf {texts : Ordered Text} {columns : Ordered Column}
    (h : columnsOf texts = .ok columns) {entry : Text × Column} (hentry : entry ∈ columns) :
    ∃ text, Column.parse text = .ok (some entry.2) := by
  induction texts generalizing columns with
  | nil =>
    rw [columnsOf_nil.mp h] at hentry
    cases hentry
  | cons first texts ih =>
    obtain ⟨column, rest, hcolumn, hrest, rfl⟩ := columnsOf_cons.mp h
    rcases List.mem_append.mp hentry with hentry | hentry
    · cases column with
      | none => cases hentry
      | some column =>
        obtain rfl := List.mem_singleton.mp hentry
        exact ⟨_, hcolumn⟩
    · exact ih hrest hentry

/-- Makes the change of a clause, if one was read. -/
def applyRead (table : Table) : Option Clause → Table
  | some clause => table.apply clause.change
  | none => table

theorem ofCreate_eq_ok {name create : Text} {table : Table} :
    ofCreate name create = .ok table ↔
      ∃ columns clauses, columnsOf (CreateTable.columnTexts create) = .ok columns ∧
        (CreateTable.keyLines create).mapM Clause.parse = .ok clauses ∧
        table = clauses.foldl applyRead { name, columns } := by
  have hstep : (fun (table : Table) (clause : Option Clause) =>
      match clause with
      | some clause => table.apply clause.change
      | none => table) = applyRead := by
    funext table clause
    cases clause <;> rfl
  unfold ofCreate
  rw [bind_eq_ok]
  constructor
  · rintro ⟨columns, hcolumns, h⟩
    obtain ⟨clauses, hclauses, h⟩ := bind_eq_ok.mp h
    exact ⟨columns, clauses, hcolumns, hclauses, hstep ▸ (Except.ok.inj h).symm⟩
  · rintro ⟨columns, clauses, hcolumns, hclauses, rfl⟩
    refine ⟨columns, hcolumns, bind_eq_ok.mpr ⟨clauses, hclauses, ?_⟩⟩
    rw [← hstep]
    rfl

end Table

/-- A property of definitions that every definition has that is read. -/
def Definition.Readable (P : Definition → Prop) : Prop :=
  ∀ text column, Column.parse text = .ok (some column) → P column.toDefinition

variable {P : Definition → Prop}

/-- Columns with names of their own, all with definitions that have a property. -/
structure Sound (P : Definition → Prop) (columns : Ordered Column) : Prop where
  unique : columns.keys.Nodup
  holds : ∀ entry ∈ columns, P entry.2.toDefinition

namespace Sound

theorem nil : Sound P [] := ⟨List.nodup_nil, fun _ h => by cases h⟩

theorem update {columns : Ordered Column} (sound : Sound P columns) (name : Text)
    {f : Column → Column} (h : ∀ column, P column.toDefinition → P (f column).toDefinition) :
    Sound P (columns.update name f) where
  unique := by
    rw [Ordered.keys_update]
    exact sound.unique
  holds := by
    intro entry hentry
    rcases Ordered.mem_update hentry with hentry | ⟨column, hcolumn, rfl⟩
    · exact sound.holds entry hentry
    · exact h column (sound.holds _ hcolumn)

theorem set {columns : Ordered Column} (sound : Sound P columns) (name : Text) {column : Column}
    (h : P column.toDefinition) : Sound P (columns.set name column) where
  unique := Ordered.nodup_keys_set sound.unique _ _
  holds := by
    intro entry hentry
    rcases Ordered.mem_set hentry with hentry | rfl
    · exact sound.holds entry hentry
    · exact h

theorem mark {table : Table} (sound : Sound P table.columns) (columns : List Text)
    {f : Text → Column → Column} (h : ∀ name column, (f name column).toDefinition = column.toDefinition) :
    Sound P (table.mark columns f).columns := by
  show Sound P (columns.foldl _ table.columns)
  induction columns generalizing table with
  | nil => exact sound
  | cons name columns ih =>
    have next := sound.update name (f := f name) (fun column hcolumn => (h name column).symm ▸ hcolumn)
    exact @ih { table with columns := table.columns.update name (f name) } next

theorem refer {all : Ordered Column} (sound : Sound P all) (name : Text) (reference : Reference)
    (position : Nat) (columns : List Text) :
    Sound P (Table.refer name reference position columns all) := by
  induction columns generalizing all position with
  | nil => exact sound
  | cons column columns ih =>
    rw [Table.refer]
    exact ih (sound.update column (f := Column.addForeign _) fun _ h => h) (position + 1)

theorem define {table : Table} (sound : Sound P table.columns) (name : Text) {definition : Column}
    (h : P definition.toDefinition) : Sound P (table.define name definition).columns := by
  unfold Table.define
  dsimp only
  split
  · exact sound.update name fun _ _ => h
  · exact sound.set name h

theorem apply {table : Table} (sound : Sound P table.columns) (change : Change)
    (h : ∀ definition, change.definition? = some definition → P definition.toDefinition) :
    Sound P (table.apply change).columns := by
  cases change with
  | primaryKey columns => exact sound.mark columns fun _ _ => rfl
  | unique name columns => exact sound.mark columns fun _ _ => rfl
  | index name columns => exact sound.mark columns fun _ _ => rfl
  | foreignKey name columns reference =>
    cases reference with
    | none => exact sound
    | some reference => exact sound.refer _ reference 0 columns
  | modify columns definition =>
    cases columns with
    | nil => exact sound
    | cons column columns =>
      cases definition with
      | none => exact sound
      | some definition => exact sound.define column (h definition rfl)
  | addColumn columns definition =>
    cases columns with
    | nil => exact sound
    | cons column columns =>
      cases definition with
      | none => exact sound
      | some definition => exact sound.define column (h definition rfl)

theorem columnsOf (readable : Definition.Readable P) {texts : Ordered Text}
    (unique : texts.keys.Nodup) {columns : Ordered Column}
    (h : Table.columnsOf texts = .ok columns) : Sound P columns where
  unique := (Table.keys_columnsOf h).nodup unique
  holds := by
    intro entry hentry
    obtain ⟨text, hparse⟩ := Table.exists_parse_of_columnsOf h hentry
    exact readable text entry.2 hparse

theorem applyRead {table : Table} (sound : Sound P table.columns) {clauses : List (Option Clause)}
    (h : ∀ clause, some clause ∈ clauses → ∀ definition,
      clause.change.definition? = some definition → P definition.toDefinition) :
    Sound P (clauses.foldl Table.applyRead table).columns := by
  induction clauses generalizing table with
  | nil => exact sound
  | cons clause clauses ih =>
    have rest := fun other hother => h other (List.mem_cons_of_mem _ hother)
    cases clause with
    | none => exact ih sound rest
    | some clause => exact ih (sound.apply clause.change (h clause List.mem_cons_self)) rest

theorem ofCreate (readable : Definition.Readable P) {name create : Text} {table : Table}
    (h : Table.ofCreate name create = .ok table) : Sound P table.columns := by
  obtain ⟨columns, clauses, hcolumns, hclauses, rfl⟩ := Table.ofCreate_eq_ok.mp h
  have sound := columnsOf readable (CreateTable.nodup_keys_columnTexts create) hcolumns
  refine @applyRead P { name, columns } sound clauses fun clause hclause definition hdefinition => ?_
  obtain ⟨line, -, hline⟩ := exists_of_mapM_eq_ok hclauses hclause
  obtain ⟨text, hparse⟩ := Clause.exists_parse_of_parse hline hdefinition
  exact readable text definition hparse

end Sound

/-! ## 3. Models -/

/-- Tables with names of their own, all with sound columns. -/
structure Model.Sound (P : Definition → Prop) (model : Model) : Prop where
  unique : model.keys.Nodup
  sound : ∀ entry ∈ model, SqlDump.Sound P entry.2.columns

namespace Model

theorem Sound.apply {model : Model} (sound : Sound P model) (clause : Clause)
    (h : ∀ definition, clause.change.definition? = some definition → P definition.toDefinition) :
    Sound P (model.apply clause) := by
  unfold Model.apply
  split
  · exact sound
  · rename_i name _
    split
    · refine ⟨by rw [Ordered.keys_update]; exact sound.unique, ?_⟩
      intro entry hentry
      rcases Ordered.mem_update hentry with hentry | ⟨table, htable, rfl⟩
      · exact sound.sound entry hentry
      · exact (sound.sound _ htable).apply clause.change h
    · refine ⟨Ordered.nodup_keys_set sound.unique _ _, ?_⟩
      intro entry hentry
      rcases Ordered.mem_set hentry with hentry | rfl
      · exact sound.sound entry hentry
      · exact @SqlDump.Sound.apply P { name } SqlDump.Sound.nil clause.change h

theorem keys_ofCreates {tables : Ordered (List Text)} {model : Model}
    (h : Model.ofCreates tables = .ok model) : model.keys = tables.keys := by
  have each := mapM_eq_ok.mp h
  clear h
  induction each with
  | nil => rfl
  | @cons entry result tables model hentry _ ih =>
    obtain ⟨table, -, hentry⟩ := bind_eq_ok.mp hentry
    obtain rfl := Except.ok.inj hentry
    exact congrArg (entry.1 :: ·) ih

theorem Sound.ofCreates (readable : Definition.Readable P) {tables : Ordered (List Text)}
    (unique : tables.keys.Nodup) {model : Model} (h : Model.ofCreates tables = .ok model) :
    Sound P model := by
  have each := mapM_eq_ok.mp h
  have hkeys := keys_ofCreates h
  refine ⟨hkeys ▸ unique, ?_⟩
  clear hkeys unique h
  induction each with
  | nil => intro entry hentry; cases hentry
  | @cons entry result tables model hentry _ ih =>
    obtain ⟨table, htable, hentry⟩ := bind_eq_ok.mp hentry
    obtain rfl := Except.ok.inj hentry
    intro entry hmem
    rcases List.mem_cons.mp hmem with rfl | hmem
    · exact SqlDump.Sound.ofCreate readable htable
    · exact ih entry hmem

theorem Sound.applyAlters (readable : Definition.Readable P) {model result : Model}
    (sound : Sound P model) {alters : List Text} (h : model.applyAlters alters = .ok result) :
    Sound P result := by
  refine foldlM_preserves ?_ alters model result sound h
  intro model alter next sound hstep
  obtain ⟨clause, hclause, hstep⟩ := bind_eq_ok.mp hstep
  cases clause with
  | none => exact Except.ok.inj hstep ▸ sound
  | some clause =>
    rw [← Except.ok.inj hstep]
    refine sound.apply clause fun definition hdefinition => ?_
    obtain ⟨text, hparse⟩ := Clause.exists_parse_of_parse hclause hdefinition
    exact readable text definition hparse

/-- Definitions in a dump's model have what all definitions have that are read. -/
theorem Sound.ofSql (readable : Definition.Readable P) {account : Account} {sql : Text}
    {model : Model} (h : Model.ofSql account sql = .ok model) : Sound P model := by
  unfold Model.ofSql at h
  obtain ⟨dump, hdump, h⟩ := bind_eq_ok.mp h
  unfold Model.ofDump at h
  obtain ⟨created, hcreated, h⟩ := bind_eq_ok.mp h
  exact (Sound.ofCreates readable (Dump.Keyed.of_parse hdump).tables hcreated).applyAlters readable h

end Model

end SqlDump
