import SqlDump.Proofs.Differences
import SqlDump.Proofs.MissingColumns

/-!
# What clauses add

A clause changes the table that it names and takes nothing away there: tables and columns keep their
places and new ones go behind them, and new keys go behind those that a column has. Only a definition
takes the place of another one. The two ways to change a table are told apart once, in
`Table.apply_marks` and `Table.apply_defines`: keys mark the columns that are there, and a definition
goes to one column.
-/

namespace SqlDump

/-! ## 1. The two ways to change a table -/

namespace Table

variable {table : Table}

theorem get?_markAll (marks : Text → Marks) (columns : Ordered Column) (name : Text) :
    (markAll marks columns).get? name = (columns.get? name).map (·.marked (marks name)) :=
  Ordered.get?_map columns (fun other column => column.marked (marks other)) name

theorem define_of_mem {name : Text} (h : name ∈ table.columns.keys) (definition : Column) :
    table.define name definition =
      { table with columns := table.columns.update name (·.redefine definition) } := by
  rw [define, if_pos (Ordered.has_eq_true_iff.mpr h)]

theorem define_of_not_mem {name : Text} (h : name ∉ table.columns.keys) (definition : Column) :
    table.define name definition =
      { table with columns := table.columns ++ [(name, definition)] } := by
  rw [define, if_neg fun there => h (Ordered.has_eq_true_iff.mp there),
    Ordered.set_of_not_mem definition h]

/-- A change that defines no column marks those that are there. -/
theorem apply_marks (unique : table.columns.keys.Nodup) {change : Change}
    (h : change.column? = none) :
    table.apply change = { table with columns := markAll change.marks table.columns } := by
  cases hdefinition : change.definition? with
  | none => exact apply_eq_markAll unique hdefinition
  | some definition =>
    -- a definition without a column to go to changes nothing
    have hnothing : table = { table with columns := markAll (fun _ => {}) table.columns } := by
      rw [markAll_empty]
    cases change with
    | modify columns found =>
      obtain rfl : found = some definition := hdefinition
      cases columns with
      | nil => exact hnothing
      | cons name columns => cases h
    | addColumn columns found =>
      obtain rfl : found = some definition := hdefinition
      cases columns with
      | nil => exact hnothing
      | cons name columns => cases h
    | _ => cases hdefinition

/-- A change that defines a column does nothing else. -/
theorem apply_defines {change : Change} {name : Text} (h : change.column? = some name) :
    ∃ definition, change.definition? = some definition ∧
      ∀ table : Table, table.apply change = table.define name definition := by
  cases change with
  | modify columns definition =>
    cases columns <;> cases definition <;> cases h
    exact ⟨_, rfl, fun _ => rfl⟩
  | addColumn columns definition =>
    cases columns <;> cases definition <;> cases h
    exact ⟨_, rfl, fun _ => rfl⟩
  | _ => cases h

end Table

/-! ## 2. Columns, tables and models within others -/

/-- A column whose keys another column has too, the other's further keys behind them. -/
structure Column.Within (before after : Column) : Prop where
  primary : before.primary = true → after.primary = true
  unique : before.unique <+: after.unique
  index : before.index <+: after.index
  foreign : before.foreign <+: after.foreign

/-- A table whose columns another table has too, in their order and the other's further columns
behind them. -/
structure Table.Within (before after : Table) : Prop where
  name : after.name = before.name
  keys : before.columns.keys <+: after.columns.keys
  columns : ∀ name column, before.columns.get? name = some column →
    ∃ changed, after.columns.get? name = some changed ∧ column.Within changed

/-- A model whose tables another model has too, in their order and the other's further tables behind
them. -/
structure Model.Within (before after : Model) : Prop where
  keys : before.keys <+: after.keys
  tables : ∀ name table, before.get? name = some table →
    ∃ changed, after.get? name = some changed ∧ table.Within changed

namespace Column.Within

theorem refl (column : Column) : column.Within column :=
  ⟨id, List.prefix_rfl, List.prefix_rfl, List.prefix_rfl⟩

theorem trans {first second third : Column} (h : first.Within second) (h' : second.Within third) :
    first.Within third where
  primary := h'.primary ∘ h.primary
  unique := h.unique.trans h'.unique
  index := h.index.trans h'.index
  foreign := h.foreign.trans h'.foreign

theorem marked (column : Column) (m : Marks) : column.Within (column.marked m) where
  primary := fun h => by simp [Column.marked, h]
  unique := List.prefix_append _ _
  index := List.prefix_append _ _
  foreign := List.prefix_append _ _

theorem redefine (column definition : Column) : column.Within (column.redefine definition) where
  primary := fun h => by simp [Column.redefine, h]
  unique := List.prefix_rfl
  index := List.prefix_rfl
  foreign := List.prefix_rfl

end Column.Within

namespace Table.Within

theorem refl (table : Table) : table.Within table :=
  ⟨rfl, List.prefix_rfl, fun _ column h => ⟨column, h, .refl column⟩⟩

theorem trans {first second third : Table} (h : first.Within second) (h' : second.Within third) :
    first.Within third where
  name := h'.name.trans h.name
  keys := h.keys.trans h'.keys
  columns := by
    intro name column hcolumn
    obtain ⟨changed, hchanged, hwithin⟩ := h.columns name column hcolumn
    obtain ⟨last, hlast, hwithin'⟩ := h'.columns name changed hchanged
    exact ⟨last, hlast, hwithin.trans hwithin'⟩

end Table.Within

namespace Model.Within

theorem refl (model : Model) : model.Within model :=
  ⟨List.prefix_rfl, fun _ table h => ⟨table, h, .refl table⟩⟩

theorem trans {first second third : Model} (h : first.Within second) (h' : second.Within third) :
    first.Within third where
  keys := h.keys.trans h'.keys
  tables := by
    intro name table htable
    obtain ⟨changed, hchanged, hwithin⟩ := h.tables name table htable
    obtain ⟨last, hlast, hwithin'⟩ := h'.tables name changed hchanged
    exact ⟨last, hlast, hwithin.trans hwithin'⟩

end Model.Within

/-! ## 3. What a change adds to a table -/

/-- The foreign keys of a column, each position of the column in the key paired with the column at
the same position among those referred to. -/
def ForeignKey.paired (key : Text) (reference : Reference) (columns : List Text) (column : Text) :
    List ForeignKey :=
  ((columns.zip reference.columns).filter (·.1 = column)).map fun (_, refColumn) =>
    { name := key, column, refTable := reference.table, refColumn }

/-- What a change makes of a table. -/
structure Table.Adds (change : Change) (before after : Table) : Prop extends before.Within after where
  /-- At most one column is new, the one that the change defines. -/
  added : after.columns.keys = before.columns.keys ∨
    ∃ column definition, change.column? = some column ∧ change.definition? = some definition ∧
      column ∉ before.columns.keys ∧ after.columns = before.columns ++ [(column, definition)]
  /-- The columns that it does not define are defined as before. -/
  same : ∀ name column changed, change.column? ≠ some name →
    before.columns.get? name = some column → after.columns.get? name = some changed →
    changed.toDefinition = column.toDefinition
  /-- The column that it defines has the whole definition. -/
  defined : ∀ name definition, change.column? = some name → change.definition? = some definition →
    ∃ changed, after.columns.get? name = some changed ∧
      changed.toDefinition = definition.toDefinition
  /-- A foreign key with a column to refer to for each of its own pairs them by position. -/
  paired : ∀ key columns reference, change = .foreignKey key columns (some reference) →
    columns.length ≤ reference.columns.length →
    ∀ name column, before.columns.get? name = some column → after.columns.get? name = some
      { column with
        foreign := column.foreign ++ ForeignKey.paired (key.getD []) reference columns name }

namespace Table

variable {table : Table}

-- The first column of a key is at `position`, with enough columns to refer to behind it.
theorem referMarks_eq_paired (key : Text) (reference : Reference) (position : Nat)
    (columns : List Text) (enough : position + columns.length ≤ reference.columns.length)
    (name : Text) : referMarks key reference position columns name =
      { foreign := ForeignKey.paired key
          { reference with columns := reference.columns.drop position } columns name } := by
  induction columns generalizing position with
  | nil => rfl
  | cons column columns ih =>
    rw [List.length_cons] at enough
    have hposition : position < reference.columns.length := by omega
    have hcolumn : refColumn reference position = reference.columns[position] := by
      rw [refColumn, List.getElem?_eq_getElem hposition]
    rw [referMarks, ih (position + 1) (by omega), ForeignKey.paired, ForeignKey.paired,
      List.drop_eq_getElem_cons hposition, List.zip_cons_cons]
    by_cases h : name = column
    · subst h
      simp [only, Marks.append, foreignKeyAt, hcolumn]
    · have h' : ¬ column = name := fun e => h e.symm
      simp [only, Marks.append, h, h']

theorem within_markAll (marks : Text → Marks) :
    table.Within { table with columns := markAll marks table.columns } where
  name := rfl
  keys := by rw [keys_markAll]
  columns := by
    intro name column h
    exact ⟨column.marked (marks name), by rw [get?_markAll, h]; rfl, .marked column _⟩

theorem within_define (name : Text) (definition : Column) :
    table.Within (table.define name definition) := by
  by_cases h : name ∈ table.columns.keys
  · rw [define_of_mem h]
    refine ⟨rfl, by rw [Ordered.keys_update], fun other column hcolumn => ?_⟩
    show ∃ changed, (table.columns.update name _).get? other = some changed ∧ _
    rw [Ordered.get?_update, hcolumn]
    split
    · exact ⟨_, rfl, .redefine column definition⟩
    · exact ⟨column, rfl, .refl column⟩
  · rw [define_of_not_mem h, ← Ordered.set_of_not_mem definition h]
    refine ⟨rfl, ?_, fun other column hcolumn => ⟨column, ?_, .refl column⟩⟩
    · rw [Ordered.keys_set, if_neg h]
      exact List.prefix_append _ _
    · have hne : other ≠ name := fun e => h (e ▸ Ordered.mem_keys_of_get? hcolumn)
      show (table.columns.set name definition).get? other = _
      rw [Ordered.get?_set_of_ne _ _ hne, hcolumn]

/-- The column that is defined has the definition, and the others are as they were. -/
theorem get?_define (name other : Text) (definition : Column) :
    (table.define name definition).columns.get? other =
      if name = other then
        some (((table.columns.get? other).map (·.redefine definition)).getD definition)
      else table.columns.get? other := by
  by_cases h : name ∈ table.columns.keys
  · rw [define_of_mem h]
    show (table.columns.update name _).get? other = _
    rw [Ordered.get?_update]
    split
    · rename_i hsame
      obtain ⟨column, hcolumn⟩ := Option.isSome_iff_exists.mp (Ordered.has_eq_true_iff.mpr h)
      rw [← hsame, hcolumn]
      rfl
    · rfl
  · rw [define_of_not_mem h, ← Ordered.set_of_not_mem definition h]
    show (table.columns.set name definition).get? other = _
    split
    · rename_i hsame
      rw [← hsame, Ordered.get?_set_self, Ordered.get?_eq_none_iff.mpr h]
      rfl
    · rename_i hne
      exact Ordered.get?_set_of_ne _ _ fun e => hne e.symm

theorem adds_apply (unique : table.columns.keys.Nodup) (change : Change) :
    Adds change table (table.apply change) := by
  cases hcolumn : change.column? with
  | none =>
    rw [apply_marks unique hcolumn]
    refine ⟨within_markAll _, Or.inl (keys_markAll _ _), ?_, ?_, ?_⟩
    · intro name column changed _ hbefore hafter
      rw [get?_markAll, hbefore] at hafter
      cases hafter
      rfl
    · intro name definition hname
      rw [hcolumn] at hname
      cases hname
    · rintro key columns reference rfl enough name column hbefore
      have hmarks : (Change.foreignKey key columns (some reference)).marks name = _ :=
        referMarks_eq_paired (key.getD []) reference 0 columns (by omega) name
      rw [get?_markAll, hbefore, Option.map_some, hmarks]
      simp [Column.marked]
  | some own =>
    obtain ⟨definition, hdefinition, happly⟩ := apply_defines hcolumn
    rw [happly]
    refine ⟨within_define own definition, ?_, ?_, ?_, ?_⟩
    · by_cases h : own ∈ table.columns.keys
      · rw [define_of_mem h]
        exact Or.inl (Ordered.keys_update _ _ _)
      · rw [define_of_not_mem h]
        exact Or.inr ⟨own, definition, hcolumn, hdefinition, h, rfl⟩
    · intro name column changed hname hbefore hafter
      have hne : ¬ own = name := fun e => hname (hcolumn.trans (congrArg some e))
      rw [get?_define, if_neg hne, hbefore] at hafter
      cases hafter
      rfl
    · intro name found hname hfound
      obtain rfl : own = name := Option.some.inj (hcolumn.symm.trans hname)
      obtain rfl : definition = found := Option.some.inj (hdefinition.symm.trans hfound)
      rw [get?_define, if_pos rfl]
      refine ⟨_, rfl, ?_⟩
      cases table.columns.get? own <;> rfl
    · rintro key columns reference rfl
      cases hdefinition

end Table

/-! ## 4. What clauses add to a model -/

namespace Model

variable {model : Model}

theorem Keyed.apply (keyed : model.Keyed) (clause : Clause) : (model.apply clause).Keyed := by
  have sound := keyed.sound.apply clause fun _ _ => trivial
  exact ⟨sound.unique, fun entry hentry => (sound.sound entry hentry).unique⟩

/-- The columns of a table that is there, or that a clause puts in. -/
theorem Keyed.nodup (keyed : model.Keyed) (name : Text) :
    ((model.get? name).getD { name }).columns.keys.Nodup := by
  cases h : model.get? name with
  | none => exact List.nodup_nil
  | some table => exact keyed.columns _ (Ordered.mem_of_get? h)

theorem apply_of_none {clause : Clause} (h : clause.table = none) : model.apply clause = model := by
  rw [Model.apply, h]

theorem keys_apply_of_table {clause : Clause} {name : Text} (h : clause.table = some name) :
    (model.apply clause).keys = if name ∈ model.keys then model.keys else model.keys ++ [name] := by
  unfold Model.apply
  rw [h]
  dsimp only
  by_cases hmem : name ∈ model.keys
  · rw [if_pos (Ordered.has_eq_true_iff.mpr hmem), if_pos hmem, Ordered.keys_update]
  · rw [if_neg fun there => hmem (Ordered.has_eq_true_iff.mp there), Ordered.keys_set]

theorem get?_apply_of_table {clause : Clause} {name : Text} (h : clause.table = some name) :
    (model.apply clause).get? name =
      some (((model.get? name).getD { name }).apply clause.change) := by
  rw [get?_apply, Clause.applyTo, if_pos h]

theorem get?_apply_of_ne {clause : Clause} {name : Text} (h : clause.table ≠ some name) :
    (model.apply clause).get? name = model.get? name := by
  rw [get?_apply, Clause.applyTo, if_neg h]

/-- One clause takes nothing away. -/
theorem within_apply (keyed : model.Keyed) (clause : Clause) : model.Within (model.apply clause) where
  keys := by
    cases h : clause.table with
    | none => rw [apply_of_none h]
    | some name =>
      rw [keys_apply_of_table h]
      split
      · exact List.prefix_rfl
      · exact List.prefix_append _ _
  tables := by
    intro name table htable
    by_cases h : clause.table = some name
    · have adds := Table.adds_apply (keyed.nodup name) clause.change
      rw [htable, Option.getD_some] at adds
      exact ⟨_, by rw [get?_apply_of_table h, htable]; rfl, adds.toWithin⟩
    · exact ⟨table, by rw [get?_apply_of_ne h, htable], .refl table⟩

/-- Nor do any clauses in order: whatever tables, columns and keys there are stay, in their order and
before what is new. -/
theorem within_foldl_apply (keyed : model.Keyed) (clauses : List Clause) :
    (clauses.foldl Model.apply model).Keyed ∧ model.Within (clauses.foldl Model.apply model) := by
  induction clauses generalizing model with
  | nil => exact ⟨keyed, .refl model⟩
  | cons clause clauses ih =>
    obtain ⟨hkeyed, hwithin⟩ := ih (keyed.apply clause)
    exact ⟨hkeyed, (within_apply keyed clause).trans hwithin⟩

/-- **A clause only adds.** The tables stay in their order, with at most the clause's own behind
them, and none but that one changes. In it columns stay in their order, with at most the defined one
behind them; primary columns stay primary and keys stay before new ones; definitions stay but for
the defined column, which takes the whole new one; and the columns of a foreign key are paired by
position, whichever of them the table has. However many clauses follow each other, whatever there is
stays, in its order and before what is new. -/
theorem apply_adds (keyed : model.Keyed) (clause : Clause) :
    ((model.apply clause).keys = model.keys ∨ ∃ name, clause.table = some name ∧
      name ∉ model.keys ∧ (model.apply clause).keys = model.keys ++ [name]) ∧
    (∀ name, clause.table ≠ some name → (model.apply clause).get? name = model.get? name) ∧
    (∀ name, clause.table = some name → ∃ table, (model.apply clause).get? name = some table ∧
      Table.Adds clause.change ((model.get? name).getD { name }) table) ∧
    ∀ clauses : List Clause, (clauses.foldl Model.apply model).Keyed ∧
      model.Within (clauses.foldl Model.apply model) := by
  refine ⟨?_, fun name h => get?_apply_of_ne h, fun name h => ?_, within_foldl_apply keyed⟩
  · cases h : clause.table with
    | none => exact Or.inl (by rw [apply_of_none h])
    | some name =>
      rw [keys_apply_of_table h]
      by_cases hmem : name ∈ model.keys
      · exact Or.inl (if_pos hmem)
      · exact Or.inr ⟨name, rfl, hmem, if_neg hmem⟩
  · exact ⟨_, get?_apply_of_table h, Table.adds_apply (keyed.nodup name) clause.change⟩

/-- A foreign key on three columns of which the table has the first and the last, which is in a key
already. -/
theorem apply_adds_foreign :
    let int : Column := { type := "int", datatype := "int" }
    let keyed : Column := { int with
      primary := true, unique := [{ name := ['k'], columns := [['c']] }] }
    let model : Model := [(['t'], { name := ['t'], columns := [(['a'], int), (['c'], keyed)] }),
      (['u'], { name := ['u'], columns := [(['c'], int)] })]
    let clause : Clause := {
      table := some ['t']
      change := .foreignKey (some ['f']) [['a'], ['b'], ['c']]
        (some { table := ['r'], columns := [['x'], ['y'], ['z']] }) }
    model.Keyed ∧ (model.apply clause).get? ['u'] = model.get? ['u'] ∧
      ∃ table, (model.apply clause).get? ['t'] = some table ∧
        table.columns.get? ['c'] = some { keyed with foreign := [
          { name := ['f'], column := ['c'], refTable := ['r'], refColumn := ['z'] }] } := by
  intro int keyed model clause
  have unique : model.Keyed := ⟨by decide, by decide⟩
  obtain ⟨-, hother, hown, -⟩ := apply_adds unique clause
  obtain ⟨table, htable, adds⟩ := hown ['t'] rfl
  exact ⟨unique, hother ['u'] (by decide), table, htable,
    adds.paired _ _ _ rfl (by decide) ['c'] keyed rfl⟩

end Model

end SqlDump
