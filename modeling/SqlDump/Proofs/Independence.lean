import SqlDump.Proofs.Additions

/-!
# Clauses in either order

Keys of different kinds are kept apart in a column, and a definition leaves the keys alone. So two
clauses on different tables, or of different kinds where no column is new, can be applied in either
order, and a column can as well be defined behind the keys as before them.
-/

namespace SqlDump

/-! ## 1. The kinds of changes -/

/-- What a change is about: keys of one kind, or the definition of a column. -/
inductive Change.Group where
  | primary
  | unique
  | index
  | foreign
  | column
  deriving DecidableEq, Repr

namespace Change

def group : Change → Group
  | .primaryKey _ => .primary
  | .unique _ _ => .unique
  | .index _ _ => .index
  | .foreignKey _ _ _ => .foreign
  | .modify _ _ => .column
  | .addColumn _ _ => .column

theorem group_of_column? {change : Change} {name : Text} (h : change.column? = some name) :
    change.group = .column := by
  cases change <;> first | rfl | cases h

open Table in
/-- The keys that a change puts in are keys of its own kind. -/
theorem marks_of_group (change : Change) (name : Text) :
    (change.group ≠ .unique → (change.marks name).unique = []) ∧
    (change.group ≠ .index → (change.marks name).index = []) ∧
    (change.group ≠ .foreign → (change.marks name).foreign = []) := by
  have hnone : ∀ {α : Type} {field : Marks → List α} {mark : Text → Marks} {columns : List Text},
      field {} = [] → (∀ m m', field (m.append m') = field m ++ field m') →
      field (mark name) = [] → field (columnMarks mark columns name) = [] := by
    intro α field mark columns empty append h
    refine List.eq_nil_iff_forall_not_mem.mpr fun key hkey => ?_
    have hmem := ((mem_columnMarks empty append).mp hkey).2
    rw [h] at hmem
    cases hmem
  cases change with
  | primaryKey columns =>
    exact ⟨fun _ => hnone rfl (fun _ _ => rfl) rfl, fun _ => hnone rfl (fun _ _ => rfl) rfl,
      fun _ => hnone rfl (fun _ _ => rfl) rfl⟩
  | unique key columns =>
    exact ⟨fun h => absurd rfl h, fun _ => hnone rfl (fun _ _ => rfl) rfl,
      fun _ => hnone rfl (fun _ _ => rfl) rfl⟩
  | index key columns =>
    exact ⟨fun _ => hnone rfl (fun _ _ => rfl) rfl, fun h => absurd rfl h,
      fun _ => hnone rfl (fun _ _ => rfl) rfl⟩
  | foreignKey key columns reference =>
    cases reference with
    | none => exact ⟨fun _ => rfl, fun _ => rfl, fun _ => rfl⟩
    | some reference =>
      obtain ⟨hunique, hindex, -⟩ := referMarks_about (key.getD []) reference 0 columns name
      exact ⟨fun _ => hunique, fun _ => hindex, fun h => absurd rfl h⟩
  | modify _ _ => exact ⟨fun _ => rfl, fun _ => rfl, fun _ => rfl⟩
  | addColumn _ _ => exact ⟨fun _ => rfl, fun _ => rfl, fun _ => rfl⟩

/-- Marks of different kinds can be made in either order. -/
theorem marks_append_comm {a b : Change} (groups : a.group ≠ b.group) (name : Text) :
    (a.marks name).append (b.marks name) = (b.marks name).append (a.marks name) := by
  have hcomm : ∀ {α : Type} {group : Group} {u v : List α}, (a.group ≠ group → u = []) →
      (b.group ≠ group → v = []) → u ++ v = v ++ u := by
    intro α group u v hu hv
    by_cases h : a.group = group
    · rw [hv fun h' => groups (h.trans h'.symm), List.append_nil, List.nil_append]
    · rw [hu h, List.append_nil, List.nil_append]
  obtain ⟨hunique, hindex, hforeign⟩ := a.marks_of_group name
  obtain ⟨hunique', hindex', hforeign'⟩ := b.marks_of_group name
  rw [Marks.append, Marks.append, Bool.or_comm, hcomm hunique hunique', hcomm hindex hindex',
    hcomm hforeign hforeign']

end Change

/-! ## 2. Two changes to a table -/

theorem Column.redefine_comm_marked (column definition : Column) (m : Marks) :
    (column.redefine definition).marked m = (column.marked m).redefine definition := by
  simp [redefine, marked, Bool.or_right_comm]

namespace Table

variable {table : Table}

theorem markAll_update (marks : Text → Marks) (columns : Ordered Column) (name : Text)
    (definition : Column) :
    markAll marks (columns.update name (·.redefine definition)) =
      (markAll marks columns).update name (·.redefine definition) := by
  induction columns with
  | nil => rfl
  | cons entry columns ih =>
    obtain ⟨other, column⟩ := entry
    show markAll marks (Ordered.update ((other, column) :: columns) name _) =
      Ordered.update ((other, column.marked (marks other)) :: markAll marks columns) name _
    by_cases h : other = name
    · rw [Ordered.update, Ordered.update, if_pos h, if_pos h, ← Column.redefine_comm_marked]
      rfl
    · rw [Ordered.update, Ordered.update, if_neg h, if_neg h, ← ih]
      rfl

-- A column that is there is defined before or after the keys.
theorem apply_define_comm (unique : table.columns.keys.Nodup) {change : Change}
    (h : change.column? = none) {name : Text} (there : name ∈ table.columns.keys)
    (definition : Column) :
    (table.define name definition).apply change = (table.apply change).define name definition := by
  have hkeys : (table.columns.update name (·.redefine definition)).keys.Nodup := by
    rw [Ordered.keys_update]
    exact unique
  have there' : name ∈ (markAll change.marks table.columns).keys := by
    rw [keys_markAll]
    exact there
  have hmarked := @define_of_mem { table with columns := markAll change.marks table.columns } name
    there' definition
  rw [apply_marks unique h, hmarked, define_of_mem there, apply_marks hkeys h, markAll_update]

/-- Changes of different kinds can be made in either order, unless they define a new column. -/
theorem apply_comm (unique : table.columns.keys.Nodup) {a b : Change} (groups : a.group ≠ b.group)
    (ha : ∀ name, a.column? = some name → name ∈ table.columns.keys)
    (hb : ∀ name, b.column? = some name → name ∈ table.columns.keys) :
    (table.apply a).apply b = (table.apply b).apply a := by
  cases hcolumn : a.column? with
  | none =>
    cases hcolumn' : b.column? with
    | none =>
      have unique' : ∀ marks, (markAll marks table.columns).keys.Nodup := by
        intro marks
        rw [keys_markAll]
        exact unique
      rw [apply_marks unique hcolumn, apply_marks unique hcolumn', apply_marks (unique' _) hcolumn,
        apply_marks (unique' _) hcolumn', markAll_markAll, markAll_markAll]
      exact congrArg (fun marks => { table with columns := markAll marks table.columns })
        (funext (Change.marks_append_comm groups))
    | some name =>
      obtain ⟨definition, -, happly⟩ := apply_defines hcolumn'
      rw [happly, happly]
      exact (apply_define_comm unique hcolumn (hb name hcolumn') definition).symm
  | some name =>
    have hcolumn' : b.column? = none := by
      refine Option.eq_none_iff_forall_ne_some.mpr fun other hother => groups ?_
      rw [Change.group_of_column? hcolumn, Change.group_of_column? hother]
    obtain ⟨definition, -, happly⟩ := apply_defines hcolumn
    rw [happly, happly]
    exact apply_define_comm unique hcolumn' (ha name hcolumn) definition

end Table

/-! ## 3. Clauses on a model -/

namespace Model

variable {model : Model}

/-- The column that a clause defines, if it defines one, is in its table already. -/
def HasDefined (model : Model) (clause : Clause) : Prop :=
  ∀ column, clause.change.column? = some column →
    ∃ name table, clause.table = some name ∧ model.get? name = some table ∧
      column ∈ table.columns.keys

/-- Clauses that can be applied in either order: on different tables, or of different kinds and
defining no new column. -/
def Independent (model : Model) (a b : Clause) : Prop :=
  a.table ≠ b.table ∨
    a.change.group ≠ b.change.group ∧ model.HasDefined a ∧ model.HasDefined b

theorem HasDefined.mem {clause : Clause} (h : model.HasDefined clause) {name : Text}
    (htable : clause.table = some name) {column : Text} (hcolumn : clause.change.column? = some column) :
    column ∈ ((model.get? name).getD { name }).columns.keys := by
  obtain ⟨own, table, hown, hget, hmem⟩ := h column hcolumn
  obtain rfl : name = own := Option.some.inj (htable.symm.trans hown)
  rwa [hget]

theorem HasDefined.apply (keyed : model.Keyed) {clause : Clause} (h : model.HasDefined clause)
    (other : Clause) : (model.apply other).HasDefined clause := by
  intro column hcolumn
  obtain ⟨name, table, hname, hget, hmem⟩ := h column hcolumn
  obtain ⟨changed, hchanged, hwithin⟩ := (within_apply keyed other).tables name table hget
  exact ⟨name, changed, hname, hchanged, hwithin.keys.subset hmem⟩

theorem get?_apply_comm (keyed : model.Keyed) {a b : Clause} (independent : model.Independent a b)
    (name : Text) :
    ((model.apply a).apply b).get? name = ((model.apply b).apply a).get? name := by
  by_cases ha : a.table = some name
  · by_cases hb : b.table = some name
    · rw [get?_apply_of_table hb, get?_apply_of_table ha, get?_apply_of_table ha,
        get?_apply_of_table hb]
      rcases independent with hne | ⟨groups, hadefined, hbdefined⟩
      · exact absurd (ha.trans hb.symm) hne
      · exact congrArg some (Table.apply_comm (keyed.nodup name) groups
          (fun column => hadefined.mem ha) fun column => hbdefined.mem hb)
    · rw [get?_apply_of_ne hb, get?_apply_of_table ha, get?_apply_of_table ha, get?_apply_of_ne hb]
  · rw [get?_apply_of_ne ha]
    by_cases hb : b.table = some name
    · rw [get?_apply_of_table hb, get?_apply_of_table hb, get?_apply_of_ne ha]
    · rw [get?_apply_of_ne hb, get?_apply_of_ne hb, get?_apply_of_ne ha]

-- What clauses make of a table depends on that table alone.
theorem get?_foldl_apply_congr {other : Model} {name : Text} (h : model.get? name = other.get? name)
    (clauses : List Clause) :
    (clauses.foldl Model.apply model).get? name = (clauses.foldl Model.apply other).get? name := by
  rw [get?_foldl_apply, get?_foldl_apply, h]

/-- A clause that defines no new column can go behind keys. -/
theorem get?_foldl_apply_behind (keyed : model.Keyed) {clause : Clause}
    (group : clause.change.group = .column) (defined : model.HasDefined clause) {keys : List Clause}
    (groups : ∀ key ∈ keys, key.change.group ≠ .column) (name : Text) :
    ((clause :: keys).foldl Model.apply model).get? name =
      ((keys ++ [clause]).foldl Model.apply model).get? name := by
  induction keys generalizing model with
  | nil => rfl
  | cons key keys ih =>
    obtain ⟨hgroup, groups⟩ := List.forall_mem_cons.mp groups
    have hkey : model.HasDefined key := fun column hcolumn =>
      absurd (Change.group_of_column? hcolumn) hgroup
    have hcomm := get?_apply_comm keyed (a := clause) (b := key)
      (Or.inr ⟨fun e => hgroup (e.symm.trans group), defined, hkey⟩) name
    calc ((clause :: key :: keys).foldl Model.apply model).get? name
        = (keys.foldl Model.apply ((model.apply clause).apply key)).get? name := rfl
      _ = (keys.foldl Model.apply ((model.apply key).apply clause)).get? name :=
          get?_foldl_apply_congr hcomm keys
      _ = ((keys ++ [clause]).foldl Model.apply (model.apply key)).get? name :=
          ih (keyed.apply key) (defined.apply keyed key) groups

/-- **Independent clauses commute.** Two clauses on different tables, or of different kinds and
defining no new column, give the same tables in either order. So a column that is there is defined
the same, with the same keys, whether its definition comes before any keys or behind them. -/
theorem apply_independent (keyed : model.Keyed) :
    (∀ a b, model.Independent a b → ∀ name,
      ((model.apply a).apply b).get? name = ((model.apply b).apply a).get? name) ∧
    ∀ clause, clause.change.group = .column → model.HasDefined clause →
      ∀ keys : List Clause, (∀ key ∈ keys, key.change.group ≠ .column) → ∀ name,
        ((clause :: keys).foldl Model.apply model).get? name =
          ((keys ++ [clause]).foldl Model.apply model).get? name := by
  refine ⟨fun a b independent name => get?_apply_comm keyed independent name, ?_⟩
  intro clause group defined keys groups name
  exact get?_foldl_apply_behind keyed group defined groups name

/-- A column that counts up and is in two keys, one of them with another column. -/
theorem apply_independent_counting :
    let int : Column := { type := "int", datatype := "int" }
    let model : Model := [(['t'], { name := ['t'], columns := [(['a'], int), (['b'], int)] })]
    let counting : Clause := {
      table := some ['t'], change := .modify [['a']] (some { int with autoIncrement := true }) }
    let primary : Clause := { table := some ['t'], change := .primaryKey [['b'], ['a']] }
    let key : Clause := { table := some ['t'], change := .unique (some ['k']) [['a']] }
    model.Keyed ∧ model.Independent primary key ∧ model.HasDefined counting ∧
      (∀ name, ((model.apply primary).apply key).get? name =
        ((model.apply key).apply primary).get? name) ∧
      ∀ name, ([counting, primary, key].foldl Model.apply model).get? name =
        ([primary, key, counting].foldl Model.apply model).get? name := by
  intro int model counting primary key
  have keyed : model.Keyed := ⟨by decide, by decide⟩
  have independent : model.Independent primary key :=
    Or.inr ⟨by decide, fun _ h => (by cases h), fun _ h => (by cases h)⟩
  have defined : model.HasDefined counting := by
    intro column h
    cases h
    exact ⟨['t'], _, rfl, rfl, by decide⟩
  obtain ⟨hcomm, hbehind⟩ := apply_independent keyed
  exact ⟨keyed, independent, defined, hcomm primary key independent,
    hbehind counting rfl defined [primary, key] (by decide)⟩

end Model

end SqlDump
