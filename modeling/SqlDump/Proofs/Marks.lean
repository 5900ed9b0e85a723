import SqlDump.Proofs.Models

/-!
# Keys column by column

A change that adds a key marks some of the columns and leaves everything else alone. So what keys do
to a table can be told column by column: the marks of a column, in the order of the keys.
-/

namespace SqlDump

/-- What keys say about one column. -/
structure Marks where
  primary : Bool := false
  unique : List Key := []
  index : List Key := []
  foreign : List ForeignKey := []
  deriving DecidableEq, Repr

/-- The marks of one key, then those of another. -/
def Marks.append (m m' : Marks) : Marks where
  primary := m.primary || m'.primary
  unique := m.unique ++ m'.unique
  index := m.index ++ m'.index
  foreign := m.foreign ++ m'.foreign

/-- A column with further marks. -/
def Column.marked (m : Marks) (column : Column) : Column :=
  { column with
    primary := column.primary || m.primary
    unique := column.unique ++ m.unique
    index := column.index ++ m.index
    foreign := column.foreign ++ m.foreign }

@[simp] theorem Column.marked_empty (column : Column) : column.marked {} = column := by
  simp [Column.marked]

theorem Column.marked_marked (m m' : Marks) (column : Column) :
    (column.marked m).marked m' = column.marked (m.append m') := by
  simp [Column.marked, Marks.append, Bool.or_assoc]

/-! ## 1. Updates -/

namespace Table

/-- The columns with the marks that each name gets. -/
def markAll (marks : Text → Marks) (columns : Ordered Column) : Ordered Column :=
  columns.map fun entry => (entry.1, entry.2.marked (marks entry.1))

@[simp] theorem keys_markAll (marks : Text → Marks) (columns : Ordered Column) :
    (markAll marks columns).keys = columns.keys := by
  simp [markAll, Ordered.keys]

theorem markAll_markAll (first second : Text → Marks) (columns : Ordered Column) :
    markAll second (markAll first columns) =
      markAll (fun name => (first name).append (second name)) columns := by
  simp [markAll, Column.marked_marked]

theorem markAll_empty (columns : Ordered Column) : markAll (fun _ => {}) columns = columns := by
  simp [markAll]

/-- The marks that go to one name. -/
def only (column : Text) (m : Marks) (name : Text) : Marks := if name = column then m else {}

theorem update_eq_markAll {columns : Ordered Column} (unique : columns.keys.Nodup) (column : Text)
    (m : Marks) : columns.update column (·.marked m) = markAll (only column m) columns := by
  rw [Ordered.update_eq_map unique]
  refine List.map_congr_left fun entry _ => ?_
  by_cases h : entry.1 = column
  · rw [if_pos h, only, if_pos h]
  · rw [if_neg h, only, if_neg h, Column.marked_empty]

/-- The marks that the columns of a key give to one name. -/
def columnMarks (mark : Text → Marks) : List Text → Text → Marks
  | [], _ => {}
  | column :: rest, name => (only column (mark column) name).append (columnMarks mark rest name)

theorem mark_eq_markAll {columns : Ordered Column} (unique : columns.keys.Nodup) {names : List Text}
    {f : Text → Column → Column} {mark : Text → Marks} (hf : ∀ name c, f name c = c.marked (mark name)) :
    names.foldl (fun all column => all.update column (f column)) columns =
      markAll (columnMarks mark names) columns := by
  induction names generalizing columns with
  | nil => exact (markAll_empty columns).symm
  | cons column rest ih =>
    have hfirst : columns.update column (f column) = markAll (only column (mark column)) columns := by
      rw [← update_eq_markAll unique, show f column = (·.marked (mark column)) from funext (hf column)]
    rw [List.foldl_cons, hfirst, ih (by rwa [keys_markAll]), markAll_markAll]
    rfl

/-- The foreign key as the column at a position carries it. -/
def foreignKeyAt (name : Text) (reference : Reference) (position : Nat) (column : Text) : ForeignKey where
  name := name
  column := column
  refTable := reference.table
  refColumn := refColumn reference position

/-- The marks that a foreign key gives to one name, its columns being counted from `position`. -/
def referMarks (name : Text) (reference : Reference) : Nat → List Text → Text → Marks
  | _, [], _ => {}
  | position, column :: rest, other =>
    (only column { foreign := [foreignKeyAt name reference position column] } other).append
      (referMarks name reference (position + 1) rest other)

theorem refer_eq_markAll {columns : Ordered Column} (unique : columns.keys.Nodup) (name : Text)
    (reference : Reference) (position : Nat) (names : List Text) :
    refer name reference position names columns =
      markAll (referMarks name reference position names) columns := by
  induction names generalizing columns position with
  | nil => exact (markAll_empty columns).symm
  | cons column rest ih =>
    have hfirst := update_eq_markAll unique column
      { foreign := [foreignKeyAt name reference position column] }
    have hadd : (·.addForeign (foreignKeyAt name reference position column)) =
        Column.marked { foreign := [foreignKeyAt name reference position column] } := by
      funext c
      simp [Column.addForeign, Column.marked]
    show refer name reference (position + 1) rest
      (columns.update column (·.addForeign (foreignKeyAt name reference position column))) = _
    rw [hadd, hfirst, ih (by rwa [keys_markAll]), markAll_markAll]
    rfl

end Table

/-! ## 2. Changes -/

/-- The marks that a change gives to one name. -/
def Change.marks : Change → Text → Marks
  | .primaryKey columns => Table.columnMarks (fun _ => { primary := true }) columns
  | .unique name columns =>
    Table.columnMarks (fun column => { unique := [{ name := Table.keyName name column, columns }] })
      columns
  | .index name columns =>
    Table.columnMarks (fun column => { index := [{ name := Table.keyName name column, columns }] })
      columns
  | .foreignKey name columns (some reference) =>
    Table.referMarks (name.getD []) reference 0 columns
  | _ => fun _ => {}

/-- The marks that changes in order give to one name. -/
def Change.allMarks (changes : List Change) (name : Text) : Marks :=
  changes.foldr (fun change m => (change.marks name).append m) {}

namespace Table

variable {table : Table}

/-- A change that defines no column marks the columns. -/
theorem apply_eq_markAll (unique : table.columns.keys.Nodup) {change : Change}
    (h : change.definition? = none) :
    table.apply change = { table with columns := markAll change.marks table.columns } := by
  have hsame : { table with columns := markAll (fun _ => {}) table.columns } = table := by
    rw [markAll_empty]
  cases change with
  | primaryKey columns =>
    have := @mark_eq_markAll _ unique columns (fun _ c => { c with primary := true })
      (fun _ => { primary := true }) fun name c => by simp [Column.marked]
    exact congrArg (fun columns => { table with columns }) this
  | unique name columns =>
    have := @mark_eq_markAll _ unique columns
      (fun column => Column.addUnique { name := keyName name column, columns })
      (fun column => { unique := [{ name := keyName name column, columns }] })
      fun name c => by simp [Column.marked, Column.addUnique]
    exact congrArg (fun columns => { table with columns }) this
  | index name columns =>
    have := @mark_eq_markAll _ unique columns
      (fun column => Column.addIndex { name := keyName name column, columns })
      (fun column => { index := [{ name := keyName name column, columns }] })
      fun name c => by simp [Column.marked, Column.addIndex]
    exact congrArg (fun columns => { table with columns }) this
  | foreignKey name columns reference =>
    cases reference with
    | none => exact hsame.symm
    | some reference =>
      have := refer_eq_markAll unique (name.getD []) reference 0 columns
      exact congrArg (fun columns => { table with columns }) this
  | modify columns definition =>
    cases h
    cases columns <;> exact hsame.symm
  | addColumn columns definition =>
    cases h
    cases columns <;> exact hsame.symm

theorem foldl_apply_eq_markAll (unique : table.columns.keys.Nodup) {changes : List Change}
    (h : ∀ change ∈ changes, change.definition? = none) : changes.foldl apply table =
      { table with columns := markAll (Change.allMarks changes) table.columns } := by
  induction changes generalizing table with
  | nil =>
    show table = { table with columns := markAll (fun _ => {}) table.columns }
    rw [markAll_empty]
  | cons change changes ih =>
    have hfirst := apply_eq_markAll unique (h change List.mem_cons_self)
    rw [List.foldl_cons, hfirst, ih, markAll_markAll]
    · rfl
    · show (markAll change.marks table.columns).keys.Nodup
      rwa [keys_markAll]
    · exact fun change hmem => h change (List.mem_cons_of_mem _ hmem)

end Table

end SqlDump
