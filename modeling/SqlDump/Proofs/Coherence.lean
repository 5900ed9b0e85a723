import SqlDump.Proofs.OwnStatements
import SqlDump.Proofs.Stripping

/-!
# What the columns of a table agree on

A column is defined by one text, so its type, its size and its length fit together. A key is told
to each of its columns in turn, so a column only carries keys that list it, and columns that are
there from the beginning miss none: a key on one of them is a key on all of them that it lists. The
column that counts up can come too late for that, if its name does not survive in the statement
without keys.
-/

namespace SqlDump

open Outcome

/-! ## 1. Definitions -/

/-- The type is the name of the type with arguments and `unsigned` behind it, the size is the number
that the arguments start with, and it is the length exactly of character types. -/
structure Definition.Consistent (d : Definition) : Prop where
  type : ∃ arguments, d.type = Column.typeText d.datatype arguments d.unsigned ∧
    Column.sizeOf (arguments.getD []) = .ok d.size
  length : d.length = if characterTypes.contains d.datatype then d.size else 0

theorem Definition.consistent_of_parse : Definition.Readable Definition.Consistent := by
  intro text column h
  unfold Column.parse at h
  split at h
  · cases h
  · rename_i arguments _ _
    obtain ⟨size, hsize, h⟩ := bind_eq_ok.mp h
    cases h
    exact ⟨⟨arguments.map Column.tidyArguments, rfl, hsize⟩, rfl⟩

/-- Whether a text is understood as the definition of a column. -/
def Column.Understood (text : Text) : Prop := ∃ column, Column.parse text = .ok (some column)

instance (text : Text) : Decidable (Column.Understood text) :=
  match h : Column.parse text with
  | .ok (some column) => .isTrue ⟨column, h⟩
  | .ok none => .isFalse fun ⟨_, hcolumn⟩ => by rw [h] at hcolumn; cases hcolumn
  | .error _ => .isFalse fun ⟨_, hcolumn⟩ => by rw [h] at hcolumn; cases hcolumn

/-! ## 2. Keys on columns -/

namespace Marks

/-- Every key lists the column that it is on. -/
structure About (name : Text) (m : Marks) : Prop where
  unique : ∀ key ∈ m.unique, name ∈ key.columns
  index : ∀ key ∈ m.index, name ∈ key.columns
  foreign : ∀ key ∈ m.foreign, key.column = name

/-- Every key that lists the column `name` is met again among the marks of that column. -/
structure SharedWith (name : Text) (m other : Marks) : Prop where
  unique : ∀ key ∈ m.unique, name ∈ key.columns →
    ∃ key' ∈ other.unique, key'.columns = key.columns
  index : ∀ key ∈ m.index, name ∈ key.columns → ∃ key' ∈ other.index, key'.columns = key.columns

theorem About.append {name : Text} {m m' : Marks} (h : m.About name) (h' : m'.About name) :
    (m.append m').About name where
  unique := fun key hkey => (List.mem_append.mp hkey).elim (h.unique key) (h'.unique key)
  index := fun key hkey => (List.mem_append.mp hkey).elim (h.index key) (h'.index key)
  foreign := fun key hkey => (List.mem_append.mp hkey).elim (h.foreign key) (h'.foreign key)

theorem SharedWith.append {name : Text} {m m' other other' : Marks} (h : m.SharedWith name other)
    (h' : m'.SharedWith name other') : (m.append m').SharedWith name (other.append other') where
  unique := by
    intro key hkey hname
    rcases List.mem_append.mp hkey with hkey | hkey
    · obtain ⟨key', hmem, hsame⟩ := h.unique key hkey hname
      exact ⟨key', List.mem_append_left _ hmem, hsame⟩
    · obtain ⟨key', hmem, hsame⟩ := h'.unique key hkey hname
      exact ⟨key', List.mem_append_right _ hmem, hsame⟩
  index := by
    intro key hkey hname
    rcases List.mem_append.mp hkey with hkey | hkey
    · obtain ⟨key', hmem, hsame⟩ := h.index key hkey hname
      exact ⟨key', List.mem_append_left _ hmem, hsame⟩
    · obtain ⟨key', hmem, hsame⟩ := h'.index key hkey hname
      exact ⟨key', List.mem_append_right _ hmem, hsame⟩

end Marks

namespace Table

theorem mem_columnMarks {α : Type} {field : Marks → List α} (empty : field {} = [])
    (append : ∀ m m', field (m.append m') = field m ++ field m') {mark : Text → Marks}
    {names : List Text} {name : Text} {a : α} :
    a ∈ field (columnMarks mark names name) ↔ name ∈ names ∧ a ∈ field (mark name) := by
  induction names with
  | nil => simp [columnMarks, empty]
  | cons column names ih =>
    rw [columnMarks, append, List.mem_append, ih, List.mem_cons, only]
    split
    · rename_i h
      subst h
      simp only [true_or, true_and, or_iff_left_iff_imp]
      exact And.right
    · rename_i h
      simp [empty, h]

theorem mem_unique_columnMarks {mark : Text → Marks} {names : List Text} {name : Text} {key : Key} :
    key ∈ (columnMarks mark names name).unique ↔ name ∈ names ∧ key ∈ (mark name).unique :=
  mem_columnMarks rfl fun _ _ => rfl

theorem mem_index_columnMarks {mark : Text → Marks} {names : List Text} {name : Text} {key : Key} :
    key ∈ (columnMarks mark names name).index ↔ name ∈ names ∧ key ∈ (mark name).index :=
  mem_columnMarks rfl fun _ _ => rfl

theorem mem_foreign_columnMarks {mark : Text → Marks} {names : List Text} {name : Text}
    {key : ForeignKey} : key ∈ (columnMarks mark names name).foreign ↔
      name ∈ names ∧ key ∈ (mark name).foreign :=
  mem_columnMarks rfl fun _ _ => rfl

theorem about_columnMarks {mark : Text → Marks} {names : List Text} {name : Text}
    (h : name ∈ names → (mark name).About name) : (columnMarks mark names name).About name where
  unique := fun key hkey =>
    have ⟨hname, hkey⟩ := mem_unique_columnMarks.mp hkey
    (h hname).unique key hkey
  index := fun key hkey =>
    have ⟨hname, hkey⟩ := mem_index_columnMarks.mp hkey
    (h hname).index key hkey
  foreign := fun key hkey =>
    have ⟨hname, hkey⟩ := mem_foreign_columnMarks.mp hkey
    (h hname).foreign key hkey

-- Keys that list exactly the columns which are marked are shared by these.
theorem shared_columnMarks {mark : Text → Marks} {names : List Text} {name other : Text}
    (h : other ∈ names → (mark name).SharedWith other (mark other))
    (unique : ∀ key ∈ (mark name).unique, key.columns = names)
    (index : ∀ key ∈ (mark name).index, key.columns = names) :
    (columnMarks mark names name).SharedWith other (columnMarks mark names other) where
  unique := by
    intro key hkey hother
    have hkey := (mem_unique_columnMarks.mp hkey).2
    have hnames : other ∈ names := unique key hkey ▸ hother
    obtain ⟨key', hmem, hsame⟩ := (h hnames).unique key hkey hother
    exact ⟨key', mem_unique_columnMarks.mpr ⟨hnames, hmem⟩, hsame⟩
  index := by
    intro key hkey hother
    have hkey := (mem_index_columnMarks.mp hkey).2
    have hnames : other ∈ names := index key hkey ▸ hother
    obtain ⟨key', hmem, hsame⟩ := (h hnames).index key hkey hother
    exact ⟨key', mem_index_columnMarks.mpr ⟨hnames, hmem⟩, hsame⟩

-- A foreign key marks nothing else, and each of its columns as that column.
theorem referMarks_about (name : Text) (reference : Reference) (position : Nat) (names : List Text)
    (column : Text) : (referMarks name reference position names column).unique = [] ∧
      (referMarks name reference position names column).index = [] ∧
      ∀ key ∈ (referMarks name reference position names column).foreign, key.column = column := by
  induction names generalizing position with
  | nil => exact ⟨rfl, rfl, fun _ h => by cases h⟩
  | cons first names ih =>
    obtain ⟨hunique, hindex, hforeign⟩ := ih (position + 1)
    unfold referMarks Marks.append only
    split
    · rename_i h
      refine ⟨hunique, hindex, fun key hkey => ?_⟩
      rcases List.mem_append.mp hkey with hkey | hkey
      · rw [List.mem_singleton.mp hkey, h]
        rfl
      · exact hforeign key hkey
    · exact ⟨hunique, hindex, hforeign⟩

end Table

namespace Change

open Table

theorem about_marks (change : Change) (name : Text) : (change.marks name).About name := by
  have hnone : Marks.About name {} := ⟨by simp, by simp, by simp⟩
  cases change with
  | primaryKey columns => exact about_columnMarks fun _ => ⟨by simp, by simp, by simp⟩
  | unique _ columns =>
    exact about_columnMarks fun hname => ⟨by simpa using hname, by simp, by simp⟩
  | index _ columns => exact about_columnMarks fun hname => ⟨by simp, by simpa using hname, by simp⟩
  | foreignKey key columns reference =>
    cases reference with
    | none => exact hnone
    | some reference =>
      obtain ⟨hunique, hindex, hforeign⟩ := referMarks_about (key.getD []) reference 0 columns name
      exact ⟨by simp [marks, hunique], by simp [marks, hindex], hforeign⟩
  | modify _ _ => exact hnone
  | addColumn _ _ => exact hnone

theorem shared_marks (change : Change) (name other : Text) :
    (change.marks name).SharedWith other (change.marks other) := by
  have hnone : Marks.SharedWith other {} {} := ⟨by simp, by simp⟩
  cases change with
  | primaryKey columns =>
    exact shared_columnMarks (fun _ => ⟨by simp, by simp⟩) (by simp) (by simp)
  | unique _ columns =>
    exact shared_columnMarks (fun hother => ⟨by simp, by simp⟩) (by simp) (by simp)
  | index _ columns =>
    exact shared_columnMarks (fun hother => ⟨by simp, by simp⟩) (by simp) (by simp)
  | foreignKey key columns reference =>
    cases reference with
    | none => exact hnone
    | some reference =>
      obtain ⟨hunique, hindex, -⟩ := referMarks_about (key.getD []) reference 0 columns name
      exact ⟨by simp [marks, hunique], by simp [marks, hindex]⟩
  | modify _ _ => exact hnone
  | addColumn _ _ => exact hnone

theorem about_allMarks (changes : List Change) (name : Text) : (allMarks changes name).About name := by
  induction changes with
  | nil => exact ⟨by simp [allMarks], by simp [allMarks], by simp [allMarks]⟩
  | cons change changes ih => exact (change.about_marks name).append ih

theorem shared_allMarks (changes : List Change) (name other : Text) :
    (allMarks changes name).SharedWith other (allMarks changes other) := by
  induction changes with
  | nil => exact ⟨by simp [allMarks], by simp [allMarks]⟩
  | cons change changes ih => exact (change.shared_marks name other).append ih

end Change

/-! ## 3. What every change keeps -/

/-- The keys of a column. -/
def Column.marks (column : Column) : Marks where
  primary := column.primary
  unique := column.unique
  index := column.index
  foreign := column.foreign

/-- Columns whose keys list them, and where those that are there from the beginning share theirs. -/
structure Coherent (original : Text → Prop) (columns : Ordered Column) : Prop where
  unique : columns.keys.Nodup
  there : ∀ name, original name → name ∈ columns.keys
  about : ∀ entry ∈ columns, entry.2.marks.About entry.1
  shared : ∀ first ∈ columns, ∀ second ∈ columns, original first.1 → original second.1 →
    first.2.marks.SharedWith second.1 second.2.marks

namespace Coherent

variable {original : Text → Prop}

theorem markAll {columns : Ordered Column} (coherent : Coherent original columns)
    {marks : Text → Marks} (about : ∀ name, (marks name).About name)
    (shared : ∀ name other, (marks name).SharedWith other (marks other)) :
    Coherent original (Table.markAll marks columns) where
  unique := by rw [Table.keys_markAll]; exact coherent.unique
  there := by rw [Table.keys_markAll]; exact coherent.there
  about := by
    intro entry hentry
    obtain ⟨before, hbefore, rfl⟩ := List.mem_map.mp hentry
    exact (coherent.about before hbefore).append (about before.1)
  shared := by
    intro first hfirst second hsecond
    obtain ⟨before, hbefore, rfl⟩ := List.mem_map.mp hfirst
    obtain ⟨before', hbefore', rfl⟩ := List.mem_map.mp hsecond
    intro horiginal horiginal'
    exact (coherent.shared before hbefore before' hbefore' horiginal horiginal').append
      (shared before.1 before'.1)

-- A column that is defined again keeps its keys.
theorem redefine {columns : Ordered Column} (coherent : Coherent original columns) (name : Text)
    (definition : Column) : Coherent original (columns.update name (·.redefine definition)) := by
  have hmarks : ∀ entry ∈ columns.update name (·.redefine definition), ∃ before ∈ columns,
      before.1 = entry.1 ∧ ∃ primary, entry.2.marks = { before.2.marks with primary } := by
    intro entry hentry
    rcases Ordered.mem_update hentry with hentry | ⟨column, hcolumn, rfl⟩
    · exact ⟨entry, hentry, rfl, entry.2.primary, rfl⟩
    · exact ⟨_, hcolumn, rfl, _, rfl⟩
  refine ⟨by rw [Ordered.keys_update]; exact coherent.unique,
    by rw [Ordered.keys_update]; exact coherent.there, ?_, ?_⟩
  · intro entry hentry
    obtain ⟨before, hbefore, hname, primary, hsame⟩ := hmarks entry hentry
    obtain ⟨unique, index, foreign⟩ := coherent.about before hbefore
    rw [hsame, ← hname]
    exact ⟨unique, index, foreign⟩
  · intro first hfirst second hsecond horiginal horiginal'
    obtain ⟨before, hbefore, hname, primary, hsame⟩ := hmarks first hfirst
    obtain ⟨before', hbefore', hname', primary', hsame'⟩ := hmarks second hsecond
    rw [← hname] at horiginal
    rw [← hname'] at horiginal'
    obtain ⟨unique, index⟩ := coherent.shared before hbefore before' hbefore' horiginal horiginal'
    rw [hsame, hsame', ← hname']
    exact ⟨unique, index⟩

end Coherent

/-- A column without keys, as every column that is read. -/
def Column.Keyless (column : Column) : Prop :=
  column.unique = [] ∧ column.index = [] ∧ column.foreign = []

namespace Coherent

variable {original : Text → Prop}

theorem about_keyless {column : Column} (keyless : column.Keyless) (name : Text) :
    column.marks.About name := by
  obtain ⟨hunique, hindex, hforeign⟩ := keyless
  exact ⟨by simp [Column.marks, hunique], by simp [Column.marks, hindex],
    by simp [Column.marks, hforeign]⟩

-- A new column has no keys yet, and is none of the original ones.
theorem add {columns : Ordered Column} (coherent : Coherent original columns) {name : Text}
    (hname : name ∉ columns.keys) {definition : Column} (keyless : definition.Keyless) :
    Coherent original (columns.set name definition) where
  unique := Ordered.nodup_keys_set coherent.unique _ _
  there := fun other h => Ordered.mem_keys_set.mpr (Or.inl (coherent.there other h))
  about := by
    intro entry hentry
    rcases Ordered.mem_set hentry with hentry | rfl
    · exact coherent.about entry hentry
    · exact about_keyless keyless name
  shared := by
    have hnew : ¬ original name := fun h => hname (coherent.there name h)
    intro first hfirst second hsecond horiginal horiginal'
    rcases Ordered.mem_set hfirst with hfirst | rfl
    · rcases Ordered.mem_set hsecond with hsecond | rfl
      · exact coherent.shared first hfirst second hsecond horiginal horiginal'
      · exact absurd horiginal' hnew
    · exact absurd horiginal hnew

theorem define {table : Table} (coherent : Coherent original table.columns) (name : Text)
    {definition : Column} (keyless : definition.Keyless) :
    Coherent original (table.define name definition).columns := by
  unfold Table.define
  dsimp only
  split
  · exact coherent.redefine name definition
  · rename_i h
    exact coherent.add (fun hmem => h (Ordered.has_eq_true_iff.mpr hmem)) keyless

/-- One change keeps columns coherent, a definition in it being one that was read. -/
theorem apply {table : Table} (coherent : Coherent original table.columns) (change : Change)
    (keyless : ∀ definition, change.definition? = some definition → definition.Keyless) :
    Coherent original (table.apply change).columns := by
  cases h : change.definition? with
  | none =>
    rw [Table.apply_eq_markAll coherent.unique h]
    exact coherent.markAll change.about_marks change.shared_marks
  | some definition =>
    have hkeyless := keyless definition h
    cases change with
    | modify columns found =>
      obtain rfl : found = some definition := h
      cases columns with
      | nil => exact coherent
      | cons column columns => exact coherent.define column hkeyless
    | addColumn columns found =>
      obtain rfl : found = some definition := h
      cases columns with
      | nil => exact coherent
      | cons column columns => exact coherent.define column hkeyless
    | _ => cases h

end Coherent

/-! ## 4. Tables -/

namespace Ordered

variable {α : Type}

-- The last of the pairs with a name tells its value.
theorem get?_foldl_set (pairs m : Ordered α) (name : Text) :
    get? (pairs.foldl (fun m (name, a) => m.set name a) m) name =
      (get? pairs.reverse name).or (m.get? name) := by
  induction pairs generalizing m with
  | nil => rfl
  | cons entry pairs ih =>
    obtain ⟨k, a⟩ := entry
    rw [List.foldl_cons, ih, List.reverse_cons]
    simp only [get?, List.lookup_append, Option.or_assoc]
    congr 1
    by_cases h : name = k
    · subst h
      have hset := get?_set_self m name a
      rw [get?] at hset
      simp [hset]
    · have h' : (name == k) = false := by simpa using h
      have hset := get?_set_of_ne m a h
      rw [get?, get?] at hset
      simp [hset, List.lookup_cons, h']

-- Where the value of one pair is another, later pairs decide first, then this one, then earlier ones.
theorem exists_get?_reverse {P : α → Prop} {front back : Ordered α} {key name : Text} {old new a : α}
    (h : get? (front ++ (key, old) :: back).reverse name = some a) (ha : P a) (hnew : P new) :
    ∃ b ∈ get? (front ++ (key, new) :: back).reverse name, P b := by
  simp only [List.reverse_append, List.reverse_cons, get?, List.lookup_append] at h ⊢
  cases hback : back.reverse.lookup name with
  | some later =>
    rw [hback] at h
    exact ⟨a, h, ha⟩
  | none =>
    rw [hback] at h
    by_cases hname : name = key
    · exact ⟨new, by simp [hname], hnew⟩
    · have hname' : (name == key) = false := by simpa using hname
      simp only [List.lookup_cons, hname'] at h ⊢
      exact ⟨a, h, ha⟩

end Ordered

namespace CreateTable

/-- Whether a statement defines a column: the last text about the column is understood. -/
def Defines (query name : Text) : Prop :=
  ∃ text ∈ (columnTexts query).get? name, Column.Understood text

instance (query name : Text) : Decidable (Defines query name) :=
  inferInstanceAs (Decidable (∃ text ∈ (columnTexts query).get? name, Column.Understood text))

theorem get?_columnTexts (query name : Text) : (columnTexts query).get? name =
    Ordered.get? ((parts query).filterMap columnText?).reverse name := by
  rw [columnTexts, Ordered.get?_foldl_set, Ordered.get?_nil, Option.or_none]

end CreateTable

namespace Table

theorem name_apply (table : Table) (change : Change) : (table.apply change).name = table.name := by
  cases change with
  | foreignKey _ _ reference => cases reference <;> rfl
  | modify columns definition => cases columns <;> cases definition <;> rfl
  | addColumn columns definition => cases columns <;> cases definition <;> rfl
  | _ => rfl

theorem mem_keys_columnsOf {texts : Ordered Text} {columns : Ordered Column}
    (h : columnsOf texts = .ok columns) {name text : Text} {column : Column}
    (hmem : (name, text) ∈ texts) (hparse : Column.parse text = .ok (some column)) :
    name ∈ columns.keys := by
  induction texts generalizing columns with
  | nil => cases hmem
  | cons entry texts ih =>
    obtain ⟨found, rest, hfound, hrest, rfl⟩ := columnsOf_cons.mp h
    rw [Ordered.keys, List.map_append, List.mem_append]
    rcases List.mem_cons.mp hmem with rfl | hmem
    · rw [hparse] at hfound
      obtain rfl := Except.ok.inj hfound
      exact Or.inl (List.mem_singleton_self _)
    · exact Or.inr (ih hrest hmem)

end Table

namespace Coherent

variable {original : Text → Prop}

theorem columnsOf {query : Text} {columns : Ordered Column}
    (h : Table.columnsOf (CreateTable.columnTexts query) = .ok columns) :
    Coherent (CreateTable.Defines query) columns := by
  have keyless : ∀ entry ∈ columns, entry.2.Keyless := by
    intro entry hentry
    obtain ⟨text, hparse⟩ := Table.exists_parse_of_columnsOf h hentry
    exact Column.keyless_of_parse hparse
  refine ⟨CreateTable.nodup_keys_columnsOf h, ?_, ?_, ?_⟩
  · rintro name ⟨text, hget, column, hparse⟩
    exact Table.mem_keys_columnsOf h (Ordered.mem_of_get? hget) hparse
  · exact fun entry hentry => about_keyless (keyless entry hentry) entry.1
  · intro first hfirst second hsecond _ _
    obtain ⟨hunique, hindex, -⟩ := keyless first hfirst
    exact ⟨by simp [Column.marks, hunique], by simp [Column.marks, hindex]⟩

/-- The model of a CREATE TABLE statement is coherent from the beginning. -/
theorem ofCreate {name query : Text} {table : Table} (h : Table.ofCreate name query = .ok table) :
    table.name = name ∧ Coherent (CreateTable.Defines query) table.columns := by
  obtain ⟨columns, -, hcolumns, -⟩ := Table.ofCreate_eq_ok.mp h
  rw [CreateTable.ofCreate_eq_markAll h hcolumns]
  exact ⟨rfl, (columnsOf hcolumns).markAll (Change.about_allMarks _) (Change.shared_allMarks _)⟩

/-- Clauses on a table keep its columns coherent. -/
theorem applyTo {name : Text} {clauses : List Clause}
    (keyless : ∀ clause ∈ clauses, ∀ definition, clause.change.definition? = some definition →
      definition.Keyless)
    {start : Option Table}
    (given : ∀ table ∈ start, table.name = name ∧ Coherent original table.columns)
    (none : start = none → ∀ column, ¬ original column) :
    ∀ table ∈ clauses.foldl (Clause.applyTo name) start,
      table.name = name ∧ Coherent original table.columns := by
  induction clauses generalizing start with
  | nil => exact given
  | cons clause clauses ih =>
    have hrest := fun other hother => keyless other (List.mem_cons_of_mem _ hother)
    rw [List.foldl_cons]
    unfold Clause.applyTo
    split
    · have hnow : (start.getD { name }).name = name ∧
          Coherent original (start.getD { name }).columns := by
        cases start with
        | none =>
          exact ⟨rfl, List.nodup_nil, fun column h => absurd h (none rfl column), by simp, by simp⟩
        | some table => exact given table rfl
      refine ih hrest ?_ nofun
      intro table htable
      obtain rfl := Option.some.inj htable
      exact ⟨(Table.name_apply _ _).trans hnow.1,
        hnow.2.apply clause.change (keyless clause List.mem_cons_self)⟩
    · exact ih hrest given none

end Coherent

/-! ## 5. The first statement that creates a table -/

namespace CreateTable

/-- What is left of the part of a counter is a part still, and defines the counter's column. -/
structure Counter.Stays (counter : Counter) : Prop where
  whole : Nesting.Whole counter.part
  defined : ∃ text, columnText? (Text.trim counter.part) =
    some (Identifier.bare counter.name, text) ∧ Column.Understood text

-- The statement that is left defines the same columns, by the same texts but for the counter's.
theorem defines_relocated {query : Text}
    (stays : ∀ counter, (released (parts query)).2 = some counter → counter.Stays) {name : Text}
    (h : Defines query name) : Defines (relocateKeys query).query name := by
  obtain ⟨text, hget, hdefined⟩ := h
  rw [get?_columnTexts] at hget
  cases hlayout : layout? (Text.trim query) with
  | none =>
    rw [parts, hlayout] at hget
    cases hget
  | some l =>
    obtain ⟨front, gap, -, -, -, hbody, -⟩ := frame_of_layout? hlayout
    have hparts := parts_of_some_layout hlayout
    rw [hparts] at stays hget
    obtain ⟨start, -, -, hleft⟩ := relocateKeys_of_layout hlayout
    have hleft := hleft (whole_released hbody fun counter hcounter => (stays counter hcounter).whole)
    rw [← filterMap_stay] at hget
    unfold Defines
    rw [get?_columnTexts]
    cases hcounter : (released (bodyParts l.body)).2 with
    | none =>
      have hstay : (((bodyParts l.body).filter (!isRelocated ·)).map Text.trim).filter
          (!·.isEmpty) = (bodyParts l.body).filter (!isRelocated ·) :=
        trim_stay hbody fun part hpart => (List.mem_filter.mp hpart).1
      rw [hleft, released, releaseCounter_eq_of_none hcounter, hstay]
      exact ⟨text, hget, hdefined⟩
    | some counter =>
      obtain ⟨left, hcolumn, hleftDefined⟩ := (stays counter hcounter).defined
      have hne : Text.trim counter.part ≠ [] := by
        intro hnil
        rw [hnil] at hcolumn
        cases hcolumn
      obtain ⟨front, part, back, hstay, hnew, hkey, hpart⟩ :=
        parts_of_some hbody hcounter hne hleft
      rw [hstay, List.filterMap_append, List.filterMap_cons,
        columnText?_of_counter? hkey hpart] at hget
      rw [hnew, List.filterMap_append, List.filterMap_cons, hcolumn]
      exact Ordered.exists_get?_reverse hget hdefined hleftDefined

end CreateTable

/-! ## 6. Models of dumps -/

namespace Statement

-- What clauses define has no keys.
theorem keyless_of_mem_clausesOn {table : Text} {s : Statement} {clause : Clause}
    (h : clause ∈ s.clausesOn table) {definition : Column}
    (hdefinition : clause.change.definition? = some definition) : definition.Keyless := by
  obtain ⟨hmem, -⟩ := List.mem_filter.mp h
  obtain ⟨alter, -, hread⟩ := List.mem_filterMap.mp hmem
  obtain ⟨text, hparse⟩ := Clause.exists_parse_of_parse (Clause.parse_of_read? hread) hdefinition
  exact Column.keyless_of_parse hparse

/-- What is left of the first statement that creates a table comes first. -/
theorem head?_creating (statements : List Statement) (table : Text) :
    (statements.flatMap (creating table)).head? =
      (statements.filter (·.tableOf? .createTable = some table)).head?.map fun s =>
        (CreateTable.relocateKeys s.text).query := by
  have hcreating : statements.flatMap (creating table) =
      (statements.filter (·.tableOf? .createTable = some table)).map fun s =>
        (CreateTable.relocateKeys s.text).query := by
    rw [← Plan.flatMap_ite]
    simp only [decide_eq_true_eq]
    rfl
  rw [hcreating, List.head?_map]

end Statement

namespace Model

open CreateTable

-- Each statement that a model starts from was understood.
theorem exists_ofCreate {account : Account} {sql : Text} {statements : List Statement} {model : Model}
    (split : Statement.split account sql = .ok statements) (read : ofSql account sql = .ok model)
    {name query : Text} (h : (statements.flatMap (Statement.creating name)).head? = some query) :
    ∃ table, Table.ofCreate name query = .ok table := by
  obtain ⟨dump, hdump, read⟩ := bind_eq_ok.mp read
  obtain ⟨created, hcreated, -⟩ := bind_eq_ok.mp read
  rw [(Dump.agrees_of_parse split hdump).tables] at hcreated
  rw [← (Dump.Collects.foldl_put statements).tables name] at h
  cases hget : (statements.foldl Dump.put {}).tables.get? name with
  | none =>
    rw [hget] at h
    cases h
  | some creates =>
    rw [hget] at h
    obtain ⟨entry, hentry⟩ := exists_mapM_iff.mp ⟨created, hcreated⟩ _ (Ordered.mem_of_get? hget)
    obtain ⟨table, htable, -⟩ := bind_eq_ok.mp hentry
    rw [show creates.head? = some query from h] at htable
    exact ⟨table, htable⟩

/-- Whether the first statement that creates a table has a column left. -/
def Original (statements : List Statement) (name column : Text) : Prop :=
  ∃ query, (statements.flatMap (Statement.creating name)).head? = some query ∧ Defines query column

theorem Original.of_head {statements : List Statement} {name query : Text}
    (h : (statements.flatMap (Statement.creating name)).head? = some query) :
    Original statements name = Defines query := by
  funext column
  simp [Original, h]

/-- **What holds of every column of a model.** A table has the name that it is listed under and
columns of different names. The parts of a column's definition fit together, every key on a column
lists it, and of the columns that are left in the first statement that creates the table each has
the keys that list it as any other has. All columns that the statement defines are left in it,
unless what remains of the one that counts up does not define it. -/
theorem ofSql_coherent {account : Account} {sql : Text} {statements : List Statement} {model : Model}
    (split : Statement.split account sql = .ok statements) (read : ofSql account sql = .ok model)
    {name : Text} {table : Table} (mem : (name, table) ∈ model) :
    table.name = name ∧ table.columns.keys.Nodup ∧
      (∀ entry ∈ table.columns,
        entry.2.toDefinition.Consistent ∧ entry.2.marks.About entry.1) ∧
      ∀ create,
        (statements.filter (·.tableOf? .createTable = some name)).head? = some create →
        (∀ first ∈ table.columns, ∀ second ∈ table.columns,
          Defines (relocateKeys create.text).query first.1 →
          Defines (relocateKeys create.text).query second.1 →
          first.2.marks.SharedWith second.1 second.2.marks) ∧
        ((∀ counter, (released (parts create.text)).2 = some counter → counter.Stays) →
          ∀ column, Defines create.text column →
            Defines (relocateKeys create.text).query column) := by
  have sound := Sound.ofSql Definition.consistent_of_parse read
  have hget := Ordered.get?_of_mem sound.unique mem
  rw [get?_ofSql split read, Table.ofStatements] at hget
  have keyless : ∀ clause ∈ statements.flatMap (·.clausesOn name), ∀ definition,
      clause.change.definition? = some definition → definition.Keyless := by
    intro clause hclause definition hdefinition
    obtain ⟨s, -, hclause⟩ := List.mem_flatMap.mp hclause
    exact Statement.keyless_of_mem_clausesOn hclause hdefinition
  have given : ∀ start ∈ (statements.flatMap (Statement.creating name)).head?.bind fun query =>
      (Table.ofCreate name query).toOption,
      start.name = name ∧ Coherent (Original statements name) start.columns := by
    intro start hstart
    obtain ⟨query, hquery, hstart⟩ := Option.bind_eq_some_iff.mp hstart
    obtain ⟨found, hfound⟩ := exists_ofCreate split read hquery
    rw [hfound] at hstart
    obtain rfl := Option.some.inj hstart
    rw [Original.of_head hquery]
    exact Coherent.ofCreate hfound
  have missing : ((statements.flatMap (Statement.creating name)).head?.bind fun query =>
      (Table.ofCreate name query).toOption) = none → ∀ column, ¬ Original statements name column := by
    rintro hnone column ⟨query, hquery, -⟩
    obtain ⟨found, hfound⟩ := exists_ofCreate split read hquery
    rw [hquery, Option.bind_some, hfound] at hnone
    cases hnone
  obtain ⟨hname, coherent⟩ := Coherent.applyTo keyless given missing table hget
  refine ⟨hname, coherent.unique, fun entry hentry =>
    ⟨(sound.sound _ mem).holds entry hentry, coherent.about entry hentry⟩, ?_⟩
  intro create hcreate
  refine ⟨fun first hfirst second hsecond hdefines hdefines' => ?_, fun stays column h =>
    defines_relocated stays h⟩
  have hhead : (statements.flatMap (Statement.creating name)).head? =
      some (relocateKeys create.text).query := by
    rw [Statement.head?_creating, hcreate]
    rfl
  rw [Original.of_head hhead] at coherent
  exact coherent.shared first hfirst second hsecond hdefines hdefines'

/-- A table with a counter that a key of two columns needs, and a column that comes later. -/
theorem ofSql_coherent_counter :
    let sql : Text := "CREATE TABLE t (a int AUTO_INCREMENT, b int, KEY (a, b)); ALTER TABLE t ADD c int"
    ∃ statements model table create, Statement.split {} sql = .ok statements ∧
      ofSql {} sql = .ok model ∧ (['t'], table) ∈ model ∧
      (statements.filter (·.tableOf? .createTable = some ['t'])).head? = some create ∧
      (∀ counter, (released (parts create.text)).2 = some counter → counter.Stays) ∧
      table.columns.keys = [['a'], ['b'], ['c']] ∧
      (∀ first ∈ table.columns, ∀ second ∈ table.columns,
        first.1 ≠ ['c'] → second.1 ≠ ['c'] → first.2.marks.SharedWith second.1 second.2.marks) := by
  intro sql
  let view := fun create : Statement => ((released (parts create.text)).2,
    [['a'], ['b']].all fun column => decide (Defines create.text column))
  let counter : Counter :=
    { name := "`a`", definition := "int AUTO_INCREMENT", part := "a int" }
  obtain ⟨statements, split, hview⟩ := exists_ok (x := Statement.split {} sql)
    (f := fun statements =>
      (statements.filter (·.tableOf? .createTable = some ['t'])).head?.map view)
    (b := some (some counter, true)) (by decide +kernel)
  obtain ⟨create, hcreate, hview⟩ := Option.map_eq_some_iff.mp hview
  obtain ⟨hcounter, hdefines⟩ := Prod.mk.inj hview
  obtain ⟨model, read, hmodel⟩ := exists_ok (x := ofSql {} sql)
    (f := fun model => (model.get? ['t']).map (·.columns.keys))
    (b := some [['a'], ['b'], ['c']]) (by decide +kernel)
  obtain ⟨table, htable, hkeys⟩ := Option.map_eq_some_iff.mp hmodel
  have mem := Ordered.mem_of_get? htable
  have stays : ∀ found, (released (parts create.text)).2 = some found → found.Stays := by
    intro found hfound
    obtain rfl := Option.some.inj (hfound.symm.trans hcounter)
    exact ⟨by decide, "int", by decide +kernel, by decide +kernel⟩
  have defines : ∀ entry ∈ table.columns, entry.1 ≠ ['c'] → Defines create.text entry.1 := by
    intro entry hentry hne
    have hmem : entry.1 ∈ table.columns.keys := List.mem_map_of_mem hentry
    rw [hkeys] at hmem
    exact of_decide_eq_true (List.all_eq_true.mp hdefines _ (by simpa [hne] using hmem))
  obtain ⟨shared, left⟩ := (ofSql_coherent split read mem).2.2.2 create hcreate
  refine ⟨statements, model, table, create, split, read, mem, hcreate, stays, hkeys, ?_⟩
  intro first hfirst second hsecond hne hne'
  exact shared first hfirst second hsecond (left stays _ (defines first hfirst hne))
    (left stays _ (defines second hsecond hne'))

end Model

end SqlDump
