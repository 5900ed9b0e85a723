import SqlDump.Proofs.Comparing

/-!
# The differences of two models

A comparison takes tables out before it compares by columns. What it tells is nevertheless the
difference of the two whole models, column by column: the tables that are taken out are shown alike.
Everything a comparison says can therefore be read off how each column is shown on both sides.
-/

namespace SqlDump

/-! ## 1. Entries made from names -/

namespace Ordered

variable {α : Type} (f : Text → Option α)

-- Entries that are made of names one by one are looked up by making one.
theorem get?_filterMap (names : List Text) (name : Text) :
    get? (names.filterMap fun k => (f k).map (k, ·)) name =
      if name ∈ names then f name else none := by
  induction names with
  | nil => rfl
  | cons k names ih =>
    by_cases hk : name = k
    · subst hk
      cases hf : f name with
      | none =>
        rw [List.filterMap_cons_none (by rw [hf]; rfl), ih, hf]
        simp
      | some a =>
        rw [List.filterMap_cons_some (by rw [hf]; rfl)]
        simp [get?]
    · have hmem : name ∈ k :: names ↔ name ∈ names := by simp [hk]
      have hk' : (name == k) = false := by simpa using hk
      rw [if_congr hmem rfl rfl, ← ih]
      cases hf : f k with
      | none => rw [List.filterMap_cons_none (by rw [hf]; rfl)]
      | some a =>
        rw [List.filterMap_cons_some (by rw [hf]; rfl), get?, get?, List.lookup_cons, hk']

theorem keys_filterMap (names : List Text) :
    keys (names.filterMap fun k => (f k).map (k, ·)) = names.filter fun k => (f k).isSome := by
  induction names with
  | nil => rfl
  | cons k names ih =>
    cases hf : f k with
    | none =>
      rw [List.filterMap_cons_none (by rw [hf]; rfl), ih, List.filter_cons_of_neg (by simp [hf])]
    | some a =>
      rw [List.filterMap_cons_some (by rw [hf]; rfl), List.filter_cons_of_pos (by simp [hf]), ← ih]
      rfl

end Ordered

/-- A difference as it is seen from the other side. -/
def Difference.swap (d : Difference) : Difference :=
  { d with source := d.target, target := d.source }

/-- A model that has each table once, and in it each column once. -/
structure Model.Keyed (model : Model) : Prop where
  tables : model.keys.Nodup
  columns : ∀ entry ∈ model, entry.2.columns.keys.Nodup

theorem Model.Keyed.sound {model : Model} (keyed : Keyed model) : Sound (fun _ => True) model :=
  ⟨keyed.tables, fun entry hentry => ⟨keyed.columns entry hentry, fun _ _ => trivial⟩⟩

/-- The columns of a table, none if the model does not have it. -/
def Model.columnsIn (model : Model) (table : Text) : Ordered Column :=
  ((model.get? table).map Table.columns).getD []

theorem Model.get?_columnsIn (model : Model) (table column : Text) :
    (model.columnsIn table).get? column = model.column? table column := by
  rw [columnsIn, column?]
  cases model.get? table <;> rfl

theorem Model.nodup_keys_columnsIn {model : Model} (keyed : Keyed model) (table : Text) :
    (model.columnsIn table).keys.Nodup := by
  rw [columnsIn]
  cases h : model.get? table with
  | none => exact List.nodup_nil
  | some found => exact keyed.columns _ (Ordered.mem_of_get? h)

namespace Diff

open Model (Keyed)

/-! ## 2. The difference of two whole models -/

/-- The difference of a column, if one is told. -/
def entryAt (diff : Diff) (table column : Text) : Option Difference :=
  (Ordered.get? diff table).bind (Ordered.get? · column)

/-- The differing columns of a table, if there are any. -/
def ofTable (source target : Model) (table : Text) : Option (Ordered Difference) :=
  (some (ofColumns table (source.columnsIn table) (target.columnsIn table))).filter (· ≠ [])

/-- The names of two maps, those of the first before those that only the second has. -/
def names {α : Type} (source target : Ordered α) : List Text :=
  source.keys ++ target.keys.filter (!source.has ·)

variable {source target : Model}

theorem ofModels_eq (source target : Model) :
    ofModels source target =
      (names source target).filterMap fun table =>
        (ofTable source target table).map (table, ·) := by
  refine List.filterMap_congr fun table _ => ?_
  rw [ofTable, Model.columnsIn, Model.columnsIn]
  dsimp only
  generalize ofColumns table _ _ = differences
  cases differences <;> rfl

theorem nodup_names {α : Type} {source target : Ordered α} (unique : source.keys.Nodup)
    (unique' : target.keys.Nodup) : (names source target).Nodup := by
  rw [names, List.nodup_append]
  refine ⟨unique, unique'.filter _, ?_⟩
  rintro name hname other hother rfl
  have hnew := (List.mem_filter.mp hother).2
  rw [Ordered.has_eq_true_iff.mpr hname] at hnew
  cases hnew

theorem get?_ofColumns (table : Text) (source target : Ordered Column) (column : Text) :
    Ordered.get? (ofColumns table source target) column =
      ofColumn table column (source.get? column) (target.get? column) := by
  have hnames : ofColumns table source target = (names source target).filterMap fun column =>
      (ofColumn table column (source.get? column) (target.get? column)).map (column, ·) := rfl
  rw [hnames, Ordered.get?_filterMap]
  split
  · rfl
  · rename_i h
    rw [names, mem_both, not_or] at h
    rw [Ordered.get?_eq_none_iff.mpr h.1, Ordered.get?_eq_none_iff.mpr h.2]
    rfl

theorem entryAt_of_ofTable (source target : Model) (table column : Text) :
    (ofTable source target table).bind (Ordered.get? · column) =
      ofColumn table column (source.column? table column) (target.column? table column) := by
  rw [← Model.get?_columnsIn, ← Model.get?_columnsIn, ← get?_ofColumns, ofTable, Option.filter_some]
  split
  · rfl
  · rename_i h
    have hnil : ofColumns table (source.columnsIn table) (target.columnsIn table) = [] := by
      simpa using h
    rw [hnil]
    rfl

/-- A difference of two models is told of each column by itself. -/
theorem entryAt_ofModels (source target : Model) (table column : Text) :
    (ofModels source target).entryAt table column =
      if source.shown table column = target.shown table column then none
      else some { table, column, source := source.shown table column
                  target := target.shown table column } := by
  show _ = ofColumn table column (source.column? table column) (target.column? table column)
  rw [entryAt, ofModels_eq, Ordered.get?_filterMap]
  split
  · exact entryAt_of_ofTable source target table column
  · rename_i h
    rw [names, mem_both, not_or] at h
    rw [Model.column?, Model.column?, Ordered.get?_eq_none_iff.mpr h.1,
      Ordered.get?_eq_none_iff.mpr h.2]
    rfl

/-! ## 3. Every difference at its place -/

theorem nodup_keys_ofModels (hs : Keyed source) (ht : Keyed target) :
    (ofModels source target).keys.Nodup := by
  rw [ofModels_eq, Ordered.keys_filterMap]
  exact (nodup_names hs.tables ht.tables).filter _

theorem nodup_keys_of_mem_ofModels (hs : Keyed source) (ht : Keyed target)
    {entry : Text × Ordered Difference} (h : entry ∈ ofModels source target) :
    entry.2.keys.Nodup := by
  rw [ofModels_eq] at h
  obtain ⟨table, -, h⟩ := List.mem_filterMap.mp h
  obtain ⟨differences, htable, rfl⟩ := Option.map_eq_some_iff.mp h
  obtain ⟨hdifferences, -⟩ := Option.filter_eq_some_iff.mp htable
  obtain rfl := Option.some.inj hdifferences
  show (Ordered.keys (ofColumns _ _ _)).Nodup
  have hnames : ofColumns table (source.columnsIn table) (target.columnsIn table) =
      (names (source.columnsIn table) (target.columnsIn table)).filterMap fun column =>
        (ofColumn table column ((source.columnsIn table).get? column)
          ((target.columnsIn table).get? column)).map (column, ·) := rfl
  rw [hnames, Ordered.keys_filterMap]
  exact (nodup_names (Model.nodup_keys_columnsIn hs table)
    (Model.nodup_keys_columnsIn ht table)).filter _

/-- What stands in a difference is found by looking it up. -/
theorem exists_entryAt_iff (hs : Keyed source) (ht : Keyed target) {P : Difference → Prop} :
    (∃ entry ∈ ofModels source target, ∃ difference ∈ entry.2, P difference.2) ↔
      ∃ table column d, (ofModels source target).entryAt table column = some d ∧ P d := by
  constructor
  · rintro ⟨⟨table, columns⟩, htable, ⟨column, d⟩, hcolumn, hd⟩
    refine ⟨table, column, d, ?_, hd⟩
    rw [entryAt, Ordered.get?_of_mem (nodup_keys_ofModels hs ht) htable]
    exact Ordered.get?_of_mem (nodup_keys_of_mem_ofModels hs ht htable) hcolumn
  · rintro ⟨table, column, d, hentry, hd⟩
    obtain ⟨columns, htable, hcolumn⟩ := Option.bind_eq_some_iff.mp hentry
    exact ⟨(table, columns), Ordered.mem_of_get? htable, (column, d),
      Ordered.mem_of_get? hcolumn, hd⟩

-- A table is told just when one of its columns is.
theorem mem_keys_ofModels_iff (hs : Keyed source) (ht : Keyed target) {table : Text} :
    table ∈ (ofModels source target).keys ↔
      ∃ column, source.shown table column ≠ target.shown table column := by
  constructor
  · intro h
    obtain ⟨⟨table, columns⟩, hentry, rfl⟩ := List.mem_map.mp h
    obtain ⟨⟨column, d⟩, rest, hsplit⟩ :=
      List.exists_cons_of_ne_nil ((telling_ofModels source target).nonempty _ hentry)
    refine ⟨column, fun hsame => ?_⟩
    have hnone := entryAt_ofModels source target table column
    rw [if_pos hsame, entryAt, Ordered.get?_of_mem (nodup_keys_ofModels hs ht) hentry] at hnone
    rw [show columns = (column, d) :: rest from hsplit] at hnone
    simp [Ordered.get?] at hnone
  · rintro ⟨column, hdiffer⟩
    have hsome := entryAt_ofModels source target table column
    rw [if_neg hdiffer] at hsome
    obtain ⟨columns, htable, -⟩ := Option.bind_eq_some_iff.mp hsome
    exact Ordered.mem_keys_of_get? htable

/-! ## 4. Flags -/

theorem testBit_foldl_or {flags : List Nat} {n i : Nat} :
    (flags.foldl (· ||| ·) n).testBit i = true ↔
      n.testBit i = true ∨ ∃ flag ∈ flags, flag.testBit i = true := by
  induction flags generalizing n with
  | nil => simp
  | cons flag flags ih =>
    rw [List.foldl_cons, ih, Nat.testBit_or, Bool.or_eq_true, or_assoc]
    simp only [List.mem_cons, exists_eq_or_imp]

theorem testBit_flags {diff : Diff} {i : Nat} :
    diff.flags.testBit i = true ↔
      ∃ entry ∈ diff, ∃ difference ∈ entry.2, difference.2.flag.testBit i = true := by
  rw [flags, testBit_foldl_or, Nat.zero_testBit]
  simp only [Bool.false_eq_true, false_or]
  constructor
  · rintro ⟨flag, hflag, hbit⟩
    obtain ⟨entry, hentry, hflag⟩ := List.mem_flatMap.mp hflag
    obtain ⟨difference, hdifference, rfl⟩ := List.mem_map.mp hflag
    exact ⟨entry, hentry, difference, hdifference, hbit⟩
  · rintro ⟨entry, hentry, difference, hdifference, hbit⟩
    exact ⟨_, List.mem_flatMap.mpr ⟨entry, hentry, List.mem_map_of_mem hdifference⟩, hbit⟩

/-- Which sides a difference has, by its flag. -/
theorem testBit_flag (d : Difference) :
    d.flag.testBit 0 = (d.source.isSome && d.target.isNone) ∧
      d.flag.testBit 1 = (d.source.isSome && d.target.isSome) ∧
      d.flag.testBit 2 = (d.source.isNone && d.target.isSome) := by
  obtain ⟨table, column, source, target⟩ := d
  cases source <;> cases target <;> simp [Difference.flag] <;> decide

-- A flag is set by the columns that are shown differently, each with its two sides.
theorem testBit_flags_ofModels (hs : Keyed source) (ht : Keyed target) {i : Nat} :
    (ofModels source target).flags.testBit i = true ↔
      ∃ table column, source.shown table column ≠ target.shown table column ∧
        (Difference.flag { table, column, source := source.shown table column
                           target := target.shown table column }).testBit i = true := by
  rw [testBit_flags,
    exists_entryAt_iff hs ht (P := fun d => d.flag.testBit i = true)]
  constructor
  · rintro ⟨table, column, d, hentry, hbit⟩
    rw [entryAt_ofModels] at hentry
    split at hentry
    · cases hentry
    · rename_i hdiffer
      cases hentry
      exact ⟨table, column, hdiffer, hbit⟩
  · rintro ⟨table, column, hdiffer, hbit⟩
    exact ⟨table, column, _, by rw [entryAt_ofModels, if_neg hdiffer], hbit⟩

theorem testBit_zero_flags (hs : Keyed source) (ht : Keyed target) :
    (ofModels source target).flags.testBit 0 = true ↔
      ∃ table column, source.column? table column ≠ none ∧ target.column? table column = none := by
  rw [testBit_flags_ofModels hs ht]
  refine exists₂_congr fun table column => ?_
  rw [(testBit_flag _).1, Model.shown, Model.shown]
  cases source.column? table column <;> cases target.column? table column <;> simp

theorem testBit_one_flags (hs : Keyed source) (ht : Keyed target) :
    (ofModels source target).flags.testBit 1 = true ↔
      ∃ table column a b, source.column? table column = some a ∧
        target.column? table column = some b ∧
        Column.render table column a ≠ Column.render table column b := by
  rw [testBit_flags_ofModels hs ht]
  refine exists₂_congr fun table column => ?_
  rw [(testBit_flag _).2.1, Model.shown, Model.shown]
  cases source.column? table column <;> cases target.column? table column <;> simp

theorem testBit_two_flags (hs : Keyed source) (ht : Keyed target) :
    (ofModels source target).flags.testBit 2 = true ↔
      ∃ table column, source.column? table column = none ∧ target.column? table column ≠ none := by
  rw [testBit_flags_ofModels hs ht]
  refine exists₂_congr fun table column => ?_
  rw [(testBit_flag _).2.2, Model.shown, Model.shown]
  cases source.column? table column <;> cases target.column? table column <;> simp

end Diff

namespace Model

/-! ## 5. Tables that are taken out -/

variable {source target : Model}

theorem keys_differing (source target model : Model) :
    (differing source target model).keys = model.keys.filter (!alike source target ·) := by
  rw [Ordered.keys, Ordered.keys, List.filter_map]
  rfl

-- The tables that stay are those of both models, in the same order, less those that are alike.
theorem names_differing (source target : Model) :
    Diff.names (differing source target source) (differing source target target) =
      (Diff.names source target).filter (!alike source target ·) := by
  rw [Diff.names, Diff.names, List.filter_append, keys_differing, keys_differing,
    List.filter_filter, List.filter_filter]
  congr 1
  refine List.filter_congr fun table _ => ?_
  cases h : alike source target table with
  | true => simp
  | false => rw [Ordered.has, get?_differing h, Ordered.has]; simp

theorem ofModels_differing (hs : Keyed source) (ht : Keyed target) :
    Diff.ofModels (differing source target source) (differing source target target) =
      Diff.ofModels source target := by
  rw [Diff.ofModels_eq, Diff.ofModels_eq, names_differing, List.filterMap_filter]
  refine List.filterMap_congr fun table _ => ?_
  have hcolumns : ∀ model : Model, alike source target table = false →
      (differing source target model).columnsIn table = model.columnsIn table := by
    intro model h
    rw [columnsIn, columnsIn, get?_differing h]
  cases h : alike source target table with
  | false => rw [Diff.ofTable, Diff.ofTable, hcolumns _ h, hcolumns _ h]; rfl
  | true =>
    -- a table that is taken out is shown alike, so it has no differences to tell
    have hnil : Diff.ofColumns table (source.columnsIn table) (target.columnsIn table) = [] := by
      rw [Diff.ofColumns_eq_nil_iff]
      intro column
      rw [get?_columnsIn, get?_columnsIn]
      exact shown_of_alike hs.sound ht.sound h column
    rw [if_neg (by simp), Diff.ofTable, hnil]
    rfl

/-- A comparison tells the difference of the whole models. -/
theorem diff_compare (hs : Keyed source) (ht : Keyed target) :
    (compare source target).diff.getD [] = Diff.ofModels source target := by
  rw [compare_eq hs.sound ht.sound]
  split
  · rename_i h
    refine (Diff.ofModels_eq_nil_iff.mpr fun table column => ?_).symm
    rw [shown, shown, ((allAlike_iff hs.sound ht.sound).mp h table).2]
  · exact ofModels_differing hs ht

theorem flags_compare (hs : Keyed source) (ht : Keyed target) :
    (compare source target).flags = (Diff.ofModels source target).flags := by
  rw [← diff_compare hs ht, Comparison.flags]
  cases (compare source target).diff <;> rfl

theorem agree_comm : Agree source target ↔ Agree target source :=
  forall_congr' fun _ => and_congr iff_comm (forall_congr' fun _ => eq_comm)

theorem compare_same_comm (hs : Keyed source) (ht : Keyed target) :
    (compare target source).same = (compare source target).same := by
  rw [Bool.eq_iff_iff, compare_same_iff ht.sound hs.sound, compare_same_iff hs.sound ht.sound]
  exact agree_comm

theorem entryAt_swap (source target : Model) (table column : Text) :
    (Diff.ofModels target source).entryAt table column =
      ((Diff.ofModels source target).entryAt table column).map Difference.swap := by
  rw [Diff.entryAt_ofModels, Diff.entryAt_ofModels]
  by_cases h : source.shown table column = target.shown table column
  · rw [if_pos h, if_pos h.symm]
    rfl
  · rw [if_neg h, if_neg fun e => h e.symm]
    rfl

/-! ## 6. What a comparison says -/

/-- **Exactness of a comparison.** Two models are found the same exactly if they agree. What is told
is the difference of the whole models: a column is told, with both sides, exactly if its sides are
not shown alike. The first flag is set by columns that only the source has, the third by those that
only the target has, the second by those of both that are shown differently. The other way round,
the same columns are told with their sides exchanged, and so are the first flag and the third. -/
theorem compare_exact (hs : Keyed source) (ht : Keyed target) :
    let found := compare source target
    let back := compare target source
    (found.same = true ↔ Agree source target) ∧
    found.diff.getD [] = Diff.ofModels source target ∧
    (∀ table column, (found.diff.getD []).entryAt table column =
      if source.shown table column = target.shown table column then none
      else some { table, column, source := source.shown table column
                  target := target.shown table column }) ∧
    (found.flags.testBit 0 = true ↔
      ∃ table column, source.column? table column ≠ none ∧ target.column? table column = none) ∧
    (found.flags.testBit 2 = true ↔
      ∃ table column, source.column? table column = none ∧ target.column? table column ≠ none) ∧
    (found.flags.testBit 1 = true ↔
      ∃ table column a b, source.column? table column = some a ∧
        target.column? table column = some b ∧
        Column.render table column a ≠ Column.render table column b) ∧
    back.same = found.same ∧
    (∀ table,
      table ∈ Ordered.keys (back.diff.getD []) ↔ table ∈ Ordered.keys (found.diff.getD [])) ∧
    (∀ table column, (back.diff.getD []).entryAt table column =
      ((found.diff.getD []).entryAt table column).map Difference.swap) ∧
    back.flags.testBit 0 = found.flags.testBit 2 ∧ back.flags.testBit 1 = found.flags.testBit 1 ∧
    back.flags.testBit 2 = found.flags.testBit 0 := by
  intro found back
  have hfound : found.diff.getD [] = Diff.ofModels source target := diff_compare hs ht
  have hback : back.diff.getD [] = Diff.ofModels target source := diff_compare ht hs
  have hflags : found.flags = (Diff.ofModels source target).flags := flags_compare hs ht
  have hflags' : back.flags = (Diff.ofModels target source).flags := flags_compare ht hs
  rw [hfound, hback, hflags, hflags']
  refine ⟨compare_same_iff hs.sound ht.sound, rfl, Diff.entryAt_ofModels source target,
    Diff.testBit_zero_flags hs ht, Diff.testBit_two_flags hs ht, Diff.testBit_one_flags hs ht,
    compare_same_comm hs ht, ?_, entryAt_swap source target, ?_, ?_, ?_⟩
  · intro table
    rw [Diff.mem_keys_ofModels_iff ht hs, Diff.mem_keys_ofModels_iff hs ht]
    exact exists_congr fun column => ne_comm
  · rw [Bool.eq_iff_iff, Diff.testBit_zero_flags ht hs, Diff.testBit_two_flags hs ht]
    exact exists₂_congr fun table column => and_comm
  · rw [Bool.eq_iff_iff, Diff.testBit_one_flags ht hs, Diff.testBit_one_flags hs ht]
    refine exists₂_congr fun table column => ?_
    rw [exists_comm]
    exact exists₂_congr fun a b => and_left_comm.trans (and_congr_right fun _ =>
      and_congr_right fun _ => ne_comm)
  · rw [Bool.eq_iff_iff, Diff.testBit_two_flags ht hs, Diff.testBit_zero_flags hs ht]
    exact exists₂_congr fun table column => and_comm

/-- A table that is the same but for the order of its columns, one that differs in a column on each
side and in a type, one only in the source, and one only in the target. -/
theorem compare_exact_sides :
    let int : Column := { type := "int", datatype := "int" }
    let long : Column := { type := "bigint", datatype := "bigint" }
    let source : Model := [(['s'], { name := ['s'], columns := [(['a'], int), (['b'], long)] }),
      (['d'], { name := ['d'], columns := [(['a'], int), (['b'], int)] }),
      (['l'], { name := ['l'], columns := [(['a'], int)] })]
    let target : Model := [(['r'], { name := ['r'], columns := [(['a'], int)] }),
      (['d'], { name := ['d'], columns := [(['c'], int), (['a'], long)] }),
      (['s'], { name := ['s'], columns := [(['b'], long), (['a'], int)] })]
    source.Keyed ∧ target.Keyed ∧ ¬ Agree source target ∧
      ((compare source target).diff.getD []).map (fun entry => (entry.1, Ordered.keys entry.2)) =
        [(['d'], [['a'], ['b'], ['c']]), (['l'], [['a']]), (['r'], [['a']])] ∧
      (compare source target).diff.getD [] = Diff.ofModels source target ∧
      (compare source target).flags = 7 := by
  intro int long source target
  have hs : source.Keyed := ⟨by decide, by decide⟩
  have ht : target.Keyed := ⟨by decide, by decide⟩
  have exact := compare_exact hs ht
  refine ⟨hs, ht, ?_, by decide +kernel, exact.2.1, by decide +kernel⟩
  rw [← exact.1]
  decide +kernel

end Model

end SqlDump
