import Mathlib.Data.List.Perm.Subperm
import SqlDump.Comparison
import SqlDump.Proofs.Models

/-!
# What a comparison finds

A comparison takes the tables out that are the same in both models, and shows what is left column
by column. Two models are found the same exactly if they agree on every table and every column; no
difference is told exactly if every column is shown alike.
-/

namespace SqlDump

namespace Model

/-! ## 1. Tables that are the same -/

/-- A column of a table, if the model has both. -/
def column? (model : Model) (table column : Text) : Option Column :=
  (model.get? table).bind (·.columns.get? column)

/-- How a column is shown, if it is there. -/
def shown (model : Model) (table column : Text) : Option Text :=
  (model.column? table column).map (Column.render table column)

/-- Two models that have the same tables, with the same columns in whatever order. -/
def Agree (source target : Model) : Prop :=
  ∀ table, (table ∈ source.keys ↔ table ∈ target.keys) ∧
    ∀ column, source.column? table column = target.column? table column

/-- Whether both models have a table, with the same columns. -/
def alike (source target : Model) (table : Text) : Bool :=
  sameTable (source.get? table) (target.get? table)

variable {P : Definition → Prop} {source target : Model}

theorem column?_of_get? {model : Model} {name : Text} {table : Table}
    (h : model.get? name = some table) (column : Text) :
    model.column? name column = table.columns.get? column := by
  rw [column?, h]
  rfl

theorem sameTable_iff {source target : Table} (unique : source.columns.keys.Nodup)
    (unique' : target.columns.keys.Nodup) :
    sameTable (some source) (some target) = true ↔
      ∀ name, source.columns.get? name = target.columns.get? name := by
  have hlength : ∀ table : Table, table.columns.keys.length = table.columns.length :=
    fun table => List.length_map _
  simp only [sameTable, Bool.and_eq_true, decide_eq_true_eq, List.all_eq_true, Prod.forall]
  constructor
  · rintro ⟨same, hall⟩ name
    cases hname : source.columns.get? name with
    | some column => exact (hall name column (Ordered.mem_of_get? hname)).symm
    | none =>
      have hsub : source.columns.keys ⊆ target.columns.keys := by
        intro key hkey
        obtain ⟨⟨k, column⟩, hmem, rfl⟩ := List.mem_map.mp hkey
        exact Ordered.mem_keys_of_get? (hall k column hmem)
      have hperm : source.columns.keys.Perm target.columns.keys :=
        (List.subperm_of_subset unique hsub).perm_of_length_le (by
          rw [hlength, hlength]
          omega)
      rw [Ordered.get?_eq_none_iff, hperm.mem_iff] at hname
      exact (Ordered.get?_eq_none_iff.mpr hname).symm
  · intro h
    have hmem : ∀ name, name ∈ source.columns.keys ↔ name ∈ target.columns.keys := by
      intro name
      rw [← not_iff_not, ← Ordered.get?_eq_none_iff, ← Ordered.get?_eq_none_iff, h]
    have hperm := (List.perm_ext_iff_of_nodup unique unique').mpr hmem
    refine ⟨by rw [← hlength, ← hlength, hperm.length_eq], fun name column hcolumn => ?_⟩
    rw [← h, Ordered.get?_of_mem unique hcolumn]

theorem alike_iff (hs : Sound P source) (ht : Sound P target) {table : Text} :
    alike source target table = true ↔ table ∈ source.keys ∧ table ∈ target.keys ∧
      ∀ column, source.column? table column = target.column? table column := by
  unfold alike
  cases hsource : source.get? table with
  | none =>
    have hnot : table ∉ source.keys := Ordered.get?_eq_none_iff.mp hsource
    constructor
    · intro h
      cases h
    · rintro ⟨h, -, -⟩
      exact absurd h hnot
  | some s =>
    cases htarget : target.get? table with
    | none =>
      have hnot : table ∉ target.keys := Ordered.get?_eq_none_iff.mp htarget
      constructor
      · intro h
        cases h
      · rintro ⟨-, h, -⟩
        exact absurd h hnot
    | some t =>
      rw [sameTable_iff (hs.sound _ (Ordered.mem_of_get? hsource)).unique
        (ht.sound _ (Ordered.mem_of_get? htarget)).unique]
      simp only [column?_of_get? hsource, column?_of_get? htarget,
        Ordered.mem_keys_of_get? hsource, Ordered.mem_keys_of_get? htarget, true_and]

/-! ## 2. Taking tables out -/

/-- The tables of a model that are not among the given ones or not alike in both models. -/
def kept (source target : Model) (tables : List Text) (model : Model) : Model :=
  model.filter fun entry => !(decide (entry.1 ∈ tables) && alike source target entry.1)

theorem get?_kept {tables : List Text} {model : Model} {table : Text}
    (h : (decide (table ∈ tables) && alike source target table) = false) :
    (kept source target tables model).get? table = model.get? table := by
  have hfilter := Ordered.get?_filter model
    (fun name => !(decide (name ∈ tables) && alike source target name)) table
  rw [h] at hfilter
  exact hfilter

theorem erase_eq_kept {model : Model} {table : Text} (h : alike source target table = true) :
    model.erase table = kept source target [table] model := by
  refine List.filter_congr fun entry _ => ?_
  by_cases he : entry.1 = table
  · simp [he, h]
  · simp [he]

theorem kept_kept {model : Model} (table : Text) (tables : List Text) :
    kept source target tables (kept source target [table] model) =
      kept source target (table :: tables) model := by
  unfold kept
  rw [List.filter_filter]
  refine List.filter_congr fun entry _ => ?_
  by_cases he : entry.1 = table <;> cases alike source target entry.1 <;> simp [he]

-- Visiting tables takes those out that are alike, and finds the models the same if all are.
theorem prune_eq {tables : List Text} (unique : tables.Nodup) (same : Bool) :
    prune { source, target, same } tables =
      { source := kept source target tables source, target := kept source target tables target,
        same := same && tables.all (alike source target) } := by
  induction tables generalizing source target same with
  | nil => simp [prune, kept]
  | cons table tables ih =>
    obtain ⟨hnew, unique⟩ := List.nodup_cons.mp unique
    show prune (if alike source target table = true then _ else _) tables = _
    cases h : alike source target table with
    | false =>
      have hkept : ∀ model : Model,
          kept source target (table :: tables) model = kept source target tables model := by
        intro model
        refine List.filter_congr fun entry _ => ?_
        by_cases he : entry.1 = table <;> simp [he, h]
      rw [if_neg (by simp), ih unique, hkept, hkept]
      simp [h]
    | true =>
      have halike : ∀ name ∈ tables, alike (source.erase table) (target.erase table) name =
          alike source target name := by
        intro name hname
        have hne : (decide (name ∈ [table]) && alike source target name) = false := by
          have : name ≠ table := fun e => hnew (e ▸ hname)
          simp [this]
        rw [erase_eq_kept h, erase_eq_kept h, alike, alike, get?_kept hne, get?_kept hne]
      have hkept : ∀ model : Model, kept (source.erase table) (target.erase table) tables
          (model.erase table) = kept source target (table :: tables) model := by
        intro model
        rw [← kept_kept table tables, ← erase_eq_kept h]
        refine List.filter_congr fun entry _ => ?_
        by_cases he : entry.1 ∈ tables
        · rw [halike _ he]
        · simp [he]
      rw [if_pos rfl, ih unique, hkept, hkept]
      have hall : tables.all (alike (source.erase table) (target.erase table)) =
          tables.all (alike source target) := by
        rw [Bool.eq_iff_iff, List.all_eq_true, List.all_eq_true]
        exact forall₂_congr fun name hname => by rw [halike name hname]
      simp [hall, h]

/-- The tables of a model that are not alike in both models. -/
def differing (source target model : Model) : Model :=
  model.filter fun entry => !alike source target entry.1

theorem get?_differing {model : Model} {table : Text} (h : alike source target table = false) :
    (differing source target model).get? table = model.get? table := by
  have hfilter := Ordered.get?_filter model (fun name => !alike source target name) table
  rw [h] at hfilter
  exact hfilter

theorem get?_differing_of_alike {model : Model} {table : Text}
    (h : alike source target table = true) :
    (differing source target model).get? table = none := by
  have hfilter := Ordered.get?_filter model (fun name => !alike source target name) table
  rw [h] at hfilter
  exact hfilter

/-- Models are the same if every table of the source is alike and none of the target is not. -/
def allAlike (source target : Model) : Bool :=
  source.keys.all (alike source target) && (differing source target target).isEmpty

section Differing

variable {table : Text}

theorem alike_of_mem_differing (h : table ∈ (differing source target target).keys) :
    alike (differing source target source) (differing source target target) table = false := by
  have halike : alike source target table = false := by
    obtain ⟨entry, hentry, rfl⟩ := List.mem_map.mp h
    simpa using (List.mem_filter.mp hentry).2
  rw [alike, get?_differing halike, get?_differing halike]
  exact halike

-- Comparing what is left of the models takes nothing more out.
theorem kept_differing (model : Model) : kept (differing source target source)
    (differing source target target) (differing source target target).keys model = model := by
  refine List.filter_eq_self.mpr fun entry _ => ?_
  by_cases h : entry.1 ∈ (differing source target target).keys
  · simp [alike_of_mem_differing h]
  · simp [h]

theorem all_alike_differing (h : (differing source target target).isEmpty = false) :
    (differing source target target).keys.all
      (alike (differing source target source) (differing source target target)) = false := by
  cases hkeys : differing source target target with
  | nil =>
    rw [hkeys] at h
    cases h
  | cons entry rest =>
    have hfirst : entry.1 ∈ (differing source target target).keys := by
      rw [hkeys]
      exact List.mem_cons_self
    rw [← hkeys, ← Bool.not_eq_true, List.all_eq_true]
    intro hall
    have hyes := hall _ hfirst
    rw [alike_of_mem_differing hfirst] at hyes
    cases hyes

-- The names come from the models themselves, so what is not alike is all that stays.
theorem kept_source : kept source target source.keys source = differing source target source := by
  refine List.filter_congr fun entry hentry => ?_
  have hmem : entry.1 ∈ source.keys := List.mem_map_of_mem (f := (·.1)) hentry
  simp [hmem]

theorem kept_target (hs : Sound P source) (ht : Sound P target) :
    kept source target source.keys target = differing source target target := by
  refine List.filter_congr fun entry _ => ?_
  cases h : alike source target entry.1 with
  | false => simp
  | true => simp [((alike_iff hs ht).mp h).1]

end Differing

theorem compare_eq (hs : Sound P source) (ht : Sound P target) :
    compare source target =
      if allAlike source target then { same := true }
      else { same := false, diff := some (Diff.ofModels (differing source target source)
        (differing source target target)) } := by
  unfold compare
  rw [prune_eq hs.unique, kept_source, kept_target hs ht]
  cases hempty : (differing source target target).isEmpty with
  | true => simp [allAlike, hempty]
  | false =>
    have hunique : (differing source target target).keys.Nodup :=
      ((List.filter_sublist (l := target)).map _).nodup ht.unique
    simp [prune_eq hunique, kept_differing, all_alike_differing hempty, allAlike, hempty]

theorem allAlike_iff (hs : Sound P source) (ht : Sound P target) :
    allAlike source target = true ↔ Agree source target := by
  rw [allAlike, Bool.and_eq_true, List.all_eq_true, List.isEmpty_iff]
  constructor
  · rintro ⟨hall, hempty⟩ table
    have hmem : table ∈ source.keys ∨ table ∈ target.keys → alike source target table = true := by
      rintro (h | h)
      · exact hall table h
      · by_contra hnot
        rw [Bool.not_eq_true] at hnot
        have hget : (differing source target target).get? table = target.get? table := get?_differing hnot
        rw [hempty, Ordered.get?_nil] at hget
        exact Ordered.get?_eq_none_iff.mp hget.symm h
    by_cases h : table ∈ source.keys ∨ table ∈ target.keys
    · obtain ⟨h, h', hcolumns⟩ := (alike_iff hs ht).mp (hmem h)
      exact ⟨⟨fun _ => h', fun _ => h⟩, hcolumns⟩
    · rw [not_or] at h
      refine ⟨⟨fun h' => absurd h' h.1, fun h' => absurd h' h.2⟩, fun column => ?_⟩
      rw [column?, column?, Ordered.get?_eq_none_iff.mpr h.1, Ordered.get?_eq_none_iff.mpr h.2]
  · intro agree
    have hmem : ∀ table ∈ source.keys, alike source target table = true := fun table h =>
      (alike_iff hs ht).mpr ⟨h, (agree table).1.mp h, (agree table).2⟩
    refine ⟨hmem, List.filter_eq_nil_iff.mpr fun entry hentry => ?_⟩
    have htable : entry.1 ∈ target.keys := List.mem_map_of_mem (f := (·.1)) hentry
    simp [hmem _ ((agree entry.1).1.mpr htable)]

/-- A comparison finds two models the same exactly if they agree. -/
theorem compare_same_iff (hs : Sound P source) (ht : Sound P target) :
    (compare source target).same = true ↔ Agree source target := by
  rw [← allAlike_iff hs ht, compare_eq hs ht]
  split
  · rename_i h
    simp [h]
  · rename_i h
    simp [h]

end Model

/-! ## 3. Differences -/

namespace Diff

theorem foldl_or_eq_zero_iff {flags : List Nat} {n : Nat} :
    flags.foldl (· ||| ·) n = 0 ↔ n = 0 ∧ ∀ flag ∈ flags, flag = 0 := by
  induction flags generalizing n with
  | nil => simp
  | cons flag flags ih => rw [List.foldl_cons, ih, Nat.or_eq_zero_iff, List.forall_mem_cons, and_assoc]

theorem flags_eq_zero_iff {diff : Diff} :
    diff.flags = 0 ↔ ∀ entry ∈ diff, ∀ difference ∈ entry.2, difference.2.flag = 0 := by
  rw [flags, foldl_or_eq_zero_iff]
  simp only [List.mem_flatMap, List.mem_map, true_and]
  constructor
  · intro h entry hentry difference hdifference
    exact h _ ⟨entry, hentry, difference, hdifference, rfl⟩
  · rintro h _ ⟨entry, hentry, difference, hdifference, rfl⟩
    exact h entry hentry difference hdifference

/-- All differences tell something by their flags, and no table stands without differences. -/
structure Telling (diff : Diff) : Prop where
  flag : ∀ entry ∈ diff, ∀ difference ∈ entry.2, difference.2.flag ≠ 0
  nonempty : ∀ entry ∈ diff, entry.2 ≠ []

theorem Telling.flags_eq_zero_iff {diff : Diff} (telling : Telling diff) :
    diff.flags = 0 ↔ diff = [] := by
  rw [Diff.flags_eq_zero_iff]
  constructor
  · intro h
    refine List.eq_nil_iff_forall_not_mem.mpr fun entry hentry => ?_
    obtain ⟨difference, rest, hsplit⟩ := List.exists_cons_of_ne_nil (telling.nonempty entry hentry)
    have hmem : difference ∈ entry.2 := hsplit ▸ List.mem_cons_self
    exact telling.flag entry hentry difference hmem (h entry hentry difference hmem)
  · rintro rfl entry hentry
    cases hentry

theorem ofColumn_eq_none_iff {table column : Text} {source target : Option Column} :
    ofColumn table column source target = none ↔
      source.map (Column.render table column) = target.map (Column.render table column) := by
  unfold ofColumn
  dsimp only
  split
  · rename_i h
    simp only [h]
  · rename_i h
    simp only [h, reduceCtorEq]

-- A difference is told by a flag of its own.
theorem flag_ne_zero {table column : Text} {source target : Option Column}
    {difference : Difference} (h : ofColumn table column source target = some difference) :
    difference.flag ≠ 0 := by
  unfold ofColumn at h
  dsimp only at h
  split at h
  · cases h
  · rename_i hne
    cases h
    cases source <;> cases target <;> simp_all [Difference.flag]

theorem mem_both {α : Type} {source target : Ordered α} {name : Text} :
    name ∈ source.keys ++ target.keys.filter (!source.has ·) ↔
      name ∈ source.keys ∨ name ∈ target.keys := by
  rw [List.mem_append, List.mem_filter, Bool.not_eq_true', ← Bool.not_eq_true,
    Ordered.has_eq_true_iff]
  tauto

theorem flags_ofColumns {table : Text} {source target : Ordered Column} {column : Text}
    {difference : Difference} (h : (column, difference) ∈ ofColumns table source target) :
    difference.flag ≠ 0 := by
  obtain ⟨name, -, h⟩ := List.mem_filterMap.mp h
  obtain ⟨d, hd, e⟩ := Option.map_eq_some_iff.mp h
  cases e
  exact flag_ne_zero hd

theorem ofColumns_eq_nil_iff {table : Text} {source target : Ordered Column} :
    ofColumns table source target = [] ↔ ∀ column,
      (source.get? column).map (Column.render table column) =
        (target.get? column).map (Column.render table column) := by
  rw [ofColumns, List.filterMap_eq_nil_iff]
  constructor
  · intro h column
    by_cases hmem : column ∈ source.keys ∨ column ∈ target.keys
    · exact ofColumn_eq_none_iff.mp (Option.map_eq_none_iff.mp (h column (mem_both.mpr hmem)))
    · rw [not_or] at hmem
      rw [Ordered.get?_eq_none_iff.mpr hmem.1, Ordered.get?_eq_none_iff.mpr hmem.2]
  · intro h column _
    exact Option.map_eq_none_iff.mpr (ofColumn_eq_none_iff.mpr (h column))

theorem telling_ofModels (source target : Model) : Telling (ofModels source target) where
  flag := by
    intro entry hentry difference hdifference
    obtain ⟨table, -, hentry⟩ := List.mem_filterMap.mp hentry
    dsimp only at hentry
    split at hentry
    · cases hentry
    · cases hentry
      exact flags_ofColumns hdifference
  nonempty := by
    intro entry hentry
    obtain ⟨table, -, hentry⟩ := List.mem_filterMap.mp hentry
    dsimp only at hentry
    split at hentry
    · cases hentry
    · rename_i hne
      cases hentry
      exact hne

/-- No difference is told exactly if every column is shown alike. -/
theorem ofModels_eq_nil_iff {source target : Model} :
    ofModels source target = [] ↔
      ∀ table column, source.shown table column = target.shown table column := by
  have hshown : ∀ (model : Model) (table column : Text), model.shown table column =
      ((((model.get? table).map Table.columns).getD []).get? column).map
        (Column.render table column) := by
    intro model table column
    rw [Model.shown, Model.column?]
    cases model.get? table <;> rfl
  simp only [hshown, ← ofColumns_eq_nil_iff]
  rw [ofModels, List.filterMap_eq_nil_iff]
  constructor
  · intro h table
    by_cases hmem : table ∈ source.keys ∨ table ∈ target.keys
    · have hnone := h table (mem_both.mpr hmem)
      dsimp only at hnone
      split at hnone
      · assumption
      · cases hnone
    · rw [not_or] at hmem
      rw [Ordered.get?_eq_none_iff.mpr hmem.1, Ordered.get?_eq_none_iff.mpr hmem.2]
      rfl
  · intro h table _
    dsimp only
    rw [h table]

end Diff

namespace Model

variable {P : Definition → Prop} {source target : Model}

theorem shown_of_alike (hs : Sound P source) (ht : Sound P target) {table : Text}
    (h : alike source target table = true) (column : Text) :
    source.shown table column = target.shown table column := by
  rw [shown, shown, ((alike_iff hs ht).mp h).2.2]

/-- A comparison tells no difference exactly if every column is shown alike in both models. -/
theorem compare_diff_eq_nil_iff (hs : Sound P source) (ht : Sound P target) :
    (compare source target).diff.getD [] = [] ↔
      ∀ table column, source.shown table column = target.shown table column := by
  rw [compare_eq hs ht]
  split
  · rename_i h
    refine ⟨fun _ table column => ?_, fun _ => rfl⟩
    rw [shown, shown, ((allAlike_iff hs ht).mp h table).2]
  · show Diff.ofModels _ _ = [] ↔ _
    rw [Diff.ofModels_eq_nil_iff]
    refine forall₂_congr fun table column => ?_
    cases h : alike source target table with
    | false => rw [shown, shown, column?, column?, get?_differing h, get?_differing h]; rfl
    | true =>
      rw [shown, shown, column?, column?, get?_differing_of_alike h, get?_differing_of_alike h]
      simp [shown_of_alike hs ht h]

/-- The flags of a comparison are zero exactly if it tells no difference. -/
theorem compare_flags_eq_zero_iff (hs : Sound P source) (ht : Sound P target) :
    (compare source target).flags = 0 ↔ (compare source target).diff.getD [] = [] := by
  rw [compare_eq hs ht]
  split
  · exact ⟨fun _ => rfl, fun _ => rfl⟩
  · exact (Diff.telling_ofModels _ _).flags_eq_zero_iff

end Model

end SqlDump
