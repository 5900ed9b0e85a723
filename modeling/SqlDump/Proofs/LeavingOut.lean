import Mathlib.Data.List.Nodup
import SqlDump.Plan

/-!
# Leaving out what exists, table by table

What exists is taken out of a dump table by table, in the order of the dump, and each table is looked
up in what the tables before it have left. Still all is told by the dump itself: the tables that exist
and that it creates are taken out, and each of them is added its columns once, however often the
order names it.
-/

namespace SqlDump.Plan

variable {dump : Dump} {existing : Ordered (List Text)} {added : List Text} {table : Text}

/-! ## 1. One table -/

/-- Whether a table exists and is created by the dump. -/
def isPresent (dump : Dump) (existing : Ordered (List Text)) (table : Text) : Bool :=
  existing.has table && dump.tables.has table

/-- The statements that add the columns which an existing table lacks of those in the dump. -/
def additions (dump : Dump) (existing : Ordered (List Text)) (table : Text) : List Text :=
  missingColumns table (((dump.tables.get? table).getD []).head?.getD [])
    ((existing.get? table).getD [])

/-- The dump without the statements that create and fill some tables. -/
def without (dump : Dump) (tables : List Text) : Dump :=
  { dump with
    tables := dump.tables.filter fun entry => !tables.contains entry.1
    inserts := dump.inserts.filter fun entry => !tables.contains entry.1 }

theorem get?_without (dump : Dump) (tables : List Text) (table : Text) :
    (without dump tables).tables.get? table =
        (if tables.contains table then none else dump.tables.get? table) ∧
      (without dump tables).inserts.get? table =
        if tables.contains table then none else dump.inserts.get? table := by
  have hget : ∀ m : Ordered (List Text),
      Ordered.get? (m.filter fun entry => !tables.contains entry.1) table =
        if tables.contains table then none else m.get? table := by
    intro m
    rw [Ordered.get?_filter m (!tables.contains ·)]
    cases tables.contains table <;> rfl
  exact ⟨hget dump.tables, hget dump.inserts⟩

theorem isPresent_without (dump : Dump) (tables : List Text) (table : Text) :
    isPresent (without dump tables) existing table =
      (isPresent dump existing table && !tables.contains table) := by
  simp only [isPresent, Ordered.has, (get?_without dump tables table).1, Bool.and_assoc]
  cases tables.contains table <;> simp

theorem additions_without {tables : List Text} (h : table ∉ tables) :
    additions (without dump tables) existing table = additions dump existing table := by
  rw [additions, (get?_without dump tables table).1, if_neg (by simpa using h), additions]

theorem without_without (dump : Dump) (first rest : List Text) :
    without (without dump first) rest = without dump (first ++ rest) := by
  unfold without
  simp only [List.filter_filter, List.contains_append, Bool.not_or, Bool.and_comm]

theorem without_congr {tables tables' : List Text} (h : ∀ table, table ∈ tables ↔ table ∈ tables') :
    without dump tables = without dump tables' := by
  have hcontains : ∀ table, tables.contains table = tables'.contains table := fun table =>
    Bool.eq_iff_iff.mpr (by simpa using h table)
  unfold without
  simp only [hcontains]

theorem leaveOut_of_absent (h : isPresent dump existing table = false) :
    leaveOut existing (dump, added) table = (dump, added) := by
  unfold leaveOut
  rw [isPresent, Ordered.has, Ordered.has] at h
  cases hexisting : existing.get? table <;> cases hcreated : dump.tables.get? table <;>
    simp_all

theorem leaveOut_of_present (h : isPresent dump existing table = true) :
    leaveOut existing (dump, added) table =
      (without dump [table], added ++ additions dump existing table) := by
  obtain ⟨hexisting, hcreated⟩ := Bool.and_eq_true_iff.mp h
  obtain ⟨columns, hcolumns⟩ := Option.isSome_iff_exists.mp hexisting
  obtain ⟨creates, hcreates⟩ := Option.isSome_iff_exists.mp hcreated
  have herase : ∀ m : Ordered (List Text),
      m.erase table = m.filter fun entry => !List.contains [table] entry.1 :=
    fun m => List.filter_congr fun entry _ => by simp
  rw [leaveOut, hcolumns, hcreates, without, additions, hcolumns, hcreates, herase, herase]
  rfl

/-! ## 2. One table after another -/

/-- Walking over an order takes the tables out that are present before the walk, and adds what each
of them lacks once. -/
theorem foldl_leaveOut (order : List Text) (dump : Dump) (added : List Text) :
    let present := order.filter (isPresent dump existing)
    order.foldl (leaveOut existing) (dump, added) =
      (without dump present, added ++ present.eraseDups.flatMap (additions dump existing)) := by
  induction order generalizing dump added with
  | nil =>
    show (dump, added) = (without dump [], added ++ [])
    rw [List.append_nil]
    unfold without
    simp
  | cons table order ih =>
    dsimp only at ih ⊢
    rw [List.foldl_cons]
    cases h : isPresent dump existing table with
    | false => rw [leaveOut_of_absent h, ih, List.filter_cons_of_neg (by simp [h])]
    | true =>
      -- behind it the table is not present any more, and every other one is as it was
      have hrest : order.filter (isPresent (without dump [table]) existing) =
          (order.filter (isPresent dump existing)).filter (!· == table) := by
        rw [List.filter_filter]
        refine List.filter_congr fun other _ => ?_
        rw [isPresent_without, Bool.and_comm]
        by_cases hother : other = table <;> simp [hother]
      rw [leaveOut_of_present h, ih, hrest, List.filter_cons_of_pos h, List.eraseDups_cons,
        List.flatMap_cons, without_without, List.append_assoc]
      congr 1
      · refine without_congr fun other => ?_
        by_cases hother : other = table <;> simp [hother]
      · refine congrArg (fun rest => added ++ (additions dump existing table ++ rest)) ?_
        refine List.flatMap_congr fun other hother => additions_without ?_
        have hkept := (List.mem_filter.mp (List.mem_eraseDups.mp hother)).2
        simpa using hkept

/-- The tables that exist and that the dump creates, in its order. -/
def present (dump : Dump) (existing : Ordered (List Text)) : List Text :=
  dump.order.filter (isPresent dump existing)

/-- What is left of a dump without what exists, told by the dump itself. -/
theorem excludeExisting_eq (dump : Dump) (existing : Ordered (List Text)) (routines : List Text) :
    excludeExisting dump existing routines =
      { without dump (present dump existing) with
        alters := (present dump existing).eraseDups.flatMap (additions dump existing) ++ dump.alters
        functions := dump.functions.filter fun query => !(routineName? query).any routines.contains
        procedures := dump.procedures.filter fun query => !(routineName? query).any routines.contains
        triggers := dump.triggers.filter fun query => !(routineName? query).any routines.contains } := by
  unfold excludeExisting
  rw [foldl_leaveOut]
  rfl

theorem names_excludeExisting (dump : Dump) (existing : Ordered (List Text)) (routines : List Text) :
    (excludeExisting dump existing routines).names = dump.names := by
  rw [excludeExisting_eq]
  rfl

-- An order without repeats is walked as it is.
theorem eraseDups_of_nodup {tables : List Text} (unique : tables.Nodup) : tables.eraseDups = tables := by
  induction tables with
  | nil => rfl
  | cons table tables ih =>
    obtain ⟨hnew, unique⟩ := List.nodup_cons.mp unique
    have hall : tables.filter (!· == table) = tables := List.filter_eq_self.mpr fun other hother => by
      simpa using fun e : other = table => hnew (e ▸ hother)
    rw [List.eraseDups_cons, hall, ih unique]

end SqlDump.Plan
