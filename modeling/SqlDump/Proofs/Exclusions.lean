import SqlDump.Proofs.ExistingTables

/-!
# Leaving out what exists, and again

Once what exists is left out of a dump, none of its tables exists and is created, and none of its
routines has the name of one that exists. So leaving it out again changes nothing, and no column is
added twice.
-/

namespace SqlDump.Plan

variable {dump : Dump} {existing : Ordered (List Text)} {routines : List Text}

/-! ## 1. When nothing is left out -/

/-- A routine without a name, or with one that does not exist. -/
def IsNew (routines : List Text) (query : Text) : Prop :=
  ∀ name ∈ routineName? query, name ∉ routines

instance (routines : List Text) (query : Text) : Decidable (IsNew routines query) :=
  Option.decidableForallMem _

theorem filter_isNew (routines queries : List Text) :
    queries.filter (fun query => !(routineName? query).any routines.contains) =
      queries.filter (IsNew routines ·) := by
  refine List.filter_congr fun query _ => ?_
  rw [Bool.eq_iff_iff, decide_eq_true_iff, IsNew]
  cases routineName? query <;> simp

/-- A dump that creates no existing table and no existing routine stays as it is. -/
theorem excludeExisting_eq_self (tables : present dump existing = [])
    (functions : ∀ query ∈ dump.functions, IsNew routines query)
    (procedures : ∀ query ∈ dump.procedures, IsNew routines query)
    (triggers : ∀ query ∈ dump.triggers, IsNew routines query) :
    excludeExisting dump existing routines = dump := by
  have hnew : ∀ queries : List Text, (∀ query ∈ queries, IsNew routines query) →
      queries.filter (fun query => !(routineName? query).any routines.contains) = queries := by
    intro queries h
    rw [filter_isNew, List.filter_eq_self]
    simpa using h
  have hstay : without dump [] = dump := by
    unfold without
    simp
  rw [excludeExisting_eq, tables, hstay, hnew _ functions, hnew _ procedures, hnew _ triggers]
  rfl

/-! ## 2. What a dump without it holds -/

/-- No table that exists is created any more. -/
theorem present_excludeExisting (dump : Dump) (existing : Ordered (List Text))
    (routines : List Text) : present (excludeExisting dump existing routines) existing = [] := by
  rw [excludeExisting_eq]
  refine List.filter_eq_nil_iff.mpr fun table htable hpresent => ?_
  have hleft : isPresent (without dump (present dump existing)) existing table = true := hpresent
  rw [isPresent_without, Bool.and_eq_true_iff] at hleft
  -- the table was there before, so it was one of those left out
  have hmem : table ∈ present dump existing := List.mem_filter.mpr ⟨htable, hleft.1⟩
  simp [hmem] at hleft

-- A table that does not exist keeps its statements.
theorem filter_absent (m : Ordered (List Text)) :
    (m.filter fun entry => !(present dump existing).contains entry.1).filter
        (fun entry => !existing.has entry.1) = m.filter (fun entry => !existing.has entry.1) := by
  rw [List.filter_filter]
  refine List.filter_congr fun entry _ => ?_
  cases h : existing.has entry.1 with
  | true => rfl
  | false =>
    have hout : entry.1 ∉ present dump existing := fun hmem => by
      have := (List.mem_filter.mp hmem).2
      rw [isPresent, h] at this
      cases this
    rw [Bool.eq_false_iff.mpr fun hmem => hout (List.contains_iff_mem.mp hmem)]
    rfl

/-- **What exists is left out once for all.** Leaving it out again changes nothing, so that no
column is added a second time. Everything but tables, their rows, changes and routines stays as it
is; tables that do not exist keep their statements and their rows in their order; and of the
routines exactly those stay, in their order, that have no existing name. -/
theorem excludeExisting_again (dump : Dump) (existing : Ordered (List Text))
    (routines : List Text) :
    let reduced := excludeExisting dump existing routines
    excludeExisting reduced existing routines = reduced ∧
    (reduced.views = dump.views ∧ reduced.drops = dump.drops ∧ reduced.misc = dump.misc ∧
      reduced.order = dump.order ∧ reduced.unresolved = dump.unresolved ∧
      reduced.names = dump.names) ∧
    (reduced.tables.filter (fun entry => !existing.has entry.1) =
        dump.tables.filter (fun entry => !existing.has entry.1) ∧
      reduced.inserts.filter (fun entry => !existing.has entry.1) =
        dump.inserts.filter (fun entry => !existing.has entry.1)) ∧
    reduced.functions = dump.functions.filter (IsNew routines ·) ∧
    reduced.procedures = dump.procedures.filter (IsNew routines ·) ∧
    reduced.triggers = dump.triggers.filter (IsNew routines ·) := by
  intro reduced
  have hreduced : reduced = _ := excludeExisting_eq dump existing routines
  have hfunctions : reduced.functions = dump.functions.filter (IsNew routines ·) := by
    rw [hreduced]
    exact filter_isNew routines dump.functions
  have hprocedures : reduced.procedures = dump.procedures.filter (IsNew routines ·) := by
    rw [hreduced]
    exact filter_isNew routines dump.procedures
  have htriggers : reduced.triggers = dump.triggers.filter (IsNew routines ·) := by
    rw [hreduced]
    exact filter_isNew routines dump.triggers
  have hnew : ∀ queries : List Text, ∀ query ∈ queries.filter (IsNew routines ·),
      IsNew routines query := fun _ _ h => of_decide_eq_true (List.mem_filter.mp h).2
  refine ⟨?_, ?_, ?_, hfunctions, hprocedures, htriggers⟩
  · apply excludeExisting_eq_self
    · exact present_excludeExisting dump existing routines
    · rw [hfunctions]
      exact hnew dump.functions
    · rw [hprocedures]
      exact hnew dump.procedures
    · rw [htriggers]
      exact hnew dump.triggers
  · rw [hreduced]
    exact ⟨rfl, rfl, rfl, rfl, rfl, rfl⟩
  · rw [hreduced]
    exact ⟨filter_absent dump.tables, filter_absent dump.inserts⟩

end SqlDump.Plan
