import Mathlib.Data.Fintype.EquivFin
import Mathlib.Data.List.Nodup
import Mathlib.Logic.Relation
import Mathlib.Order.Bounds.Basic
import Mathlib.Order.WellFounded
import SqlDump.Dependency

/-!
# Sorting tables by their references

A pass of the sort places every table whose references, itself apart, are placed already. The
passes are followed by one invariant, `Progress`; it holds at the start, a pass keeps it, and where
it holds at the end the placed tables are the least set that is closed under it.
-/

open Relation

namespace SqlDump.Graph

/-- Tables that contain every table whose references, itself apart, they contain. -/
def Settles (graph : Graph) (tables : Set Text) : Prop :=
  ∀ table references, (table, references) ∈ graph →
    (∀ reference ∈ references, reference ≠ table → reference ∈ tables) → table ∈ tables

/-- A table refers to another one. -/
def Refers (graph : Graph) (table reference : Text) : Prop :=
  ∃ references, (table, references) ∈ graph ∧ reference ∈ references ∧ reference ≠ table

/-! ## 1. What a pass keeps -/

/-- Where the sort stands: the placed tables in their order, and the tables that remain. -/
structure Progress (graph : Graph) (placed : List Text) (remaining : Graph) : Prop where
  perm : (placed ++ remaining.keys).Perm graph.keys
  sublist : remaining.Sublist graph
  cover : ∀ entry ∈ graph, entry.1 ∈ placed ∨ entry ∈ remaining
  settled : ∀ tables, Settles graph tables → ∀ table ∈ placed, table ∈ tables
  behind : ∀ before table after references, placed = before ++ table :: after →
    (table, references) ∈ graph → ∀ reference ∈ references, reference ≠ table → reference ∈ before

theorem isReady_iff {placed : List Text} {table : Text} {references : List Text} :
    isReady placed (table, references) = true ↔
      ∀ reference ∈ references, reference ≠ table → reference ∈ placed := by
  simp only [isReady, List.all_eq_true, Bool.or_eq_true, decide_eq_true_eq, List.contains_iff_mem]
  constructor
  · intro h reference hr hne
    exact (h reference hr).resolve_left hne
  · intro h reference hr
    by_cases e : reference = table
    · exact Or.inl e
    · exact Or.inr (h reference hr e)

theorem entry_unique {graph : Graph} (unique : graph.keys.Nodup) {table : Text}
    {references others : List Text} (h : (table, references) ∈ graph)
    (h' : (table, others) ∈ graph) : references = others := by
  have e := Ordered.get?_of_mem unique h
  rw [Ordered.get?_of_mem unique h'] at e
  exact (Option.some.inj e).symm

theorem Progress.start (graph : Graph) : Progress graph [] graph where
  perm := by simp
  sublist := List.Sublist.refl graph
  cover := fun _ h => Or.inr h
  settled := by simp
  behind := by simp

theorem Progress.nodup {graph : Graph} {placed : List Text} {remaining : Graph}
    (progress : Progress graph placed remaining) (unique : graph.keys.Nodup) :
    (placed ++ remaining.keys).Nodup :=
  progress.perm.nodup_iff.mpr unique

-- The tables that a pass places and those that it leaves are the tables that remained.
theorem keys_ready_append_perm (placed : List Text) (remaining : Graph) :
    (Ordered.keys (remaining.filter (isReady placed)) ++
      Ordered.keys (remaining.filter (!isReady placed ·))).Perm remaining.keys := by
  rw [Ordered.keys, Ordered.keys, ← List.map_append]
  exact (List.filter_append_perm (isReady placed) remaining).map _

-- A table that a pass places refers to tables placed before, itself apart.
theorem Progress.references_placed {graph : Graph} {placed : List Text} {remaining : Graph}
    (unique : graph.keys.Nodup) (progress : Progress graph placed remaining) {table : Text}
    (ready : table ∈ Ordered.keys (remaining.filter (isReady placed))) {references : List Text}
    (h : (table, references) ∈ graph) : ∀ reference ∈ references, reference ≠ table →
      reference ∈ placed := by
  obtain ⟨⟨name, others⟩, hentry, rfl⟩ := List.mem_map.mp ready
  obtain ⟨hrem, hready⟩ := List.mem_filter.mp hentry
  obtain rfl := entry_unique unique h (progress.sublist.subset hrem)
  exact isReady_iff.mp hready

theorem Progress.pass {graph : Graph} {placed : List Text} {remaining : Graph}
    (unique : graph.keys.Nodup) (progress : Progress graph placed remaining) :
    Progress graph (placed ++ Ordered.keys (remaining.filter (isReady placed)))
      (remaining.filter (!isReady placed ·)) where
  perm := by
    rw [List.append_assoc]
    exact ((keys_ready_append_perm placed remaining).append_left placed).trans progress.perm
  sublist := List.filter_sublist.trans progress.sublist
  cover := by
    intro entry h
    rcases progress.cover entry h with h | h
    · exact Or.inl (List.mem_append_left _ h)
    · cases ready : isReady placed entry with
      | true =>
        have h' := List.mem_filter.mpr ⟨h, ready⟩
        exact Or.inl (List.mem_append_right _ (List.mem_map_of_mem h'))
      | false => exact Or.inr (List.mem_filter.mpr ⟨h, by rw [ready]; rfl⟩)
  settled := by
    intro tables closed table h
    rcases List.mem_append.mp h with h | h
    · exact progress.settled tables closed table h
    · obtain ⟨⟨name, references⟩, hmem, rfl⟩ := List.mem_map.mp h
      obtain ⟨hrem, ready⟩ := List.mem_filter.mp hmem
      refine closed name references (progress.sublist.subset hrem) ?_
      intro reference hr hne
      exact progress.settled tables closed reference (isReady_iff.mp ready reference hr hne)
  behind := by
    intro before table after references split h reference hr hne
    rcases List.append_eq_append_iff.mp split with ⟨more, hbefore, hready⟩ | ⟨more, hplaced, hafter⟩
    · -- the table is one of those that this pass places
      have hmem : table ∈ Ordered.keys (remaining.filter (isReady placed)) := by
        rw [hready]; simp
      rw [hbefore]
      exact List.mem_append_left _ (progress.references_placed unique hmem h reference hr hne)
    · cases more with
      | nil =>
        have hmem : table ∈ Ordered.keys (remaining.filter (isReady placed)) := by
          rw [List.nil_append] at hafter
          rw [← hafter]; simp
        rw [List.append_nil] at hplaced
        exact hplaced ▸ progress.references_placed unique hmem h reference hr hne
      | cons first more =>
        obtain ⟨rfl, -⟩ := List.cons.inj hafter
        exact progress.behind before table more references hplaced h reference hr hne

/-! ## 2. The run of all passes -/

/-- Where the sort ends: no table that remains can be placed. -/
structure Finished (graph : Graph) (placed : List Text) (remaining : Graph) : Prop
    extends Progress graph placed remaining where
  stuck : ∀ entry ∈ remaining, isReady placed entry = false

theorem length_unready_lt {placed : List Text} {remaining : Graph}
    (h : remaining.filter (isReady placed) ≠ []) :
    (remaining.filter (!isReady placed ·)).length < remaining.length := by
  have hlen := (List.filter_append_perm (isReady placed) remaining).length_eq
  rw [List.length_append] at hlen
  have hpos := List.length_pos_iff.mpr h
  omega

/-- With a pass to spare the sort ends by itself, where no table that remains can be placed. What
every pass keeps still holds there, and the result is what is placed then, followed by what
remains. -/
theorem exists_sortFrom {P : List Text → Graph → Prop}
    (pass : ∀ placed remaining, P placed remaining →
      P (placed ++ Ordered.keys (remaining.filter (isReady placed)))
        (remaining.filter (!isReady placed ·)))
    (passes : Nat) (placed : List Text) (remaining : Graph) (enough : remaining.length < passes)
    (start : P placed remaining) :
    ∃ done rest, P done rest ∧ (∀ entry ∈ rest, isReady done entry = false) ∧
      sortFrom passes placed remaining =
        { order := done ++ Ordered.keys rest, unresolved := Ordered.keys rest } := by
  induction passes generalizing placed remaining with
  | zero => omega
  | succ passes ih =>
    rw [sortFrom]
    split
    · rename_i hempty
      obtain rfl := List.isEmpty_iff.mp hempty
      exact ⟨placed, [], start, by simp, by simp [Ordered.keys]⟩
    · dsimp only
      split
      · rename_i hnone
        refine ⟨placed, remaining, start, ?_, rfl⟩
        have hfilter := List.isEmpty_iff.mp hnone
        intro entry h
        simpa using List.filter_eq_nil_iff.mp hfilter entry h
      · rename_i hsome
        have hlt := length_unready_lt (fun e => hsome (List.isEmpty_iff.mpr e))
        exact ih _ _ (by omega) (pass placed remaining start)

/-- How many passes are allowed does not matter as long as there are enough. -/
theorem sortFrom_eq_sortFrom (passes others : Nat) (placed : List Text) (remaining : Graph)
    (enough : remaining.length < passes) (enough' : remaining.length < others) :
    sortFrom passes placed remaining = sortFrom others placed remaining := by
  induction passes generalizing others placed remaining with
  | zero => omega
  | succ passes ih =>
    cases others with
    | zero => omega
    | succ others =>
      rw [sortFrom, sortFrom]
      split
      · rfl
      · dsimp only
        split
        · rfl
        · rename_i hsome
          have hlt := length_unready_lt (fun e => hsome (List.isEmpty_iff.mpr e))
          exact ih others _ _ (by omega) (by omega)

theorem sort_finished {graph : Graph} (unique : graph.keys.Nodup) :
    ∃ done rest, Finished graph done rest ∧
      graph.sort = { order := done ++ Ordered.keys rest, unresolved := Ordered.keys rest } := by
  obtain ⟨done, rest, progress, stuck, hsort⟩ := exists_sortFrom
    (fun _ _ progress => Progress.pass unique progress) (graph.length + 1) [] graph
    (Nat.lt_succ_self _) (Progress.start graph)
  exact ⟨done, rest, ⟨progress, stuck⟩, hsort⟩

/-! ## 3. What has been placed at the end -/

section Finished

variable {graph : Graph} {placed : List Text} {remaining : Graph}

theorem Finished.mem_placed_iff (finished : Finished graph placed remaining)
    (unique : graph.keys.Nodup) {table : Text} :
    table ∈ placed ↔ table ∈ graph.keys ∧ table ∉ Ordered.keys remaining := by
  have hdisjoint := (List.nodup_append.mp (finished.nodup unique)).2.2
  constructor
  · intro h
    refine ⟨finished.perm.subset (List.mem_append_left _ h), ?_⟩
    intro h'
    exact hdisjoint table h table h' rfl
  · rintro ⟨h, h'⟩
    exact (List.mem_append.mp (finished.perm.symm.subset h)).resolve_right h'

theorem Finished.isLeast (finished : Finished graph placed remaining) :
    IsLeast {tables | Settles graph tables} {table | table ∈ placed} := by
  constructor
  · intro table references h hrefs
    rcases finished.cover _ h with h | h
    · exact h
    · have := finished.stuck _ h
      rw [isReady_iff.mpr hrefs] at this
      exact absurd this (by decide)
  · intro tables closed table h
    exact finished.settled tables closed table h

-- A table that remains refers to a table that remains too, or to one outside the graph.
theorem Finished.exists_refers (finished : Finished graph placed remaining) {table : Text}
    (h : table ∈ Ordered.keys remaining) :
    ∃ reference, Refers graph table reference ∧
      (reference ∈ Ordered.keys remaining ∨ reference ∉ graph.keys) := by
  obtain ⟨⟨name, references⟩, hentry, rfl⟩ := List.mem_map.mp h
  have hstuck : ¬ isReady placed (name, references) = true := by
    rw [finished.stuck _ hentry]; decide
  rw [isReady_iff] at hstuck
  push Not at hstuck
  obtain ⟨reference, hr, hne, hplaced⟩ := hstuck
  refine ⟨reference, ⟨references, finished.sublist.subset hentry, hr, hne⟩, ?_⟩
  by_cases hkey : reference ∈ graph.keys
  · exact Or.inl ((List.mem_append.mp (finished.perm.symm.subset hkey)).resolve_left hplaced)
  · exact Or.inr hkey

-- Along references a placed table is followed by earlier ones.
theorem Finished.idxOf_lt (finished : Finished graph placed remaining) {table reference : Text}
    (h : table ∈ placed) (refers : Refers graph table reference) :
    reference ∈ placed ∧ placed.idxOf reference < placed.idxOf table := by
  obtain ⟨references, hentry, hr, hne⟩ := refers
  obtain ⟨before, after, rfl, hbefore⟩ := List.eq_append_cons_of_mem h
  have hmem := finished.behind before table after references rfl hentry reference hr hne
  refine ⟨List.mem_append_left _ hmem, ?_⟩
  rw [List.idxOf_append_of_mem hmem, List.idxOf_append_of_notMem hbefore, List.idxOf_cons_self]
  have := List.idxOf_lt_length_of_mem hmem
  omega

theorem Finished.idxOf_lt_of_path (finished : Finished graph placed remaining) {table other : Text}
    (h : table ∈ placed) (path : TransGen (Refers graph) table other) :
    other ∈ placed ∧ placed.idxOf other < placed.idxOf table := by
  induction path with
  | single refers => exact finished.idxOf_lt h refers
  | tail _ refers ih =>
    obtain ⟨hmem, hlt⟩ := finished.idxOf_lt ih.1 refers
    exact ⟨hmem, hlt.trans ih.2⟩

end Finished

/-- In a finite set of tables each of which refers to another of the set, some table reaches
itself. -/
theorem exists_cycle {graph : Graph} {tables : List Text} (hne : tables ≠ [])
    (next : ∀ table ∈ tables, ∃ reference ∈ tables, Refers graph table reference) :
    ∃ table, TransGen (Refers graph) table table := by
  by_contra acyclic
  push Not at acyclic
  let reaches (a b : {table // table ∈ tables}) : Prop := TransGen (Refers graph) b.1 a.1
  have : IsTrans _ reaches := ⟨fun _ _ _ hab hbc => TransGen.trans hbc hab⟩
  have : Std.Irrefl reaches := ⟨fun a h => acyclic a.1 h⟩
  have wf : WellFounded reaches := Finite.wellFounded_of_trans_of_irrefl _
  obtain ⟨first, hfirst⟩ := List.exists_mem_of_ne_nil tables hne
  obtain ⟨⟨last, hlast⟩, -, hmin⟩ := wf.has_min Set.univ ⟨⟨first, hfirst⟩, trivial⟩
  obtain ⟨reference, hmem, refers⟩ := next last hlast
  exact hmin ⟨reference, hmem⟩ trivial (TransGen.single refers)

/-- Everything is placed exactly where the references neither come back nor leave the graph. -/
theorem Finished.remaining_eq_nil_iff {graph : Graph} {placed : List Text} {remaining : Graph}
    (finished : Finished graph placed remaining) :
    Ordered.keys remaining = [] ↔
      (∀ table, ¬ TransGen (Refers graph) table table) ∧
        ∀ table reference, Refers graph table reference → reference ∈ graph.keys := by
  constructor
  · intro hnil
    have hall : ∀ table ∈ graph.keys, table ∈ placed := by
      intro table h
      have h' := finished.perm.symm.subset h
      rwa [hnil, List.append_nil] at h'
    have hsource : ∀ {table reference}, Refers graph table reference → table ∈ placed := by
      rintro table reference ⟨references, hentry, -⟩
      exact hall table (List.mem_map_of_mem (f := (·.1)) hentry)
    constructor
    · intro table cycle
      obtain ⟨next, refers, -⟩ := TransGen.head'_iff.mp cycle
      exact Nat.lt_irrefl _ (finished.idxOf_lt_of_path (hsource refers) cycle).2
    · intro table reference refers
      have hplaced := (finished.idxOf_lt (hsource refers) refers).1
      exact finished.perm.subset (List.mem_append_left _ hplaced)
  · rintro ⟨acyclic, inside⟩
    by_contra hne
    obtain ⟨table, cycle⟩ := @exists_cycle graph _ hne (by
      intro table h
      obtain ⟨reference, refers, hmem | hout⟩ := finished.exists_refers h
      · exact ⟨reference, hmem, refers⟩
      · exact absurd (inside table reference refers) hout)
    exact acyclic table cycle

/-! ## 4. The sort -/

theorem Settles.perm {graph other : Graph} (perm : other.Perm graph) {tables : Set Text} :
    Settles other tables ↔ Settles graph tables := by
  constructor
  · intro h table references hentry
    exact h table references (perm.symm.subset hentry)
  · intro h table references hentry
    exact h table references (perm.subset hentry)

/-- The tables that the sort resolves, as a set, are the least one that is closed. -/
theorem isLeast_resolved {graph : Graph} (unique : graph.keys.Nodup) :
    IsLeast {tables | Settles graph tables}
      {table | table ∈ graph.keys ∧ table ∉ graph.sort.unresolved} := by
  obtain ⟨placed, remaining, finished, hsort⟩ := sort_finished unique
  have hset : {table | table ∈ graph.keys ∧ table ∉ graph.sort.unresolved} =
      {table | table ∈ placed} := by
    ext table
    rw [hsort]
    exact (finished.mem_placed_iff unique).symm
  rw [hset]
  exact finished.isLeast

/-- Only the entries of a graph count for what stays unresolved, not their order. -/
theorem mem_unresolved_of_perm {graph other : Graph} (unique : graph.keys.Nodup)
    (perm : other.Perm graph) (table : Text) :
    table ∈ other.sort.unresolved ↔ table ∈ graph.sort.unresolved := by
  have hkeys : other.keys.Perm graph.keys := perm.map _
  have unique' : other.keys.Nodup := hkeys.nodup_iff.mpr unique
  have hleast := isLeast_resolved unique'
  simp only [Settles.perm perm] at hleast
  have hset := hleast.unique (isLeast_resolved unique)
  have hmem : ∀ {graph : Graph}, graph.keys.Nodup →
      table ∈ graph.sort.unresolved → table ∈ graph.keys := by
    intro graph unique h
    obtain ⟨placed, remaining, finished, hsort⟩ := sort_finished unique
    rw [hsort] at h
    exact finished.perm.subset (List.mem_append_right _ h)
  have hiff := Set.ext_iff.mp hset table
  simp only [Set.mem_ofPred_eq, hkeys.mem_iff] at hiff
  constructor
  · intro h
    by_contra h'
    exact (hiff.mpr ⟨hkeys.subset (hmem unique' h), h'⟩).2 h
  · intro h
    by_contra h'
    exact (hiff.mp ⟨hmem unique h, h'⟩).2 h

/-- **Exactness of the sort.** It ends by itself. Every table stands in the order once, the
unresolved ones at its end; before them each table stands behind all it refers to. What is resolved
is the least set of tables closed under "all references resolved", so nothing is unresolved just
when references neither come back nor leave the graph, and the order of the entries does not
count. -/
theorem sort_exact (graph : Graph) (unique : graph.keys.Nodup) :
    (∀ passes, graph.length < passes → sortFrom passes [] graph = graph.sort) ∧
    graph.sort.order.Perm graph.keys ∧
    graph.sort.unresolved <:+ graph.sort.order ∧
    (∀ before table after references,
      graph.sort.order = before ++ table :: after ++ graph.sort.unresolved →
      (table, references) ∈ graph →
      ∀ reference ∈ references, reference ≠ table → reference ∈ before) ∧
    IsLeast {tables | Settles graph tables}
      {table | table ∈ graph.keys ∧ table ∉ graph.sort.unresolved} ∧
    (graph.sort.unresolved = [] ↔
      (∀ table, ¬ TransGen (Refers graph) table table) ∧
        ∀ table reference, Refers graph table reference → reference ∈ graph.keys) ∧
    ∀ other : Graph, other.Perm graph →
      ∀ table, table ∈ other.sort.unresolved ↔ table ∈ graph.sort.unresolved := by
  obtain ⟨placed, remaining, finished, hsort⟩ := sort_finished unique
  refine ⟨?_, ?_, ?_, ?_, isLeast_resolved unique, ?_, ?_⟩
  · intro passes h
    exact sortFrom_eq_sortFrom passes _ [] graph h (Nat.lt_succ_self _)
  · rw [hsort]
    exact finished.perm
  · rw [hsort]
    exact List.suffix_append placed _
  · intro before table after references split
    rw [hsort] at split
    exact finished.behind before table after references (List.append_cancel_right split)
  · rw [hsort]
    exact finished.remaining_eq_nil_iff
  · intro other perm table
    exact mem_unresolved_of_perm unique perm table

/-- A table that refers to itself, one behind it, two that refer to each other, one that hangs on
those, and one that refers outside the graph. -/
theorem sort_exact_mixed :
    let graph : Graph :=
      [(['b'], [['a'], ['b']]), (['c'], [['d']]), (['d'], [['c']]), (['e'], [['c'], ['a']]),
        (['f'], [['x']]), (['a'], [['a']])]
    graph.keys.Nodup ∧ graph.sort.order = [['a'], ['b'], ['c'], ['d'], ['e'], ['f']] ∧
      graph.sort.unresolved = [['c'], ['d'], ['e'], ['f']] ∧
      IsLeast {tables | Settles graph tables}
        {table | table ∈ graph.keys ∧ table ∉ graph.sort.unresolved} := by
  intro graph
  have unique : graph.keys.Nodup := by decide
  exact ⟨unique, by decide, by decide, (sort_exact graph unique).2.2.2.2.1⟩

end SqlDump.Graph
