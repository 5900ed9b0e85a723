import SqlDump.Plan
import SqlDump.Proofs.Buckets
import SqlDump.Proofs.ForeignWords
import SqlDump.Proofs.Sorting

/-!
# The order of a plan

A plan creates its tables in the order of the dump and fills them in the same order. The main
statement takes a foreign key of a sorted table and shows where, in the whole plan, the statements
of the two tables stand.
-/

namespace SqlDump

/-! ## 1. The graph of a dump -/

theorem Text.mem_distinct {parts : List Text} {part : Text} :
    part ∈ Text.distinct parts ↔ part ∈ parts := by
  have fold : ∀ (parts seen : List Text),
      part ∈ parts.foldl (fun seen p => if seen.contains p then seen else seen ++ [p]) seen ↔
        part ∈ seen ∨ part ∈ parts := by
    intro parts
    induction parts with
    | nil => simp
    | cons p parts ih =>
      intro seen
      rw [List.foldl_cons, ih, List.mem_cons]
      split
      · rename_i h
        have hp : p ∈ seen := by simpa using h
        constructor
        · exact fun o => o.elim Or.inl fun o => Or.inr (Or.inr o)
        · rintro (o | rfl | o)
          · exact Or.inl o
          · exact Or.inl hp
          · exact Or.inr o
      · rw [List.mem_append, List.mem_singleton, or_assoc]
  rw [Text.distinct, fold]
  simp

namespace Graph

theorem keys_ofList_nodup {α : Type} (pairs : List (Text × α)) :
    (Ordered.ofList pairs).keys.Nodup := by
  have fold : ∀ (pairs : List (Text × α)) (m : Ordered α), m.keys.Nodup →
      (pairs.foldl (fun m p => m.set p.1 p.2) m).keys.Nodup := by
    intro pairs
    induction pairs with
    | nil => exact fun _ h => h
    | cons p pairs ih => exact fun m h => ih _ (Ordered.nodup_keys_set h p.1 p.2)
  exact fold pairs [] List.nodup_nil

theorem mem_keys_ofList {α : Type} (pairs : List (Text × α)) (name : Text) :
    name ∈ (Ordered.ofList pairs).keys ↔ name ∈ pairs.map (·.1) := by
  have fold : ∀ (pairs : List (Text × α)) (m : Ordered α),
      name ∈ (pairs.foldl (fun m p => m.set p.1 p.2) m).keys ↔
        name ∈ m.keys ∨ name ∈ pairs.map (·.1) := by
    intro pairs
    induction pairs with
    | nil => simp
    | cons p pairs ih =>
      intro m
      rw [List.foldl_cons, ih, Ordered.mem_keys_set, List.map_cons, List.mem_cons, or_assoc]
  exact (fold pairs []).trans (by simp [Ordered.keys])

/-- One statement's part in the graph. -/
def refineBy (graph : Graph) (alter : Text) : Graph :=
  match Alter.references alter with
  | (some table, references) => refer graph table references
  | (none, _) => graph

theorem ofAlters_eq (alters tables : List Text) :
    ofAlters alters tables = alters.foldl refineBy (Ordered.ofList (tables.map (·, []))) := rfl

/-- What the graph says of a table: it refers to `reference`. -/
def Knows (graph : Graph) (table reference : Text) : Prop :=
  ∃ references, graph.get? table = some references ∧ reference ∈ references

theorem nodup_keys_refineBy {graph : Graph} (unique : graph.keys.Nodup) (alter : Text) :
    (graph.refineBy alter).keys.Nodup := by
  unfold refineBy
  split
  · exact Ordered.nodup_keys_set unique _ _
  · exact unique

theorem mem_keys_refineBy {graph : Graph} {alter name : Text} (h : name ∈ graph.keys) :
    name ∈ (graph.refineBy alter).keys := by
  unfold refineBy
  split
  · exact Ordered.mem_keys_set.mpr (Or.inl h)
  · exact h

theorem Knows.refineBy {graph : Graph} {table reference : Text} (h : Knows graph table reference)
    (alter : Text) : Knows (graph.refineBy alter) table reference := by
  obtain ⟨references, hget, hmem⟩ := h
  unfold Graph.refineBy
  split
  · rename_i other more hrefs
    by_cases e : table = other
    · subst e
      refine ⟨_, Ordered.get?_set_self _ _ _, Text.mem_distinct.mpr ?_⟩
      rw [hget]
      exact List.mem_append_left _ hmem
    · exact ⟨references, by rw [refer, Ordered.get?_set_of_ne _ _ e, hget], hmem⟩
  · exact ⟨references, hget, hmem⟩

theorem knows_refineBy {graph : Graph} {alter table reference : Text}
    (htable : (Alter.references alter).1 = some table)
    (hmem : reference ∈ (Alter.references alter).2) :
    Knows (graph.refineBy alter) table reference := by
  unfold Graph.refineBy
  split
  · rename_i other more hrefs
    rw [hrefs] at htable hmem
    obtain rfl := Option.some.inj htable
    refine ⟨_, Ordered.get?_set_self _ _ _, Text.mem_distinct.mpr ?_⟩
    exact List.mem_append_right _ hmem
  · rename_i more hrefs
    rw [hrefs] at htable
    cases htable

theorem nodup_keys_ofAlters (alters tables : List Text) : (ofAlters alters tables).keys.Nodup := by
  rw [ofAlters_eq]
  exact List.foldlRecOn (motive := fun graph => graph.keys.Nodup) alters refineBy
    (keys_ofList_nodup _) fun _ unique alter _ => nodup_keys_refineBy unique alter

theorem mem_keys_ofAlters {alters tables : List Text} {table : Text} (h : table ∈ tables) :
    table ∈ (ofAlters alters tables).keys := by
  rw [ofAlters_eq]
  refine List.foldlRecOn (motive := fun graph => table ∈ graph.keys) alters refineBy ?_
    fun _ hmem alter _ => mem_keys_refineBy hmem
  rw [mem_keys_ofList, List.map_map]
  exact List.mem_map.mpr ⟨table, h, rfl⟩

/-- The graph knows the references of every statement. -/
theorem knows_ofAlters {alters tables : List Text} {alter table reference : Text}
    (h : alter ∈ alters) (htable : (Alter.references alter).1 = some table)
    (hmem : reference ∈ (Alter.references alter).2) :
    Knows (ofAlters alters tables) table reference := by
  rw [ofAlters_eq]
  obtain ⟨before, after, rfl⟩ := List.append_of_mem h
  rw [List.foldl_append, List.foldl_cons]
  exact List.foldlRecOn (motive := (Knows · table reference)) after refineBy
    (knows_refineBy htable hmem) fun _ known other _ => known.refineBy other

/-- A resolved table stands behind everything it is known to refer to. -/
theorem order_eq_of_knows {graph : Graph} (unique : graph.keys.Nodup) {table reference : Text}
    (known : Knows graph table reference) (hne : reference ≠ table)
    (hmem : table ∈ graph.sort.order) (hresolved : table ∉ graph.sort.unresolved) :
    ∃ first between last,
      graph.sort.order = first ++ reference :: between ++ table :: last := by
  obtain ⟨placed, remaining, finished, hsort⟩ := sort_finished unique
  rw [hsort] at hmem hresolved ⊢
  have hplaced := (List.mem_append.mp hmem).resolve_right hresolved
  obtain ⟨before, after, hsplit⟩ := List.append_of_mem hplaced
  obtain ⟨references, hget, hr⟩ := known
  have hbefore := finished.behind before table after references hsplit
    (Ordered.mem_of_get? hget) reference hr hne
  obtain ⟨first, between, rfl⟩ := List.append_of_mem hbefore
  refine ⟨first, between, after ++ Ordered.keys remaining, ?_⟩
  dsimp only
  rw [hsplit, List.append_assoc, List.cons_append]

end Graph

/-! ## 2. The sections of a plan -/

namespace Plan

open Outcome

/-- The statements of a plan that create one table. -/
def createsOf (dump : Dump) (dropFirst : Bool) (table : Text) : List Text :=
  ((dump.tables.get? table).getD []).map fun query =>
    if dropFirst then query else createIfNotExists query

/-- The statements of a plan that fill one table. -/
def insertsOf (dump : Dump) (mode : InsertMode) (table : Text) : List Text :=
  match mode with
  | .none => []
  | .multi => (dump.inserts.get? table).getD []
  | .single => ((dump.inserts.get? table).getD []).flatMap Insert.singles

/-- The statements of a plan before those that create tables. -/
def opening (dump : Dump) (dropFirst : Bool) : List Text :=
  if dropFirst then dump.drops else []

/-- The ALTER statements of a dump without a foreign key. -/
def keyAlters (dump : Dump) : List Text := (Alter.separateForeign dump.alters).1

/-- The ALTER statements of a dump with a foreign key. -/
def foreignAlters (dump : Dump) : List Text := (Alter.separateForeign dump.alters).2

/-- The statements of a plan between those that alter tables and those that fill them. -/
def closing (dump : Dump) : List Text :=
  dump.triggers ++ drops dump.names.views [] [] ++ dump.views

theorem creates_eq (dump : Dump) (dropFirst : Bool) :
    creates dump dropFirst = dump.order.flatMap (createsOf dump dropFirst) := by
  rw [creates, List.map_flatMap]
  rfl

theorem inserts_eq (dump : Dump) (mode : InsertMode) :
    inserts dump mode = (filledTables dump).flatMap (insertsOf dump mode) := by
  cases mode with
  | none => simp [inserts, insertsOf]
  | multi => rfl
  | single =>
    simp only [inserts]
    rw [List.flatMap_assoc]
    rfl

/-- A plan creates its tables, alters them, and fills them, with everything else in between. -/
theorem build_eq (dump : Dump) (mode : InsertMode) (dropFirst : Bool) :
    build dump mode dropFirst =
      opening dump dropFirst ++ dump.order.flatMap (createsOf dump dropFirst) ++
        (dump.functions ++ dump.procedures) ++ keyAlters dump ++ foreignAlters dump ++
        closing dump ++ (filledTables dump).flatMap (insertsOf dump mode) := by
  rw [← creates_eq, ← inserts_eq]
  simp only [build, opening, keyAlters, foreignAlters, closing, List.append_assoc]

theorem alters_perm (dump : Dump) : (keyAlters dump ++ foreignAlters dump).Perm dump.alters := by
  have h := List.filter_append_perm Alter.mentionsForeignKey dump.alters
  exact List.perm_append_comm.trans h

theorem mem_filledTables {dump : Dump} {table : Text} (h : table ∈ dump.inserts.keys) :
    table ∈ filledTables dump := by
  rw [filledTables, List.mem_append, List.mem_filter]
  by_cases hmem : table ∈ dump.order
  · exact Or.inl hmem
  · exact Or.inr ⟨h, by simp [hmem]⟩

-- Every table of a dump that was read has one place in the order, and so has every table that is
-- filled.
theorem places {account : Account} {sql : Text} {dump : Dump}
    (read : Dump.parse account sql = .ok dump) :
    (filledTables dump).Nodup ∧ (∀ table ∈ dump.tables.keys, table ∈ dump.order) ∧
      ∀ table ∈ dump.inserts.keys, table ∈ filledTables dump := by
  have unique := Graph.nodup_keys_ofAlters dump.alters dump.tables.keys
  obtain ⟨placed, remaining, finished, hsort⟩ := Graph.sort_finished unique
  have hperm : dump.order.Perm (Graph.ofAlters dump.alters dump.tables.keys).keys := by
    rw [(Dump.order_of_parse read).1, hsort]
    exact finished.perm
  refine ⟨?_, ?_, fun table => mem_filledTables⟩
  · rw [filledTables, List.nodup_append]
    refine ⟨hperm.nodup_iff.mpr unique, (Dump.Keyed.of_parse read).inserts.filter _, ?_⟩
    rintro table h other h' rfl
    have hout := (List.mem_filter.mp h').2
    rw [List.contains_iff_mem.mpr h] at hout
    exact absurd hout (by decide)
  · intro table h
    exact hperm.symm.subset (Graph.mem_keys_ofAlters h)

/-! ## 3. Foreign keys and the plan -/

/-- **Foreign-key order of a plan.** What a resolved table refers to is created before it and filled
before it, wherever else the two are mentioned. Every table has one place among those that are
created and one among those that are filled; all tables are created before any is altered, the
statements with the words FOREIGN KEY come behind the others, and rows come last. -/
theorem build_respects_foreign_keys {account : Account} {sql : Text} {dump : Dump}
    (read : Dump.parse account sql = .ok dump) (mode : InsertMode) (dropFirst : Bool) :
    (∀ table ∈ dump.order, table ∉ dump.unresolved →
      ∀ alter ∈ dump.alters, (Alter.references alter).1 = some table →
      ∀ reference ∈ (Alter.references alter).2, reference ≠ table →
        reference ∈ dump.order ∧ ∃ first between last others,
          dump.order = first ++ reference :: between ++ table :: last ∧
          filledTables dump = dump.order ++ others ∧
          build dump mode dropFirst =
            opening dump dropFirst ++
            (first.flatMap (createsOf dump dropFirst) ++ createsOf dump dropFirst reference ++
              between.flatMap (createsOf dump dropFirst) ++ createsOf dump dropFirst table ++
              last.flatMap (createsOf dump dropFirst)) ++
            (dump.functions ++ dump.procedures) ++ keyAlters dump ++ foreignAlters dump ++
            closing dump ++
            (first.flatMap (insertsOf dump mode) ++ insertsOf dump mode reference ++
              between.flatMap (insertsOf dump mode) ++ insertsOf dump mode table ++
              (last ++ others).flatMap (insertsOf dump mode))) ∧
    build dump mode dropFirst =
      opening dump dropFirst ++ dump.order.flatMap (createsOf dump dropFirst) ++
        (dump.functions ++ dump.procedures) ++ keyAlters dump ++ foreignAlters dump ++
        closing dump ++ (filledTables dump).flatMap (insertsOf dump mode) ∧
    (filledTables dump).Nodup ∧ dump.order <+: filledTables dump ∧
    (∀ table ∈ dump.tables.keys, table ∈ dump.order) ∧
    (∀ table ∈ dump.inserts.keys, table ∈ filledTables dump) ∧
    (keyAlters dump ++ foreignAlters dump).Perm dump.alters ∧
    (∀ alter ∈ keyAlters dump, ¬ MentionsForeignKey alter) ∧
    ∀ alter ∈ foreignAlters dump, MentionsForeignKey alter := by
  obtain ⟨hfilled, htables, hinserts⟩ := places read
  refine ⟨?_, build_eq dump mode dropFirst, hfilled, List.prefix_append _ _, htables, hinserts,
    alters_perm dump, fun _ h => (Alter.mem_separateForeign.1.mp h).2,
    fun _ h => (Alter.mem_separateForeign.2.mp h).2⟩
  · intro table hmem hresolved alter halter htable reference hreference hne
    have unique := Graph.nodup_keys_ofAlters dump.alters dump.tables.keys
    obtain ⟨horder, hunresolved⟩ := Dump.order_of_parse read
    rw [horder] at hmem
    rw [hunresolved] at hresolved
    obtain ⟨first, between, last, hsplit⟩ := Graph.order_eq_of_knows unique
      (Graph.knows_ofAlters halter htable hreference) hne hmem hresolved
    rw [← horder] at hsplit
    refine ⟨by rw [hsplit]; simp, first, between, last,
      dump.inserts.keys.filter (!dump.order.contains ·), hsplit, rfl, ?_⟩
    rw [build_eq, filledTables, List.flatMap_append, hsplit]
    simp only [List.flatMap_append, List.flatMap_cons, List.append_assoc, List.cons_append]

/-- A table that refers to one created behind it, next to one that refers outside the dump. -/
theorem build_respects_foreign_keys_pair :
    let sql : Text := "CREATE TABLE b (x int, FOREIGN KEY (x) REFERENCES a (y)); CREATE TABLE c
      (z int, FOREIGN KEY (z) REFERENCES gone (z)); CREATE TABLE a (y int); INSERT INTO b VALUES (1)"
    let alter : Text := "ALTER TABLE `b` ADD FOREIGN KEY (x) REFERENCES a (y)"
    ∃ dump, Dump.parse {} sql = .ok dump ∧ ['b'] ∈ dump.order ∧ dump.unresolved = [['c']] ∧
      alter ∈ dump.alters ∧ (Alter.references alter).1 = some ['b'] ∧
      ['a'] ∈ (Alter.references alter).2 ∧
      ∃ first between last, dump.order = first ++ ['a'] :: between ++ ['b'] :: last := by
  intro sql alter
  obtain ⟨dump, read, hparts⟩ := exists_ok (x := Dump.parse {} sql)
    (f := fun dump => (dump.order, dump.unresolved, dump.alters.head?))
    (b := ([['a'], ['b'], ['c']], [['c']], some alter)) (by
      unfold sql
      rw [String.toList_ofList]
      decide +kernel)
  obtain ⟨horder, hunresolved, halters⟩ : dump.order = _ ∧ dump.unresolved = _ ∧ _ = some alter := by
    simpa only [Prod.mk.injEq] using hparts
  have hmem : ['b'] ∈ dump.order := by rw [horder]; decide
  have halter : alter ∈ dump.alters := List.mem_of_mem_head? halters
  have hreferences : Alter.references alter = (some ['b'], [['a']]) := by
    unfold alter
    rw [String.toList_ofList]
    decide +kernel
  have htable : (Alter.references alter).1 = some ['b'] := by rw [hreferences]
  have hreference : ['a'] ∈ (Alter.references alter).2 := by
    rw [hreferences]
    exact List.mem_singleton_self _
  obtain ⟨-, first, between, last, -, hsplit, -⟩ :=
    (build_respects_foreign_keys read .multi true).1 ['b'] hmem (by rw [hunresolved]; decide)
      alter halter htable ['a'] hreference (by decide)
  exact ⟨dump, read, hmem, hunresolved, halter, htable, hreference, first, between, last, hsplit⟩

end Plan

end SqlDump
