import SqlDump.Proofs.MissingColumns
import SqlDump.Proofs.CreateHeads
import SqlDump.Proofs.InsertTargets

/-!
# Tables that exist already

An import that keeps what exists neither creates nor fills the tables that exist, as far as the dump
creates them. Rows for a table that exists and that the dump does not create are put in.
-/

namespace SqlDump

open Outcome

/-! ## 1. What dumps hold -/

theorem Insert.singles_ne_nil (text : Text) : Insert.singles text ≠ [] := by
  unfold Insert.singles
  dsimp only
  split
  · exact List.cons_ne_nil _ _
  · exact List.cons_ne_nil _ _
  · rename_i hrows _
    rw [Ne, List.map_eq_nil_iff]
    exact hrows

theorem Dump.inserts_ne_nil_of_parse {sql : Text} {dump : Dump} (read : parse {} sql = .ok dump)
    (table : Text) : dump.inserts.get? table ≠ some [] := by
  rw [parse_eq] at read
  obtain ⟨statements, -, rfl⟩ := map_eq_ok.mp read
  exact inserts_ne_nil statements {} (fun _ h => by cases h) table

theorem Kind.aside_alter (s : Text) : Kind.Aside ("ALTER TABLE " ++ s) :=
  Kind.aside_cons (by decide) (by decide) (by decide)

-- What a statement alters tables with is its own text, or is put together.
theorem Statement.ToldApart.of_mem_altered {s : Statement} (told : s.ToldApart) {alter : Text}
    (h : alter ∈ s.altered) : Kind.Aside alter := by
  unfold Statement.altered at h
  split at h
  · rename_i hkind
    rcases Alter.exists_of_mem_singles h with rfl | ⟨rest, rfl⟩
    · exact told.aside (hkind ▸ List.mem_cons_self)
    · exact Kind.aside_alter rest
  · split at h
    · obtain ⟨rest, rfl⟩ := CreateTable.exists_of_mem_alters alter h
      exact Kind.aside_alter rest
    · cases h
  · cases h

/-- What creates and fills the tables of a dump tells their names, and nothing else in it creates a
table or fills one. -/
structure Dump.Told (dump : Dump) : Prop where
  tables : ∀ name, ∀ query ∈ (dump.tables.get? name).getD [],
    Kind.createTable.nameIn query = some name ∧ Text.trim query = query
  inserts : ∀ name, ∀ query ∈ (dump.inserts.get? name).getD [],
    Kind.insert.nameIn query = some name
  functions : ∀ query ∈ dump.functions, Kind.Aside query
  procedures : ∀ query ∈ dump.procedures, Kind.Aside query
  triggers : ∀ query ∈ dump.triggers, Kind.Aside query
  views : ∀ query ∈ dump.views, Kind.Aside query
  alters : ∀ alter ∈ dump.alters, Kind.Aside alter

namespace Dump.Told

variable {sql : Text} {dump : Dump}

theorem of_parse (read : parse {} sql = .ok dump) : dump.Told := by
  have named := fun name query => @nameIn_of_parse {} sql dump read name query
  rw [parse_eq] at read
  obtain ⟨statements, split, rfl⟩ := map_eq_ok.mp read
  have collects := Collects.foldl_put statements
  have told := Statement.toldApart_of_split split
  have texts : ∀ kind, kind ∈ ([.createView, .createFunction, .createProcedure, .createTrigger] :
      List Kind) → ∀ query ∈ statements.flatMap (Statement.textAs kind), Kind.Aside query := by
    intro kind hkind query hquery
    obtain ⟨s, hs, hquery⟩ := List.mem_flatMap.mp hquery
    unfold Statement.textAs at hquery
    split at hquery
    · rename_i hsame
      rw [List.mem_singleton.mp hquery]
      exact (told s hs).aside (List.mem_cons_of_mem _ (hsame ▸ hkind))
    · cases hquery
  refine ⟨named, fun name query hquery => ?_, ?_, ?_, ?_, ?_, fun alter halter => ?_⟩
  · change query ∈ ((statements.foldl put {}).inserts.get? name).getD [] at hquery
    rw [collects.inserts] at hquery
    obtain ⟨s, hs, hquery⟩ := List.mem_flatMap.mp hquery
    obtain ⟨htable, rfl⟩ := Statement.mem_filling.mp hquery
    obtain ⟨hkind, hname⟩ := Statement.of_tableOf? htable
    exact ((told s hs).insert hkind).symm.trans hname
  · exact collects.functions ▸ texts .createFunction (by decide)
  · exact collects.procedures ▸ texts .createProcedure (by decide)
  · exact collects.triggers ▸ texts .createTrigger (by decide)
  · exact collects.views ▸ texts .createView (by decide)
  · change alter ∈ (statements.foldl put {}).alters at halter
    rw [collects.alters] at halter
    obtain ⟨s, hs, halter⟩ := List.mem_flatMap.mp halter
    exact (told s hs).of_mem_altered halter

theorem excludeExisting (told : dump.Told) (existing : Ordered (List Text)) (routines : List Text) :
    (Plan.excludeExisting dump existing routines).Told := by
  have halters := Plan.alters_excludeExisting dump existing routines
  rw [Plan.excludeExisting_eq] at halters ⊢
  exact {
    tables := fun name query hquery => told.tables name query
      (@Dump.Keeping.mem_of_mem_filter _ (!(Plan.present dump existing).contains ·) _ _ hquery).2
    inserts := fun name query hquery => told.inserts name query
      (@Dump.Keeping.mem_of_mem_filter _ (!(Plan.present dump existing).contains ·) _ _ hquery).2
    functions := fun query hquery => told.functions query (List.mem_of_mem_filter hquery)
    procedures := fun query hquery => told.procedures query (List.mem_of_mem_filter hquery)
    triggers := fun query hquery => told.triggers query (List.mem_of_mem_filter hquery)
    views := told.views
    alters := by
      rw [halters]
      refine List.forall_mem_append.mpr ⟨List.forall_mem_map.mpr fun m _ => ?_, told.alters⟩
      exact Kind.aside_cons (by decide) (by decide) (by decide) }

end Dump.Told

/-! ## 2. What an import that keeps what exists leaves of a dump -/

namespace Plan

section

variable {sql : Text} {dump : Dump} {existing : Ordered (List Text)} {routines : List Text}

theorem contains_present (read : Dump.parse {} sql = .ok dump) (table : Text) :
    (present dump existing).contains table = isPresent dump existing table := by
  rw [Bool.eq_iff_iff, List.contains_iff_mem, present, List.mem_filter]
  refine ⟨And.right, fun h => ⟨(places read).2.1 table ?_, h⟩⟩
  exact Ordered.has_eq_true_iff.mp (Bool.and_eq_true_iff.mp h).2

theorem get?_excludeExisting (read : Dump.parse {} sql = .ok dump) (table : Text) :
    (excludeExisting dump existing routines).tables.get? table =
        (if isPresent dump existing table then none else dump.tables.get? table) ∧
      (excludeExisting dump existing routines).inserts.get? table =
        if isPresent dump existing table then none else dump.inserts.get? table := by
  rw [excludeExisting_eq, ← contains_present read]
  exact get?_without dump (present dump existing) table

/-- Of the tables that the dump creates those are left that do not exist. -/
theorem mem_tables_excludeExisting (read : Dump.parse {} sql = .ok dump) {table : Text} :
    table ∈ (excludeExisting dump existing routines).tables.keys ↔
      table ∈ dump.tables.keys ∧ table ∉ existing.keys := by
  simp only [← Ordered.has_eq_true_iff]
  rw [Ordered.has, (get?_excludeExisting read table).1, isPresent, Ordered.has, Ordered.has]
  cases existing.get? table <;> cases dump.tables.get? table <;> simp

/-- Of the tables that the dump fills those are left that do not exist or that it does not create. -/
theorem mem_inserts_excludeExisting (read : Dump.parse {} sql = .ok dump) {table : Text} :
    table ∈ (excludeExisting dump existing routines).inserts.keys ↔
      table ∈ dump.inserts.keys ∧ (table ∈ existing.keys → table ∉ dump.tables.keys) := by
  simp only [← Ordered.has_eq_true_iff]
  rw [Ordered.has, (get?_excludeExisting read table).2, isPresent, Ordered.has, Ordered.has]
  cases existing.get? table <;> cases dump.tables.get? table <;> simp [Ordered.has]

end

/-! ## 3. What plans hold -/

/-- A statement of a plan creates a table, fills one or does neither. -/
theorem mem_build_told {dump : Dump} (told : dump.Told) {mode : InsertMode} {s : Text}
    (h : s ∈ build dump mode false) : Kind.Aside s ∨
      (∃ name, ∃ query ∈ (dump.tables.get? name).getD [], s = createIfNotExists query) ∨
      ∃ name, s ∈ insertsOf dump mode name := by
  rw [build_eq] at h
  simp only [opening, closing, drops_views, List.mem_append, List.mem_flatMap, List.mem_map,
    Bool.false_eq_true, if_false, List.not_mem_nil, false_or] at h
  rcases h with
    ((((⟨table, -, hcreate⟩ | hfunction | hprocedure) | hkey) | hforeign) |
      (htrigger | ⟨view, -, rfl⟩) | hview) | ⟨table, -, hinsert⟩
  · obtain ⟨query, hquery, rfl⟩ := List.mem_map.mp hcreate
    exact Or.inr (Or.inl ⟨table, query, hquery, rfl⟩)
  · exact Or.inl (told.functions s hfunction)
  · exact Or.inl (told.procedures s hprocedure)
  · exact Or.inl (told.alters s (List.mem_of_mem_filter hkey))
  · exact Or.inl (told.alters s (List.mem_of_mem_filter hforeign))
  · exact Or.inl (told.triggers s htrigger)
  · exact Or.inl (Kind.aside_cons (by decide) (by decide) (by decide))
  · exact Or.inl (told.views s hview)
  · exact Or.inr (Or.inr ⟨table, hinsert⟩)

/-- The names of tables stay as they are where each row has a statement of its own: rows stand behind
the whole of a name, in which all blanks are single spaces. -/
def KeepsNames (dump : Dump) (mode : InsertMode) : Prop :=
  mode = .single → ∀ entry ∈ dump.inserts, Text.collapse entry.1 = entry.1 ∧
    ∀ query ∈ entry.2, Insert.Whole query

instance (dump : Dump) (mode : InsertMode) : Decidable (KeepsNames dump mode) :=
  inferInstanceAs (Decidable (_ → _))

section

variable {dump : Dump} {mode : InsertMode} {name : Text}

/-- What fills a table names it. -/
theorem exists_nameIn_of_mem_insertsOf (told : dump.Told) {s : Text}
    (h : s ∈ insertsOf dump mode name) : mode ≠ .none ∧ name ∈ dump.inserts.keys ∧
      ∃ found, Kind.insert.nameIn s = some found ∧ (KeepsNames dump mode → found = name) := by
  cases mode with
  | none => cases h
  | multi => exact ⟨nofun, mem_keys_of_getD h, name, told.inserts name s h, fun _ => rfl⟩
  | single =>
    obtain ⟨query, hquery, hsingle⟩ := List.mem_flatMap.mp h
    have hname := told.inserts name query hquery
    have hkey := mem_keys_of_getD hquery
    rcases Insert.exists_nameIn_of_mem_singles hname hsingle with rfl | ⟨found, hfound, hkept, -⟩
    · exact ⟨nofun, hkey, name, hname, fun _ => rfl⟩
    refine ⟨nofun, hkey, found, hfound, fun keeps => ?_⟩
    cases hqueries : dump.inserts.get? name with
    | none =>
      rw [hqueries] at hquery
      cases hquery
    | some queries =>
      rw [hqueries] at hquery
      obtain ⟨hcollapse, hwhole⟩ := keeps rfl _ (Ordered.mem_of_get? hqueries)
      exact (hkept (hwhole query hquery)).trans hcollapse

theorem exists_mem_insertsOf (hmode : mode ≠ .none)
    (hne : (dump.inserts.get? name).getD [] ≠ []) : ∃ s, s ∈ insertsOf dump mode name := by
  obtain ⟨query, rest, hqueries⟩ := List.exists_cons_of_ne_nil hne
  unfold insertsOf
  rw [hqueries]
  cases mode with
  | none => exact absurd rfl hmode
  | multi => exact ⟨query, List.mem_cons_self⟩
  | single =>
    obtain ⟨s, hs⟩ := List.exists_mem_of_ne_nil _ (Insert.singles_ne_nil query)
    exact ⟨s, List.mem_flatMap.mpr ⟨query, List.mem_cons_self, hs⟩⟩

/-- What a plan creates is a table of its dump, but for a table IF that the phrase IF NOT EXISTS is
read to name where no other name follows it. -/
theorem mem_tables_of_mem_build (told : dump.Told) {s : Text} (h : s ∈ build dump mode false)
    (hname : Kind.createTable.nameIn s = some name) : name ∈ dump.tables.keys ∨
      name = "IF" ∧ ∃ own ∈ dump.tables.keys, keyword? "IF" own = some [] := by
  rcases mem_build_told told h with haside | ⟨own, query, hquery, rfl⟩ | ⟨own, hinsert⟩
  · rw [haside.createTable] at hname
    cases hname
  · obtain ⟨hown, -⟩ := told.tables own query hquery
    rcases nameIn_createIfNotExists hown with ⟨-, hsame⟩ | ⟨-, hread, hif⟩
    · obtain rfl := Option.some.inj (hsame.symm.trans hname)
      exact Or.inl (mem_keys_of_getD hquery)
    · exact Or.inr ⟨(Option.some.inj (hif.symm.trans hname)).symm, own, mem_keys_of_getD hquery,
        hread⟩
  · obtain ⟨-, -, found, hfound, -⟩ := exists_nameIn_of_mem_insertsOf told hinsert
    rw [Kind.nameIn_insert_of_createTable hname] at hfound
    cases hfound

/-- What a plan fills is a table that its dump has rows for. -/
theorem mem_inserts_of_mem_build (told : dump.Told) (keeps : KeepsNames dump mode) {s : Text}
    (h : s ∈ build dump mode false) (hname : Kind.insert.nameIn s = some name) :
    mode ≠ .none ∧ name ∈ dump.inserts.keys := by
  rcases mem_build_told told h with haside | ⟨own, query, hquery, rfl⟩ | ⟨own, hinsert⟩
  · rw [haside.insert] at hname
    cases hname
  · obtain ⟨hown, -⟩ := told.tables own query hquery
    have hcreates : ∃ created, Kind.createTable.nameIn (createIfNotExists query) = some created :=
      (nameIn_createIfNotExists hown).elim (fun h => ⟨_, h.2⟩) fun h => ⟨_, h.2.2⟩
    obtain ⟨created, hcreated⟩ := hcreates
    rw [Kind.nameIn_insert_of_createTable hcreated] at hname
    cases hname
  · obtain ⟨hmode, hfilled, found, hfound, hsame⟩ := exists_nameIn_of_mem_insertsOf told hinsert
    obtain rfl := hsame keeps
    obtain rfl := Option.some.inj (hfound.symm.trans hname)
    exact ⟨hmode, hfilled⟩

/-- A plan fills every table that its dump has rows for, unless it puts none in. -/
theorem exists_mem_build (told : dump.Told) (keeps : KeepsNames dump mode) (hmode : mode ≠ .none)
    (hname : name ∈ dump.inserts.keys) (hne : dump.inserts.get? name ≠ some []) :
    ∃ s ∈ build dump mode false, Kind.insert.nameIn s = some name := by
  obtain ⟨queries, hqueries⟩ := Option.isSome_iff_exists.mp (Ordered.has_eq_true_iff.mpr hname)
  obtain ⟨s, hs⟩ : ∃ s, s ∈ insertsOf dump mode name := by
    refine exists_mem_insertsOf hmode ?_
    rw [hqueries]
    rintro rfl
    exact hne hqueries
  obtain ⟨-, -, found, hfound, hsame⟩ := exists_nameIn_of_mem_insertsOf told hs
  refine ⟨s, ?_, by rw [hfound, hsame keeps]⟩
  rw [build_eq]
  exact List.mem_append_right _ (List.mem_flatMap.mpr ⟨name, mem_filledTables hname, hs⟩)

end

/-- **Existing tables in a plan.** A plan of a dump without what exists creates no table that exists,
but for a table IF that the phrase IF NOT EXISTS is read to name where no other name follows it. It
fills a table that exists exactly if it fills any, the dump has rows for the table, and the dump does
not create it, as long as the names of tables are kept. -/
theorem build_excluding {sql : Text} {dump : Dump} (read : Dump.parse {} sql = .ok dump)
    (existing : Ordered (List Text)) (routines : List Text) (mode : InsertMode) {table : Text}
    (there : table ∈ existing.keys) :
    let plan := build (excludeExisting dump existing routines) mode false
    (∀ s ∈ plan, Kind.createTable.nameIn s = some table → table = "IF" ∧
      ∃ name ∈ dump.tables.keys, name ∉ existing.keys ∧ keyword? "IF" name = some []) ∧
    (KeepsNames dump mode →
      ((∃ s ∈ plan, Kind.insert.nameIn s = some table) ↔
        mode ≠ .none ∧ table ∈ dump.inserts.keys ∧ table ∉ dump.tables.keys)) := by
  intro plan
  have told := (Dump.Told.of_parse read).excludeExisting existing routines
  refine ⟨fun s hs hname => ?_, fun keeps => ?_⟩
  · rcases mem_tables_of_mem_build told hs hname with hcreated | ⟨hif, own, hown, hread⟩
    · exact absurd there ((mem_tables_excludeExisting read).mp hcreated).2
    · obtain ⟨hcreated, hnew⟩ := (mem_tables_excludeExisting read).mp hown
      exact ⟨hif, own, hcreated, hnew, hread⟩
  · have keeps : KeepsNames (excludeExisting dump existing routines) mode := by
      intro hmode entry h
      rw [excludeExisting_eq] at h
      exact keeps hmode entry (List.mem_of_mem_filter h)
    constructor
    · rintro ⟨s, hs, hname⟩
      obtain ⟨hmode, hfilled⟩ := mem_inserts_of_mem_build told keeps hs hname
      obtain ⟨hfilled, hcreated⟩ := (mem_inserts_excludeExisting read).mp hfilled
      exact ⟨hmode, hfilled, hcreated there⟩
    · rintro ⟨hmode, hfilled, hcreated⟩
      refine exists_mem_build told keeps hmode
        ((mem_inserts_excludeExisting read).mpr ⟨hfilled, fun _ => hcreated⟩) ?_
      rw [(get?_excludeExisting read table).2]
      split
      · nofun
      · exact Dump.inserts_ne_nil_of_parse read table

/-- Of two tables that exist, the one that the dump creates is left alone, and the one that it only
fills is filled. -/
theorem build_excluding_filled :
    let sql : Text := "CREATE TABLE t (a int); INSERT INTO t VALUES (1); INSERT INTO u VALUES (2)"
    let existing : Ordered (List Text) := [(['t'], []), (['u'], [])]
    ∃ dump, Dump.parse {} sql = .ok dump ∧
      let plan := build (excludeExisting dump existing []) .single false
      (∀ s ∈ plan, Kind.createTable.nameIn s ≠ some ['t'] ∧ Kind.insert.nameIn s ≠ some ['t']) ∧
      ∃ s ∈ plan, Kind.insert.nameIn s = some ['u'] := by
  intro sql existing
  obtain ⟨dump, read, hview⟩ := exists_ok (x := Dump.parse {} sql)
    (f := fun dump => (dump.tables.keys, dump.inserts.keys, decide (KeepsNames dump .single)))
    (b := ([['t']], [['t'], ['u']], true)) (by decide +kernel)
  obtain ⟨htables, hview⟩ := Prod.mk.inj hview
  obtain ⟨hinserts, hkeeps⟩ := Prod.mk.inj hview
  have keeps : KeepsNames dump .single := of_decide_eq_true hkeeps
  obtain ⟨hcreated, hfilled⟩ := @build_excluding sql dump read existing [] .single ['t'] (by decide)
  obtain ⟨-, hfilled'⟩ := @build_excluding sql dump read existing [] .single ['u'] (by decide)
  refine ⟨dump, read, fun s hs => ⟨fun hname => ?_, fun hname => ?_⟩, (hfilled' keeps).mpr ?_⟩
  · exact absurd (hcreated s hs hname).1 (by decide)
  · exact ((hfilled keeps).mp ⟨s, hs, hname⟩).2.2 (by rw [htables]; decide)
  · rw [htables, hinserts]
    decide

end Plan

end SqlDump
