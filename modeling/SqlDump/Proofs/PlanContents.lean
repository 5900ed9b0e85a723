import Mathlib.Data.List.Perm.Basic
import SqlDump.Proofs.PlanOrder

/-!
# What a plan holds

Without an account a dump is collected statement by statement, each list of the dump growing by the
statement's own part. A plan reads every list once, the tables and their rows name by name. So it
holds what the statements of the dump call for, nothing left out and nothing twice.
-/

namespace SqlDump

open Outcome

/-! ## 1. The parts of a statement -/

namespace Statement

/-- The name of the object that a statement is about, if it is not empty. -/
def named? (s : Statement) : Option Text := s.name.filter (· ≠ [])

/-- The table that a statement of a kind is about, if it names one. -/
def tableOf? (kind : Kind) (s : Statement) : Option Text :=
  if s.kind = kind then s.named? else none

/-- What a plan has to hold because of a statement. -/
def planned (s : Statement) : List Text :=
  match s.kind with
  | .drop | .createView | .createFunction | .createProcedure | .createTrigger => [s.text]
  | .insert => if s.named?.isSome then [s.text] else []
  | .alter => Alter.singles s.text
  | .createTable =>
    if s.named?.isSome then
      (CreateTable.relocateKeys s.text).query :: (CreateTable.relocateKeys s.text).alters
    else []
  | .misc => []

/-- Whether a statement has no part in a plan: it is of no other kind, or lacks a name it needs. -/
def isLeftOut (s : Statement) : Bool :=
  s.kind = .misc || (s.kind = .insert || s.kind = .createTable) && s.named?.isNone

/-- The texts of the statements that fill a table, in order. -/
def rowsInto (statements : List Statement) (table : Text) : List Text :=
  (statements.filter (·.tableOf? .insert = some table)).map (·.text)

/-- The text of a statement of a kind. -/
def textAs (kind : Kind) (s : Statement) : List Text := if s.kind = kind then [s.text] else []

/-- The statement without keys that is left of one that creates the table. -/
def creating (table : Text) (s : Statement) : List Text :=
  if s.tableOf? .createTable = some table then [(CreateTable.relocateKeys s.text).query] else []

/-- The text of a statement that fills the table. -/
def filling (table : Text) (s : Statement) : List Text :=
  if s.tableOf? .insert = some table then [s.text] else []

/-- The ALTER statements that a statement comes to. -/
def altered (s : Statement) : List Text :=
  match s.kind with
  | .alter => Alter.singles s.text
  | .createTable => if s.named?.isSome then (CreateTable.relocateKeys s.text).alters else []
  | _ => []

def leftOut (s : Statement) : List Text := if s.isLeftOut then [s.text] else []

variable {s : Statement} {table query : Text}

theorem of_tableOf? {kind : Kind} (h : s.tableOf? kind = some table) :
    s.kind = kind ∧ s.name = some table := by
  unfold tableOf? at h
  split at h
  · rename_i hkind
    exact ⟨hkind, (Option.filter_eq_some_iff.mp h).1⟩
  · cases h

theorem mem_creating : query ∈ s.creating table ↔
    s.tableOf? .createTable = some table ∧ query = (CreateTable.relocateKeys s.text).query := by
  unfold creating
  split <;> simp [*]

theorem mem_filling :
    query ∈ s.filling table ↔ s.tableOf? .insert = some table ∧ query = s.text := by
  unfold filling
  split <;> simp [*]

end Statement

-- Members that give nothing can be left out first.
theorem flatMap_filter_of_nil {α β : Type} {p : α → Bool} {f : α → List β} {l : List α}
    (h : ∀ a ∈ l, p a = false → f a = []) : (l.filter p).flatMap f = l.flatMap f := by
  induction l with
  | nil => rfl
  | cons a l ih =>
    obtain ⟨ha, hl⟩ := List.forall_mem_cons.mp h
    cases hp : p a with
    | true => rw [List.filter_cons_of_pos hp, List.flatMap_cons, List.flatMap_cons, ih hl]
    | false =>
      rw [List.filter_cons_of_neg (by simp [hp]), List.flatMap_cons, ha hp, ih hl, List.nil_append]

/-! ## 2. Collecting statement by statement -/

namespace Dump

/-- Adds a statement's parts to a dump. -/
def put (dump : Dump) (s : Statement) : Dump :=
  { dump with
    functions := dump.functions ++ s.textAs .createFunction
    procedures := dump.procedures ++ s.textAs .createProcedure
    triggers := dump.triggers ++ s.textAs .createTrigger
    tables := match s.tableOf? .createTable with
      | some table => dump.tables.push table (CreateTable.relocateKeys s.text).query
      | none => dump.tables
    alters := dump.alters ++ s.altered
    views := dump.views ++ s.textAs .createView
    inserts := match s.tableOf? .insert with
      | some table => dump.inserts.push table s.text
      | none => dump.inserts
    drops := dump.drops ++ s.textAs .drop
    misc := dump.misc ++ s.leftOut }

-- Without an account no statement is changed, so none is refused.
theorem add_eq (dump : Dump) (s : Statement) : add {} dump s = .ok (dump.put s) := by
  obtain ⟨kind, name, text⟩ := s
  have hassign : Definer.assign {} text = .ok text := rfl
  rcases name with _ | (_ | ⟨c, name⟩) <;> cases kind <;>
    simp [add, put, Statement.textAs, Statement.altered, Statement.leftOut, Statement.isLeftOut,
      Statement.tableOf?, Statement.named?, Option.filter_some, hassign]

theorem foldlM_add (statements : List Statement) (dump : Dump) :
    statements.foldlM (add {}) dump = .ok (statements.foldl put dump) := by
  induction statements generalizing dump with
  | nil => rfl
  | cons s statements ih =>
    rw [List.foldlM_cons, add_eq, List.foldl_cons, ← ih]
    rfl

-- A list to which every statement adds its part holds the parts of all statements in the end.
theorem foldl_put {field : Dump → List Text} {part : Statement → List Text}
    (step : ∀ dump s, field (put dump s) = field dump ++ part s) (statements : List Statement)
    (dump : Dump) : field (statements.foldl put dump) = field dump ++ statements.flatMap part := by
  induction statements generalizing dump with
  | nil => simp
  | cons s statements ih => rw [List.foldl_cons, ih, step, List.flatMap_cons, List.append_assoc]

theorem getD_push {β : Type} (m : Ordered (List β)) (name other : Text) (b : β) :
    ((m.push name b).get? other).getD [] =
      (m.get? other).getD [] ++ if name = other then [b] else [] := by
  by_cases h : name = other
  · subst h
    rw [Ordered.push, Ordered.get?_set_self, if_pos rfl]
    rfl
  · rw [Ordered.push, Ordered.get?_set_of_ne _ _ fun e => h e.symm, if_neg h, List.append_nil]

theorem tables_put (table : Text) (dump : Dump) (s : Statement) :
    ((put dump s).tables.get? table).getD [] =
      (dump.tables.get? table).getD [] ++ s.creating table := by
  unfold put Statement.creating
  cases h : s.tableOf? .createTable with
  | none => simp
  | some name => simp [getD_push]

theorem inserts_put (table : Text) (dump : Dump) (s : Statement) :
    ((put dump s).inserts.get? table).getD [] =
      (dump.inserts.get? table).getD [] ++ s.filling table := by
  unfold put Statement.filling
  cases h : s.tableOf? .insert with
  | none => simp
  | some name => simp [getD_push]

/-- What a dump collects from its statements. -/
structure Collects (statements : List Statement) (dump : Dump) : Prop where
  functions : dump.functions = statements.flatMap (Statement.textAs .createFunction)
  procedures : dump.procedures = statements.flatMap (Statement.textAs .createProcedure)
  triggers : dump.triggers = statements.flatMap (Statement.textAs .createTrigger)
  views : dump.views = statements.flatMap (Statement.textAs .createView)
  drops : dump.drops = statements.flatMap (Statement.textAs .drop)
  alters : dump.alters = statements.flatMap Statement.altered
  misc : dump.misc = statements.flatMap Statement.leftOut
  tables : ∀ table, (dump.tables.get? table).getD [] = statements.flatMap (Statement.creating table)
  inserts : ∀ table,
    (dump.inserts.get? table).getD [] = statements.flatMap (Statement.filling table)

theorem Collects.foldl_put (statements : List Statement) :
    Collects statements (statements.foldl put {}) where
  functions := Dump.foldl_put (fun _ _ => rfl) statements {}
  procedures := Dump.foldl_put (fun _ _ => rfl) statements {}
  triggers := Dump.foldl_put (fun _ _ => rfl) statements {}
  views := Dump.foldl_put (fun _ _ => rfl) statements {}
  drops := Dump.foldl_put (fun _ _ => rfl) statements {}
  alters := Dump.foldl_put (fun _ _ => rfl) statements {}
  misc := Dump.foldl_put (fun _ _ => rfl) statements {}
  tables := fun table =>
    @Dump.foldl_put (fun dump => (dump.tables.get? table).getD []) _ (tables_put table)
      statements {}
  inserts := fun table =>
    @Dump.foldl_put (fun dump => (dump.inserts.get? table).getD []) _ (inserts_put table)
      statements {}

/-- A dump without an account is read exactly if it can be split into statements. -/
theorem parse_eq (sql : Text) :
    parse {} sql =
      (Statement.split {} sql).map fun statements => finish (statements.foldl put {}) := by
  unfold parse
  cases Statement.split {} sql with
  | error e => rfl
  | ok statements =>
    show (statements.foldlM (add {}) {} >>= fun dump => pure (finish dump)) = _
    rw [foldlM_add]
    rfl

/-- Two dumps that hold the same tables, rows and changes. -/
structure Agrees (dump other : Dump) : Prop where
  tables : dump.tables = other.tables
  inserts : dump.inserts = other.inserts
  alters : dump.alters = other.alters

-- An account is only put into views and routines.
theorem Agrees.add {account : Account} {dump other next : Dump} {s : Statement}
    (agrees : Agrees dump other) (run : Dump.add account dump s = .ok next) :
    Agrees next (other.put s) := by
  obtain ⟨htables, hinserts, halters⟩ := agrees
  obtain ⟨kind, name, text⟩ := s
  have hassigned : ∀ {f : Text → Dump}, (Definer.assign account text >>= fun text => pure (f text)) =
      .ok next → ∃ text, next = f text := by
    intro f h
    obtain ⟨text, -, h⟩ := bind_eq_ok.mp h
    exact ⟨text, (Except.ok.inj h).symm⟩
  rcases name with _ | (_ | ⟨c, name⟩) <;> cases kind <;>
    first
    | obtain rfl := Except.ok.inj run
      constructor <;>
        simp [put, Statement.altered, Statement.tableOf?, Statement.named?, Option.filter_some,
          htables, hinserts, halters]
    | obtain ⟨text, rfl⟩ := hassigned run
      constructor <;>
        simp [put, Statement.altered, Statement.tableOf?, htables, hinserts, halters]

/-- Whatever the account, a dump holds the tables, rows and changes of its statements. -/
theorem agrees_of_parse {account : Account} {sql : Text} {statements : List Statement} {dump : Dump}
    (split : Statement.split account sql = .ok statements) (read : parse account sql = .ok dump) :
    Agrees dump (statements.foldl put {}) := by
  obtain ⟨found, collected, hsplit, run, rfl⟩ := parse_eq_ok read
  obtain rfl := Except.ok.inj (hsplit.symm.trans split)
  have key : ∀ (statements : List Statement) (dump other : Dump), Agrees dump other →
      statements.foldlM (Dump.add account) dump = .ok collected →
      Agrees collected (statements.foldl put other) := by
    intro statements
    induction statements with
    | nil =>
      intro dump other agrees run
      exact Except.ok.inj run ▸ agrees
    | cons s statements ih =>
      intro dump other agrees run
      rw [List.foldlM_cons] at run
      obtain ⟨next, hnext, run⟩ := bind_eq_ok.mp run
      exact ih next (other.put s) (agrees.add hnext) run
  obtain ⟨htables, hinserts, halters⟩ := key found {} {} ⟨rfl, rfl, rfl⟩ run
  exact ⟨htables, hinserts, halters⟩

end Dump

/-! ## 3. Reading names one by one -/

namespace Plan

variable {α β γ : Type}

/-- What two lists give pair by pair does not depend on which one is gone through first. -/
theorem flatMap_comm_perm (l : List α) (m : List β) (f : α → β → List γ) :
    (l.flatMap fun a => m.flatMap (f a)).Perm (m.flatMap fun b => l.flatMap (f · b)) := by
  induction l with
  | nil => simp
  | cons a l ih =>
    simp only [List.flatMap_cons]
    exact (ih.append_left _).trans (List.flatMap_append_perm m (f a) fun b => l.flatMap (f · b))

-- Among different names a key is met once, if it is among them.
theorem flatMap_ite_of_nodup {names : List Text} (unique : names.Nodup) (key : Option Text)
    (known : ∀ name, key = some name → name ∈ names) (l : List γ) :
    (names.flatMap fun name => if key = some name then l else []) =
      if key.isSome then l else [] := by
  cases key with
  | none => simp
  | some name =>
    obtain ⟨before, after, rfl, hbefore⟩ := List.eq_append_cons_of_mem (known name rfl)
    have hafter : name ∉ after := (List.nodup_cons.mp (List.nodup_append.mp unique).2.1).1
    have hnil : ∀ names : List Text, name ∉ names →
        (names.flatMap fun other => if some name = some other then l else []) = [] := by
      intro names h
      refine List.flatMap_eq_nil_iff.mpr fun other hother => if_neg ?_
      rintro ⟨⟩
      exact h hother
    rw [List.flatMap_append, List.flatMap_cons, hnil before hbefore, hnil after hafter]
    simp

/-- Statements with a key are read once each when their keys are gone through. -/
theorem flatMap_flatMap_perm {names : List Text} (unique : names.Nodup) (key : α → Option Text)
    (f : α → List γ) {l : List α} (known : ∀ a ∈ l, ∀ name, key a = some name → name ∈ names) :
    (names.flatMap fun name => l.flatMap fun a => if key a = some name then f a else []).Perm
      (l.flatMap fun a => if (key a).isSome then f a else []) := by
  refine (flatMap_comm_perm names l _).trans (List.Perm.of_eq ?_)
  exact List.flatMap_congr fun a ha => flatMap_ite_of_nodup unique (key a) (known a ha) (f a)

/-! ## 4. All statements of a plan -/

open Statement

section Parts

variable {statements : List Statement} {dump : Dump}

-- What a dump holds for a name is only there if the name is.
theorem mem_keys_of_getD {m : Ordered (List α)} {name : Text} {a : α}
    (h : a ∈ (m.get? name).getD []) : name ∈ m.keys := by
  cases hget : m.get? name with
  | none =>
    rw [hget] at h
    cases h
  | some l => exact Ordered.mem_keys_of_get? hget

theorem mem_order_of_tableOf? (collects : dump.Collects statements)
    (ordered : ∀ table ∈ dump.tables.keys, table ∈ dump.order) {s : Statement} (hs : s ∈ statements)
    {table : Text} (h : s.tableOf? .createTable = some table) : table ∈ dump.order := by
  refine ordered table (mem_keys_of_getD (a := (CreateTable.relocateKeys s.text).query) ?_)
  rw [collects.tables, List.mem_flatMap]
  exact ⟨s, hs, mem_creating.mpr ⟨h, rfl⟩⟩

theorem mem_filledTables_of_tableOf? (collects : dump.Collects statements)
    (filled : ∀ table ∈ dump.inserts.keys, table ∈ filledTables dump) {s : Statement}
    (hs : s ∈ statements) {table : Text} (h : s.tableOf? .insert = some table) :
    table ∈ filledTables dump := by
  refine filled table (mem_keys_of_getD (a := s.text) ?_)
  rw [collects.inserts, List.mem_flatMap]
  exact ⟨s, hs, mem_filling.mpr ⟨h, rfl⟩⟩

theorem flatMap_ite {α β : Type} (p : α → Bool) (f : α → β) (l : List α) :
    (l.flatMap fun a => if p a then [f a] else []) = (l.filter p).map f := by
  induction l with
  | nil => rfl
  | cons a l ih => by_cases h : p a <;> simp [h, ih]

theorem insertsOf_eq (collects : dump.Collects statements) (table : Text) :
    insertsOf dump .multi table = rowsInto statements table := by
  rw [rowsInto, ← flatMap_ite]
  simp only [decide_eq_true_eq]
  exact collects.inserts table

theorem misc_eq (collects : dump.Collects statements) :
    dump.misc = (statements.filter (·.isLeftOut)).map (·.text) := by
  rw [collects.misc, ← flatMap_ite]
  rfl

/-- What is left of a statement that creates a table. -/
def created (s : Statement) : List Text :=
  if (s.tableOf? .createTable).isSome then [(CreateTable.relocateKeys s.text).query] else []

/-- The text of a statement that fills a table. -/
def filled (s : Statement) : List Text := if (s.tableOf? .insert).isSome then [s.text] else []

/-- The parts of a statement, in the order in which a plan takes them up. -/
def parts : List (Statement → List Text) :=
  [textAs .drop, created, textAs .createFunction, textAs .createProcedure, altered,
    textAs .createTrigger, textAs .createView, filled]

theorem planned_eq (s : Statement) : s.planned = parts.flatMap fun part => part s := by
  obtain ⟨kind, name, text⟩ := s
  rcases name with _ | (_ | ⟨c, name⟩) <;> cases kind <;>
    simp [planned, parts, created, filled, textAs, altered, tableOf?, named?, Option.filter_some]

theorem creates_perm (collects : dump.Collects statements) (unique : dump.order.Nodup)
    (ordered : ∀ table ∈ dump.tables.keys, table ∈ dump.order) :
    (dump.order.flatMap (createsOf dump true)).Perm (statements.flatMap created) := by
  have hcreates : dump.order.flatMap (createsOf dump true) =
      dump.order.flatMap fun table => statements.flatMap (creating table) := by
    refine List.flatMap_congr fun table _ => ?_
    rw [createsOf, collects.tables]
    exact List.map_id _
  rw [hcreates]
  exact flatMap_flatMap_perm unique (·.tableOf? .createTable) _ fun s hs _ h =>
    mem_order_of_tableOf? collects ordered hs h

theorem inserts_perm (collects : dump.Collects statements) (unique : (filledTables dump).Nodup)
    (known : ∀ table ∈ dump.inserts.keys, table ∈ filledTables dump) :
    ((filledTables dump).flatMap (insertsOf dump .multi)).Perm (statements.flatMap filled) := by
  have hinserts : (filledTables dump).flatMap (insertsOf dump .multi) =
      (filledTables dump).flatMap fun table => statements.flatMap (filling table) :=
    List.flatMap_congr fun table _ => collects.inserts table
  rw [hinserts]
  exact flatMap_flatMap_perm unique (·.tableOf? .insert) _ fun s hs _ h =>
    mem_filledTables_of_tableOf? collects known hs h

end Parts

/-- **Conservation of statements.** Without an account a dump is refused only where it cannot be
split into statements. Else its plan holds what its statements call for, each as often as it is
called for, and drops a table in place of each view. The rows come last, table by table, each table
once with its statements in the order of the dump. What has no part in the plan is kept in order. -/
theorem build_conserves (sql : Text) :
    (∀ e, Statement.split {} sql = .error e → Dump.parse {} sql = .error e) ∧
    ∀ statements, Statement.split {} sql = .ok statements →
      ∃ dump, Dump.parse {} sql = .ok dump ∧
        (build dump .multi true).Perm
          (statements.flatMap planned ++ drops dump.names.views [] []) ∧
        dump.misc = (statements.filter (·.isLeftOut)).map (·.text) ∧
        ∃ others tables : List Text,
          build dump .multi true = others ++ tables.flatMap (rowsInto statements) ∧ tables.Nodup ∧
          ∀ s ∈ statements, ∀ table, s.tableOf? .insert = some table → table ∈ tables := by
  refine ⟨fun e h => by rw [Dump.parse_eq, h]; rfl, fun statements h => ?_⟩
  have read : Dump.parse {} sql = .ok (Dump.finish (statements.foldl Dump.put {})) := by
    rw [Dump.parse_eq, h]
    rfl
  obtain ⟨unique, ordered, known⟩ := places read
  generalize hdump : Dump.finish (statements.foldl Dump.put {}) = dump at read unique ordered known
  have collects : dump.Collects statements := by
    subst hdump
    obtain ⟨functions, procedures, triggers, views, drops, alters, misc, tables, inserts⟩ :=
      Dump.Collects.foldl_put statements
    exact ⟨functions, procedures, triggers, views, drops, alters, misc, tables, inserts⟩
  refine ⟨dump, read, ?_, misc_eq collects, ?_⟩
  · have hcreates := creates_perm collects (List.nodup_append.mp unique).1 ordered
    have hinserts := inserts_perm collects unique known
    have halters := alters_perm dump
    have hplanned : (statements.flatMap planned).Perm
        (parts.flatMap fun part => statements.flatMap part) := by
      rw [List.flatMap_congr fun s _ => planned_eq s]
      exact (flatMap_comm_perm parts statements fun part => part).symm
    rw [build_eq, opening, if_pos rfl, closing, collects.drops, collects.functions,
      collects.procedures, collects.triggers, collects.views]
    rw [collects.alters] at halters
    refine List.perm_iff_count.mpr fun text => ?_
    have hcreates := hcreates.count_eq text
    have hinserts := hinserts.count_eq text
    have halters := halters.count_eq text
    have hplanned := hplanned.count_eq text
    simp only [parts, List.flatMap_cons, List.flatMap_nil, List.append_nil, List.count_append]
      at hcreates hinserts halters hplanned ⊢
    omega
  · have hrows : (filledTables dump).flatMap (insertsOf dump .multi) =
        (filledTables dump).flatMap (rowsInto statements) :=
      List.flatMap_congr fun table _ => insertsOf_eq collects table
    rw [build_eq, hrows]
    exact ⟨_, filledTables dump, rfl, unique, fun s hs _ hs' =>
      mem_filledTables_of_tableOf? collects known hs hs'⟩

/-- A table with a key, rows of a table that is not created around its own, a view, and two
statements that have no part in the plan. -/
theorem build_conserves_mixed :
    let sql : Text := "CREATE TABLE a (x int, KEY (x)); INSERT INTO b VALUES (1); INSERT INTO a
      VALUES (2); CREATE VIEW v AS SELECT 1; SET x; INSERT INTO b VALUES (3); INSERT"
    ∃ statements dump, Statement.split {} sql = .ok statements ∧ Dump.parse {} sql = .ok dump ∧
      (build dump .multi true).Perm
        (statements.flatMap planned ++ ["DROP TABLE IF EXISTS `v`".toList]) ∧
      (statements.filter (·.isLeftOut)).map (·.text) = ["SET x".toList, "INSERT".toList] := by
  intro sql
  obtain ⟨dump, hparse, hparts⟩ := exists_ok (x := Dump.parse {} sql)
    (f := fun dump => (dump.names.views, dump.misc))
    (b := ([['v']], ["SET x".toList, "INSERT".toList])) (by
      unfold sql
      rw [String.toList_ofList]
      decide +kernel)
  obtain ⟨hviews, hmisc⟩ : dump.names.views = _ ∧ dump.misc = _ := by
    simpa only [Prod.mk.injEq] using hparts
  obtain ⟨statements, -, hsplit, -⟩ := Dump.parse_eq_ok hparse
  obtain ⟨other, hother, hperm, hrest, -⟩ := (build_conserves sql).2 statements hsplit
  obtain rfl := Except.ok.inj (hother.symm.trans hparse)
  rw [hviews] at hperm
  exact ⟨statements, other, hsplit, hparse, hperm, hrest.symm.trans hmisc⟩

end Plan

end SqlDump
