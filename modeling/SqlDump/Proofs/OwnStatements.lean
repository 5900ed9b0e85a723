import SqlDump.Proofs.Headers
import SqlDump.Proofs.PlanContents
import SqlDump.Proofs.Segments

/-!
# What a table's model depends on

A table's model is made of the statements that create or alter the table: the first that creates it
gives the columns, and the clauses of all of them change it in order. Every other statement leaves
the table alone, wherever it stands.
-/

namespace SqlDump

open Outcome

/-! ## 1. The statements of a table -/

namespace Statement

/-- Whether a statement creates the table or alters it. -/
def concerns (table : Text) (s : Statement) : Bool :=
  (s.kind = .createTable || s.kind = .alter) && s.name = some table

theorem objectKind_eq_ok {word : Text} {kind : Kind} (h : objectKind word = .ok kind) :
    kind ≠ .alter ∧ kind ≠ .insert ∧ (kind = .createTable → word = "TABLE") := by
  unfold objectKind at h
  split at h
  · rename_i found hfound
    cases h
    have hmem := Ordered.mem_of_get? hfound
    simp only [List.mem_cons, List.not_mem_nil, or_false, Prod.mk.injEq] at hmem
    rcases hmem with ⟨rfl, rfl⟩ | ⟨rfl, rfl⟩ | ⟨rfl, rfl⟩ | ⟨rfl, rfl⟩ | ⟨rfl, rfl⟩ <;> simp
  · cases h

-- The words for routines have other lengths than the word for a table, in capitals too.
theorem length_upper_of_keyword? {w s r : Text}
    (hw : spelledIn (fun c => (Text.capital c).length = 1) w = true)
    (h : keyword? w s = some r) :
    (Text.upper (s.take (s.length - r.length))).length = w.length := by
  obtain ⟨u, rfl, hlength, hone, -⟩ := exists_of_spelled hw h
  rw [List.length_append, Nat.add_sub_cancel, List.take_left, ← hlength, Text.upper,
    List.length_flatMap, List.map_congr_left fun c hc => of_decide_eq_true (hone c hc)]
  simp

theorem kind_of_classifyRoutine {text : Text} {s : Statement} (h : classifyRoutine text = .ok s) :
    s.kind ≠ .createTable ∧ s.kind ≠ .alter := by
  unfold classifyRoutine at h
  split at h
  · cases h
    exact ⟨nofun, nofun⟩
  split at h
  · rename_i word hword
    obtain ⟨kind, hkind, h⟩ := bind_eq_ok.mp h
    cases h
    obtain ⟨hne, -, htable⟩ := objectKind_eq_ok hkind
    refine ⟨fun hcreate => ?_, hne⟩
    obtain ⟨r, -, hword⟩ := Option.bind_eq_some_iff.mp hword
    obtain ⟨⟨before, found⟩, hsearch, hword⟩ := Option.bind_eq_some_iff.mp hword
    cases hword
    obtain ⟨t, -, hfound⟩ := Text.exists_of_search hsearch
    split at hfound
    · obtain ⟨rest, hany, hupper⟩ := Option.map_eq_some_iff.mp hfound
      obtain ⟨w, hw, hread⟩ := List.exists_of_findSome?_eq_some hany
      have hwords : (["PROCEDURE", "FUNCTION", "TRIGGER"] : List Text).all (fun w =>
          spelledIn (fun c => (Text.capital c).length = 1) w && w.length ≠ 5) = true := by
        decide +kernel
      have hall := List.all_eq_true.mp hwords w hw
      rw [Bool.and_eq_true, decide_eq_true_iff] at hall
      have hlength := length_upper_of_keyword? hall.1 (Option.filter_eq_some_iff.mp hread).1
      rw [hupper, htable hcreate] at hlength
      exact hall.2 hlength.symm
    · cases hfound
  · cases h
    exact ⟨nofun, nofun⟩

theorem name_of_classify {text : Text} {s : Statement} (h : classify text = .ok s)
    (hkind : s.kind = .createTable ∨ s.kind = .alter) : s.name = s.kind.nameIn s.text := by
  have hof : ∀ kind, s = ofKind kind text → s.name = s.kind.nameIn s.text := by
    rintro kind rfl
    have hroutine : isRoutine kind = false := by
      rcases hkind with hkind | hkind <;> rw [show kind = _ from hkind] <;> rfl
    show (if isRoutine kind then routineName? text else kind.nameIn text) = _
    rw [hroutine]
    rfl
  have hmisc : s ≠ { kind := .misc, text } := by
    rintro rfl
    rcases hkind with hkind | hkind <;> cases hkind
  unfold classify at h
  dsimp only at h
  split at h
  · exact hof _ (Except.ok.inj h).symm
  split at h
  · exact hof _ (Except.ok.inj h).symm
  split at h
  · exact hof _ (Except.ok.inj h).symm
  split at h
  · split at h
    · rename_i word _
      rcases Segment.objectKind_cases word with ⟨kind, hobject⟩ | hobject <;> rw [hobject] at h
      · exact hof kind (Except.ok.inj h).symm
      · cases h
    · exact absurd (Except.ok.inj h).symm hmisc
  · exact absurd (Except.ok.inj h).symm hmisc

/-- A statement that creates or alters a table has the name that its text is read to give. -/
theorem name_of_split {account : Account} {sql : Text} {statements : List Statement}
    (h : split account sql = .ok statements) {s : Statement} (hs : s ∈ statements)
    (hkind : s.kind = .createTable ∨ s.kind = .alter) : s.name = s.kind.nameIn s.text := by
  obtain ⟨delimiter, text, htext⟩ := Segment.read_of_split h hs
  cases delimiter with
  | none => exact name_of_classify htext hkind
  | some _ =>
    obtain ⟨hcreate, halter⟩ := kind_of_classifyRoutine htext
    exact (hkind.elim hcreate halter).elim

end Statement

/-! ## 2. The clauses of a table -/

theorem Clause.parse_eq_ok {text : Text} {clause : Clause}
    (h : Clause.parse text = .ok (some clause)) :
    clause.table = (Alter.split text).1.map Identifier.bare ∧
      Clause.readChange (Alter.split text).2 = .ok (some clause.change) := by
  unfold Clause.parse at h
  obtain ⟨change, hchange, h⟩ := bind_eq_ok.mp h
  obtain ⟨change, rfl, rfl⟩ := Option.map_eq_some_iff.mp (Except.ok.inj h)
  exact ⟨rfl, hchange⟩

/-- The clause that an ALTER statement with one change is read as, if it is understood. -/
def Clause.read? (text : Text) : Option Clause := (Clause.parse text).toOption.join

theorem Clause.parse_of_read? {text : Text} {clause : Clause} (h : Clause.read? text = some clause) :
    Clause.parse text = .ok (some clause) := by
  unfold Clause.read? at h
  cases hparse : Clause.parse text with
  | error e =>
    rw [hparse] at h
    cases h
  | ok found =>
    rw [hparse] at h
    rw [Option.some.inj (Option.join_eq_some_iff.mp h)]

namespace Statement

/-- The clauses on a table that a statement comes to. -/
def clausesOn (table : Text) (s : Statement) : List Clause :=
  (s.altered.filterMap Clause.read?).filter (·.table = some table)

/-- A statement is about each table that it comes to a clause on. -/
theorem concerns_of_mem_clausesOn {table : Text} {s : Statement} {clause : Clause}
    (named : s.kind = .createTable ∨ s.kind = .alter → s.name = s.kind.nameIn s.text)
    (apart : s.kind = .alter → Alter.continuesName s.text = false)
    (h : clause ∈ s.clausesOn table) : s.concerns table = true := by
  obtain ⟨hmem, htable⟩ := List.mem_filter.mp h
  obtain ⟨alter, halter, hread⟩ := List.mem_filterMap.mp hmem
  rw [decide_eq_true_iff, (Clause.parse_eq_ok (Clause.parse_of_read? hread)).1] at htable
  obtain ⟨found, hfound, rfl⟩ := Option.map_eq_some_iff.mp htable
  unfold altered at halter
  unfold concerns
  split at halter
  · rename_i hkind
    have hname := named (Or.inr hkind)
    rw [hkind, Alter.nameIn_of_mem_singles (apart hkind) halter hfound] at hname
    simp [hkind, hname]
  · rename_i hkind
    have hname := named (Or.inl hkind)
    split at halter
    · rename_i hsome
      obtain ⟨name, hnamed⟩ := Option.isSome_iff_exists.mp hsome
      obtain ⟨hgiven, -⟩ := Option.filter_eq_some_iff.mp hnamed
      rw [hkind, hgiven] at hname
      simp [hkind, hgiven, CreateTable.bare_of_mem_relocated hname.symm halter hfound]
    · cases halter
  · cases halter

theorem creating_eq_nil {table : Text} {s : Statement} (h : s.concerns table = false) :
    s.creating table = [] := by
  unfold creating
  rw [if_neg]
  intro htable
  unfold tableOf? at htable
  split at htable
  · rename_i hkind
    obtain ⟨hname, -⟩ := Option.filter_eq_some_iff.mp htable
    simp [concerns, hkind, hname] at h
  · cases htable

end Statement

/-! ## 3. A table in a model -/

/-- What a clause leaves of a table: a clause on the table changes it, and puts it in if it is
new. -/
def Clause.applyTo (name : Text) (table : Option Table) (clause : Clause) : Option Table :=
  if clause.table = some name then some ((table.getD { name }).apply clause.change) else table

namespace Model

theorem get?_apply (model : Model) (clause : Clause) (name : Text) :
    (model.apply clause).get? name = clause.applyTo name (model.get? name) := by
  unfold Model.apply Clause.applyTo
  cases htable : clause.table with
  | none => rfl
  | some other =>
    dsimp only
    by_cases hname : other = name
    · subst hname
      rw [if_pos rfl]
      cases hget : model.get? other with
      | none =>
        rw [Ordered.has, hget]
        exact Ordered.get?_set_self model other _
      | some table =>
        rw [Ordered.has, hget]
        show (Ordered.update model other _).get? other = _
        rw [Ordered.get?_update, if_pos rfl, hget]
        rfl
    · rw [if_neg fun e => hname (Option.some.inj e)]
      split
      · rw [Ordered.get?_update, if_neg hname]
      · exact Ordered.get?_set_of_ne _ _ fun e => hname e.symm

theorem get?_foldl_apply (clauses : List Clause) (model : Model) (name : Text) :
    (clauses.foldl Model.apply model).get? name =
      (clauses.filter (·.table = some name)).foldl (Clause.applyTo name)
        (model.get? name) := by
  induction clauses generalizing model with
  | nil => rfl
  | cons clause clauses ih =>
    rw [List.foldl_cons, ih, get?_apply]
    by_cases h : clause.table = some name
    · rw [List.filter_cons_of_pos (by simpa using h), List.foldl_cons]
    · rw [List.filter_cons_of_neg (by simpa using h), Clause.applyTo, if_neg h]

theorem applyAlters_cons (model : Model) (alter : Text) (alters : List Text) :
    model.applyAlters (alter :: alters) = Clause.parse alter >>= fun clause =>
      applyAlters ((clause.map model.apply).getD model) alters := by
  unfold applyAlters
  rw [List.foldlM_cons]
  cases Clause.parse alter with
  | error e => rfl
  | ok clause => cases clause <;> rfl

-- ALTER statements that are read together are read one by one.
theorem applyAlters_eq_foldl {model result : Model} {alters : List Text}
    (h : model.applyAlters alters = .ok result) :
    result = (alters.filterMap Clause.read?).foldl Model.apply model := by
  induction alters generalizing model with
  | nil => exact (Except.ok.inj h).symm
  | cons alter alters ih =>
    rw [applyAlters_cons] at h
    obtain ⟨clause, hclause, h⟩ := bind_eq_ok.mp h
    have hread : Clause.read? alter = clause := by
      rw [Clause.read?, hclause]
      cases clause <;> rfl
    rw [List.filterMap_cons, hread]
    cases clause <;> exact ih h

/-- ALTER statements can be made on a model exactly if each of them can be read. -/
theorem exists_applyAlters_iff {model : Model} {alters : List Text} :
    (∃ result, model.applyAlters alters = .ok result) ↔
      ∀ alter ∈ alters, ∃ clause, Clause.parse alter = .ok clause := by
  induction alters generalizing model with
  | nil => exact ⟨fun _ _ h => (List.not_mem_nil h).elim, fun _ => ⟨model, rfl⟩⟩
  | cons alter alters ih =>
    rw [applyAlters_cons, List.forall_mem_cons]
    cases Clause.parse alter with
    | error e => simp [bind, Except.bind]
    | ok clause =>
      show (∃ result, applyAlters _ alters = .ok result) ↔ _
      rw [ih]
      simp

theorem get?_ofCreates {tables : Ordered (List Text)} {model : Model}
    (h : ofCreates tables = .ok model) (name : Text) :
    model.get? name = (tables.get? name).bind fun creates =>
      (Table.ofCreate name (creates.head?.getD [])).toOption := by
  have each := mapM_eq_ok.mp h
  clear h
  induction each with
  | nil => rfl
  | @cons entry result tables model hentry _ ih =>
    obtain ⟨other, creates⟩ := entry
    obtain ⟨table, htable, hentry⟩ := bind_eq_ok.mp hentry
    obtain rfl := Except.ok.inj hentry
    by_cases hname : name = other
    · subst hname
      simp [Ordered.get?, htable, Except.toOption]
    · have hname' : (name == other) = false := by simpa using hname
      simp only [Ordered.get?] at ih
      simp only [Ordered.get?, List.lookup_cons, hname', ih]

end Model

/-! ## 4. What statements make of a table -/

theorem Ordered.push_ne_nil {β : Type} {m : Ordered (List β)}
    (h : ∀ name, m.get? name ≠ some []) (name : Text) (b : β) (other : Text) :
    (m.push name b).get? other ≠ some [] := by
  by_cases hname : other = name
  · subst hname
    rw [Ordered.push, Ordered.get?_set_self]
    simp
  · rw [Ordered.push, Ordered.get?_set_of_ne _ _ hname]
    exact h other

-- Where a statement only adds to the lists by name, none of them is ever empty.
theorem Dump.get?_foldl_put_ne_nil {field : Dump → Ordered (List Text)}
    (step : ∀ dump s, field (put dump s) = field dump ∨
      ∃ name text, field (put dump s) = (field dump).push name text)
    (statements : List Statement) (dump : Dump) (h : ∀ table, (field dump).get? table ≠ some [])
    (table : Text) : (field (statements.foldl put dump)).get? table ≠ some [] := by
  induction statements generalizing dump with
  | nil => exact h table
  | cons s statements ih =>
    refine ih (dump.put s) fun other => ?_
    rcases step dump s with hsame | ⟨name, text, hpush⟩
    · exact hsame ▸ h other
    · exact hpush ▸ Ordered.push_ne_nil h name text other

-- A table is only there with a statement that creates it.
theorem Dump.tables_ne_nil (statements : List Statement) (dump : Dump)
    (h : ∀ table, dump.tables.get? table ≠ some []) (table : Text) :
    (statements.foldl Dump.put dump).tables.get? table ≠ some [] := by
  refine get?_foldl_put_ne_nil (fun dump s => ?_) statements dump h table
  unfold put
  dsimp only
  split
  · exact Or.inr ⟨_, _, rfl⟩
  · exact Or.inl rfl

/-- The first statement that is left for a table is left of one that creates it. -/
theorem Dump.exists_of_get?_tables {statements : List Statement} {name : Text} {creates : List Text}
    (h : (statements.foldl Dump.put {}).tables.get? name = some creates) :
    ∃ s ∈ statements, s.tableOf? .createTable = some name ∧
      ∃ rest, creates = (CreateTable.relocateKeys s.text).query :: rest := by
  have hne := Dump.tables_ne_nil statements {} (fun _ h => by cases h) name
  have hcreates := (Dump.Collects.foldl_put statements).tables name
  rw [h] at hne hcreates
  obtain ⟨query, rest, rfl⟩ := List.exists_cons_of_ne_nil fun e => hne (congrArg some e)
  have hmem : query ∈ statements.flatMap (Statement.creating name) := by
    rw [← hcreates]
    exact List.mem_cons_self
  obtain ⟨s, hs, hquery⟩ := List.mem_flatMap.mp hmem
  obtain ⟨htable, rfl⟩ := Statement.mem_creating.mp hquery
  exact ⟨s, hs, htable, rest, rfl⟩

theorem Dump.inserts_ne_nil (statements : List Statement) (dump : Dump)
    (h : ∀ table, dump.inserts.get? table ≠ some []) (table : Text) :
    (statements.foldl Dump.put dump).inserts.get? table ≠ some [] := by
  refine get?_foldl_put_ne_nil (fun dump s => ?_) statements dump h table
  unfold put
  dsimp only
  split
  · exact Or.inr ⟨_, _, rfl⟩
  · exact Or.inl rfl

/-- The table that statements come to: the first that creates it gives the table, and the clauses
of all of them change it. -/
def Table.ofStatements (name : Text) (statements : List Statement) : Option Table :=
  (statements.flatMap (·.clausesOn name)).foldl (Clause.applyTo name)
    ((statements.flatMap (·.creating name)).head?.bind fun query =>
      (Table.ofCreate name query).toOption)

namespace Model

open Statement

/-- The statements of a dump make up each table of its model. -/
theorem get?_ofSql {account : Account} {sql : Text} {statements : List Statement} {model : Model}
    (split : Statement.split account sql = .ok statements) (read : ofSql account sql = .ok model)
    (name : Text) : model.get? name = Table.ofStatements name statements := by
  obtain ⟨dump, hdump, read⟩ := bind_eq_ok.mp read
  obtain ⟨htables, -, halters⟩ := Dump.agrees_of_parse split hdump
  obtain ⟨created, hcreated, read⟩ := bind_eq_ok.mp read
  have collects := Dump.Collects.foldl_put statements
  rw [htables] at hcreated
  rw [collects.alters] at halters
  have hclauses : ((statements.flatMap altered).filterMap Clause.read?).filter
      (·.table = some name) = statements.flatMap (·.clausesOn name) := by
    rw [List.filterMap_flatMap, List.filter_flatMap]
    rfl
  rw [halters] at read
  rw [applyAlters_eq_foldl read, get?_foldl_apply, hclauses, get?_ofCreates hcreated,
    Table.ofStatements]
  congr 1
  -- a table is listed exactly if a statement creates it
  have htables := collects.tables name
  have hne := Dump.tables_ne_nil statements {} (fun _ h => by cases h) name
  show ((statements.foldl Dump.put {}).tables.get? name).bind _ = _
  rw [← htables]
  cases hget : (statements.foldl Dump.put {}).tables.get? name with
  | none => rfl
  | some creates =>
    rw [hget] at hne
    obtain ⟨query, rest, rfl⟩ := List.exists_cons_of_ne_nil fun e => hne (congrArg some e)
    rfl

/-- Statements that are not about a table leave it alone. -/
theorem ofStatements_filter {account : Account} {sql : Text} {statements : List Statement}
    {table : Text} (split : Statement.split account sql = .ok statements)
    (apart : ∀ s ∈ statements, s.kind = .alter → s.name ≠ some table →
      Alter.continuesName s.text = false) :
    Table.ofStatements table (statements.filter (·.concerns table)) =
      Table.ofStatements table statements := by
  have hclauses : ∀ s ∈ statements, s.concerns table = false → s.clausesOn table = [] := by
    intro s hs h
    refine List.eq_nil_iff_forall_not_mem.mpr fun clause hclause => ?_
    have hother : s.kind = .alter → s.name ≠ some table := by
      intro hkind hname
      simp [concerns, hkind, hname] at h
    have hconcerns := concerns_of_mem_clausesOn (name_of_split split hs)
      (fun hkind => apart s hs hkind (hother hkind)) hclause
    rw [h] at hconcerns
    cases hconcerns
  unfold Table.ofStatements
  rw [flatMap_filter_of_nil hclauses, flatMap_filter_of_nil fun s _ => creating_eq_nil]

/-- **A table depends on its own statements.** Two dumps with the same statements that create or
alter a table, in the same order, have the same model of it, or both have none. What else the dumps
hold does not matter, as long as no other table's ALTER statement that is taken apart has a first
change that goes on with the name. -/
theorem get?_eq_of_own {table sql sql' : Text} {statements statements' : List Statement}
    {model model' : Model} (split : Statement.split {} sql = .ok statements)
    (split' : Statement.split {} sql' = .ok statements') (read : ofSql {} sql = .ok model)
    (read' : ofSql {} sql' = .ok model')
    (own : statements.filter (·.concerns table) = statements'.filter (·.concerns table))
    (apart : ∀ s ∈ statements ++ statements', s.kind = .alter → s.name ≠ some table →
      Alter.continuesName s.text = false) :
    model.get? table = model'.get? table := by
  have hown := ofStatements_filter split fun s hs => apart s (List.mem_append_left _ hs)
  have hown' := ofStatements_filter split' fun s hs => apart s (List.mem_append_right _ hs)
  rw [get?_ofSql split read, get?_ofSql split' read', ← hown, ← hown', own]

/-- A table with a key and a new column, alone and among rows and statements on another table. -/
theorem get?_eq_of_own_interleaved :
    let create : Text := "CREATE TABLE t (k int, KEY (k));"
    let alter : Text := "ALTER TABLE t ADD c int;"
    let sql : Text := create ++ alter
    let sql' : Text := "CREATE TABLE a (x int, KEY (x)); INSERT INTO t VALUES (1);" ++ create ++
      "ALTER TABLE a ADD y int, ADD z int;" ++ alter
    ∃ statements statements' model model',
      Statement.split {} sql = .ok statements ∧ Statement.split {} sql' = .ok statements' ∧
      ofSql {} sql = .ok model ∧ ofSql {} sql' = .ok model' ∧
      statements.filter (·.concerns ['t']) = statements'.filter (·.concerns ['t']) ∧
      (∀ s ∈ statements ++ statements', s.kind = .alter → s.name ≠ some ['t'] →
        Alter.continuesName s.text = false) ∧
      statements'.length = 5 ∧ (model.get? ['t']).isSome = true ∧
      model.get? ['t'] = model'.get? ['t'] := by
  intro create alter sql sql'
  let own := [Statement.mk .createTable (some ['t']) "CREATE TABLE t (k int, KEY (k))",
    Statement.mk .alter (some ['t']) "ALTER TABLE t ADD c int"]
  let view := fun statements : List Statement => (statements.length,
    statements.filter (·.concerns ['t']), statements.all fun s =>
      s.kind ≠ .alter || s.name = some ['t'] || !Alter.continuesName s.text)
  obtain ⟨statements, split, hview⟩ := exists_ok (x := Statement.split {} sql) (f := view)
    (b := (2, own, true)) (by decide +kernel)
  obtain ⟨statements', split', hview'⟩ := exists_ok (x := Statement.split {} sql') (f := view)
    (b := (5, own, true)) (by decide +kernel)
  obtain ⟨model, read, hthere⟩ := exists_ok (x := ofSql {} sql)
    (f := fun model => (model.get? ['t']).isSome) (b := true) (by decide +kernel)
  obtain ⟨model', read', -⟩ := exists_ok (x := ofSql {} sql')
    (f := fun model => (model.get? ['t']).isSome) (b := true) (by decide +kernel)
  simp only [view, Prod.mk.injEq] at hview hview'
  obtain ⟨-, hown, hall⟩ := hview
  obtain ⟨hlength, hown', hall'⟩ := hview'
  have apart : ∀ s ∈ statements ++ statements', s.kind = .alter → s.name ≠ some ['t'] →
      Alter.continuesName s.text = false := by
    intro s hs hkind hname
    have hs : s ∈ statements ∨ s ∈ statements' := List.mem_append.mp hs
    have := hs.elim (List.all_eq_true.mp hall s) (List.all_eq_true.mp hall' s)
    simpa [hkind, hname] using this
  have hsame := hown.trans hown'.symm
  exact ⟨statements, statements', model, model', split, split', read, read', hsame, apart, hlength,
    hthere, get?_eq_of_own split split' read read' hsame apart⟩

end Model

end SqlDump
