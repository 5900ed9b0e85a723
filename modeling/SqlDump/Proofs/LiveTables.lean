import SqlDump.Proofs.Coherence
import SqlDump.Proofs.ReadingFirst
import SqlDump.Proofs.Scripts
import SqlDump.Proofs.TrailingComments

/-!
# The tables of a live database

A client is asked for the CREATE TABLE statement of each table, and all statements are read as one
dump. A statement that leaves nothing open for what follows it is split off as it is split on its
own, and its keys come back as changes to its own table. So each table has the model that its
statement has alone.
-/

namespace SqlDump

open Outcome

/-! ## 1. Statements behind one another -/

namespace Text

-- A semicolon behind a text whose last line is no comment stands behind the clean text, perhaps on
-- a line of its own.
theorem cleanText_semicolon {s : Text} (h : isComment (lastLine s) = false) :
    ∃ tail, (∀ c ∈ tail, isBlank c = true) ∧
      cleanText (s ++ [';']) = cleanText s ++ tail ++ [';'] := by
  induction s using byLines with
  | last line hline =>
    rw [lastLine_line hline] at h
    have hbreaks : ∀ d ∈ line ++ [';'], isLineBreak d = false :=
      List.forall_mem_append.mpr ⟨hline, List.forall_mem_singleton.mpr (by decide)⟩
    have hsolid : EndsSolid (line ++ [';']) := endsSolid_concat.mpr (by decide)
    have hclean := isClean_iff.mpr
      ⟨hsolid.not_allBlank, not_isComment_concat h (c := ';') (by decide)⟩
    rw [cleanText_line hbreaks, if_pos hclean, hsolid.trimRight, cleanText_line hline]
    split
    · obtain ⟨tail, hs, htail⟩ := exists_trimRight line
      exact ⟨tail, htail, by rw [← hs]⟩
    · rename_i hunclean
      exact ⟨line, Quoting.allBlank_of_unclean hunclean h, rfl⟩
  | step line c rest hline hc ih =>
    rw [lastLine_break hc] at h
    obtain ⟨tail, htail, hrest⟩ := ih h
    rw [List.append_assoc, List.cons_append, cleanText_break hline hc, cleanText_break hline hc]
    split
    · have hbegun : begun (cleanLines (rest ++ [';'])) = '\n' :: (cleanText rest ++ tail ++ [';']) := by
        rw [← hrest]
        cases hlines : cleanLines (rest ++ [';']) with
        | nil => exact absurd hlines (cleanLines_semicolon_ne_nil hrest)
        | cons first more =>
          rw [begun_cons, ← hlines]
          rfl
      rw [hbegun]
      cases hlines : cleanLines rest with
      | nil =>
        refine ⟨'\n' :: tail, ?_, ?_⟩
        · exact List.forall_mem_cons.mpr ⟨by decide, htail⟩
        · rw [show cleanText rest = join "\n" (cleanLines rest) from rfl, hlines]
          simp [join, begun]
      | cons first more =>
        refine ⟨tail, htail, ?_⟩
        rw [begun_cons, ← hlines]
        simp [show cleanText rest = join "\n" (cleanLines rest) from rfl]
    · exact ⟨tail, htail, hrest⟩

end Text

namespace Segment

open Quoting (outside)

theorem texts_append_blank {tail : Text} (h : ∀ c ∈ tail, isBlank c = true) (s : Text) :
    texts none (s ++ tail) = texts none s := by
  induction tail using List.reverseRecOn with
  | nil => rw [List.append_nil]
  | append_singleton tail c ih =>
    rw [← List.append_assoc, texts_concat_blank (h c (by simp)),
      ih fun d hd => h d (List.mem_append_left _ hd)]

end Segment

namespace Plan

/-- Statements that leave no quote open and end in no comment are split one by one. -/
theorem texts_script_each {plan : List Text}
    (closed : ∀ s ∈ plan, Quoting.outside.after (cleanText s) = .outside)
    (uncommented : ∀ s ∈ plan, Text.isComment (Text.lastLine s) = false) :
    Segment.texts none (cleanText (script plan)) =
      plan.flatMap fun s => Segment.texts none (cleanText s) := by
  induction plan with
  | nil => rfl
  | cons s plan ih =>
    obtain ⟨hclosed, closed⟩ := List.forall_mem_cons.mp closed
    obtain ⟨hend, uncommented⟩ := List.forall_mem_cons.mp uncommented
    obtain ⟨tail, htail, hs⟩ := Text.cleanText_semicolon hend
    have hquotes : Quoting.outside.after (cleanText s ++ tail) = .outside := by
      rw [Quoting.after_append, hclosed, Quoting.after_blank htail]
    rw [cleanText_script_cons hs, Segment.texts_semicolon hquotes, Segment.texts_begun,
      Segment.texts_append_blank htail, List.flatMap_cons]
    exact congrArg (_ ++ ·) (ih closed uncommented)

end Plan

/-! ## 2. Statements that stand alone -/

/-- A text that is one statement, and that leaves no quote, no region and no comment open for what
follows it. -/
structure Statement.StandsAlone (text : Text) (s : Statement) : Prop where
  split : Statement.split {} text = .ok [s]
  closed : Quoting.outside.after (cleanText text) = .outside
  quiet : ∀ line ∈ Text.feeds (cleanText text), Delimiter.declared? line = none
  uncommented : Text.isComment (Text.lastLine text) = false

namespace Statement

variable {tables : Ordered Text} {statement : Text × Text → Statement}

theorem StandsAlone.undeclared {text : Text} {s : Statement} (h : StandsAlone text s) :
    ∀ line ∈ Text.cleanLines text, Delimiter.declared? line = none := fun _ =>
  Segment.declared?_of_undeclared (List.filterMap_eq_nil_iff.mpr h.quiet)

theorem StandsAlone.classify {text : Text} {s : Statement} (h : StandsAlone text s) :
    (Segment.texts none (cleanText text)).mapM (Segment.classify none) = .ok [s] := by
  rw [← h.split, Segment.split_of_quiet {} fun line hline => ?_]
  rw [Segment.turn?, h.undeclared line hline]
  rfl

/-- Put together, texts that stand alone are split into the statements that they are, whatever the
account. -/
theorem split_asDump (account : Account)
    (alone : ∀ entry ∈ tables, StandsAlone entry.2 (statement entry)) :
    split account (Introspection.asDump (tables.map (·.2))) = .ok (tables.map statement) := by
  by_cases hne : tables = []
  · subst hne
    rfl
  have hscript : Introspection.asDump (tables.map (·.2)) = Plan.script (tables.map (·.2)) := by
    rw [Plan.script, if_neg (by simpa using hne)]
    rfl
  have each : ∀ text ∈ tables.map (·.2), ∃ s, StandsAlone text s := by
    intro text htext
    obtain ⟨entry, hentry, rfl⟩ := List.mem_map.mp htext
    exact ⟨_, alone entry hentry⟩
  have hquiet : ∀ line ∈ Text.cleanLines (Plan.script (tables.map (·.2))),
      Segment.turn? none line = none := by
    intro line hline
    rw [Plan.cleanLines_script] at hline
    obtain ⟨text, htext, hline⟩ := List.mem_flatMap.mp hline
    obtain ⟨s, h⟩ := each text htext
    exact Segment.quiet_concat h.undeclared line hline
  rw [hscript, Segment.split_of_quiet account hquiet, Plan.texts_script_each
    (fun text htext => (each text htext).elim fun _ h => h.closed)
    fun text htext => (each text htext).elim fun _ h => h.uncommented]
  clear hne hscript each hquiet
  induction tables with
  | nil => rfl
  | cons entry tables ih =>
    obtain ⟨hentry, alone⟩ := List.forall_mem_cons.mp alone
    rw [List.map_cons, List.flatMap_cons, List.mapM_append, hentry.classify, List.map_cons]
    exact bind_eq_ok.mpr ⟨[statement entry], rfl, bind_eq_ok.mpr ⟨_, ih alone, rfl⟩⟩

end Statement

/-! ## 3. The models of statements together -/

namespace Dump

-- An account is not put into what creates tables.
theorem foldlM_add_of_tables {account : Account} {statements : List Statement}
    (h : ∀ s ∈ statements, s.kind = .createTable) (dump : Dump) :
    statements.foldlM (add account) dump = .ok (statements.foldl put dump) := by
  induction statements generalizing dump with
  | nil => rfl
  | cons s statements ih =>
    obtain ⟨hs, h⟩ := List.forall_mem_cons.mp h
    have hadd : add account dump s = .ok (dump.put s) := by
      rw [← add_eq]
      unfold add
      rw [hs]
    rw [List.foldlM_cons, hadd, List.foldl_cons, ← ih h]
    rfl

/-- Tables of different names are put in one behind the other. -/
theorem keys_foldl_put {statements : List Statement} {dump : Dump}
    (unique : (dump.tables.keys ++ statements.filterMap (·.tableOf? .createTable)).Nodup) :
    (statements.foldl put dump).tables.keys =
      dump.tables.keys ++ statements.filterMap (·.tableOf? .createTable) := by
  induction statements generalizing dump with
  | nil => exact (List.append_nil _).symm
  | cons s statements ih =>
    rw [List.foldl_cons]
    cases hs : s.tableOf? .createTable with
    | none =>
      have hput : (dump.put s).tables = dump.tables := by
        unfold put
        rw [hs]
      rw [List.filterMap_cons_none hs] at unique ⊢
      rw [← hput] at unique ⊢
      exact ih unique
    | some table =>
      have hput : (dump.put s).tables =
          dump.tables.push table (CreateTable.relocateKeys s.text).query := by
        unfold put
        rw [hs]
      rw [List.filterMap_cons_some hs] at unique ⊢
      have hnew : table ∉ dump.tables.keys := fun hmem =>
        (List.nodup_append.mp unique).2.2 table hmem table List.mem_cons_self rfl
      have hkeys : (dump.put s).tables.keys = dump.tables.keys ++ [table] := by
        rw [hput, Ordered.push, Ordered.keys_set, if_neg hnew]
      rw [← List.singleton_append, ← List.append_assoc, ← hkeys] at unique ⊢
      exact ih unique

end Dump

namespace Model

variable {account : Account} {sql : Text} {statements : List Statement} {model : Model}

-- Each change that a model was made from was understood.
theorem exists_parse_of_altered (split : Statement.split account sql = .ok statements)
    (read : ofSql account sql = .ok model) :
    ∀ alter ∈ statements.flatMap (·.altered), ∃ clause, Clause.parse alter = .ok clause := by
  obtain ⟨dump, hdump, read⟩ := bind_eq_ok.mp read
  obtain ⟨created, -, read⟩ := bind_eq_ok.mp read
  rw [(Dump.agrees_of_parse split hdump).alters, (Dump.Collects.foldl_put statements).alters] at read
  exact exists_applyAlters_iff.mp ⟨model, read⟩

theorem keys_apply {model : Model} {clause : Clause}
    (h : ∀ name, clause.table = some name → name ∈ model.keys) :
    (model.apply clause).keys = model.keys := by
  unfold Model.apply
  split
  · rfl
  · rename_i name hname
    rw [if_pos (Ordered.has_eq_true_iff.mpr (h name hname)), Ordered.keys_update]

theorem keys_foldl_apply {clauses : List Clause} {model : Model}
    (h : ∀ clause ∈ clauses, ∀ name, clause.table = some name → name ∈ model.keys) :
    (clauses.foldl Model.apply model).keys = model.keys := by
  induction clauses generalizing model with
  | nil => rfl
  | cons clause clauses ih =>
    obtain ⟨hclause, h⟩ := List.forall_mem_cons.mp h
    have hkeys := keys_apply hclause
    rw [List.foldl_cons, ih (by rwa [hkeys]), hkeys]

-- A statement that creates a table changes no other one.
theorem name_of_read? (split : Statement.split account sql = .ok statements) {s : Statement}
    (hs : s ∈ statements) (hkind : s.kind = .createTable) {alter : Text} (halter : alter ∈ s.altered)
    {clause : Clause} (hread : Clause.read? alter = some clause) {name : Text}
    (hname : clause.table = some name) : s.name = some name := by
  have hclause : clause ∈ s.clausesOn name :=
    List.mem_filter.mpr ⟨List.mem_filterMap.mpr ⟨alter, halter, hread⟩, by simpa using hname⟩
  have hconcerns := Statement.concerns_of_mem_clausesOn (Statement.name_of_split split hs)
    (fun halters => by rw [hkind] at halters; cases halters) hclause
  simpa [Statement.concerns, hkind] using hconcerns

-- What statements change that create tables are tables that they create.
theorem keys_applyAlters_of_tables (split : Statement.split account sql = .ok statements)
    (tables : ∀ s ∈ statements, s.kind = .createTable)
    (named : ∀ s ∈ statements, (s.tableOf? .createTable).isSome = true) {created model : Model}
    (keys : created.keys = statements.filterMap (·.tableOf? .createTable))
    (h : created.applyAlters (statements.flatMap (·.altered)) = .ok model) :
    model.keys = created.keys := by
  rw [applyAlters_eq_foldl h, keys_foldl_apply]
  intro clause hclause name hname
  obtain ⟨alter, halter, hread⟩ := List.mem_filterMap.mp hclause
  obtain ⟨s, hs, halter⟩ := List.mem_flatMap.mp halter
  have hsname := name_of_read? split hs (tables s hs) halter hread hname
  obtain ⟨table, htable⟩ := Option.isSome_iff_exists.mp (named s hs)
  rw [keys]
  refine List.mem_filterMap.mpr ⟨s, hs, ?_⟩
  rw [Statement.tableOf?, if_pos (tables s hs), Statement.named?, hsname] at htable ⊢
  obtain ⟨hsame, -⟩ := Option.filter_eq_some_iff.mp htable
  rwa [← Option.some.inj hsame] at htable

/-- A model that is read from statements that create tables of different names has these tables. -/
theorem keys_of_tables (split : Statement.split account sql = .ok statements)
    (tables : ∀ s ∈ statements, s.kind = .createTable)
    (unique : (statements.filterMap (·.tableOf? .createTable)).Nodup)
    (named : ∀ s ∈ statements, (s.tableOf? .createTable).isSome = true)
    (read : ofSql account sql = .ok model) :
    model.keys = statements.filterMap (·.tableOf? .createTable) := by
  obtain ⟨dump, hdump, read⟩ := bind_eq_ok.mp read
  obtain ⟨created, hcreated, read⟩ := bind_eq_ok.mp read
  have agrees := Dump.agrees_of_parse split hdump
  rw [agrees.alters, (Dump.Collects.foldl_put statements).alters] at read
  have hkeys : created.keys = statements.filterMap (·.tableOf? .createTable) := by
    rw [keys_ofCreates hcreated, agrees.tables]
    exact @Dump.keys_foldl_put statements {} unique
  exact (keys_applyAlters_of_tables split tables named hkeys read).trans hkeys

/-- Statements that create tables of different names, and that have models one by one, have a model
together. It has the tables in their order. -/
theorem exists_of_each (split : Statement.split account sql = .ok statements)
    (tables : ∀ s ∈ statements, s.kind = .createTable)
    (unique : (statements.filterMap (·.tableOf? .createTable)).Nodup)
    (named : ∀ s ∈ statements, (s.tableOf? .createTable).isSome = true)
    (each : ∀ s ∈ statements, ∃ text own,
      Statement.split {} text = .ok [s] ∧ ofSql {} text = .ok own) :
    ∃ model, ofSql account sql = .ok model ∧
      model.keys = statements.filterMap (·.tableOf? .createTable) := by
  have collects := Dump.Collects.foldl_put statements
  have hkeys : (statements.foldl Dump.put {}).tables.keys =
      statements.filterMap (·.tableOf? .createTable) := @Dump.keys_foldl_put statements {} unique
  have hparse : Dump.parse account sql = .ok (Dump.finish (statements.foldl Dump.put {})) := by
    unfold Dump.parse
    rw [split]
    show (do return Dump.finish (← statements.foldlM (Dump.add account) {})) = _
    rw [Dump.foldlM_add_of_tables tables]
    rfl
  obtain ⟨created, hcreated⟩ : ∃ created,
      ofCreates (statements.foldl Dump.put {}).tables = .ok created := by
    refine exists_mapM_iff.mpr ?_
    rintro ⟨name, creates⟩ hentry
    obtain ⟨s, hs, htable, rest, rfl⟩ :=
      Dump.exists_of_get?_tables (Ordered.get?_of_mem (hkeys ▸ unique) hentry)
    obtain ⟨text, own, hsplit, hread⟩ := each s hs
    have hhead : ([s].flatMap (Statement.creating name)).head? =
        some (CreateTable.relocateKeys s.text).query := by
      rw [List.flatMap_singleton, Statement.creating, if_pos htable]
      rfl
    obtain ⟨table, htable⟩ := exists_ofCreate hsplit hread hhead
    exact ⟨(name, table), bind_eq_ok.mpr ⟨table, htable, rfl⟩⟩
  obtain ⟨model, hmodel⟩ : ∃ model,
      created.applyAlters (statements.flatMap (·.altered)) = .ok model := by
    refine exists_applyAlters_iff.mpr fun alter halter => ?_
    obtain ⟨s, hs, halter⟩ := List.mem_flatMap.mp halter
    obtain ⟨text, own, hsplit, hread⟩ := each s hs
    exact exists_parse_of_altered hsplit hread alter (by simpa using halter)
  rw [← collects.alters] at hmodel
  have hread : ofSql account sql = .ok model :=
    bind_eq_ok.mpr ⟨_, hparse, bind_eq_ok.mpr ⟨created, hcreated, hmodel⟩⟩
  exact ⟨model, hread, keys_of_tables split tables unique named hread⟩

end Model

theorem Ordered.filter_key_of_mem {α : Type} {m : Ordered α} (unique : m.keys.Nodup)
    {entry : Text × α} (h : entry ∈ m) : m.filter (fun other => other.1 = entry.1) = [entry] := by
  induction m with
  | nil => cases h
  | cons first m ih =>
    obtain ⟨hfirst, unique⟩ := List.nodup_cons.mp unique
    have hfirst : ∀ other ∈ m, other.1 ≠ first.1 := fun other hother hsame =>
      hfirst (List.mem_map.mpr ⟨other, hother, hsame⟩)
    rcases List.mem_cons.mp h with rfl | h
    · have hrest : m.filter (fun other => other.1 = entry.1) = [] := by
        exact List.filter_eq_nil_iff.mpr fun other hother hsame =>
          hfirst other hother (of_decide_eq_true hsame)
      rw [List.filter_cons_of_pos (by simp), hrest]
    · rw [List.filter_cons_of_neg (by simpa using (hfirst entry h).symm), ih unique h]

/-! ## 4. What a client shows -/

/-- Asked for one table after another, a client answers with their statements, its state going
on. -/
inductive Client.Shows {σ : Type} (client : Client σ) : σ → Ordered Text → Prop
  | nil (state : σ) : client.Shows state []
  | cons {state next : σ} {name create : Text} {tables : Ordered Text}
      (first : Client.take (client.createTable name) state = (.ok create, next))
      (rest : client.Shows next tables) : client.Shows state ((name, create) :: tables)

namespace Introspection

variable {σ α : Type} {client : Client σ}

theorem play_guarded {target : Option Text} {step : Run σ α} {s s' : Session σ} {a : α}
    (h : step.play s = (.ok a, s')) : (guarded target step).play s = (.ok a, s') := by
  unfold guarded
  rw [Run.play_tryCatch, h]

theorem play_mapM_create {s : Session σ} {tables : Ordered Text} (h : client.Shows s.state tables) :
    ∃ s', s'.flaw? = s.flaw? ∧
      (tables.keys.mapM fun table => guarded (some table) (client.create table)).play s =
        (.ok (tables.map (·.2)), s') := by
  generalize hstate : s.state = state at h
  induction h generalizing s with
  | nil state => exact ⟨s, rfl, rfl⟩
  | @cons state next name create tables first rest ih =>
    obtain ⟨s₁, leads, hstate₁, hplay⟩ :=
      Run.play_call client (.createTable name) (fun _ => rfl) s
    rw [hstate, first] at hstate₁ hplay
    obtain ⟨s₂, hflaw, hrest⟩ := ih hstate₁
    refine ⟨s₂, hflaw.trans leads.flaw?, ?_⟩
    rw [Ordered.keys, List.map_cons, List.mapM_cons]
    exact Run.play_bind_eq_ok.mpr ⟨create, s₁, play_guarded hplay,
      Run.play_bind_eq_ok.mpr ⟨_, s₂, hrest, rfl⟩⟩

theorem play_creates {s : Session σ} {tables : Ordered Text} {state : σ}
    (listed : Client.take client.listTables s.state = (.ok tables.keys, state))
    (shown : client.Shows state tables) :
    ∃ s', s'.flaw? = s.flaw? ∧ (creates client).play s = (.ok (tables.map (·.2)), s') := by
  obtain ⟨s₁, leads, hstate₁, hplay⟩ := Run.play_call client .listTables (fun _ => rfl) s
  rw [listed] at hstate₁ hplay
  rw [← show s₁.state = state from hstate₁] at shown
  obtain ⟨s₂, hflaw, hrest⟩ := play_mapM_create shown
  exact ⟨s₂, hflaw.trans leads.flaw?, Run.play_bind_eq_ok.mpr ⟨_, s₁, play_guarded hplay, hrest⟩⟩

/-- **Live tables do not influence each other.** A client lists tables of different names and shows
a statement for each that stands alone, creates the table and has a model. Then the client's model
has the listed tables in their order, and each is the table that its statement makes alone. -/
theorem model_of_shown (account : Account) {start state : σ} {tables : Ordered Text}
    (listed : Client.take client.listTables start = (.ok tables.keys, state))
    (shown : client.Shows state tables) (unique : tables.keys.Nodup) (named : [] ∉ tables.keys)
    (alone : ∀ entry ∈ tables, ∃ text, Statement.StandsAlone entry.2
      { kind := .createTable, name := some entry.1, text })
    (each : ∀ entry ∈ tables, ∃ own, Model.ofSql {} entry.2 = .ok own) :
    ∃ found, ((model account client).start start).1 = .ok found ∧ found.keys = tables.keys ∧
      ∀ entry ∈ tables, ∀ own, Model.ofSql {} entry.2 = .ok own →
        (own.get? entry.1).isSome = true ∧ found.get? entry.1 = own.get? entry.1 := by
  choose! text alone using alone
  let statement : Text × Text → Statement := fun entry =>
    { kind := .createTable, name := some entry.1, text := text entry }
  have split := @Statement.split_asDump tables statement account alone
  have htable : ∀ entry ∈ tables, (statement entry).tableOf? .createTable = some entry.1 := by
    intro entry hentry
    have hne : entry.1 ≠ [] := fun h => named (h ▸ List.mem_map_of_mem hentry)
    rw [Statement.tableOf?, if_pos rfl, Statement.named?]
    exact Option.filter_eq_some_iff.mpr ⟨rfl, decide_eq_true hne⟩
  have hnames : (tables.map statement).filterMap (·.tableOf? .createTable) = tables.keys := by
    have hall : tables.filterMap ((·.tableOf? .createTable) ∘ statement) =
        tables.filterMap (some ∘ (·.1)) := List.filterMap_congr htable
    rw [List.filterMap_map, hall, List.filterMap_eq_map]
    rfl
  have hkinds : ∀ s ∈ tables.map statement, s.kind = .createTable := by
    intro s hs
    obtain ⟨entry, -, rfl⟩ := List.mem_map.mp hs
    rfl
  obtain ⟨found, hread, hkeys⟩ := Model.exists_of_each split hkinds (hnames ▸ unique) (by
    intro s hs
    obtain ⟨entry, hentry, rfl⟩ := List.mem_map.mp hs
    rw [htable entry hentry]
    rfl) (by
    intro s hs
    obtain ⟨entry, hentry, rfl⟩ := List.mem_map.mp hs
    obtain ⟨own, hown⟩ := each entry hentry
    exact ⟨entry.2, own, (alone entry hentry).split, hown⟩)
  rw [hnames] at hkeys
  obtain ⟨s₁, hflaw, hcreates⟩ := @play_creates _ client { state := start } _ _ listed shown
  have hplay : ∃ s', (model account client).play { state := start } = (.ok found, s') :=
    ⟨_, Run.play_bind_eq_ok.mpr ⟨_, s₁, hcreates, Run.play_bind_eq_ok.mpr
      ⟨(), _, by rw [Run.play_log_eq, hflaw]; rfl,
        Run.play_ofRead_eq_ok.mpr ⟨hread, rfl⟩⟩⟩⟩
  obtain ⟨s', hplay⟩ := hplay
  refine ⟨found, congrArg Prod.fst hplay, hkeys, ?_⟩
  intro entry hentry own hown
  have hsame : found.get? entry.1 = own.get? entry.1 := by
    rw [Model.get?_ofSql split hread, Model.get?_ofSql (alone entry hentry).split hown,
      ← Model.ofStatements_filter split fun s hs h => by rw [hkinds s hs] at h; cases h]
    have hconcerns : (·.concerns entry.1) ∘ statement =
        fun other : Text × Text => decide (other.1 = entry.1) := by
      funext other
      simp [statement, Statement.concerns]
    rw [List.filter_map, hconcerns, Ordered.filter_key_of_mem unique hentry]
    rfl
  refine ⟨?_, hsame⟩
  rw [← hsame]
  exact Ordered.has_eq_true_iff.mpr (hkeys ▸ List.mem_map_of_mem hentry)

/-- A table with a counter and a key behind a comment, and one that refers to it and has a semicolon
among its options. -/
theorem model_of_shown_pair :
    let first : Text := "-- a\nCREATE TABLE a (k int AUTO_INCREMENT, KEY (k));\n"
    let second : Text := "CREATE TABLE b (x int, FOREIGN KEY (x) REFERENCES a (k)) COMMENT=';'"
    let client : Client Unit := {
      listTables := pure [['a'], ['b']]
      createTable := fun name => pure (if name = ['a'] then first else second)
      listRoutines := fun _ => pure []
      execute := fun _ => pure ()
      disableForeignKeyChecks := pure () }
    ∃ found own own', ((model {} client).start ()).1 = .ok found ∧
      Model.ofSql {} first = .ok own ∧ Model.ofSql {} second = .ok own' ∧
      found.keys = [['a'], ['b']] ∧ found.get? ['a'] = own.get? ['a'] ∧
      found.get? ['b'] = own'.get? ['b'] := by
  intro first second client
  have alone : ∀ {name create : Text},
      ((Statement.split {} create).toOption.map (·.map fun s => (s.kind, s.name))) =
        some [(.createTable, some name)] →
      Quoting.outside.after (cleanText create) = .outside →
      (∀ line ∈ Text.feeds (cleanText create), Delimiter.declared? line = none) →
      Text.isComment (Text.lastLine create) = false →
      ∃ text, Statement.StandsAlone create { kind := .createTable, name := some name, text } := by
    intro name create hview closed quiet uncommented
    obtain ⟨statements, split, hview⟩ := exists_ok hview
    match statements, hview with
    | [⟨kind, found, text⟩], hview =>
      cases hview
      exact ⟨text, split, closed, quiet, uncommented⟩
  obtain ⟨own, hown, -⟩ := exists_ok (x := Model.ofSql {} first) (f := fun _ => ()) (b := ())
    (by decide +kernel)
  obtain ⟨own', hown', -⟩ := exists_ok (x := Model.ofSql {} second) (f := fun _ => ()) (b := ())
    (by decide +kernel)
  obtain ⟨found, hfound, hkeys, heach⟩ := @model_of_shown Unit client {} () ()
    [(['a'], first), (['b'], second)] rfl (.cons rfl (.cons rfl (.nil ()))) (by decide) (by decide)
    (by
      rintro entry hentry
      rcases List.mem_cons.mp hentry with rfl | hentry
      · exact alone (by decide +kernel) (by decide +kernel) (by decide +kernel) (by decide +kernel)
      · obtain rfl := List.mem_singleton.mp hentry
        exact alone (by decide +kernel) (by decide +kernel) (by decide +kernel) (by decide +kernel))
    (by
      rintro entry hentry
      rcases List.mem_cons.mp hentry with rfl | hentry
      · exact ⟨own, hown⟩
      · obtain rfl := List.mem_singleton.mp hentry
        exact ⟨own', hown'⟩)
  exact ⟨found, own, own', hfound, hown, hown', hkeys,
    (heach _ List.mem_cons_self own hown).2,
    (heach _ (List.mem_cons_of_mem _ List.mem_cons_self) own' hown').2⟩

end Introspection

end SqlDump
