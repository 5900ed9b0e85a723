import SqlDump.Proofs.ReadingFirst
import SqlDump.Proofs.TableDrops

/-!
# Imports beside existing tables

An import that is not to drop what exists runs a plan of the dump without what exists. All it drops
is what stands in the places of the dump's views: every table there, also one that is no placeholder.
-/

namespace SqlDump

open Outcome Run

variable {σ α β : Type} {client : Client σ}

namespace Reply

/-- The calls read, and then run one of the plans. They run all of it if the part comes to its
end. -/
def RunsOne (plans : List Text → Prop) (replies : List Reply) (done : Bool) : Prop :=
  ∃ reads sent, replies = reads ++ sent ∧ (∀ reply ∈ reads, reply.1.isReading = true) ∧
    (sent = [] ∧ done = false ∨ ∃ plan, plans plan ∧
      sent.map (·.1) <+: Import.planCalls plan ∧
      (done = true → sent.map (·.1) = Import.planCalls plan))

variable {plans : List Text → Prop} {replies more : List Reply} {done : Bool}

theorem Reads.runsOne (h : Reads replies false) : RunsOne plans replies false :=
  ⟨replies, [], (List.append_nil _).symm, h.1, Or.inl ⟨rfl, rfl⟩⟩

theorem Reads.append_runsOne (h : Reads replies true) (h' : RunsOne plans more done) :
    RunsOne plans (replies ++ more) done := by
  obtain ⟨reads, sent, rfl, hreads, hsent⟩ := h'
  exact ⟨replies ++ reads, sent, (List.append_assoc _ _ _).symm,
    List.forall_mem_append.mpr ⟨h.1, hreads⟩, hsent⟩

/-- A statement that is executed belongs to one of the plans. -/
theorem RunsOne.exists_plan (h : RunsOne plans replies done) {statement : Text}
    (hmem : .execute statement ∈ replies.map (·.1)) : ∃ plan, plans plan ∧ statement ∈ plan := by
  obtain ⟨reads, sent, rfl, hreads, hsent⟩ := h
  rw [List.map_append, List.mem_append] at hmem
  rcases hmem with hread | hexecuted
  · obtain ⟨reply, hreply, hcall⟩ := List.mem_map.mp hread
    have hreading := hreads reply hreply
    rw [hcall] at hreading
    cases hreading
  · rcases hsent with ⟨rfl, -⟩ | ⟨plan, hplan, hbegins, -⟩
    · cases hexecuted
    · refine ⟨plan, hplan, ?_⟩
      simpa [Import.planCalls] using hbegins.subset hexecuted

/-- If the part comes to its end, the statements of one of the plans are all executed. -/
theorem RunsOne.exists_executed (h : RunsOne plans replies true) :
    ∃ plan, plans plan ∧ ∀ statement ∈ plan, .execute statement ∈ replies.map (·.1) := by
  obtain ⟨reads, sent, rfl, -, ⟨-, hdone⟩ | ⟨plan, hplan, -, hall⟩⟩ := h
  · cases hdone
  · refine ⟨plan, hplan, fun statement hstatement => ?_⟩
    rw [List.map_append, hall rfl]
    simp [Import.planCalls, hstatement]

end Reply

open Reply

namespace Import

theorem reads_bind_runsOne {run : Run σ α} {next : α → Run σ β} {plans : List Text → Prop}
    (first : Ensures client run Reads) (rest : ∀ a, Ensures client (next a) (RunsOne plans)) :
    Ensures client (run >>= next) (RunsOne plans) :=
  first.bind rest (fun _ => Reads.runsOne) fun _ _ _ => Reads.append_runsOne

theorem runsOne_runPlan {plans : List Text → Prop} {plan : List Text} (h : plans plan) :
    Ensures client (runPlan client plan) (RunsOne plans) := by
  intro s
  rcases hplay : (runPlan client plan).play s with ⟨failure | refused, s'⟩
  · obtain ⟨calls, hbegins, leads⟩ := runPlan_begins client s plan
    rw [hplay] at leads
    refine ⟨calls, leads, [], _, rfl, fun _ h => (List.not_mem_nil h).elim,
      Or.inr ⟨plan, h, ?_, nofun⟩⟩
    rwa [client.map_replies]
  · obtain ⟨leads, -, -⟩ := runPlan_of_ok hplay
    have hcalls := client.map_replies (planCalls plan) s.state
    refine ⟨planCalls plan, leads, [], client.replies (planCalls plan) s.state, rfl,
      fun _ h => (List.not_mem_nil h).elim, Or.inr ⟨plan, h, ?_, fun _ => hcalls⟩⟩
    rw [hcalls]

/-- An import that keeps what exists runs a plan of the dump without something. -/
theorem runsOne_importDump {account : Account} {sql : Text} {dump : Dump} (mode : InsertMode)
    (hparse : Dump.parse account sql = .ok dump) :
    Ensures client (importDump account mode false client sql) (RunsOne fun plan =>
      ∃ existing routines, plan = Plan.build (Plan.excludeExisting dump existing routines) mode
        false) := by
  have hplan : importDump account mode false client sql = announce dump >>= fun _ =>
      Introspection.model account client >>= fun existing =>
        routineKinds.mapM client.routines >>= fun routines =>
          ([] ++ ·) <$> carryOut mode false client (Plan.excludeExisting dump
            (existing.map fun entry => (entry.1, entry.2.columns.keys)) routines.flatten) := by
    rw [importDump_eq, hparse]
    simp [Run.ofRead, prepare, withoutExisting]
  rw [hplan]
  refine reads_bind_runsOne ((announce_silent client dump).mono fun _ done h => h ▸ .nil done)
    fun _ => reads_bind_runsOne Introspection.reads_model fun existing =>
      reads_bind_runsOne (.reads_mapM (fun _ => .reads_call (fun _ => rfl) rfl) _) fun routines =>
        .map ?_
  exact reads_bind_runsOne (.log .nil) fun _ => runsOne_runPlan ⟨_, _, rfl⟩

/-- **Drops beside existing tables.** Whatever the client, every statement that drops tables during
an import which keeps what exists clears the place of a view of the dump, and an import that comes
to its end clears all of them. So no listed table is dropped if none has the name of a view, as far
as these names are free of quotes. -/
theorem importDump_keeping_drops (client : Client σ) (account : Account) (mode : InsertMode)
    (sql : Text) (flaw? : Entry → Option Failure) (state : σ) :
    let run := (importDump account mode false client sql).startLogged flaw? state
    (∀ statement, .execute statement ∈ run.2.calls → droppedTables statement ≠ [] →
      ∃ dump, Dump.parse account sql = .ok dump ∧
        ∃ view ∈ dump.names.views, statement = Plan.placeholderDrop view) ∧
    (∀ dump refused, Dump.parse account sql = .ok dump → run.1 = .ok refused →
      ∀ view ∈ dump.names.views, .execute (Plan.placeholderDrop view) ∈ run.2.calls) ∧
    ∀ dump tables state', Dump.parse account sql = .ok dump →
      Client.take client.listTables state = (.ok tables, state') →
      (∀ view ∈ dump.names.views, view ∉ tables ∧ ∀ c ∈ view, isNameMark c = false) →
      ∀ statement, .execute statement ∈ run.2.calls →
        ∀ table ∈ tables, table ∉ droppedTables statement := by
  intro run
  have hruns : ∀ dump, Dump.parse account sql = .ok dump →
      ∃ replies, replies.map (·.1) = run.2.calls ∧ RunsOne (fun plan => ∃ existing routines,
        plan = Plan.build (Plan.excludeExisting dump existing routines) mode false) replies
          run.1.isOk := by
    intro dump hparse
    obtain ⟨calls, leads, hone⟩ := runsOne_importDump mode hparse { state, flaw? }
    have hcalls : run.2.calls = calls := leads.calls
    exact ⟨_, (client.map_replies calls state).trans hcalls.symm, hone⟩
  have hdrops : ∀ statement, .execute statement ∈ run.2.calls → droppedTables statement ≠ [] →
      ∃ dump, Dump.parse account sql = .ok dump ∧
        ∃ view ∈ dump.names.views, statement = Plan.placeholderDrop view := by
    intro statement hexecuted hne
    cases hparse : Dump.parse account sql with
    | error e =>
      have hplay : run = _ := importDump_of_unread client hparse { state, flaw? }
      rw [hplay] at hexecuted
      cases hexecuted
    | ok dump =>
      obtain ⟨replies, hcalls, hone⟩ := hruns dump hparse
      rw [← hcalls] at hexecuted
      obtain ⟨plan, ⟨existing, routines, rfl⟩, hmem⟩ := hone.exists_plan hexecuted
      have hkeeping := (Dump.Keeping.of_parse hparse).excludeExisting existing routines
      rcases Plan.mem_build_keeping hkeeping hmem with hkeeps | hview
      · exact (hne hkeeps.droppedTables).elim
      · rw [Plan.names_excludeExisting] at hview
        exact ⟨dump, rfl, hview⟩
  refine ⟨hdrops, ?_, ?_⟩
  · intro dump refused hparse hdone view hview
    obtain ⟨replies, hcalls, hone⟩ := hruns dump hparse
    rw [show run.1 = _ from hdone] at hone
    obtain ⟨plan, ⟨existing, routines, rfl⟩, hexecuted⟩ := hone.exists_executed
    rw [← hcalls]
    rw [← Plan.names_excludeExisting dump existing routines] at hview
    exact hexecuted _ (Plan.placeholderDrop_mem_build hview)
  · intro dump tables state' hparse hlisted hviews statement hexecuted table htable hdropped
    obtain ⟨read, hread, view, hview, rfl⟩ :=
      hdrops statement hexecuted (List.ne_nil_of_mem hdropped)
    cases hparse.symm.trans hread
    obtain ⟨hunlisted, hmarks⟩ := hviews view hview
    rw [droppedTables_placeholderDrop (Dump.ne_nil_of_mem_views hparse hview) hmarks] at hdropped
    exact hunlisted (List.mem_singleton.mp hdropped ▸ htable)

/-- A client of a database with one table. -/
def holding : Client Unit :=
  { failing [] (.raised { kind := "OSError" }) with
    listTables := pure ["v"]
    createTable := fun _ => pure "CREATE TABLE v (a int)" }

/-- A view takes the place of a listed table of its name, which is dropped; beside a view of another
name the table is kept. -/
theorem importDump_keeping_drops_listed :
    Client.take holding.listTables () = (.ok ["v".toList], ()) ∧
    (∃ refused session, (importDump {} .multi false holding "CREATE VIEW v AS SELECT 1").startLogged
        (fun _ => none) () = (.ok refused, session) ∧
      .execute "DROP TABLE IF EXISTS `v`" ∈ session.calls) ∧
    ∀ statement, .execute statement ∈ ((importDump {} .multi false holding
        "CREATE VIEW w AS SELECT 1").startLogged (fun _ => none) ()).2.calls →
      "v".toList ∉ droppedTables statement := by
  obtain ⟨dump, hparse, hviews⟩ := exists_ok (x := Dump.parse {} "CREATE VIEW v AS SELECT 1")
    (f := fun dump => dump.names.views) (b := [['v']]) (by decide +kernel)
  obtain ⟨other, hother, hothers⟩ := exists_ok (x := Dump.parse {} "CREATE VIEW w AS SELECT 1")
    (f := fun dump => dump.names.views) (b := [['w']]) (by decide +kernel)
  obtain ⟨-, hcleared, -⟩ := importDump_keeping_drops holding {} .multi
    "CREATE VIEW v AS SELECT 1" (fun _ => none) ()
  obtain ⟨-, -, hkept⟩ := importDump_keeping_drops holding {} .multi
    "CREATE VIEW w AS SELECT 1" (fun _ => none) ()
  have hends : ((importDump {} .multi false holding "CREATE VIEW v AS SELECT 1").startLogged
      (fun _ => none) ()).1.isOk = true := by decide +kernel
  refine ⟨rfl, ?_, fun statement hexecuted => hkept other _ _ hother rfl ?_ statement hexecuted _
    (List.mem_singleton_self _)⟩
  · rcases hstart : (importDump {} .multi false holding "CREATE VIEW v AS SELECT 1").startLogged
      (fun _ => none) () with ⟨failure | refused, session⟩
    · rw [hstart] at hends
      cases hends
    · rw [hstart] at hcleared
      exact ⟨refused, session, rfl, hcleared dump refused hparse rfl ['v'] (by rw [hviews]; decide)⟩
  · rw [hothers]
    exact List.forall_mem_singleton.mpr ⟨by decide, List.forall_mem_singleton.mpr (by decide)⟩

end Import

end SqlDump
