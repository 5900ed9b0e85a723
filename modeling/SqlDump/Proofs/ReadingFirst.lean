import SqlDump.Proofs.PlanRuns

/-!
# Imports read before they write

An import reads the whole dump before it makes any call. It then makes all calls that read the
database before the first one that changes it, and none of those once a reading call has failed.
-/

namespace SqlDump

open Run

variable {σ α β : Type} {client : Client σ}

/-- Whether a call only reads. -/
def Call.isReading : Call → Bool
  | .listTables | .createTable _ | .listRoutines _ => true
  | .execute _ | .disableForeignKeyChecks => false

/-! ## 1. Reading and writing parts -/

namespace Reply

/-- The calls read, and all of them answer if the part comes to its end. -/
def Reads (replies : List Reply) (done : Bool) : Prop :=
  (∀ reply ∈ replies, reply.1.isReading = true) ∧
    (done = true → ∀ reply ∈ replies, reply.2 = none)

/-- The calls do not read. -/
def Writes (replies : List Reply) (_ : Bool) : Prop :=
  ∀ reply ∈ replies, reply.1.isReading = false

/-- The calls that read come first. If one of them fails, the part ends without another call. -/
def ReadsFirst (replies : List Reply) (done : Bool) : Prop :=
  ∃ reads writes, replies = reads ++ writes ∧ (∀ reply ∈ reads, reply.1.isReading = true) ∧
    Writes writes done ∧ ((∃ reply ∈ reads, reply.2 ≠ none) → writes = [] ∧ done = false)

theorem Reads.nil (done : Bool) : Reads [] done :=
  ⟨fun _ h => (List.not_mem_nil h).elim, fun _ _ h => (List.not_mem_nil h).elim⟩

theorem Reads.append {replies more : List Reply} {done : Bool} (h : Reads replies true)
    (h' : Reads more done) : Reads (replies ++ more) done :=
  ⟨List.forall_mem_append.mpr ⟨h.1, h'.1⟩,
    fun hdone => List.forall_mem_append.mpr ⟨h.2 rfl, h'.2 hdone⟩⟩

theorem Writes.append {replies more : List Reply} {done done' : Bool} (h : Writes replies done)
    (h' : Writes more done') : Writes (replies ++ more) done' :=
  List.forall_mem_append.mpr ⟨h, h'⟩

theorem Reads.readsFirst {replies : List Reply} {done : Bool} (h : Reads replies done) :
    ReadsFirst replies done := by
  refine ⟨replies, [], (List.append_nil _).symm, h.1, fun _ h => (List.not_mem_nil h).elim, ?_⟩
  rintro ⟨reply, hmem, hfailed⟩
  refine ⟨rfl, ?_⟩
  cases done with
  | false => rfl
  | true => exact (hfailed (h.2 rfl reply hmem)).elim

theorem Writes.readsFirst {replies : List Reply} {done : Bool} (h : Writes replies done) :
    ReadsFirst replies done := by
  refine ⟨[], replies, rfl, fun _ h => (List.not_mem_nil h).elim, h, ?_⟩
  rintro ⟨reply, hmem, -⟩
  cases hmem

theorem Reads.append_readsFirst {replies more : List Reply} {done : Bool} (h : Reads replies true)
    (h' : ReadsFirst more done) : ReadsFirst (replies ++ more) done := by
  obtain ⟨reads, writes, rfl, hreads, hwrites, hfailed⟩ := h'
  refine ⟨replies ++ reads, writes, (List.append_assoc _ _ _).symm,
    List.forall_mem_append.mpr ⟨h.1, hreads⟩, hwrites, ?_⟩
  rintro ⟨reply, hmem, hfail⟩
  rcases List.mem_append.mp hmem with hmem | hmem
  · exact (hfail (h.2 rfl reply hmem)).elim
  · exact hfailed ⟨reply, hmem, hfail⟩

theorem ReadsFirst.append_writes {replies more : List Reply} {done : Bool}
    (h : ReadsFirst replies true) (h' : Writes more done) : ReadsFirst (replies ++ more) done := by
  obtain ⟨reads, writes, rfl, hreads, hwrites, hfailed⟩ := h
  refine ⟨reads, writes ++ more, List.append_assoc _ _ _, hreads, hwrites.append h', ?_⟩
  intro hex
  cases (hfailed hex).2

end Reply

open Reply

namespace Run.Ensures

variable {run : Run σ α} {next : α → Run σ β}

theorem reads_bind (first : Ensures client run Reads) (rest : ∀ a, Ensures client (next a) Reads) :
    Ensures client (run >>= next) Reads :=
  first.bind rest (fun _ h => h) fun _ _ _ => Reads.append

theorem reads_bind_readsFirst (first : Ensures client run Reads)
    (rest : ∀ a, Ensures client (next a) ReadsFirst) : Ensures client (run >>= next) ReadsFirst :=
  first.bind rest (fun _ => Reads.readsFirst) fun _ _ _ => Reads.append_readsFirst

theorem readsFirst_bind (first : Ensures client run ReadsFirst)
    (rest : ∀ a, Ensures client (next a) Writes) : Ensures client (run >>= next) ReadsFirst :=
  first.bind rest (fun _ h => h) fun _ _ _ => ReadsFirst.append_writes

theorem reads_call {made : Call} {action : Action σ α}
    (h : ∀ state, client.reply made state = Client.ending action state)
    (hreading : made.isReading = true) : Ensures client (Run.call made action) Reads := by
  refine .call h fun failure => ⟨?_, ?_⟩
  · simpa using hreading
  · simp

theorem reads_mapM {f : β → Run σ α} (each : ∀ b, Ensures client (f b) Reads) (l : List β) :
    Ensures client (l.mapM f) Reads := by
  induction l with
  | nil => exact .pure (.nil true)
  | cons b l ih =>
    rw [List.mapM_cons]
    exact (each b).reads_bind fun _ => ih.reads_bind fun _ => .pure (.nil true)

end Run.Ensures

/-! ## 2. The parts of an import -/

namespace Introspection

-- What is told where a step fails makes no calls, and the failure is handed on.
theorem handed_on (message : Text) (failure : Failure) :
    Ensures (α := α) client (do Run.log .error .introspect message; throw failure)
      fun replies done => replies = [] ∧ done = false :=
  .bind (P := fun replies _ => replies = []) (Q := fun replies done => replies = [] ∧ done = false)
    (.log fun _ => rfl) (fun _ => .throw ⟨rfl, rfl⟩) (fun _ h => ⟨h, rfl⟩)
    fun _ _ _ h h' => by rw [h, h'.1]; exact ⟨rfl, h'.2⟩

theorem reads_guarded {target : Option Text} {step : Run σ α} (h : Ensures client step Reads) :
    Ensures client (guarded target step) Reads := by
  refine h.rethrow fun failure => ?_
  split
  · exact .throw ⟨rfl, rfl⟩
  · cases failure <;> exact handed_on _ _

theorem reads_creates : Ensures client (creates client) Reads := by
  unfold creates
  refine (reads_guarded ?_).reads_bind fun tables => .reads_mapM (fun table => reads_guarded ?_) _
  · exact .reads_call (fun _ => rfl) rfl
  · exact .reads_call (fun _ => rfl) rfl

theorem reads_model {account : Account} : Ensures client (model account client) Reads :=
  reads_creates.reads_bind fun _ => .reads_bind (.log .nil) fun _ => .ofRead .nil

end Introspection

namespace Import

theorem reads_withoutExisting {account : Account} {dump : Dump} :
    Ensures client (withoutExisting account client dump) Reads := by
  refine Introspection.reads_model.reads_bind fun _ => .reads_bind ?_ fun _ => .pure (.nil true)
  exact .reads_mapM (fun _ => .reads_call (fun _ => rfl) rfl) _

theorem writes_runPlan {plan : List Text} : Ensures client (runPlan client plan) Writes := by
  intro s
  obtain ⟨calls, hbegins, leads⟩ := runPlan_begins client s plan
  refine ⟨calls, leads, fun reply hmem => ?_⟩
  have hcall := List.mem_map_of_mem (f := (·.1)) hmem
  rw [client.map_replies] at hcall
  rcases List.mem_cons.mp (hbegins.subset hcall) with hchecks | hsent
  · rw [hchecks]
    rfl
  · obtain ⟨statement, -, hsent⟩ := List.mem_map.mp hsent
    rw [← hsent]
    rfl

theorem readsFirst_emptyDatabase : Ensures client (emptyDatabase client) ReadsFirst := by
  refine .reads_bind_readsFirst (.reads_call (fun _ => rfl) rfl) fun _ =>
    .reads_bind_readsFirst (.reads_call (fun _ => rfl) rfl) fun _ =>
      .reads_bind_readsFirst (.reads_call (fun _ => rfl) rfl) fun _ => ?_
  exact writes_runPlan.mono fun _ _ => Writes.readsFirst

theorem readsFirst_prepare {account : Account} {dropFirst : Bool} {dump : Dump} :
    Ensures client (prepare account dropFirst client dump) ReadsFirst := by
  unfold prepare
  split
  · exact readsFirst_emptyDatabase.map
  · exact (reads_withoutExisting.mono fun _ _ => Reads.readsFirst).map

theorem writes_carryOut {mode : InsertMode} {dropFirst : Bool} {dump : Dump} :
    Ensures client (carryOut mode dropFirst client dump) Writes :=
  .bind (.log fun _ _ h => (List.not_mem_nil h).elim) (fun _ => writes_runPlan) (fun _ h => h)
    fun _ _ _ => Writes.append

/-- An import ends at once where the dump cannot be read. -/
theorem importDump_of_unread (client : Client σ) {account : Account} {mode : InsertMode}
    {dropFirst : Bool} {sql : Text} {e : ReadError} (hparse : Dump.parse account sql = .error e)
    (s : Session σ) :
    (importDump account mode dropFirst client sql).play s = (.error (.reading e), s) := by
  rw [importDump_eq, hparse, Run.play_bind]
  rfl

-- A dump that is read makes no calls, so calls start with the listing of the database.
theorem readsFirst_importDump (client : Client σ) (account : Account) (mode : InsertMode)
    (dropFirst : Bool) (sql : Text) :
    Ensures client (importDump account mode dropFirst client sql) ReadsFirst := by
  rw [importDump_eq]
  refine .reads_bind_readsFirst (.ofRead .nil) fun dump => .reads_bind_readsFirst ?_ fun _ =>
    .readsFirst_bind readsFirst_prepare fun _ => writes_carryOut.map
  exact (announce_silent client dump).mono fun replies done h => h ▸ .nil done

/-- **Reading comes first.** A dump that cannot be read leaves the client uncalled. In every import
the calls that read come before those that do not; and if one that reads fails, the import fails and
no other kind of call was made. -/
theorem importDump_reads_first (client : Client σ) (account : Account) (mode : InsertMode)
    (dropFirst : Bool) (sql : Text) (flaw? : Entry → Option Failure) (state : σ) :
    let run := (importDump account mode dropFirst client sql).startLogged flaw? state
    run.2.state = client.after run.2.calls state ∧
      (∀ e, Dump.parse account sql = .error e → run.1 = .error (.reading e) ∧ run.2.calls = []) ∧
      (∃ reads writes, run.2.calls = reads ++ writes ∧ (∀ call ∈ reads, call.isReading = true) ∧
        ∀ call ∈ writes, call.isReading = false) ∧
      ∀ call failure, (call, some failure) ∈ client.replies run.2.calls state →
        call.isReading = true →
          (∃ failure, run.1 = .error failure) ∧ ∀ call ∈ run.2.calls, call.isReading = true := by
  intro run
  obtain ⟨calls, leads, reads, writes, hreplies, hreads, hwrites, hfailed⟩ :=
    readsFirst_importDump client account mode dropFirst sql { state, flaw? }
  have hcalls : run.2.calls = calls := leads.calls
  have hmap : calls = reads.map (·.1) ++ writes.map (·.1) := by
    rw [← client.map_replies calls state, hreplies, List.map_append]
  rw [hcalls]
  refine ⟨leads.state, ?_, ⟨_, _, hmap, ?_, ?_⟩, ?_⟩
  · intro e hparse
    have hplay : run = _ := importDump_of_unread client hparse { state, flaw? }
    rw [← hcalls, hplay]
    exact ⟨rfl, rfl⟩
  · exact List.forall_mem_map.mpr hreads
  · exact List.forall_mem_map.mpr hwrites
  · intro call failure hmem hreading
    rw [show client.replies calls state = _ from hreplies] at hmem
    have hread : (call, some failure) ∈ reads := by
      rcases List.mem_append.mp hmem with hmem | hmem
      · exact hmem
      · have hwrite : call.isReading = false := hwrites _ hmem
        rw [hreading] at hwrite
        cases hwrite
    obtain ⟨rfl, hdone⟩ := hfailed ⟨_, hread, Option.some_ne_none failure⟩
    refine ⟨?_, ?_⟩
    · cases hresult : run.1 with
      | error failure => exact ⟨failure, rfl⟩
      | ok refused =>
        rw [show (Run.play _ _).1 = _ from hresult] at hdone
        cases hdone
    · rw [hmap, List.map_nil, List.append_nil]
      exact List.forall_mem_map.mpr hreads

/-- A client of a database with one table, whose statement cannot be read. -/
def unreadable : Client Unit :=
  { failing [] (.raised { kind := "OSError" }) with listTables := pure ["t"] }

/-- Beside a table that is listed, and whose statement cannot be read, nothing is imported. -/
theorem importDump_reads_first_unreadable :
    ∃ failure session, (importDump {} .multi false unreadable "CREATE TABLE u (a int)").startLogged
        (fun _ => none) () = (.error failure, session) ∧
      session.calls = [.listTables, .createTable "t"] := by
  have hcalls : ((importDump {} .multi false unreadable "CREATE TABLE u (a int)").startLogged
      (fun _ => none) ()).2.calls = [.listTables, .createTable "t"] := by decide +kernel
  obtain ⟨-, -, -, hfailed⟩ := importDump_reads_first unreadable {} .multi false
    "CREATE TABLE u (a int)" (fun _ => none) ()
  rcases hstart : (importDump {} .multi false unreadable "CREATE TABLE u (a int)").startLogged
    (fun _ => none) () with ⟨result, session⟩
  rw [hstart] at hcalls hfailed
  dsimp only at hcalls hfailed
  rw [hcalls] at hfailed
  obtain ⟨⟨failure, hresult⟩, -⟩ := hfailed (.createTable "t")
    (.raised { kind := "KeyError", values := [.text "t"] }) (by decide +kernel) rfl
  exact ⟨failure, session, congrArg (·, session) hresult, hcalls⟩

end Import

end SqlDump
