import SqlDump.Log.Logger
import SqlDump.Proofs.Outcome
import SqlDump.Proofs.Sessions

/-!
# Runs of plans

A plan runs statement by statement until something ends the run: a failure that is no refusal, or
an entry that cannot be logged. Whatever the database refuses does not end it, and is noted once.
-/

namespace SqlDump

variable {σ : Type}

/-! ## 1. What a call of a plan comes to -/

namespace Reply

/-- The refusal that a call comes to: a statement was to be executed, and the database refused. -/
def refusal? : Reply → Option Refusal
  | (.execute statement, some (.execution message sql code)) =>
    let failure := Failure.execution message sql code
    some { code, message := failure.message, statement
           report := .statement failure.cause statement code }
  | _ => none

/-- What is logged where the database refuses. -/
def warning (message : Text) : Entry := { level := .warning, stage := .execute, message }

/-- What ends a run behind a call: a failure that is no refusal or, where the database refuses, what
goes wrong when this is logged. -/
def stop? (flaw? : Entry → Option Failure) : Reply → Option Failure
  | (_, none) => none
  | (.execute statement, some (.execution message sql code)) =>
    flaw? (warning
      (Report.statement (Failure.execution message sql code).cause statement code).message)
  | (_, some (.execution message sql code)) =>
    flaw? (warning ("Failed to disable foreign key checks: " ++
      (Failure.execution message sql code).message))
  | (_, some failure) => some failure

/-- The replies up to the first behind which a run ends, and what ends it there. -/
def untilStop (flaw? : Entry → Option Failure) : List Reply → List Reply × Option Failure
  | [] => ([], none)
  | reply :: replies =>
    match stop? flaw? reply with
    | some failure => ([reply], some failure)
    | none => (reply :: (untilStop flaw? replies).1, (untilStop flaw? replies).2)

variable (flaw? : Entry → Option Failure)

theorem untilStop_begins (replies : List Reply) : (untilStop flaw? replies).1 <+: replies := by
  induction replies with
  | nil => exact List.prefix_rfl
  | cons reply replies ih =>
    rw [untilStop]
    split
    · exact ⟨replies, rfl⟩
    · exact List.cons_prefix_cons.mpr ⟨rfl, ih⟩

variable {flaw?}

theorem untilStop_none {replies : List Reply} (h : (untilStop flaw? replies).2 = none) :
    (untilStop flaw? replies).1 = replies ∧ ∀ reply ∈ replies, stop? flaw? reply = none := by
  induction replies with
  | nil => exact ⟨rfl, fun _ h => (List.not_mem_nil h).elim⟩
  | cons reply replies ih =>
    rw [untilStop] at h ⊢
    split at h
    · cases h
    · rename_i hnone
      obtain ⟨hall, hno⟩ := ih h
      exact ⟨congrArg (reply :: ·) hall, List.forall_mem_cons.mpr ⟨hnone, hno⟩⟩

theorem untilStop_of_none {replies : List Reply} (h : ∀ reply ∈ replies, stop? flaw? reply = none) :
    untilStop flaw? replies = (replies, none) := by
  induction replies with
  | nil => rfl
  | cons reply replies ih =>
    obtain ⟨hnone, hno⟩ := List.forall_mem_cons.mp h
    rw [untilStop, hnone, ih hno]

theorem untilStop_of_some {front rest : List Reply} {reply : Reply} {failure : Failure}
    (h : ∀ earlier ∈ front, stop? flaw? earlier = none) (hstop : stop? flaw? reply = some failure) :
    untilStop flaw? (front ++ reply :: rest) = (front ++ [reply], some failure) := by
  induction front with
  | nil =>
    rw [List.nil_append, untilStop, hstop]
    rfl
  | cons first front ih =>
    obtain ⟨hnone, hno⟩ := List.forall_mem_cons.mp h
    rw [List.cons_append, untilStop, hnone, ih hno]
    rfl

end Reply

namespace Import

open Outcome Reply

/-- The refusals among what calls come to, in order. -/
def refusals (replies : List Reply) : List Refusal := replies.filterMap refusal?

/-- The calls that run a plan. -/
def planCalls (plan : List Text) : List Call := .disableForeignKeyChecks :: plan.map .execute

/-- What is logged at the end of a plan. -/
def summary (plan : List Text) (refused : List Refusal) : Entry :=
  { level := .info, stage := .execute
    message := "Executed " ++ natText plan.length ++ " statements (" ++
      natText refused.length ++ " failed)" }

/-! ## 2. One statement after another -/

variable (client : Client σ) (s : Session σ)

theorem play_attempt (statement : Text) :
    let reply : Reply := (.execute statement, (client.reply (.execute statement) s.state).1)
    ∃ s', s.Leads client [.execute statement] s' ∧ (attempt client statement).play s =
      ((stop? s.flaw? reply).elim (.ok (refusal? reply)) .error, s') := by
  have hcall := fun state => (rfl : client.reply (.execute statement) state = _)
  obtain ⟨s₁, leads, -, hplay⟩ := Run.play_call client _ hcall s
  unfold attempt
  rw [Run.play_tryCatch, Run.play_bind, Client.send, hplay]
  simp only [Client.reply, Client.ending]
  rcases Client.take (client.execute statement) s.state with ⟨failure | answer, state⟩
  · cases failure with
    | execution message sql code =>
      obtain ⟨s₂, leads', hlog⟩ := Run.play_log client .warning .execute (Report.statement
        (Failure.execution message sql code).cause statement code).message s₁
      refine ⟨s₂, leads.trans leads', ?_⟩
      dsimp only
      rw [Run.play_bind, hlog, leads.flaw?]
      simp only [stop?, warning]
      cases s.flaw? _ <;> rfl
    | introspection => exact ⟨s₁, leads, rfl⟩
    | raised => exact ⟨s₁, leads, rfl⟩
    | reading => exact ⟨s₁, leads, rfl⟩
  · exact ⟨s₁, leads, rfl⟩

theorem play_withoutChecks :
    let reply : Reply := (.disableForeignKeyChecks, (client.reply .disableForeignKeyChecks s.state).1)
    ∃ s', s.Leads client [.disableForeignKeyChecks] s' ∧ (withoutChecks client).play s =
      ((stop? s.flaw? reply).elim (.ok ()) .error, s') := by
  have hcall := fun state => (rfl : client.reply .disableForeignKeyChecks state = _)
  obtain ⟨s₁, leads, -, hplay⟩ := Run.play_call client _ hcall s
  unfold withoutChecks
  rw [Run.play_tryCatch, Client.stopForeignKeyChecks, hplay]
  simp only [Client.reply, Client.ending]
  rcases Client.take client.disableForeignKeyChecks s.state with ⟨failure | answer, state⟩
  · cases failure with
    | execution message sql code =>
      obtain ⟨s₂, leads', hlog⟩ := Run.play_log client .warning .execute
        ("Failed to disable foreign key checks: " ++
          (Failure.execution message sql code).message) s₁
      refine ⟨s₂, leads.trans leads', ?_⟩
      dsimp only
      rw [hlog, leads.flaw?]
      rfl
    | introspection => exact ⟨s₁, leads, rfl⟩
    | raised => exact ⟨s₁, leads, rfl⟩
    | reading => exact ⟨s₁, leads, rfl⟩
  · exact ⟨s₁, leads, rfl⟩

/-- Statements run up to the first behind which something ends the run. -/
theorem play_attempts (statements : List Text) :
    let replies := client.replies (statements.map .execute) s.state
    ∃ s', s.Leads client ((untilStop s.flaw? replies).1.map (·.1)) s' ∧
      (statements.mapM (attempt client)).play s =
        ((untilStop s.flaw? replies).2.elim (.ok (replies.map refusal?)) .error, s') := by
  induction statements generalizing s with
  | nil => exact ⟨s, .refl s, rfl⟩
  | cons statement statements ih =>
    obtain ⟨s₁, leads, hplay⟩ := play_attempt client s statement
    dsimp only at hplay ⊢
    rw [List.mapM_cons, Run.play_bind, hplay, List.map_cons, Client.replies, untilStop]
    cases hstop : stop? s.flaw? (.execute statement, (client.reply (.execute statement) s.state).1) with
    | some failure => exact ⟨s₁, leads, rfl⟩
    | none =>
      obtain ⟨s₂, leads', hrest⟩ := ih s₁
      have hstate : s₁.state = (client.reply (.execute statement) s.state).2 := leads.state
      rw [leads.flaw?, hstate] at leads' hrest
      refine ⟨s₂, leads.trans leads', ?_⟩
      dsimp only [Option.elim]
      rw [Run.play_bind, hrest]
      cases (untilStop s.flaw? _).2 <;> rfl

theorem play_executeAll (statements : List Text) :
    let replies := client.replies (statements.map .execute) s.state
    ∃ s', s.Leads client ((untilStop s.flaw? replies).1.map (·.1)) s' ∧
      (executeAll client statements).play s =
        ((untilStop s.flaw? replies).2.elim (.ok (refusals replies)) .error, s') := by
  obtain ⟨s', leads, hplay⟩ := play_attempts client s statements
  refine ⟨s', leads, ?_⟩
  unfold executeAll
  rw [Run.play_bind, hplay]
  cases (untilStop s.flaw? _).2 with
  | some failure => rfl
  | none =>
    have hrefusals : ∀ replies : List Reply,
        (replies.map refusal?).filterMap id = refusals replies := fun _ => List.filterMap_map
    exact congrArg (fun refused => (Except.ok refused, s')) (hrefusals _)

-- Turning the checks off is no statement, so its refusal is not summed up.
theorem refusals_checks (failure : Option Failure) (replies : List Reply) :
    refusals ((.disableForeignKeyChecks, failure) :: replies) = refusals replies := by
  cases failure <;> rfl

/-- A plan runs up to the first call behind which something ends the run. If nothing does, the
refusals are summed up and told. -/
theorem play_runPlan (plan : List Text) :
    let replies := client.replies (planCalls plan) s.state
    ∃ s', s.Leads client ((untilStop s.flaw? replies).1.map (·.1)) s' ∧
      (runPlan client plan).play s =
        (match (untilStop s.flaw? replies).2 with
          | some failure => .error failure
          | none => (s.flaw? (summary plan (refusals replies))).elim (.ok (refusals replies)) .error,
        s') := by
  obtain ⟨s₁, leads, hchecks⟩ := play_withoutChecks client s
  dsimp only at hchecks ⊢
  unfold runPlan planCalls
  rw [Run.play_bind, hchecks, Client.replies, untilStop]
  cases hstop : stop? s.flaw?
      (.disableForeignKeyChecks, (client.reply .disableForeignKeyChecks s.state).1) with
  | some failure => exact ⟨s₁, leads, rfl⟩
  | none =>
    obtain ⟨s₂, leads', hexecute⟩ := play_executeAll client s₁ plan
    have hstate : s₁.state = (client.reply .disableForeignKeyChecks s.state).2 := leads.state
    rw [leads.flaw?, hstate] at leads' hexecute
    have hleads := leads.trans leads'
    simp only [Option.elim_none]
    rw [Run.play_bind, hexecute]
    cases (untilStop s.flaw? _).2 with
    | some failure => exact ⟨s₂, hleads, rfl⟩
    | none =>
      generalize client.replies _ _ = replies at hleads ⊢
      obtain ⟨s₃, leads'', hlog⟩ := Run.play_log client .info .execute ("Executed " ++
        natText plan.length ++ " statements (" ++ natText (refusals replies).length ++
          " failed)") s₂
      refine ⟨s₃, hleads.trans_silent leads'', ?_⟩
      simp only [Option.elim_none]
      rw [Run.play_bind, hlog, refusals_checks, leads'.flaw?, leads.flaw?, summary]
      cases s.flaw? _ <;> rfl

/-- However a run of a plan ends, it made the plan's calls up to there. -/
theorem runPlan_begins (plan : List Text) :
    ∃ calls, calls <+: planCalls plan ∧ s.Leads client calls ((runPlan client plan).play s).2 := by
  obtain ⟨s', leads, hplay⟩ := play_runPlan client s plan
  rw [hplay]
  refine ⟨_, ?_, leads⟩
  have hbegins := (untilStop_begins s.flaw? (client.replies (planCalls plan) s.state)).map (·.1)
  rwa [client.map_replies] at hbegins

section Plans

variable {client s} {plan : List Text}

/-- A plan that comes to its end made all its calls, nothing ended it before, and its sum was
told. -/
theorem runPlan_of_ok {s' : Session σ} {refused : List Refusal}
    (h : (runPlan client plan).play s = (.ok refused, s')) :
    s.Leads client (planCalls plan) s' ∧
      refused = refusals (client.replies (planCalls plan) s.state) ∧
      (∀ reply ∈ client.replies (planCalls plan) s.state, stop? s.flaw? reply = none) ∧
      s.flaw? (summary plan refused) = none := by
  obtain ⟨s₁, leads, hplay⟩ := play_runPlan client s plan
  rw [hplay] at h
  cases hstop : (untilStop s.flaw? (client.replies (planCalls plan) s.state)).2 with
  | some failure =>
    rw [hstop] at h
    cases h
  | none =>
    obtain ⟨hall, hnone⟩ := untilStop_none hstop
    rw [hstop] at h
    rw [hall, client.map_replies] at leads
    cases hflaw : s.flaw? (summary plan (refusals (client.replies (planCalls plan) s.state))) with
    | some failure =>
      rw [hflaw] at h
      cases h
    | none =>
      rw [hflaw] at h
      obtain ⟨hrefused, rfl⟩ := Prod.mk.inj h
      obtain rfl := Except.ok.inj hrefused
      exact ⟨leads, rfl, hnone, hflaw⟩

/-- A plan that nothing ends makes all its calls. -/
theorem runPlan_of_unstopped
    (h : ∀ reply ∈ client.replies (planCalls plan) s.state, stop? s.flaw? reply = none) :
    let refused := refusals (client.replies (planCalls plan) s.state)
    ∃ s', s.Leads client (planCalls plan) s' ∧ (runPlan client plan).play s =
      ((s.flaw? (summary plan refused)).elim (.ok refused) .error, s') := by
  obtain ⟨s', leads, hplay⟩ := play_runPlan client s plan
  rw [untilStop_of_none h] at leads hplay
  rw [client.map_replies] at leads
  exact ⟨s', leads, hplay⟩

/-- A plan that something ends makes the calls up to there. -/
theorem runPlan_of_stopped {front rest : List Reply} {reply : Reply} {failure : Failure}
    (hreplies : client.replies (planCalls plan) s.state = front ++ reply :: rest)
    (hfront : ∀ earlier ∈ front, stop? s.flaw? earlier = none)
    (hstop : stop? s.flaw? reply = some failure) :
    ∃ s', s.Leads client ((front ++ [reply]).map (·.1)) s' ∧
      (runPlan client plan).play s = (.error failure, s') := by
  obtain ⟨s', leads, hplay⟩ := play_runPlan client s plan
  rw [hreplies, untilStop_of_some hfront hstop] at leads hplay
  exact ⟨s', leads, hplay⟩

end Plans

/-! ## 3. Imports step by step -/

/-- What is logged of a dump that was read. -/
def announcements (dump : Dump) : List Entry :=
  { level := .info, stage := .parse
    message := "Parsed " ++ natText dump.tables.length ++ " tables, " ++
      natText dump.alters.length ++ " ALTER statements" } ::
  if dump.unresolved.isEmpty then [] else [
    { level := .warning, stage := .parse
      message := "Unresolved table dependencies: " ++ Text.join ", " dump.unresolved }]

/-- What is logged before a plan is run. -/
def planned (plan : List Text) : Entry :=
  { level := .info, stage := .plan, message := "Planned " ++ natText plan.length ++ " statements" }

/-- What is logged of an import into an emptied database besides what is refused. -/
def importEntries (dump : Dump) (drops plan : List Text) (dropped imported : List Refusal) :
    List Entry :=
  announcements dump ++ [summary drops dropped, planned plan, summary plan imported]

/-- Nothing is in the way of an import into an emptied database: nothing ends its two plans, and all
that is logged besides what is refused can be logged. -/
structure GoesThrough (flaw? : Entry → Option Failure) (dump : Dump) (drops plan : List Text)
    (dropped imported : List Reply) : Prop where
  unstopped : ∀ reply ∈ dropped ++ imported, stop? flaw? reply = none
  logged : ∀ entry ∈ importEntries dump drops plan (refusals dropped) (refusals imported),
    flaw? entry = none

/-- What is told of a dump that was read. -/
def announce (dump : Dump) : Run σ Unit := do
  Run.log .info .parse ("Parsed " ++ natText dump.tables.length ++ " tables, " ++
    natText dump.alters.length ++ " ALTER statements")
  unless dump.unresolved.isEmpty do
    Run.log .warning .parse ("Unresolved table dependencies: " ++ Text.join ", " dump.unresolved)

/-- What is refused while the database is emptied, if it is to be, and what is to be imported. -/
def prepare (account : Account) (dropFirst : Bool) (client : Client σ) (dump : Dump) :
    Run σ (List Refusal × Dump) :=
  if dropFirst then do return (← emptyDatabase client, dump)
  else do return ([], ← withoutExisting account client dump)

/-- Tells of a dump's plan and runs it. -/
def carryOut (mode : InsertMode) (dropFirst : Bool) (client : Client σ) (dump : Dump) :
    Run σ (List Refusal) := do
  let plan := Plan.build dump mode dropFirst
  Run.log .info .plan ("Planned " ++ natText plan.length ++ " statements")
  runPlan client plan

theorem importDump_eq (account : Account) (mode : InsertMode) (dropFirst : Bool)
    (client : Client σ) (sql : Text) : importDump account mode dropFirst client sql =
      Run.ofRead (Dump.parse account sql) >>= fun dump => announce dump >>= fun _ =>
        prepare account dropFirst client dump >>= fun prepared =>
          (prepared.1 ++ ·) <$> carryOut mode dropFirst client prepared.2 := by
  unfold importDump
  refine bind_congr fun dump => ?_
  cases dropFirst <;> by_cases h : dump.unresolved.isEmpty = true <;>
    simp [announce, prepare, carryOut, h]

theorem announce_silent (client : Client σ) (dump : Dump) :
    Run.Ensures client (announce dump) fun replies _ => replies = [] := by
  unfold announce
  refine .bind (P := fun replies _ => replies = []) (Q := fun replies _ => replies = [])
    (.log fun _ => rfl) (fun _ => ?_) (fun _ h => h) fun _ _ _ h h' => by rw [h, h']; rfl
  cases dump.unresolved.isEmpty
  · exact .log fun _ => rfl
  · exact .pure rfl

theorem play_logs_ok_iff (entries : List Entry) (s : Session σ) :
    ((forM entries fun entry => Run.log entry.level entry.stage entry.message).play s).1 = .ok () ↔
      ∀ entry ∈ entries, s.flaw? entry = none := by
  induction entries generalizing s with
  | nil => exact ⟨fun _ => nofun, fun _ => rfl⟩
  | cons entry entries ih =>
    rw [List.forM_cons, Run.play_bind, Run.play_log_eq, List.forall_mem_cons]
    cases hflaw : s.flaw? entry with
    | some failure => exact ⟨nofun, fun h => nomatch h.1⟩
    | none => exact (ih _).trans (and_iff_right rfl).symm

-- Telling of a dump goes wrong exactly where logging one of its entries does.
theorem announce_ok_iff (dump : Dump) (s : Session σ) :
    ((announce dump).play s).1 = .ok () ↔ ∀ entry ∈ announcements dump, s.flaw? entry = none := by
  rw [← play_logs_ok_iff]
  unfold announce announcements
  cases dump.unresolved.isEmpty <;> simp

/-! ## 4. Accounts -/

variable {client}

/-- What is listed before a database is emptied. -/
def listing : List Call := [.listTables, .listRoutines "FUNCTION", .listRoutines "PROCEDURE"]

/-- What a client lists before its database is emptied, and the state that it is left in. -/
def Lists (client : Client σ) (state : σ) (tables functions procedures : List Text)
    (state' : σ) : Prop :=
  ∃ state₁ state₂, Client.take client.listTables state = (.ok tables, state₁) ∧
    Client.take (client.listRoutines "FUNCTION") state₁ = (.ok functions, state₂) ∧
    Client.take (client.listRoutines "PROCEDURE") state₂ = (.ok procedures, state')

theorem emptyDatabase_of_ok {s s' : Session σ} {refused : List Refusal}
    (h : (emptyDatabase client).play s = (.ok refused, s')) :
    ∃ tables functions procedures s₁, Lists client s.state tables functions procedures s₁.state ∧
      s.Leads client listing s₁ ∧
      (runPlan client (Plan.drops tables functions procedures)).play s₁ = (.ok refused, s') := by
  obtain ⟨tables, s₁, htables, h⟩ := Run.play_bind_eq_ok.mp h
  obtain ⟨functions, s₂, hfunctions, h⟩ := Run.play_bind_eq_ok.mp h
  obtain ⟨procedures, s₃, hprocedures, h⟩ := Run.play_bind_eq_ok.mp h
  obtain ⟨htables, leads₁⟩ := Run.play_call_eq_ok client _ (fun _ => rfl) htables
  obtain ⟨hfunctions, leads₂⟩ := Run.play_call_eq_ok client _ (fun _ => rfl) hfunctions
  obtain ⟨hprocedures, leads₃⟩ := Run.play_call_eq_ok client _ (fun _ => rfl) hprocedures
  exact ⟨tables, functions, procedures, s₃, ⟨_, _, htables, hfunctions, hprocedures⟩,
    (leads₁.trans leads₂).trans leads₃, h⟩

theorem emptyDatabase_of_lists {s : Session σ} {tables functions procedures : List Text} {state : σ}
    (h : Lists client s.state tables functions procedures state) :
    ∃ s₁, s₁.state = state ∧ s.Leads client listing s₁ ∧ (emptyDatabase client).play s =
      (runPlan client (Plan.drops tables functions procedures)).play s₁ := by
  obtain ⟨state₁, state₂, htables, hfunctions, hprocedures⟩ := h
  obtain ⟨s₁, leads₁, hstate₁, hplay₁⟩ :=
    Run.play_call client .listTables (fun _ => rfl) s
  rw [htables] at hstate₁ hplay₁
  obtain ⟨s₂, leads₂, hstate₂, hplay₂⟩ :=
    Run.play_call client (.listRoutines "FUNCTION") (fun _ => rfl) s₁
  rw [hstate₁, hfunctions] at hstate₂ hplay₂
  obtain ⟨s₃, leads₃, hstate₃, hplay₃⟩ :=
    Run.play_call client (.listRoutines "PROCEDURE") (fun _ => rfl) s₂
  rw [hstate₂, hprocedures] at hstate₃ hplay₃
  refine ⟨s₃, hstate₃, (leads₁.trans leads₂).trans leads₃, ?_⟩
  unfold emptyDatabase Client.tables Client.routines
  rw [Run.play_bind, hplay₁]
  dsimp only
  rw [Run.play_bind, hplay₂]
  dsimp only
  rw [Run.play_bind, hplay₃]

-- What is told before a plan is run makes no calls.
theorem carryOut_of_ok {mode : InsertMode} {dropFirst : Bool} {dump : Dump} {s s' : Session σ}
    {refused : List Refusal} (h : (carryOut mode dropFirst client dump).play s = (.ok refused, s')) :
    s.flaw? (planned (Plan.build dump mode dropFirst)) = none ∧ ∃ s₁, s.Leads client [] s₁ ∧
      (runPlan client (Plan.build dump mode dropFirst)).play s₁ = (.ok refused, s') := by
  obtain ⟨_, s₁, htold, h⟩ := Run.play_bind_eq_ok.mp h
  obtain ⟨s₁', leads, hlog⟩ := Run.play_log client .info .plan
    ("Planned " ++ natText (Plan.build dump mode dropFirst).length ++ " statements") s
  rw [hlog] at htold
  obtain ⟨hflaw, rfl⟩ := Prod.mk.inj htold
  refine ⟨?_, _, leads, h⟩
  unfold planned
  cases hplanned : s.flaw? _ with
  | none => rfl
  | some failure =>
    rw [hplanned] at hflaw
    cases hflaw

/-- An import into an emptied database that comes to its end listed what there was, dropped it, and
ran the plan of the dump. Nothing ended it before, and all that was logged could be. -/
theorem importDump_of_ok {account : Account} {mode : InsertMode} {sql : Text} {s s' : Session σ}
    {refused : List Refusal}
    (h : (importDump account mode true client sql).play s = (.ok refused, s')) :
    ∃ dump tables functions procedures state,
      Dump.parse account sql = .ok dump ∧
      Lists client s.state tables functions procedures state ∧
      let drops := Plan.drops tables functions procedures
      let plan := Plan.build dump mode true
      let dropped := client.replies (planCalls drops) state
      let imported := client.replies (planCalls plan) (client.after (planCalls drops) state)
      s.Leads client (listing ++ planCalls drops ++ planCalls plan) s' ∧
      refused = refusals dropped ++ refusals imported ∧
      GoesThrough s.flaw? dump drops plan dropped imported := by
  rw [importDump_eq] at h
  obtain ⟨dump, s₀, hread, htold⟩ := Run.play_bind_eq_ok.mp h
  obtain ⟨hparse, rfl⟩ := Run.play_ofRead_eq_ok.mp hread
  obtain ⟨_, s₁, hannounce, hprepared⟩ := Run.play_bind_eq_ok.mp htold
  have hannounced := (announce_ok_iff dump s₀).mp (congrArg Prod.fst hannounce)
  have leads₁ := (announce_silent client dump).silent s₀
  rw [hannounce] at leads₁
  obtain ⟨prepared, s₂, hprepare, hcarried⟩ := Run.play_bind_eq_ok.mp hprepared
  obtain ⟨dropped, hempty, rfl⟩ := Run.play_map_eq_ok.mp hprepare
  obtain ⟨tables, functions, procedures, s₁', hlists, leads₁', hdrops⟩ := emptyDatabase_of_ok hempty
  obtain ⟨leads₂, hdropped, hdropgoes, hdropsum⟩ := runPlan_of_ok hdrops
  obtain ⟨imported, hcarry, hrefused⟩ := Run.play_map_eq_ok.mp hcarried
  obtain ⟨hplanned, s₃, leads₃, hrun⟩ := carryOut_of_ok hcarry
  obtain ⟨leads₄, himported, hplangoes, hplansum⟩ := runPlan_of_ok hrun
  rw [leads₁.state] at hlists
  have hflaw₁ : s₁'.flaw? = s₀.flaw? := leads₁'.flaw?.trans leads₁.flaw?
  have hflaw₂ : s₂.flaw? = s₀.flaw? := leads₂.flaw?.trans hflaw₁
  rw [hflaw₁, hdropped] at hdropsum
  rw [hflaw₁] at hdropgoes
  rw [hflaw₂] at hplanned
  rw [leads₃.flaw?, hflaw₂, himported] at hplansum
  rw [leads₃.flaw?, hflaw₂] at hplangoes
  rw [leads₃.state, leads₂.state] at himported hplangoes hplansum
  refine ⟨dump, tables, functions, procedures, s₁'.state, hparse, hlists, ?_, ?_, ?_, ?_⟩
  · exact (((leads₁.trans leads₁').trans leads₂).trans_silent leads₃).trans leads₄
  · rw [← hrefused, hdropped, himported]
    rfl
  · exact List.forall_mem_append.mpr ⟨hdropgoes, hplangoes⟩
  · refine List.forall_mem_append.mpr ⟨hannounced, ?_⟩
    simp only [List.forall_mem_cons]
    exact ⟨hdropsum, hplanned, hplansum, nofun⟩

-- A plan that nothing ends gives its refusals, if that can be told.
theorem carryOut_of_unstopped {mode : InsertMode} {dump : Dump} {s : Session σ}
    (hplanned : s.flaw? (planned (Plan.build dump mode true)) = none)
    (hgoes : ∀ reply ∈ client.replies (planCalls (Plan.build dump mode true)) s.state,
      stop? s.flaw? reply = none)
    (hsum : s.flaw? (summary (Plan.build dump mode true) (refusals (client.replies
      (planCalls (Plan.build dump mode true)) s.state))) = none) :
    ∃ refused s', (carryOut mode true client dump).play s = (.ok refused, s') := by
  obtain ⟨s₁, leads, hlog⟩ := Run.play_log client .info .plan
    ("Planned " ++ natText (Plan.build dump mode true).length ++ " statements") s
  rw [← planned, hplanned] at hlog
  have hstate : s₁.state = s.state := leads.state
  rw [← hstate, ← leads.flaw?] at hgoes hsum
  obtain ⟨s₂, -, hplay⟩ := runPlan_of_unstopped hgoes
  rw [hsum] at hplay
  exact ⟨_, s₂, Run.play_bind_eq_ok.mpr ⟨(), s₁, hlog, hplay⟩⟩

/-- An import into an emptied database comes to its end where what there was is listed and nothing is
in its way. -/
theorem importDump_of_lists {account : Account} {mode : InsertMode} {sql : Text} {s : Session σ}
    {dump : Dump} {tables functions procedures : List Text} {state : σ}
    (hparse : Dump.parse account sql = .ok dump)
    (hlists : Lists client s.state tables functions procedures state) :
    let drops := Plan.drops tables functions procedures
    let plan := Plan.build dump mode true
    let dropped := client.replies (planCalls drops) state
    let imported := client.replies (planCalls plan) (client.after (planCalls drops) state)
    GoesThrough s.flaw? dump drops plan dropped imported →
    ∃ refused s', (importDump account mode true client sql).play s = (.ok refused, s') := by
  intro drops plan dropped imported goes
  obtain ⟨hdropgoes, hplangoes⟩ := List.forall_mem_append.mp goes.unstopped
  obtain ⟨hannounced, hlogged⟩ := List.forall_mem_append.mp goes.logged
  simp only [List.forall_mem_cons] at hlogged
  obtain ⟨hdropsum, hplanned, hplansum, -⟩ := hlogged
  have leads₁ := (announce_silent client dump).silent s
  have hannounce := (announce_ok_iff dump s).mpr hannounced
  rcases htold : (announce dump).play s with ⟨told, s₁⟩
  rw [htold] at leads₁ hannounce
  have hstate₁ : s₁.state = s.state := leads₁.state
  rw [← hstate₁] at hlists
  obtain ⟨s₂, hstate₂, leads₂, hempty⟩ := emptyDatabase_of_lists hlists
  have hflaw₂ : s₂.flaw? = s.flaw? := leads₂.flaw?.trans leads₁.flaw?
  have hdropped : client.replies (planCalls drops) s₂.state = dropped := by rw [hstate₂]
  obtain ⟨s₃, leads₃, hdrops⟩ := @runPlan_of_unstopped _ client s₂ drops (by
    rw [hdropped, hflaw₂]
    exact hdropgoes)
  rw [hdropped, hflaw₂, hdropsum] at hdrops
  have hflaw₃ : s₃.flaw? = s.flaw? := leads₃.flaw?.trans hflaw₂
  have himported : client.replies (planCalls plan) s₃.state = imported := by
    rw [leads₃.state, hstate₂]
  obtain ⟨refused, s₄, hcarry⟩ := @carryOut_of_unstopped _ client mode dump s₃
    (by rw [hflaw₃]; exact hplanned)
    (by rw [show client.replies _ _ = _ from himported, hflaw₃]; exact hplangoes)
    (by rw [show client.replies _ _ = _ from himported, hflaw₃]; exact hplansum)
  rw [importDump_eq, hparse]
  exact ⟨_, s₄, Run.play_bind_eq_ok.mpr ⟨dump, s, rfl, Run.play_bind_eq_ok.mpr
    ⟨(), s₁, htold.trans (congrArg (·, s₁) hannounce), Run.play_bind_eq_ok.mpr
      ⟨(_, dump), s₃, Run.play_map_eq_ok.mpr ⟨_, hempty.trans hdrops, rfl⟩,
        Run.play_map_eq_ok.mpr ⟨refused, hcarry, rfl⟩⟩⟩⟩⟩

theorem refusals_eq_nil_iff {flaw? : Entry → Option Failure} {replies : List Reply}
    (hgoes : ∀ reply ∈ replies, stop? flaw? reply = none) : refusals replies = [] ↔
      ∀ statement failure, (.execute statement, some failure) ∉ replies := by
  unfold refusals
  rw [List.filterMap_eq_nil_iff]
  constructor
  · intro h statement failure hmem
    have hstop := hgoes _ hmem
    have hrefusal := h _ hmem
    cases failure with
    | execution => cases hrefusal
    | introspection => cases hstop
    | raised => cases hstop
    | reading => cases hstop
  · rintro h ⟨call, failure⟩ hmem
    cases call with
    | execute statement =>
      cases failure with
      | none => rfl
      | some failure => exact (h statement failure hmem).elim
    | _ => cases failure <;> rfl

theorem succeeded_iff {refused : List Refusal} : succeeded refused = true ↔ refused = [] :=
  List.isEmpty_iff

/-- **Accounts of runs.** While nothing ends the run of a plan, the checks are turned off and then
every statement is sent once, in order. The refusals of statements are given, in order, if their sum
can be told, and the run has succeeded exactly if no statement failed. What does end a run is given
instead, and nothing is called behind it: a failure that is no refusal, or what goes wrong where a
refusal is logged. An import into an emptied database is a listing and two such runs, one that drops
what was listed and one of the dump's plan. It comes to its end exactly if nothing ends these and all
that is logged on the way can be. Then it gives the refusals of the one and then of the other, and
has succeeded exactly if there are none in either. -/
theorem runPlan_accounts (client : Client σ) :
    (∀ (plan : List Text) (s : Session σ),
      let replies := client.replies (planCalls plan) s.state
      let run := (runPlan client plan).play s
      ((∀ reply ∈ replies, stop? s.flaw? reply = none) →
        run.2.calls = s.calls ++ planCalls plan ∧
        run.1 = (s.flaw? (summary plan (refusals replies))).elim (.ok (refusals replies)) .error ∧
        (succeeded (refusals replies) = true ↔
          ∀ statement failure, (.execute statement, some failure) ∉ replies)) ∧
      ∀ front reply rest failure, replies = front ++ reply :: rest →
        (∀ earlier ∈ front, stop? s.flaw? earlier = none) → stop? s.flaw? reply = some failure →
        run.1 = .error failure ∧ run.2.calls = s.calls ++ (front ++ [reply]).map (·.1)) ∧
    ∀ (account : Account) (mode : InsertMode) (sql : Text) (s : Session σ),
      let run := (importDump account mode true client sql).play s
      (∀ refused, run.1 = .ok refused →
        ∃ dump tables functions procedures state, Dump.parse account sql = .ok dump ∧
          Lists client s.state tables functions procedures state ∧
          let drops := Plan.drops tables functions procedures
          let plan := Plan.build dump mode true
          let dropped := client.replies (planCalls drops) state
          let imported := client.replies (planCalls plan) (client.after (planCalls drops) state)
          run.2.calls = s.calls ++ (listing ++ planCalls drops ++ planCalls plan) ∧
          refused = refusals dropped ++ refusals imported ∧
          (succeeded refused = true ↔ refusals dropped = [] ∧ refusals imported = []) ∧
          GoesThrough s.flaw? dump drops plan dropped imported) ∧
      ∀ dump tables functions procedures state, Dump.parse account sql = .ok dump →
        Lists client s.state tables functions procedures state →
        let drops := Plan.drops tables functions procedures
        let plan := Plan.build dump mode true
        let dropped := client.replies (planCalls drops) state
        let imported := client.replies (planCalls plan) (client.after (planCalls drops) state)
        GoesThrough s.flaw? dump drops plan dropped imported →
        ∃ refused, run.1 = .ok refused := by
  refine ⟨fun plan s => ⟨?_, ?_⟩, fun account mode sql s => ⟨?_, ?_⟩⟩
  · intro hgoes
    obtain ⟨s', leads, hplay⟩ := runPlan_of_unstopped hgoes
    rw [hplay]
    exact ⟨leads.calls, rfl, succeeded_iff.trans (refusals_eq_nil_iff hgoes)⟩
  · intro front reply rest failure hreplies hfront hstop
    obtain ⟨s', leads, hplay⟩ := runPlan_of_stopped hreplies hfront hstop
    rw [hplay]
    exact ⟨rfl, leads.calls⟩
  · intro refused hrefused
    obtain ⟨dump, tables, functions, procedures, state, hparse, hlists, leads, hsum, goes⟩ :=
      importDump_of_ok (Prod.ext hrefused rfl)
    refine ⟨dump, tables, functions, procedures, state, hparse, hlists, leads.calls, hsum, ?_, goes⟩
    rw [succeeded_iff, hsum, List.append_eq_nil_iff]
  · intro dump tables functions procedures state hparse hlists drops plan dropped imported goes
    obtain ⟨refused, s', hplay⟩ := importDump_of_lists hparse hlists goes
    exact ⟨refused, congrArg Prod.fst hplay⟩

/-- A client of an empty database that fails to execute one statement, and that refuses to turn the
checks off. -/
def failing (statement : Text) (failure : Failure) : Client Unit where
  listTables := pure []
  createTable name := throw (.raised { kind := "KeyError", values := [.text name] })
  listRoutines _ := pure []
  execute sent := if sent = statement then throw failure else pure ()
  disableForeignKeyChecks := throw (.execution (.text "no such setting") [] none)

/-- A statement in the middle of a plan that is refused, one that fails otherwise, and a refused
statement of an import. -/
theorem runPlan_accounts_failing :
    let plan : List Text := ["a", "b", "c"]
    let create : Text := "CREATE TABLE t (a int)"
    let refusal : Failure := .execution (.text "syntax") [] (some (.integer 1064))
    let raised : Failure := .raised { kind := "ValueError" }
    let refused := (runPlan (failing "b" refusal) plan).play { state := () }
    let ended := (runPlan (failing "b" raised) plan).play { state := () }
    let codes := fun refused : List Refusal => refused.map fun refusal =>
      (refusal.statement, refusal.code)
    refused.1.map codes = .ok [("b".toList, some (.integer 1064))] ∧
      refused.2.calls = planCalls plan ∧
      ended.1 = .error raised ∧
      ended.2.calls = [.disableForeignKeyChecks, .execute "a", .execute "b"] ∧
      ∃ imported s', (importDump {} .multi true (failing create refusal) create).play { state := () } =
          (.ok imported, s') ∧
        codes imported = [(create, some (.integer 1064))] ∧
        s'.calls = listing ++ planCalls [] ++ planCalls [create] := by
  intro plan create refusal raised refused ended codes
  obtain ⟨hcalls, hrefused, -⟩ := ((runPlan_accounts (failing "b" refusal)).1 plan
    { state := () }).1 (by decide +kernel)
  obtain ⟨hended, hendedCalls⟩ := ((runPlan_accounts (failing "b" raised)).1 plan
    { state := () }).2 _ _ _ raised
      (by rfl : _ = [(.disableForeignKeyChecks, _), (.execute "a", _)] ++ (.execute "b", _) :: _)
      (by decide +kernel) (by decide +kernel)
  obtain ⟨dump, hparse, hplan⟩ := exists_ok (x := Dump.parse {} create)
    (f := fun dump => Plan.build dump .multi true) (b := [create]) (by decide +kernel)
  obtain ⟨hsum, hdone⟩ := (runPlan_accounts (failing create refusal)).2 {} .multi create
    { state := () }
  obtain ⟨imported, hok⟩ := hdone dump [] [] [] () hparse ⟨(), (), rfl, rfl, rfl⟩
    ⟨by rw [hplan]; decide +kernel, fun _ _ => rfl⟩
  obtain ⟨read, tables, functions, procedures, state, hread, ⟨_, _, htables, hfunctions, hprocedures⟩,
    himportedCalls, hdropped, -⟩ := hsum imported hok
  cases hparse.symm.trans hread
  cases htables
  cases hfunctions
  cases hprocedures
  rw [hplan] at himportedCalls hdropped
  rcases hplay : (importDump {} .multi true (failing create refusal) create).play { state := () } with
    ⟨result, s'⟩
  rw [hplay] at hok himportedCalls
  refine ⟨?_, hcalls, hended, hendedCalls, imported, s', congrArg (·, s') hok, ?_, himportedCalls⟩
  · refine (congrArg (Except.map codes) hrefused).trans ?_
    decide +kernel
  · rw [hdropped]
    decide +kernel

/-- A logger whose file has no name that can be opened ends a run behind the first refusal: the rest
of the plan is not sent, and the refusal is lost. -/
theorem runPlan_accounts_unlogged :
    let logger : Logger := { path := some ['a', '\x00', 'b'], level := .warning }
    let refusal : Failure := .execution (.text "syntax") [] (some (.integer 1064))
    let client := { failing ['a'] refusal with disableForeignKeyChecks := pure () }
    let run := (runPlan client [['a'], ['b']]).startLogged logger.failure? ()
    run.1 = .error (.raised { kind := "ValueError", values := [.text "embedded null byte"] }) ∧
      run.2.calls = [.disableForeignKeyChecks, .execute ['a']] := by
  decide +kernel

end Import

end SqlDump
