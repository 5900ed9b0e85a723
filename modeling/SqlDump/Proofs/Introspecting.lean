import SqlDump.Proofs.LiveTables
import SqlDump.Proofs.Logs

/-!
# Reading a database whole or not at all

The structure of a database is read call by call: the tables are listed, and then each is asked for
in the order of the list. The first call that fails ends the reading, and it is told what was being
read, in a line of the log. So a model comes from the statements of all tables, and a comparison is
made with nothing less.
-/

namespace SqlDump

open Outcome

variable {σ α : Type}

/-! ## 1. Sessions going on -/

namespace Session

/-- The session after some calls and log entries. -/
def past (client : Client σ) (made : List Call) (entries : List Entry) (s : Session σ) :
    Session σ :=
  { s with
    state := client.after made s.state
    calls := s.calls ++ made
    log := s.log ++ entries }

variable (client : Client σ) (s : Session σ)

theorem past_nil : s.past client [] [] = s := by
  unfold past
  rw [List.append_nil, List.append_nil]
  rfl

theorem past_past (made more : List Call) (entries further : List Entry) :
    (s.past client made entries).past client more further =
      s.past client (made ++ more) (entries ++ further) := by
  unfold past
  simp only [client.after_append, List.append_assoc]

end Session

namespace Run

theorem play_log_past (client : Client σ) (s : Session σ) (level : Level) (stage : Stage)
    (message : Text) : (log level stage message).play s =
      ((s.flaw? { level, stage, message }).elim (.ok ()) .error,
        s.past client [] [{ level, stage, message }]) := by
  unfold Session.past
  rw [List.append_nil]
  rfl

theorem play_call_past (client : Client σ) (made : Call) {action : Action σ α}
    (h : ∀ state, client.reply made state = Client.ending action state) (s : Session σ) :
    (call made action).play s = ((Client.take action s.state).1, s.past client [made] []) := by
  have hstate : (Client.take action s.state).2 = client.after [made] s.state := by
    change _ = (client.reply made s.state).2
    rw [h, Client.ending]
    rcases Client.take action s.state with ⟨_ | _, _⟩ <;> rfl
  unfold Session.past
  rw [← hstate, List.append_nil]
  rfl

end Run

/-! ## 2. What is told of a call that failed -/

/-- What a call asks for by name. -/
def Call.target : Call → Option Text
  | .createTable name => some name
  | _ => none

namespace Introspection

/-- The message and the report of the failure that a failed call comes to. A failure to read the
structure stays as it is. Any other is the cause of one, which names what was being read. -/
def told (call : Call) : Failure → Text × Report
  | .introspection message report => (message, report)
  | failure => ("Failed to read the database structure: " ++ failure.message,
      .introspection failure.cause call.target)

/-- What is logged where a call failed. -/
def complaint (call : Call) (failure : Failure) : Entry :=
  { level := .error, stage := .introspect, message := (told call failure).2.message }

/-- What is logged where a call failed, if the program is not to end. -/
def complaints (call : Call) (failure : Failure) : List Entry :=
  if failure.halts then [] else [complaint call failure]

/-- What is raised where a call failed: what is told of it, unless logging this goes wrong. What is
to end the program is raised as it is. -/
def raised (flaw? : Entry → Option Failure) (call : Call) (failure : Failure) : Failure :=
  if failure.halts then failure
  else (flaw? (complaint call failure)).getD
    (.introspection (told call failure).1 (told call failure).2)

/-- What is logged where a model is read from so many tables. -/
def readEntry (tables : Nat) : Entry :=
  { level := .info, stage := .introspect
    message := "Read the structure of " ++ natText tables ++ " tables" }

variable {client : Client σ} {s : Session σ}

theorem play_complaint (client : Client σ) (s : Session σ) {call : Call} {failure : Failure}
    (h : failure.halts = false) : (do
      Run.log .error .introspect (told call failure).2.message
      throw (.introspection (told call failure).1 (told call failure).2) : Run σ α).play s =
        (.error (raised s.flaw? call failure), s.past client [] (complaints call failure)) := by
  rw [Run.play_bind, Run.play_log_past client, raised, complaints, h, complaint]
  cases s.flaw? _ <;> rfl

theorem play_guarded_error {call : Call} {step : Run σ α} {s' : Session σ} {failure : Failure}
    (h : step.play s = (.error failure, s')) : (guarded call.target step).play s =
      (.error (raised s'.flaw? call failure), s'.past client [] (complaints call failure)) := by
  unfold guarded
  rw [Run.play_tryCatch, h]
  dsimp only
  cases hhalts : failure.halts with
  | true =>
    rw [raised, complaints, if_pos hhalts, if_pos hhalts, s'.past_nil client]
    rfl
  | false =>
    rw [← play_complaint client s' hhalts]
    cases failure <;> rfl

section Calls

variable {made : Call} (action : Action σ α)
  (h : ∀ state, client.reply made state = Client.ending action state)

include h

theorem play_guarded_failed {failure : Failure}
    (failed : (client.reply made s.state).1 = some failure) :
    (guarded made.target (Run.call made action)).play s =
      (.error (raised s.flaw? made failure), s.past client [made] (complaints made failure)) := by
  have hplay := Run.play_call_past client made h s
  rw [h, Client.ending] at failed
  rcases htake : Client.take action s.state with ⟨failure' | answer, state⟩
  · rw [htake] at failed hplay
    obtain rfl := Option.some.inj failed
    rw [play_guarded_error hplay, s.past_past client]
    rfl
  · rw [htake] at failed
    cases failed

theorem play_guarded_answered (answered : (client.reply made s.state).1 = none) :
    ∃ answer, Client.take action s.state = (.ok answer, client.after [made] s.state) ∧
      (guarded made.target (Run.call made action)).play s =
        (.ok answer, s.past client [made] []) := by
  have hplay := Run.play_call_past client made h s
  have hstate : client.after [made] s.state = (Client.ending action s.state).2 := by
    rw [← h]
    rfl
  rw [h, Client.ending] at answered
  rw [Client.ending] at hstate
  rcases htake : Client.take action s.state with ⟨failure | answer, state⟩
  · rw [htake] at answered
    cases answered
  · rw [htake] at hplay hstate
    exact ⟨answer, by rw [hstate], play_guarded hplay⟩

end Calls

/-! ## 3. One table after another -/

/-- Up to the first call that fails, each table is asked for. -/
theorem play_mapM_failed {tables : List Text} {front rest : List Reply} {call : Call}
    {failure : Failure}
    (h : client.replies (tables.map .createTable) s.state = front ++ (call, some failure) :: rest)
    (hfront : ∀ earlier ∈ front, earlier.2 = none) :
    (tables.mapM fun table => guarded (some table) (client.create table)).play s =
      (.error (raised s.flaw? call failure),
        s.past client (front.map (·.1) ++ [call]) (complaints call failure)) := by
  induction tables generalizing s front with
  | nil => simp [Client.replies] at h
  | cons table tables ih =>
    rw [List.mapM_cons, Run.play_bind]
    rw [List.map_cons, Client.replies] at h
    cases front with
    | nil =>
      obtain ⟨hcall, -⟩ := List.cons.inj h
      obtain ⟨rfl, hfailed⟩ := Prod.mk.inj hcall
      have hplay := play_guarded_failed (client.createTable table) (fun _ => rfl) hfailed
      rw [show (guarded (some table) (client.create table)).play s = _ from hplay]
      rfl
    | cons first front =>
      obtain ⟨hfirst, hlater⟩ := List.forall_mem_cons.mp hfront
      obtain ⟨rfl, htail⟩ := List.cons.inj h
      obtain ⟨create, -, hplay⟩ :=
        play_guarded_answered (client.createTable table) (fun _ => rfl) hfirst
      have hrest := ih (s := s.past client [.createTable table] []) htail hlater
      rw [show (guarded (some table) (client.create table)).play s = _ from hplay]
      dsimp only
      rw [Run.play_bind, hrest, s.past_past client]
      rfl

theorem play_mapM_answered {tables : List Text}
    (h : ∀ reply ∈ client.replies (tables.map .createTable) s.state, reply.2 = none) :
    ∃ shown : Ordered Text, shown.keys = tables ∧ client.Shows s.state shown ∧
      (tables.mapM fun table => guarded (some table) (client.create table)).play s =
        (.ok (shown.map (·.2)), s.past client (tables.map .createTable) []) := by
  induction tables generalizing s with
  | nil =>
    refine ⟨[], rfl, .nil _, ?_⟩
    show _ = (_, s.past client [] [])
    rw [s.past_nil client]
    rfl
  | cons table tables ih =>
    rw [List.map_cons, Client.replies] at h
    obtain ⟨hfirst, hrest⟩ := List.forall_mem_cons.mp h
    obtain ⟨create, htake, hplay⟩ :=
      play_guarded_answered (client.createTable table) (fun _ => rfl) hfirst
    obtain ⟨shown, hkeys, hshown, hmore⟩ := ih (s := s.past client [.createTable table] []) hrest
    refine ⟨(table, create) :: shown, congrArg (table :: ·) hkeys, .cons htake hshown, ?_⟩
    rw [List.mapM_cons, Run.play_bind, show (guarded (some table) (client.create table)).play s = _
      from hplay]
    dsimp only
    rw [Run.play_bind, hmore, s.past_past client]
    rfl

/-- The calls that read the structure of a database, if none fails. -/
def structureCalls (client : Client σ) (state : σ) : List Call :=
  .listTables :: match (Client.take client.listTables state).1 with
    | .ok tables => tables.map .createTable
    | .error _ => []

/-- What these calls come to. -/
def structureReplies (client : Client σ) (state : σ) : List Reply :=
  client.replies (structureCalls client state) state

theorem play_creates_failed {front rest : List Reply} {call : Call} {failure : Failure}
    (h : structureReplies client s.state = front ++ (call, some failure) :: rest)
    (hfront : ∀ earlier ∈ front, earlier.2 = none) :
    (creates client).play s = (.error (raised s.flaw? call failure),
      s.past client (front.map (·.1) ++ [call]) (complaints call failure)) := by
  unfold creates
  rw [Run.play_bind]
  rw [structureReplies, structureCalls, Client.replies] at h
  cases front with
  | nil =>
    obtain ⟨hcall, -⟩ := List.cons.inj h
    obtain ⟨rfl, hfailed⟩ := Prod.mk.inj hcall
    have hplay := play_guarded_failed client.listTables (fun _ => rfl) hfailed
    rw [show (guarded none client.tables).play s = _ from hplay]
    rfl
  | cons first front =>
    obtain ⟨hfirst, hlater⟩ := List.forall_mem_cons.mp hfront
    obtain ⟨rfl, htail⟩ := List.cons.inj h
    obtain ⟨tables, htake, hplay⟩ :=
      play_guarded_answered client.listTables (fun _ => rfl) hfirst
    rw [htake] at htail
    have hrest := play_mapM_failed (s := s.past client [.listTables] []) htail hlater
    rw [show (guarded none client.tables).play s = _ from hplay]
    dsimp only
    rw [hrest, s.past_past client]
    rfl

theorem play_creates_answered (h : ∀ reply ∈ structureReplies client s.state, reply.2 = none) :
    ∃ (shown : Ordered Text) (state : σ),
      Client.take client.listTables s.state = (.ok shown.keys, state) ∧ client.Shows state shown ∧
      (creates client).play s =
        (.ok (shown.map (·.2)), s.past client (structureCalls client s.state) []) := by
  unfold creates
  rw [structureReplies, structureCalls, Client.replies] at h
  obtain ⟨hfirst, hrest⟩ := List.forall_mem_cons.mp h
  obtain ⟨tables, htake, hplay⟩ :=
    play_guarded_answered client.listTables (fun _ => rfl) hfirst
  rw [htake] at hrest
  obtain ⟨shown, rfl, hshown, hmore⟩ :=
    play_mapM_answered (s := s.past client [.listTables] []) hrest
  refine ⟨shown, _, htake, hshown, ?_⟩
  rw [Run.play_bind, show (guarded none client.tables).play s = _ from hplay]
  dsimp only
  rw [hmore, s.past_past client, structureCalls, htake]
  rfl

/-! ## 4. Models and comparisons -/

-- What ends a part ends what goes on from it.
theorem play_bind_error {β : Type} {run : Run σ α} {s' : Session σ} {failure : Failure}
    (h : run.play s = (.error failure, s')) (next : α → Run σ β) :
    (run >>= next).play s = (.error failure, s') := by
  rw [Run.play_bind, h]

theorem play_model_failed (account : Account) {front rest : List Reply} {call : Call}
    {failure : Failure}
    (h : structureReplies client s.state = front ++ (call, some failure) :: rest)
    (hfront : ∀ earlier ∈ front, earlier.2 = none) :
    (model account client).play s = (.error (raised s.flaw? call failure),
      s.past client (front.map (·.1) ++ [call]) (complaints call failure)) :=
  play_bind_error (play_creates_failed h hfront) _

theorem play_model_answered (account : Account)
    (h : ∀ reply ∈ structureReplies client s.state, reply.2 = none) :
    ∃ (shown : Ordered Text) (state : σ),
      Client.take client.listTables s.state = (.ok shown.keys, state) ∧ client.Shows state shown ∧
      (model account client).play s =
        ((s.flaw? (readEntry shown.length)).elim
          ((Model.ofSql account (asDump (shown.map (·.2)))).mapError .reading) .error,
        s.past client (structureCalls client s.state) [readEntry shown.length]) := by
  obtain ⟨shown, state, hlisted, hshown, hplay⟩ := play_creates_answered h
  refine ⟨shown, state, hlisted, hshown, ?_⟩
  unfold model
  rw [Run.play_bind, hplay]
  dsimp only
  rw [Run.play_bind, Run.play_log_past client, s.past_past client, List.append_nil,
    List.length_map, readEntry]
  rw [show (s.past client _ []).flaw? = s.flaw? from rfl]
  cases s.flaw? _ with
  | some failure => rfl
  | none => cases Model.ofSql account (asDump (shown.map (·.2))) <;> rfl

-- What is read behind a log entry is what was read, as nothing went wrong.
theorem eq_ok_of_elim {flaw : Option Failure} {read : Except ReadError α} {a : α}
    (h : flaw.elim (read.mapError .reading) .error = .ok a) : read = .ok a := by
  cases flaw with
  | some failure => cases h
  | none =>
    cases read with
    | error e => cases h
    | ok b => exact congrArg Except.ok (Except.ok.inj h)

-- Calls that did not all succeed have a first one that failed.
theorem answered_or_failed (replies : List Reply) : (∀ reply ∈ replies, reply.2 = none) ∨
    ∃ front call failure rest, replies = front ++ (call, some failure) :: rest ∧
      ∀ earlier ∈ front, earlier.2 = none := by
  cases hfound : replies.find? (·.2.isSome) with
  | none => exact Or.inl fun reply hreply => by simpa using List.find?_eq_none.mp hfound reply hreply
  | some reply =>
    obtain ⟨hfailed, front, rest, hreplies, hfront⟩ := List.find?_eq_some_iff_append.mp hfound
    obtain ⟨call, _ | failure⟩ := reply
    · cases hfailed
    · exact Or.inr ⟨front, call, failure, rest, hreplies, fun earlier hearlier => by
        simpa using hfront earlier hearlier⟩

/-- Whether each of some tables of different names is shown by its CREATE TABLE statement, which
stands alone. -/
structure ShownApart (shown : Ordered Text) : Prop where
  unique : shown.keys.Nodup
  named : [] ∉ shown.keys
  alone : ∀ entry ∈ shown, ∃ text,
    Statement.StandsAlone entry.2 { kind := .createTable, name := some entry.1, text }

-- That a statement stands alone can be computed.
theorem exists_standsAlone {name create : Text}
    (view : (Statement.split {} create).toOption.map (·.map fun s => (s.kind, s.name)) =
      some [(.createTable, some name)])
    (closed : Quoting.outside.after (cleanText create) = .outside)
    (quiet : ∀ line ∈ Text.feeds (cleanText create), Delimiter.declared? line = none)
    (uncommented : Text.isComment (Text.lastLine create) = false) : ∃ text,
      Statement.StandsAlone create { kind := .createTable, name := some name, text } := by
  obtain ⟨statements, split, view⟩ := exists_ok view
  match statements, view with
  | [⟨kind, found, text⟩], view =>
    cases view
    exact ⟨text, split, closed, quiet, uncommented⟩

/-- Tables that are shown so are the tables of the model. -/
theorem ShownApart.keys {shown : Ordered Text} (h : ShownApart shown) {account : Account}
    {source : Model} (read : Model.ofSql account (asDump (shown.map (·.2))) = .ok source) :
    source.keys = shown.keys := by
  obtain ⟨unique, named, alone⟩ := h
  choose! text alone using alone
  let statement : Text × Text → Statement := fun entry =>
    { kind := .createTable, name := some entry.1, text := text entry }
  have htable : ∀ entry ∈ shown, (statement entry).tableOf? .createTable = some entry.1 := by
    intro entry hentry
    have hne : entry.1 ≠ [] := fun h => named (h ▸ List.mem_map_of_mem hentry)
    rw [Statement.tableOf?, if_pos rfl, Statement.named?]
    exact Option.filter_eq_some_iff.mpr ⟨rfl, decide_eq_true hne⟩
  have hnames : (shown.map statement).filterMap (·.tableOf? .createTable) = shown.keys := by
    have hall : shown.filterMap ((·.tableOf? .createTable) ∘ statement) =
        shown.filterMap (some ∘ (·.1)) := List.filterMap_congr htable
    rw [List.filterMap_map, hall, List.filterMap_eq_map]
    rfl
  rw [← hnames]
  refine Model.keys_of_tables (@Statement.split_asDump shown statement account alone) ?_
    (hnames ▸ unique) ?_ read
  · intro s hs
    obtain ⟨entry, -, rfl⟩ := List.mem_map.mp hs
    rfl
  · intro s hs
    obtain ⟨entry, hentry, rfl⟩ := List.mem_map.mp hs
    rw [htable entry hentry]
    rfl

theorem model_of_compare {account : Account} {sql : Text} {result : Comparison}
    (h : ((compare account client sql).play s).1 = .ok result) :
    ∃ source s' target, (model account client).play s = (.ok source, s') ∧
      Model.ofSql account sql = .ok target ∧ result = Model.compare source target := by
  unfold compare at h
  obtain ⟨source, s', hmodel, h⟩ := Run.play_bind_eq_ok.mp (Prod.ext h rfl)
  obtain ⟨target, s'', hread, h⟩ := Run.play_bind_eq_ok.mp h
  refine ⟨source, s', target, hmodel, (Run.play_ofRead_eq_ok.mp hread).1, ?_⟩
  dsimp only at h
  split at h
  · obtain ⟨_, _, -, h⟩ := Run.play_bind_eq_ok.mp h
    exact (Except.ok.inj (Prod.mk.inj h).1).symm
  · obtain ⟨_, _, -, h⟩ := Run.play_bind_eq_ok.mp h
    exact (Except.ok.inj (Prod.mk.inj h).1).symm

/-- **A database is read whole or not at all.** The tables are listed and then asked for in order,
up to the first call that fails; nothing else is called. A failure is raised: as it is if it is a
failure to read, and otherwise as the cause of one that names the table. Every logger writes one line
of it, where it writes at all. What is to end the program is raised without a line. Without a failure
the number of tables is written once, by loggers of information, and the model is that of all
statements. A comparison is only made with such a model, and no table is missing in it of those that
are shown apart. -/
theorem model_fails_fast (client : Client σ) (account : Account) (s : Session σ) :
    (∀ front call failure rest,
      structureReplies client s.state = front ++ (call, some failure) :: rest →
      (∀ earlier ∈ front, earlier.2 = none) →
      let s' := s.past client (front.map (·.1) ++ [call]) (complaints call failure)
      (model account client).play s = (.error (raised s.flaw? call failure), s') ∧
      (∀ sql, (compare account client sql).play s = (.error (raised s.flaw? call failure), s')) ∧
      ∀ (logger : Logger) (now : Moment) (output : Output),
        logger.writeAll now output s'.log = logger.put (logger.writeAll now output s.log)
          (if failure.halts then [] else [(complaint call failure).line now ++ "\n"])) ∧
    ((∀ reply ∈ structureReplies client s.state, reply.2 = none) →
      ∃ (shown : Ordered Text) (state : σ),
        Client.take client.listTables s.state = (.ok shown.keys, state) ∧
        client.Shows state shown ∧
        let s' := s.past client (structureCalls client s.state) [readEntry shown.length]
        (model account client).play s = ((s.flaw? (readEntry shown.length)).elim
          ((Model.ofSql account (asDump (shown.map (·.2)))).mapError .reading) .error, s') ∧
        ∀ (logger : Logger) (now : Moment) (output : Output),
          logger.writeAll now output s'.log = logger.put (logger.writeAll now output s.log)
            (if logger.level = .info then [(readEntry shown.length).line now ++ "\n"] else [])) ∧
    ∀ sql result, ((compare account client sql).play s).1 = .ok result →
      (∀ reply ∈ structureReplies client s.state, reply.2 = none) ∧
      ∃ (shown : Ordered Text) (state : σ) (source target : Model),
        Client.take client.listTables s.state = (.ok shown.keys, state) ∧
        client.Shows state shown ∧
        Model.ofSql account (asDump (shown.map (·.2))) = .ok source ∧
        Model.ofSql account sql = .ok target ∧ result = Model.compare source target ∧
        (ShownApart shown → source.keys = shown.keys) := by
  refine ⟨?_, ?_, ?_⟩
  · intro front call failure rest h hfront s'
    have hmodel := play_model_failed account h hfront
    refine ⟨hmodel, fun sql => play_bind_error hmodel _, fun logger now output => ?_⟩
    rw [show s'.log = s.log ++ complaints call failure from rfl, logger.writeAll_append, complaints]
    split
    · rfl
    · rw [logger.lines_error now rfl]
  · intro hall
    obtain ⟨shown, state, hlisted, hshown, hplay⟩ := play_model_answered account hall
    refine ⟨shown, state, hlisted, hshown, hplay, fun logger now output => ?_⟩
    rw [← logger.lines_info now rfl, ← logger.writeAll_append]
    rfl
  · intro sql result hresult
    obtain ⟨source, s', target, hmodel, htarget, rfl⟩ := model_of_compare hresult
    rcases answered_or_failed (structureReplies client s.state) with
      hall | ⟨front, call, failure, rest, h, hfront⟩
    · obtain ⟨shown, state, hlisted, hshown, hplay⟩ := play_model_answered account hall
      have hsource : Model.ofSql account (asDump (shown.map (·.2))) = .ok source :=
        eq_ok_of_elim (Prod.mk.inj (hplay.symm.trans hmodel)).1
      exact ⟨hall, shown, state, source, target, hlisted, hshown, hsource, htarget, rfl,
        fun apart => apart.keys hsource⟩
    · cases (play_model_failed account h hfront).symm.trans hmodel

/-- A client of three tables, whose call for the second one fails if there is a failure. -/
def stumbling (failure : Option Failure) : Client Unit where
  listTables := pure [['a'], ['b'], ['c']]
  createTable name :=
    match failure with
    | some failure => if name = ['b'] then throw failure else pure "CREATE TABLE t (x int)"
    | none => pure ("CREATE TABLE " ++ name ++ " (x int)")
  listRoutines _ := pure []
  execute _ := pure ()
  disableForeignKeyChecks := pure ()

theorem create_of_shows {state : Unit} {shown : Ordered Text}
    (h : (stumbling none).Shows state shown) :
    ∀ entry ∈ shown, entry.2 = "CREATE TABLE " ++ entry.1 ++ " (x int)" := by
  induction h with
  | nil => exact fun _ h => (List.not_mem_nil h).elim
  | cons first rest ih =>
    cases first
    exact List.forall_mem_cons.mpr ⟨rfl, ih⟩

/-- A table that cannot be read in the middle of the list, because of the connection and because it
is gone, and a comparison with three tables. -/
theorem model_fails_fast_middle :
    let lost : Failure := .raised { kind := "RuntimeError", values := [.text "connection lost"] }
    let gone : Failure := .unreadable "gone" (some ['b']) none
    let logger : Logger := { toConsole := true }
    let now : Moment := { year := 2024, month := 5, day := 1, hour := 12, minute := 0, second := 0 }
    let run := fun failure =>
      (model {} (stumbling failure)).startLogged logger.failure? ()
    let printed := fun failure => (logger.writeAll now {} (run failure).2.log).console
    let calls : List Call := [.listTables, .createTable ['a'], .createTable ['b']]
    ((run (some lost)).1 = .error (.introspection
        "Failed to read the database structure: connection lost"
        (.introspection { kind := some "RuntimeError", detail := some "connection lost" }
          (some ['b']))) ∧
      (run (some lost)).2.calls = calls ∧
      printed (some lost) = "[ERROR]   2024/05/01 12:00:00, INTROSPECT, " ++
        "Failed to read the database structure (b): RuntimeError: connection lost\n") ∧
    ((run (some gone)).1 = .error gone ∧ (run (some gone)).2.calls = calls) ∧
    printed none =
      "[INFO]    2024/05/01 12:00:00, INTROSPECT, Read the structure of 3 tables\n" ∧
    ∃ result source target, ((compare {} (stumbling none) "CREATE TABLE a (x int)").play
        { state := () }).1 = .ok result ∧
      source.keys = [['a'], ['b'], ['c']] ∧ result = Model.compare source target := by
  intro lost gone logger now run printed calls
  let s : Session Unit := { state := (), flaw? := logger.failure? }
  obtain ⟨hlost, -, hlostLine⟩ := (model_fails_fast (stumbling (some lost)) {} s).1
    [(.listTables, none), (.createTable ['a'], none)] (.createTable ['b']) lost _ rfl
    (by decide)
  obtain ⟨hgone, -⟩ := (model_fails_fast (stumbling (some gone)) {} s).1
    [(.listTables, none), (.createTable ['a'], none)] (.createTable ['b']) gone _ rfl
    (by decide)
  obtain ⟨-, hwhole, -⟩ := model_fails_fast (stumbling none) {} s
  obtain ⟨shown, state, hlisted, hshown, hread, hreadLine⟩ := hwhole (by decide +kernel)
  obtain ⟨-, -, hcompare⟩ := model_fails_fast (stumbling none) {} { state := () }
  obtain ⟨result, hresult, -⟩ := exists_ok
    (x := ((compare {} (stumbling none) "CREATE TABLE a (x int)").play { state := () }).1)
    (f := fun _ => ()) (b := ()) (by decide +kernel)
  obtain ⟨-, shown', state', source, target, hlisted', hshown', -, -, hcompared, hkeys⟩ :=
    hcompare _ result hresult
  have hnames : shown'.keys = [['a'], ['b'], ['c']] :=
    (Except.ok.inj (Prod.mk.inj hlisted').1).symm
  have apart : ShownApart shown' := by
    refine ⟨by rw [hnames]; decide, by rw [hnames]; decide, ?_⟩
    intro entry hentry
    have hname : entry.1 ∈ [['a'], ['b'], ['c']] := hnames ▸ List.mem_map_of_mem hentry
    rw [create_of_shows hshown' entry hentry]
    simp only [List.mem_cons, List.not_mem_nil, or_false] at hname
    rcases hname with h | h | h <;> rw [h] <;> exact exists_standsAlone (by decide +kernel)
      (by decide +kernel) (by decide +kernel) (by decide +kernel)
  have hcount : shown.length = 3 := by
    have hnames : shown.keys = [['a'], ['b'], ['c']] :=
      (Except.ok.inj (Prod.mk.inj hlisted).1).symm
    rw [← List.length_map (·.1), show shown.map (·.1) = _ from hnames]
    rfl
  refine ⟨⟨?_, ?_, ?_⟩, ?_, ?_, result, source, target, hresult, (hkeys apart).trans hnames,
    hcompared⟩
  · rw [show run (some lost) = _ from hlost]
    decide
  · rw [show run (some lost) = _ from hlost]
    rfl
  · show (logger.writeAll now {} (run (some lost)).2.log).console = _
    rw [show run (some lost) = _ from hlost, hlostLine]
    decide +kernel
  · rw [show run (some gone) = _ from hgone]
    exact ⟨by decide, rfl⟩
  · show (logger.writeAll now {} (run none).2.log).console = _
    rw [show run none = _ from hread, hreadLine, hcount]
    decide +kernel

/-- A logger of warnings writes no line of a database that was read, one whose file has no name that
can be opened ends the reading, an interrupt is raised as it is without a line, and a virtual table
is compared as if it were not there. -/
theorem model_fails_fast_limits :
    let quiet : Logger := { level := .warning, toConsole := true }
    let unnamed : Logger := { path := some ['\x00'] }
    let now : Moment := { year := 2024, month := 5, day := 1, hour := 12, minute := 0, second := 0 }
    let interrupt : Failure := .raised { kind := "KeyboardInterrupt", library := .halt }
    let virtual : Client Unit := { stumbling none with
      listTables := pure [['v']]
      createTable := fun _ => pure "CREATE VIRTUAL TABLE v USING fts5(x)" }
    let read := (model {} (stumbling none)).startLogged quiet.failure? ()
    let unlogged := (model {} (stumbling none)).startLogged unnamed.failure? ()
    let stopped := (model {} (stumbling (some interrupt))).startLogged quiet.failure? ()
    (read.1.isOk = true ∧ quiet.writeAll now {} read.2.log = {}) ∧
      unlogged.1 = .error (.raised {
        kind := "ValueError", values := [.text "embedded null byte"] }) ∧
      (stopped.1 = .error interrupt ∧ stopped.2.log = []) ∧
      Client.take virtual.listTables () = (.ok [['v']], ()) ∧
      ((compare {} virtual "").play { state := () }).1.map (·.same) = .ok true := by
  decide +kernel

end Introspection

end SqlDump
