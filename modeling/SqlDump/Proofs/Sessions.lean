import SqlDump.Import

/-!
# Sessions call by call

What a call comes to depends on the client and on the state that the calls before it leave. So the
calls of a session tell its state, and which of them failed. A part of a session is described by
what holds of its calls and their failures, whatever session it goes on from.
-/

namespace SqlDump

variable {σ α β : Type}

/-- A call, and why it failed, if it did. -/
abbrev Reply := Call × Option Failure

/-! ## 1. The calls of a client -/

namespace Client

/-- How an action ends in a state: its answer or failure, and the state that it leaves. -/
def take (action : Action σ α) (state : σ) : Except Failure α × σ := action.run.run state

/-- Why an action fails in a state, if it does, and the state that it leaves. -/
def ending (action : Action σ α) (state : σ) : Option Failure × σ :=
  match take action state with
  | (.ok _, state) => (none, state)
  | (.error failure, state) => (some failure, state)

variable (client : Client σ)

/-- Why a call fails in a state, if it does, and the state that it leaves. -/
def reply : Call → σ → Option Failure × σ
  | .listTables => ending client.listTables
  | .createTable name => ending (client.createTable name)
  | .listRoutines kind => ending (client.listRoutines kind)
  | .execute statement => ending (client.execute statement)
  | .disableForeignKeyChecks => ending client.disableForeignKeyChecks

/-- What the calls in order come to, from a state on. -/
def replies : List Call → σ → List Reply
  | [], _ => []
  | call :: calls, state =>
    (call, (client.reply call state).1) :: replies calls (client.reply call state).2

/-- The state that the calls in order leave. -/
def after (calls : List Call) (state : σ) : σ :=
  calls.foldl (fun state call => (client.reply call state).2) state

theorem after_append (calls more : List Call) (state : σ) :
    client.after (calls ++ more) state = client.after more (client.after calls state) :=
  List.foldl_append

theorem replies_append (calls more : List Call) (state : σ) :
    client.replies (calls ++ more) state =
      client.replies calls state ++ client.replies more (client.after calls state) := by
  induction calls generalizing state with
  | nil => rfl
  | cons call calls ih => exact congrArg (_ :: ·) (ih _)

theorem map_replies (calls : List Call) (state : σ) :
    (client.replies calls state).map (·.1) = calls := by
  induction calls generalizing state with
  | nil => rfl
  | cons call calls ih => exact congrArg (call :: ·) (ih _)

end Client

/-! ## 2. Parts of a session, one after another -/

namespace Run

/-- How a part ends in a session: its result or failure, and the session that it leaves. -/
def play (run : Run σ α) (s : Session σ) : Except Failure α × Session σ := run.run.run s

theorem play_bind (run : Run σ α) (next : α → Run σ β) (s : Session σ) :
    (run >>= next).play s =
      match run.play s with
      | (.ok a, s') => (next a).play s'
      | (.error failure, s') => (.error failure, s') := by
  unfold play
  rw [ExceptT.run_bind, StateT.run_bind]
  rcases run.run.run s with ⟨_ | _, s'⟩ <;> rfl

theorem play_map (f : α → β) (run : Run σ α) (s : Session σ) :
    (f <$> run).play s = ((run.play s).1.map f, (run.play s).2) := by
  rw [map_eq_pure_bind, play_bind]
  rcases run.play s with ⟨_ | _, s'⟩ <;> rfl

theorem play_tryCatch (run : Run σ α) (handle : Failure → Run σ α) (s : Session σ) :
    (tryCatch run handle : Run σ α).play s =
      match run.play s with
      | (.ok a, s') => (.ok a, s')
      | (.error failure, s') => (handle failure).play s' := by
  unfold play
  change (ExceptT.tryCatch run handle).run.run s = _
  unfold ExceptT.tryCatch
  rw [ExceptT.run_mk, StateT.run_bind]
  change ((run.run.run s : Id _) >>= _) = _
  rcases run.run.run s with ⟨_ | _, s'⟩ <;> rfl

theorem play_bind_eq_ok {run : Run σ α} {next : α → Run σ β} {s s'' : Session σ} {b : β} :
    (run >>= next).play s = (.ok b, s'') ↔
      ∃ a s', run.play s = (.ok a, s') ∧ (next a).play s' = (.ok b, s'') := by
  rw [play_bind]
  rcases run.play s with ⟨failure | a, s'⟩
  · simp
  · constructor
    · intro h
      exact ⟨a, s', rfl, h⟩
    · rintro ⟨_, _, ⟨⟩, h⟩
      exact h

theorem play_map_eq_ok {f : α → β} {run : Run σ α} {s s' : Session σ} {b : β} :
    (f <$> run).play s = (.ok b, s') ↔ ∃ a, run.play s = (.ok a, s') ∧ f a = b := by
  rw [play_map]
  rcases run.play s with ⟨failure | a, s''⟩
  · simp [Except.map]
  · constructor
    · intro h
      obtain ⟨hb, rfl⟩ := Prod.mk.inj h
      exact ⟨a, rfl, Except.ok.inj hb⟩
    · rintro ⟨_, ⟨⟩, rfl⟩
      rfl

theorem play_ofRead_eq_ok {result : Except ReadError α} {s s' : Session σ} {a : α} :
    (ofRead result).play s = (.ok a, s') ↔ result = .ok a ∧ s' = s := by
  cases result with
  | ok a' =>
    change (Except.ok a', s) = (Except.ok a, s') ↔ _
    simp [eq_comm]
  | error e =>
    change (Except.error (Failure.reading e), s) = (Except.ok a, s') ↔ _
    simp

end Run

/-- A session leads to another one by some calls: they are noted, and their state is left. -/
structure Session.Leads (client : Client σ) (made : List Call) (s s' : Session σ) : Prop where
  calls : s'.calls = s.calls ++ made
  state : s'.state = client.after made s.state
  flaw? : s'.flaw? = s.flaw?

namespace Session.Leads

variable {client : Client σ} {calls more : List Call} {s s' s'' : Session σ}

theorem refl (s : Session σ) : Leads client [] s s := ⟨(List.append_nil _).symm, rfl, rfl⟩

theorem trans (h : Leads client calls s s') (h' : Leads client more s' s'') :
    Leads client (calls ++ more) s s'' where
  calls := by rw [h'.calls, h.calls, List.append_assoc]
  state := by rw [h'.state, h.state, client.after_append]
  flaw? := h'.flaw?.trans h.flaw?

theorem trans_silent (h : Leads client calls s s') (h' : Leads client [] s' s'') :
    Leads client calls s s'' := by
  have hboth := h.trans h'
  rwa [List.append_nil] at hboth

theorem replies_append (h : Leads client calls s s') (more : List Call) :
    client.replies (calls ++ more) s.state =
      client.replies calls s.state ++ client.replies more s'.state := by
  rw [client.replies_append, h.state]

end Session.Leads

namespace Run

theorem play_log_eq (level : Level) (stage : Stage) (message : Text) (s : Session σ) :
    (log level stage message).play s = ((s.flaw? { level, stage, message }).elim (.ok ()) .error,
      { s with log := s.log ++ [{ level, stage, message }] }) := rfl

/-- Logging makes no calls. It ends in what goes wrong there, if anything does. -/
theorem play_log (client : Client σ) (level : Level) (stage : Stage) (message : Text)
    (s : Session σ) : ∃ s', s.Leads client [] s' ∧ (log level stage message).play s =
      ((s.flaw? { level, stage, message }).elim (.ok ()) .error, s') :=
  ⟨{ s with log := s.log ++ [{ level, stage, message }] },
    ⟨(List.append_nil _).symm, rfl, rfl⟩, play_log_eq level stage message s⟩

/-- A call is made as the client makes it. -/
theorem play_call (client : Client σ) (made : Call) {action : Action σ α}
    (h : ∀ state, client.reply made state = Client.ending action state) (s : Session σ) :
    ∃ s', s.Leads client [made] s' ∧ s'.state = (Client.take action s.state).2 ∧
      (call made action).play s = ((Client.take action s.state).1, s') := by
  refine ⟨{ s with state := (Client.take action s.state).2, calls := s.calls ++ [made] },
    ⟨rfl, ?_, rfl⟩, rfl, rfl⟩
  change (Client.take action s.state).2 = (client.reply made s.state).2
  rw [h, Client.ending]
  rcases Client.take action s.state with ⟨_ | _, _⟩ <;> rfl

theorem play_call_eq_ok (client : Client σ) (made : Call) {action : Action σ α}
    (h : ∀ state, client.reply made state = Client.ending action state) {s s' : Session σ} {a : α}
    (answered : (call made action).play s = (.ok a, s')) :
    Client.take action s.state = (.ok a, s'.state) ∧ s.Leads client [made] s' := by
  obtain ⟨s₁, leads, hstate, hplay⟩ := play_call client made h s
  rw [hplay] at answered
  obtain ⟨hanswer, rfl⟩ := Prod.mk.inj answered
  exact ⟨Prod.ext hanswer hstate.symm, leads⟩

/-! ## 3. What holds of a part wherever it stands -/

/-- What holds of the calls of a part, with their failures, and of whether it comes to its end. -/
def Ensures (client : Client σ) (run : Run σ α) (P : List Reply → Bool → Prop) : Prop :=
  ∀ s : Session σ, ∃ calls, s.Leads client calls (run.play s).2 ∧
    P (client.replies calls s.state) (run.play s).1.isOk

namespace Ensures

variable {client : Client σ} {run : Run σ α} {P Q R : List Reply → Bool → Prop}

theorem mono (h : Ensures client run P) (hPQ : ∀ replies done, P replies done → Q replies done) :
    Ensures client run Q := by
  intro s
  obtain ⟨calls, leads, holds⟩ := h s
  exact ⟨calls, leads, hPQ _ _ holds⟩

theorem silent (h : Ensures client run fun replies _ => replies = []) (s : Session σ) :
    s.Leads client [] (run.play s).2 := by
  obtain ⟨calls, leads, hreplies⟩ := h s
  have hcalls : calls = [] := by
    rw [← client.map_replies calls s.state, hreplies]
    rfl
  exact hcalls ▸ leads

theorem pure {a : α} (h : P [] true) : Ensures client (Pure.pure a) P := by
  intro s
  exact ⟨[], .refl s, h⟩

theorem throw {failure : Failure} (h : P [] false) :
    Ensures client (MonadExcept.throw failure : Run σ α) P := by
  intro s
  exact ⟨[], .refl s, h⟩

theorem log {level : Level} {stage : Stage} {message : Text} (h : ∀ done, P [] done) :
    Ensures client (Run.log level stage message) P := by
  intro s
  obtain ⟨s', leads, hplay⟩ := play_log client level stage message s
  rw [hplay]
  exact ⟨[], leads, h _⟩

theorem ofRead {result : Except ReadError α} (h : ∀ done, P [] done) :
    Ensures client (Run.ofRead result) P := by
  intro s
  cases result with
  | ok a => exact ⟨[], .refl s, h _⟩
  | error e => exact ⟨[], .refl s, h _⟩

theorem call {made : Call} {action : Action σ α}
    (h : ∀ state, client.reply made state = Client.ending action state)
    (hP : ∀ failure, P [(made, failure)] failure.isNone) :
    Ensures client (Run.call made action) P := by
  intro s
  obtain ⟨s', leads, -, hplay⟩ := play_call client made h s
  have hreplies : client.replies [made] s.state = [(made, (Client.ending action s.state).1)] := by
    rw [← h]
    rfl
  rw [hplay]
  refine ⟨[made], leads, ?_⟩
  rw [hreplies, Client.ending]
  rcases Client.take action s.state with ⟨failure | a, state⟩
  · exact hP (some failure)
  · exact hP none

/-- A part and the one that its result calls for. -/
theorem bind {next : α → Run σ β} (first : Ensures client run P)
    (rest : ∀ a, Ensures client (next a) Q) (stops : ∀ replies, P replies false → R replies false)
    (goes : ∀ replies more done, P replies true → Q more done → R (replies ++ more) done) :
    Ensures client (run >>= next) R := by
  intro s
  obtain ⟨calls, leads, holds⟩ := first s
  rw [play_bind]
  rcases hplay : run.play s with ⟨failure | a, s'⟩
  · rw [hplay] at leads holds
    exact ⟨calls, leads, stops _ holds⟩
  · rw [hplay] at leads holds
    obtain ⟨more, leads', holds'⟩ := rest a s'
    refine ⟨calls ++ more, leads.trans leads', ?_⟩
    rw [leads.replies_append]
    exact goes _ _ _ holds holds'

theorem map {f : α → β} (h : Ensures client run P) : Ensures client (f <$> run) P := by
  intro s
  obtain ⟨calls, leads, holds⟩ := h s
  rw [play_map]
  refine ⟨calls, leads, ?_⟩
  cases hresult : (run.play s).1 <;> rw [hresult] at holds <;> exact holds

/-- A part whose failures are handed on, perhaps as others. -/
theorem rethrow {handle : Failure → Run σ α} (h : Ensures client run P)
    (handled : ∀ failure, Ensures client (handle failure) fun replies done =>
      replies = [] ∧ done = false) : Ensures client (tryCatch run handle) P := by
  intro s
  obtain ⟨calls, leads, holds⟩ := h s
  rw [play_tryCatch]
  rcases hplay : run.play s with ⟨failure | a, s'⟩
  · rw [hplay] at leads holds
    have leads' := ((handled failure).mono fun _ _ h => h.1).silent s'
    obtain ⟨-, -, -, hdone⟩ := handled failure s'
    refine ⟨calls, leads.trans_silent leads', ?_⟩
    dsimp only
    rw [hdone]
    exact holds
  · rw [hplay] at leads holds
    exact ⟨calls, leads, holds⟩

end Ensures

end Run

end SqlDump
