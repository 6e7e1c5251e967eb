import Loggregator.Lib.Transition
import Loggregator.Plumbing.Envelope

/-!
# The loop of a syslog drain

`SyslogSink.Run` (`sinks/syslog/syslog_sink.go`) takes envelopes from its truncating buffer and
writes each of them until a write succeeds. It connects the writer when it has to and backs off
after a failed connect. The results of the writer, the timer and the select statements are
actions of the environment.
-/

namespace Loggregator.Doppler.SyslogSink

open Lib

/-- `retrystrategy.Exponential`, in nanoseconds, where `rand` is reduced by `rand.Intn`. -/
def exponential (rand counter : Nat) : Int :=
  if counter = 0 then 1000000
  else
    let tenthDuration : Nat := 2 ^ (min counter 23 - 1) * 100
    let duration : Nat := tenthDuration * 10
    let randomOffset : Int := (rand % (tenthDuration * 2) : Nat) - tenthDuration
    (duration + randomOffset) * 1000

/-- `messagePriorityValue`. -/
def messagePriorityValue (msg : Events.LogMessage) : Int :=
  match msg.messageType with
  | .OUT => 14
  | .ERR => 11
  | .other _ => -1

/-- The arguments of `Writer.Write`. -/
structure Message where
  priority : Int
  message : GoString
  sourceType : GoString
  sourceInstance : GoString
  timestamp : Int64
  deriving DecidableEq

/-- What `sendLogMessage` writes. -/
def sendLogMessage (logMessage : Events.LogMessage) : Message where
  priority := messagePriorityValue logMessage
  message := logMessage.message
  sourceType := logMessage.sourceType
  sourceInstance := logMessage.sourceInstance
  timestamp := logMessage.timestamp

/-- The calls that `Run` makes, with their results: `handleSendError` has the parts of its
message. -/
inductive Call where
  | connect (err : Option GoString)
  | handleSendError (identifier : GoString) (sleepDuration : Int) (err appId : GoString)
  | write (message : Message) (err : Option GoString)
  | close
  deriving DecidableEq

/-- Where `Run` is: at the outer select, at a call of `Connect`, at the select of the backoff, at
a call of `Write`, or at its end. It ends with a panic when an envelope has no log message. -/
inductive Pc where
  | select
  | connect (env : Events.Envelope) (numberOfTries : Nat)
  | backoff (env : Events.Envelope) (numberOfTries : Nat)
  | write (env : Events.Envelope) (numberOfTries : Nat)
  | returned
  | panicked
  deriving DecidableEq

/-- The envelope that `Run` is about to write. -/
def Pc.held : Pc → Option Events.Envelope
  | .connect env _ | .backoff env _ | .write env _ => some env
  | .select | .returned | .panicked => none

/-- The state of `Run`, the envelopes that it took from the buffer and the calls that it made. -/
structure State where
  pc : Pc := .select
  connected : Bool := false
  disconnected : Bool := false
  received : List Events.Envelope := []
  calls : List Call := []

/-- What the environment decides. -/
inductive Action where
  | disconnect
  | receive (env : Events.Envelope)
  | outputClosed
  | selectDisconnect
  | connected (err : Option GoString) (rand : Nat)
  | timer
  | written (err : Option GoString)

/-- The loop goes to `Write` when the writer is connected, and to `Connect` when it is not. -/
def attempt (connected : Bool) (env : Events.Envelope) (numberOfTries : Nat) : Pc :=
  if connected then .write env numberOfTries else .connect env numberOfTries

/-- `Run` ends; the deferred call closes the writer. -/
def State.finish (st : State) (pc : Pc) : State :=
  { st with pc := pc, calls := st.calls ++ [.close] }

/-- One step of `Run` for a drain with this identifier. -/
def step (identifier appId : GoString) (st : State) (a : Action) : Option State :=
  match st.pc, a with
  | _, .disconnect => some { st with disconnected := true }
  | .select, .receive env =>
    some { st with pc := attempt st.connected env 0, received := st.received ++ [env] }
  | .select, .outputClosed => some (st.finish .returned)
  | .select, .selectDisconnect => if st.disconnected then some (st.finish .returned) else none
  | .connect env n, .connected none _ =>
    some { st with
      pc := .write env n, connected := true, calls := st.calls ++ [.connect none] }
  | .connect env n, .connected (some err) rand =>
    some { st with
      pc := .backoff env n
      calls := st.calls ++ [.connect (some err),
        .handleSendError identifier (exponential rand n) err appId] }
  | .backoff _ _, .selectDisconnect =>
    if st.disconnected then some (st.finish .returned) else none
  | .backoff env n, .timer => some { st with pc := attempt st.connected env (n + 1) }
  | .write env n, .written err =>
    match env.logMessage with
    | none => some (st.finish .panicked)
    | some logMessage =>
      let calls := st.calls ++ [.write (sendLogMessage logMessage) err]
      match err with
      | none => some { st with pc := .select, connected := true, calls := calls }
      | some _ =>
        some { st with pc := attempt false env (n + 1), connected := false, calls := calls }
  | _, _ => none

/-- The envelopes that come out of the buffer are log messages. -/
def LogEnvelope (_ : State) : Action → Prop
  | .receive env => env.logMessage.isSome
  | _ => True

instance : (st : State) → (a : Action) → Decidable (LogEnvelope st a)
  | _, .receive env => inferInstanceAs (Decidable (env.logMessage.isSome = true))
  | _, .disconnect | _, .outputClosed | _, .selectDisconnect | _, .connected _ _ | _, .timer
  | _, .written _ => isTrue trivial

/-- The messages that were written successfully. -/
def written (calls : List Call) : List Message :=
  calls.filterMap (fun
    | .write message none => some message
    | _ => none)

/-- The call leaves the connection as it is. -/
def Call.Neutral : Call → Prop
  | .connect _ | .write _ (some _) => False
  | .handleSendError _ _ _ _ | .write _ none | .close => True

/-- The latest `Connect` succeeded and no `Write` has failed since. -/
def Connected (calls : List Call) : Prop :=
  ∃ before after, calls = before ++ .connect none :: after ∧ ∀ call ∈ after, call.Neutral

theorem Connected.concat {calls : List Call} (h : Connected calls) {call : Call}
    (hcall : call.Neutral) : Connected (calls ++ [call]) := by
  obtain ⟨before, after, rfl, hafter⟩ := h
  refine ⟨before, after ++ [call], by simp, ?_⟩
  intro c hc
  rcases List.mem_append.mp hc with hc | hc
  · exact hafter c hc
  · cases List.mem_singleton.mp hc
    exact hcall

theorem connected_connect (calls : List Call) : Connected (calls ++ [.connect none]) :=
  ⟨calls, [], rfl, by simp⟩

/-- Every `Write` was attempted on a connection. -/
def WritesConnected (calls : List Call) : Prop :=
  ∀ before message err after, calls = before ++ .write message err :: after → Connected before

theorem WritesConnected.concat {calls : List Call} (h : WritesConnected calls) {call : Call}
    (hcall : ∀ message err, call = .write message err → Connected calls) :
    WritesConnected (calls ++ [call]) := by
  have hwrites : EachTime (fun before call =>
      ∀ message err, call = .write message err → Connected before) calls := by
    rintro before _ after heq message err rfl
    exact h before message err after heq
  intro before message err after heq
  exact hwrites.concat hcall before _ after heq message err rfl

/-- What the connected flag says at each place of the loop. -/
def Pc.Flag (connected : Bool) : Pc → Prop
  | .connect _ _ | .backoff _ _ => connected = false
  | .write _ _ => connected = true
  | .select | .returned | .panicked => True

theorem attempt_flag (connected : Bool) (env : Events.Envelope) (n : Nat) :
    (attempt connected env n).Flag connected := by
  unfold attempt
  split
  · next h => exact h
  · next h => exact Bool.eq_false_iff.mpr h

theorem attempt_held (connected : Bool) (env : Events.Envelope) (n : Nat) :
    (attempt connected env n).held = some env := by
  unfold attempt
  split <;> rfl

theorem attempt_running (connected : Bool) (env : Events.Envelope) (n : Nat) :
    attempt connected env n ≠ .returned ∧ attempt connected env n ≠ .panicked := by
  unfold attempt
  split <;> simp

/-- The arguments of `Write` are those of the envelope's log message, with the priority of its
output. -/
def Writes (env : Events.Envelope) (m : Message) : Prop :=
  ∃ log, env.logMessage = some log ∧ m.message = log.message ∧ m.sourceType = log.sourceType ∧
    m.sourceInstance = log.sourceInstance ∧ m.timestamp = log.timestamp ∧
    m.priority = match log.messageType with
      | .OUT => 14
      | .ERR => 11
      | .other _ => -1

theorem writes_sendLogMessage {env : Events.Envelope} {logMessage : Events.LogMessage}
    (h : env.logMessage = some logMessage) : Writes env (sendLogMessage logMessage) :=
  ⟨logMessage, h, rfl, rfl, rfl, rfl, rfl⟩

/-- The envelopes that were received before the one in hand are written, each of them once. An
envelope that is in hand when `Run` returns is not written. -/
def Forwarded (st : State) : Prop :=
  ∃ done, List.Forall₂ Writes done (written st.calls) ∧
    (st.received = done ++ st.pc.held.toList ∨
      st.pc = .returned ∧ ∃ env, st.received = done ++ [env])

/-- `Close` is the last call of `Run`. -/
def Closed (st : State) : Prop :=
  if st.pc = .returned then ∃ calls, st.calls = calls ++ [.close] ∧ .close ∉ calls
  else .close ∉ st.calls

structure Inv (st : State) : Prop where
  running : st.pc ≠ .panicked
  log : ∀ env, st.pc.held = some env → env.logMessage.isSome
  flag : st.pc.Flag st.connected
  link : st.connected = true → Connected st.calls
  writes : WritesConnected st.calls
  forwarded : Forwarded st
  closed : Closed st

theorem inv_initial : Inv {} := by
  refine ⟨by simp, by simp [Pc.held], trivial, by simp, ?_, ⟨[], .nil, Or.inl rfl⟩, ?_⟩
  · intro before message err after h
    simp at h
  · simp [Closed]

section Inv

variable {st : State}

variable (h : Inv st)
include h

theorem Inv.not_closed (hpc : st.pc ≠ .returned) : .close ∉ st.calls := by
  have hclosed := h.closed
  rwa [Closed, if_neg hpc] at hclosed

/-- While `Run` has not returned, what is not written is in hand. -/
theorem Inv.in_hand (hpc : st.pc ≠ .returned) :
    ∃ done, List.Forall₂ Writes done (written st.calls) ∧
      st.received = done ++ st.pc.held.toList := by
  obtain ⟨done, hdone, hheld | ⟨hreturned, -⟩⟩ := h.forwarded
  · exact ⟨done, hdone, hheld⟩
  · exact absurd hreturned hpc

theorem Inv.disconnect : Inv { st with disconnected := true } :=
  ⟨h.running, h.log, h.flag, h.link, h.writes, h.forwarded, h.closed⟩

theorem Inv.finish (hpc : st.pc ≠ .returned) : Inv (st.finish .returned) := by
  obtain ⟨done, hdone, hheld⟩ := h.in_hand hpc
  refine ⟨by simp [State.finish], by simp [State.finish, Pc.held], trivial, ?_, ?_, ?_, ?_⟩
  · intro hconnected
    exact (h.link hconnected).concat trivial
  · exact h.writes.concat (fun message err hwrite => by cases hwrite)
  · refine ⟨done, ?_, ?_⟩
    · simpa [State.finish, written] using hdone
    · cases henv : st.pc.held with
      | none =>
        rw [henv] at hheld
        exact Or.inl hheld
      | some env =>
        rw [henv] at hheld
        exact Or.inr ⟨rfl, env, hheld⟩
  · exact (if_pos rfl).mpr ⟨st.calls, rfl, h.not_closed hpc⟩

theorem Inv.receive (hpc : st.pc = .select) {env : Events.Envelope} (henv : env.logMessage.isSome) :
    Inv { st with pc := attempt st.connected env 0, received := st.received ++ [env] } := by
  obtain ⟨done, hdone, hheld⟩ := h.in_hand (by simp [hpc])
  obtain ⟨hreturned, hpanicked⟩ := attempt_running st.connected env 0
  refine ⟨hpanicked, ?_, attempt_flag _ _ _, h.link, h.writes, ?_, ?_⟩
  · intro env' henv'
    rw [attempt_held] at henv'
    cases henv'
    exact henv
  · refine ⟨done, hdone, Or.inl ?_⟩
    rw [hpc, Pc.held, Option.toList_none, List.append_nil] at hheld
    rw [attempt_held, hheld]
    rfl
  · exact (if_neg hreturned).mpr (h.not_closed (by simp [hpc]))

/-- `Run` goes on with the same envelope, after calls that did not write it. -/
theorem Inv.retry {env : Events.Envelope} (henv : st.pc.held = some env) {pc : Pc}
    {connected : Bool} {calls : List Call} (hpc : pc.held = some env) (hflag : pc.Flag connected)
    (hcalls : written calls = []) (hclose : .close ∉ calls)
    (hlink : connected = true → Connected (st.calls ++ calls))
    (hwrites : WritesConnected (st.calls ++ calls)) :
    Inv { st with pc := pc, connected := connected, calls := st.calls ++ calls } := by
  have hrunning : ∀ {pc : Pc}, pc.held = some env → pc ≠ .returned ∧ pc ≠ .panicked := by
    rintro pc hpc
    constructor
    · rintro rfl
      cases hpc
    · rintro rfl
      cases hpc
  obtain ⟨done, hdone, hheld⟩ := h.in_hand (hrunning henv).1
  refine ⟨(hrunning hpc).2, ?_, hflag, hlink, hwrites, ⟨done, ?_, Or.inl ?_⟩, ?_⟩
  · intro env' henv'
    exact h.log env' (henv.trans (hpc.symm.trans henv'))
  · rw [written, List.filterMap_append]
    change List.Forall₂ Writes done (written st.calls ++ written calls)
    rwa [hcalls, List.append_nil]
  · rw [hheld, henv, hpc]
  · refine (if_neg (hrunning hpc).1).mpr ?_
    rw [List.mem_append, not_or]
    exact ⟨h.not_closed (hrunning henv).1, hclose⟩

/-- `Write` succeeds, and `Run` goes back to its select. -/
theorem Inv.written {env : Events.Envelope} {n : Nat} (hpc : st.pc = .write env n)
    {logMessage : Events.LogMessage} (hlog : env.logMessage = some logMessage) :
    Inv { st with
      pc := .select, connected := true
      calls := st.calls ++ [.write (sendLogMessage logMessage) none] } := by
  obtain ⟨done, hdone, hheld⟩ := h.in_hand (by simp [hpc])
  have hconnected : Connected st.calls := by
    have hflag := h.flag
    rw [hpc] at hflag
    exact h.link hflag
  refine ⟨by simp, by simp [Pc.held], trivial, fun _ => hconnected.concat trivial,
    h.writes.concat (fun _ _ _ => hconnected), ⟨done ++ [env], ?_, Or.inl ?_⟩, ?_⟩
  · rw [SyslogSink.written, List.filterMap_append]
    exact List.rel_append hdone (.cons (writes_sendLogMessage hlog) .nil)
  · rw [hheld, hpc]
    simp [Pc.held]
  · refine (if_neg (by simp)).mpr ?_
    simpa using h.not_closed (by simp [hpc])

theorem Inv.step {identifier appId : GoString} {a : Action} {st' : State} (hlog : LogEnvelope st a)
    (hstep : step identifier appId st a = some st') : Inv st' := by
  have hflag := h.flag
  unfold SyslogSink.step at hstep
  split at hstep
  · cases hstep
    exact h.disconnect
  · next hpc =>
    cases hstep
    exact h.receive hpc hlog
  · next hpc =>
    cases hstep
    exact h.finish (by simp [hpc])
  · next hpc =>
    split at hstep
    · cases hstep
      exact h.finish (by simp [hpc])
    · cases hstep
  · next env n _ hpc =>
    cases hstep
    refine h.retry (by rw [hpc]; rfl) rfl rfl rfl (by simp) (fun _ => connected_connect _) ?_
    exact h.writes.concat (fun message err hwrite => by cases hwrite)
  · next env n err rand hpc =>
    cases hstep
    rw [hpc] at hflag
    refine h.retry (by rw [hpc]; rfl) rfl hflag rfl (by simp) ?_ ?_
    · intro hconnected
      rw [hflag] at hconnected
      cases hconnected
    · have hfirst : WritesConnected (st.calls ++ [.connect (some err)]) :=
        h.writes.concat (fun message err hwrite => by cases hwrite)
      have hsecond : WritesConnected (st.calls ++ [.connect (some err)] ++
          [.handleSendError identifier (exponential rand n) err appId]) :=
        hfirst.concat (fun message err hwrite => by cases hwrite)
      simpa using hsecond
  · next hpc =>
    split at hstep
    · cases hstep
      exact h.finish (by simp [hpc])
    · cases hstep
  · next env n hpc =>
    cases hstep
    have hretry : Inv { st with
        pc := attempt st.connected env (n + 1), connected := st.connected
        calls := st.calls ++ [] } :=
      h.retry (by rw [hpc]; rfl) (attempt_held st.connected env (n + 1)) (attempt_flag _ _ _) rfl
        (by simp) (by simpa using h.link) (by simpa using h.writes)
    simpa using hretry
  · next env n err hpc =>
    rw [hpc] at hflag
    split at hstep
    · next hnone =>
      have := h.log env (by rw [hpc]; rfl)
      rw [hnone] at this
      cases this
    · next logMessage hsome =>
      split at hstep
      · cases hstep
        exact h.written hpc hsome
      · next err =>
        cases hstep
        refine h.retry (by rw [hpc]; rfl) (attempt_held false env (n + 1)) (attempt_flag _ _ _)
          rfl (by simp) (by simp) ?_
        exact h.writes.concat (fun _ _ _ => h.link hflag)
  · cases hstep

end Inv

theorem inv_of_reachable {identifier appId : GoString} {st : State}
    (hst : Reachable (step identifier appId) LogEnvelope {} st) : Inv st :=
  hst.invariant inv_initial (fun _ _ _ h hlog hstep => h.step hlog hstep)

/-- The messages that were written successfully are those of the received envelopes, in order and
each of them once, except for at most the last one. It is in hand, or `Run` has returned. `Write`
is called on a connection only, and `Close` once, at the end. -/
theorem syslogSink_forwards_in_order (identifier appId : GoString) (st : State)
    (hst : Reachable (step identifier appId) LogEnvelope {} st) :
    (∃ done rest, st.received = done ++ rest ∧ rest.length ≤ 1 ∧
      List.Forall₂ Writes done (written st.calls) ∧
      (rest = st.pc.held.toList ∨ st.pc = .returned)) ∧
    WritesConnected st.calls ∧ Closed st := by
  have h := inv_of_reachable hst
  refine ⟨?_, h.writes, h.closed⟩
  obtain ⟨done, hdone, hheld | ⟨hreturned, env, henv⟩⟩ := h.forwarded
  · refine ⟨done, st.pc.held.toList, hheld, ?_, hdone, Or.inl rfl⟩
    cases st.pc.held <;> simp
  · exact ⟨done, [env], henv, le_rfl, hdone, Or.inr hreturned⟩

/-- A run with a failed connect, a failed write and a disconnect while the second envelope is
retried. -/
theorem syslogSink_abandons_last :
    let env (t : Int64) : Events.Envelope :=
      { eventType := .logMessage
        logMessage := some ⟨str "text", .ERR, t, str "app", str "APP", str "0"⟩ }
    ∃ st, Reachable (step [] []) LogEnvelope {} st ∧ st.pc = .returned ∧
      st.received = [env 1, env 2] ∧
      written st.calls = [⟨11, str "text", str "APP", str "0", 1⟩] ∧
      WritesConnected st.calls ∧ Closed st := by
  intro env
  have hrun : (run (guarded (step [] []) LogEnvelope) {} [.receive (env 1),
      .connected (some []) 0, .timer, .connected none 0, .written none, .receive (env 2),
      .written (some []), .connected (some []) 0, .disconnect, .selectDisconnect]).map (fun st =>
        (st.pc, st.received, written st.calls)) =
      some (.returned, [env 1, env 2], [⟨11, str "text", str "APP", str "0", 1⟩]) := by
    decide +kernel
  obtain ⟨st, hreach, heq⟩ := exists_reachable_of_guarded hrun
  obtain ⟨hpc, hreceived, hwritten⟩ : st.pc = _ ∧ st.received = _ ∧ written st.calls = _ := by
    simpa using heq
  exact ⟨st, hreach, hpc, hreceived, hwritten, (syslogSink_forwards_in_order [] [] st hreach).2⟩

end Loggregator.Doppler.SyslogSink
