import Loggregator.Doppler.SyslogSink
import Mathlib.Data.List.Chain

/-!
# The backoff of a syslog drain

`SyslogSink.Run` waits for the backoff timer after a failed `Connect`, in a select that watches
`disconnectChannel` too. After a failed `Write` it goes straight to `Connect`, so that it waits
only if that one fails. When `Connect` succeeds, `Write` is tried again at once: a peer that
accepts every connection and takes no message keeps `Run` in its loop without a wait.

The writer for HTTPS drains reports the error of a failed `Write` from the next `Connect` and so
makes `Run` wait.
-/

namespace Loggregator.Doppler.SyslogSink

open Lib

/-- An attempt of `Run` with its result, or a wait for the backoff timer. -/
inductive Event where
  | connect (ok : Bool)
  | wait
  | write (ok : Bool)
  deriving DecidableEq

/-- The event of an action. A panic comes before the call of `Write`. -/
def event (st : State) (a : Action) : Option Event :=
  match st.pc, a with
  | .connect _ _, .connected err _ => some (.connect err.isNone)
  | .backoff _ _, .timer => some .wait
  | .write env _, .written err => if env.logMessage.isSome then some (.write err.isNone) else none
  | _, _ => none

/-- `Run` with its events so far. -/
structure Traced where
  sink : State := {}
  trace : List Event := []

/-- One step of `Run`. -/
def tracedStep (identifier appId : GoString) (x : Traced) (a : Action) : Option Traced :=
  (step identifier appId x.sink a).map (fun sink => ⟨sink, x.trace ++ (event x.sink a).toList⟩)

/-- A `Connect` or a `Write` that failed. -/
def Event.failed : Event → Bool
  | .connect ok | .write ok => !ok
  | .wait => false

def Event.isWrite : Event → Bool
  | .write _ => true
  | .connect _ | .wait => false

/-- There is a wait between a failed attempt and the next `Write`. -/
def BacksOff (trace : List Event) : Prop :=
  ∀ before e middle ok after, trace = before ++ e :: (middle ++ .write ok :: after) →
    e.failed = true → middle.all (fun e' => !e'.isWrite) = true → .wait ∈ middle

/-- Attempts do not go on failing without a wait. -/
def Interruptible (trace : List Event) : Prop :=
  ∀ window, window <:+: trace → .wait ∉ window → window.countP Event.failed ≤ 2

/-- No `Write` is tried on a connection that was made right after a failed `Write`. -/
def NoReconnect (trace : List Event) : Prop :=
  ∀ ok, ¬ [.write false, .connect true, .write ok] <:+: trace

/-! ## The order of the events -/

/-- Which event can come after another one. -/
def Follows : Event → Event → Prop
  | .connect true, e | .write true, e => ∃ ok, e = .write ok
  | .connect false, e => e = .wait
  | .wait, e | .write false, e => ∃ ok, e = .connect ok

/-- The event that `Run` comes to next. -/
def State.Expects (st : State) (e : Event) : Prop :=
  match st.pc with
  | .connect _ _ => ∃ ok, e = .connect ok
  | .backoff _ _ => e = .wait
  | .write _ _ => ∃ ok, e = .write ok
  | .select => if st.connected then ∃ ok, e = .write ok else ∃ ok, e = .connect ok
  | .returned | .panicked => False

theorem isChain_concat {R : Event → Event → Prop} {trace : List Event} {e : Event}
    (h : trace.IsChain R) (hlast : ∀ last ∈ trace.getLast?, R last e) :
    (trace ++ [e]).IsChain R := by
  refine h.append (List.isChain_singleton e) ?_
  intro last hmem first hfirst
  cases hfirst
  exact hlast last hmem

structure Ordered (x : Traced) : Prop where
  flag : x.sink.pc.Flag x.sink.connected
  chain : x.trace.IsChain Follows
  last : ∀ e ∈ x.trace.getLast?, ∀ e', x.sink.Expects e' → Follows e e'

section Ordered

variable {identifier appId : GoString} {x x' : Traced} {st : State} {e : Event}

theorem expects_attempt {connected : Bool} {env : Events.Envelope} {n : Nat}
    (hpc : st.pc = attempt connected env n) (h : st.Expects e) :
    if connected then ∃ ok, e = .write ok else ∃ ok, e = .connect ok := by
  rw [State.Expects, hpc] at h
  cases connected <;> exact h

/-- `Run` goes on without an event. -/
theorem Ordered.silent (h : Ordered x) {a : Action} (hevent : event x.sink a = none)
    (hflag : st.pc.Flag st.connected) (hexpects : ∀ e, st.Expects e → x.sink.Expects e) :
    Ordered ⟨st, x.trace ++ (event x.sink a).toList⟩ := by
  rw [hevent, Option.toList_none, List.append_nil]
  exact ⟨hflag, h.chain, fun e he e' he' => h.last e he e' (hexpects e' he')⟩

/-- `Run` ends without an event. -/
theorem Ordered.finish (h : Ordered x) {a : Action} (hevent : event x.sink a = none) {pc : Pc}
    (hpc : pc = .returned ∨ pc = .panicked) :
    Ordered ⟨x.sink.finish pc, x.trace ++ (event x.sink a).toList⟩ := by
  rcases hpc with rfl | rfl
  · exact h.silent hevent trivial (fun _ he => he.elim)
  · exact h.silent hevent trivial (fun _ he => he.elim)

/-- The expected event happens. -/
theorem Ordered.concat (h : Ordered x) {a : Action} (hevent : event x.sink a = some e)
    (hflag : st.pc.Flag st.connected) (he : x.sink.Expects e)
    (hexpects : ∀ e', st.Expects e' → Follows e e') :
    Ordered ⟨st, x.trace ++ (event x.sink a).toList⟩ := by
  rw [hevent, Option.toList_some]
  refine ⟨hflag, isChain_concat h.chain (fun last hlast => h.last last hlast e he), ?_⟩
  intro last hlast
  rw [List.getLast?_concat] at hlast
  cases hlast
  exact hexpects

theorem Ordered.step (h : Ordered x) {a : Action}
    (hstep : tracedStep identifier appId x a = some x') : Ordered x' := by
  obtain ⟨sink, hsink, rfl⟩ := Option.map_eq_some_iff.mp hstep
  have hflag := h.flag
  simp only [SyslogSink.step] at hsink
  split at hsink
  · cases hsink
    have hnone : event x.sink .disconnect = none := by
      unfold event
      cases x.sink.pc <;> rfl
    exact h.silent hnone hflag (fun _ he => he)
  · next env hpc =>
    cases hsink
    refine h.silent (by simp [event, hpc]) (attempt_flag _ _ _) (fun e he => ?_)
    rw [State.Expects, hpc]
    exact expects_attempt rfl he
  · next hpc =>
    cases hsink
    exact h.finish (by simp [event, hpc]) (Or.inl rfl)
  · next hpc =>
    split at hsink
    · cases hsink
      exact h.finish (by simp [event, hpc]) (Or.inl rfl)
    · cases hsink
  · next env n rand hpc =>
    cases hsink
    have hevent : event x.sink (.connected none rand) = some (.connect true) := by
      simp [event, hpc]
    refine h.concat hevent rfl ?_ (fun _ he => he)
    rw [State.Expects, hpc]
    exact ⟨true, rfl⟩
  · next env n err rand hpc =>
    rw [hpc] at hflag
    cases hsink
    have hevent : event x.sink (.connected (some err) rand) = some (.connect false) := by
      simp [event, hpc]
    refine h.concat hevent hflag ?_ (fun _ he => he)
    rw [State.Expects, hpc]
    exact ⟨false, rfl⟩
  · next hpc =>
    split at hsink
    · cases hsink
      exact h.finish (by simp [event, hpc]) (Or.inl rfl)
    · cases hsink
  · next env n hpc =>
    rw [hpc] at hflag
    cases hsink
    have hevent : event x.sink .timer = some .wait := by simp [event, hpc]
    refine h.concat hevent (attempt_flag _ _ _) ?_ (fun e he => ?_)
    · rw [State.Expects, hpc]
    · -- the writer is not connected while `Run` backs off
      have hnext := expects_attempt rfl he
      rwa [show x.sink.connected = false from hflag] at hnext
  · next env n err hpc =>
    have hexpects : ∀ ok, x.sink.Expects (.write ok) := by
      intro ok
      rw [State.Expects, hpc]
      exact ⟨ok, rfl⟩
    split at hsink
    · next hnone =>
      cases hsink
      exact h.finish (by simp [event, hpc, hnone]) (Or.inr rfl)
    · next logMessage hsome =>
      have hevent : event x.sink (.written err) = some (.write err.isNone) := by
        simp [event, hpc, hsome]
      split at hsink
      · cases hsink
        exact h.concat hevent trivial (hexpects true) (fun _ he => he)
      · cases hsink
        exact h.concat hevent rfl (hexpects false) (fun _ he => he)
  · cases hsink

theorem ordered_reachable {ok : Traced → Action → Prop}
    (hx : Reachable (tracedStep identifier appId) ok {} x) : Ordered x :=
  hx.invariant ⟨trivial, List.isChain_nil, nofun⟩ (fun _ _ _ h _ hstep => h.step hstep)

end Ordered

/-! ## Waits -/

section Waits

variable {trace : List Event}

/-- After a failed `Connect` there is a wait, or nothing. -/
theorem wait_of_connect_failed {rest : List Event}
    (h : (.connect false :: rest).IsChain Follows) (hne : rest ≠ []) :
    rest.head? = some .wait := by
  cases rest with
  | nil => exact absurd rfl hne
  | cons e rest =>
    rw [List.isChain_cons_cons] at h
    rw [List.head?_cons, show e = .wait from h.1]

/-- After a failed `Write` there is a `Connect`, or nothing. -/
theorem connect_of_write_failed {e : Event} {rest : List Event}
    (h : (.write false :: e :: rest).IsChain Follows) :
    ∃ ok, e = .connect ok ∧ (.connect ok :: rest).IsChain Follows := by
  obtain ⟨⟨ok, rfl⟩, hrest⟩ := List.isChain_cons_cons.mp h
  exact ⟨ok, rfl, hrest⟩

theorem NoReconnect.mono (h : NoReconnect trace) {window : List Event}
    (hw : window <:+: trace) : NoReconnect window :=
  fun ok hpattern => h ok (hpattern.trans hw)

/-- A wait comes before the next `Write` after a `Connect` that failed. -/
theorem wait_mem_of_connect_failed {middle after : List Event} {ok : Bool}
    (h : (.connect false :: (middle ++ .write ok :: after)).IsChain Follows) :
    .wait ∈ middle := by
  have hhead := wait_of_connect_failed h (by simp)
  cases middle with
  | nil => cases hhead
  | cons e middle =>
    cases hhead
    exact List.mem_cons_self

theorem backsOff_of_noReconnect (h : trace.IsChain Follows) (hno : NoReconnect trace) :
    BacksOff trace := by
  intro before e middle ok after htrace hfailed hmiddle
  have hrest : (e :: (middle ++ .write ok :: after)).IsChain Follows := by
    rw [htrace] at h
    exact h.right_of_append
  match e, hfailed with
  | .connect false, _ => exact wait_mem_of_connect_failed hrest
  | .write false, _ =>
    cases middle with
    | nil =>
      obtain ⟨ok', heq, -⟩ := connect_of_write_failed hrest
      cases heq
    | cons e' middle =>
      obtain ⟨ok', rfl, hconnect⟩ := connect_of_write_failed hrest
      cases ok' with
      | false => exact List.mem_cons_of_mem _ (wait_mem_of_connect_failed hconnect)
      | true =>
        -- the next event is a `Write`, and it is not in the middle
        cases middle with
        | nil => exact absurd ⟨before, after, by rw [htrace]; simp⟩ (hno ok)
        | cons e'' middle =>
          obtain ⟨⟨ok'', rfl⟩, -⟩ := List.isChain_cons_cons.mp hconnect
          simp [Event.isWrite] at hmiddle

theorem noReconnect_of_backsOff (h : BacksOff trace) : NoReconnect trace := by
  rintro ok ⟨before, after, htrace⟩
  have hwait := h before (.write false) [.connect true] ok after (by rw [← htrace]; simp) rfl rfl
  cases List.mem_singleton.mp hwait

/-- A window without waits ends soon after an attempt in it has failed. -/
theorem countP_failed_le {window : List Event} (h : window.IsChain Follows)
    (hno : NoReconnect window) (hwait : .wait ∉ window) : window.countP Event.failed ≤ 2 := by
  induction window with
  | nil => exact Nat.zero_le _
  | cons e rest ih =>
    have hrest := ih h.tail (hno.mono (List.suffix_cons e rest).isInfix)
      (fun hmem => hwait (List.mem_cons_of_mem _ hmem))
    match e with
    | .wait => exact absurd List.mem_cons_self hwait
    | .connect true | .write true =>
      rw [List.countP_cons_of_neg (by decide)]
      exact hrest
    | .connect false =>
      cases rest with
      | nil => decide
      | cons e' rest =>
        cases wait_of_connect_failed h (List.cons_ne_nil _ _)
        simp at hwait
    | .write false =>
      cases rest with
      | nil => decide
      | cons e' rest =>
        obtain ⟨ok, rfl, hconnect⟩ := connect_of_write_failed h
        cases rest with
        | nil => cases ok <;> decide
        | cons e'' rest =>
          obtain ⟨hfollows, -⟩ := List.isChain_cons_cons.mp hconnect
          cases ok with
          | false =>
            cases hfollows
            simp at hwait
          | true =>
            obtain ⟨ok', rfl⟩ := hfollows
            exact absurd ⟨[], rest, rfl⟩ (hno ok')

theorem interruptible_of_noReconnect (h : trace.IsChain Follows) (hno : NoReconnect trace) :
    Interruptible trace := by
  intro window hw hwait
  have hchain : window.IsChain Follows := List.IsChain.infix h hw
  exact countP_failed_le hchain (hno.mono hw) hwait

end Waits

/-- `Run` backs off exactly as long as it does not come to a `Write` on a connection made right
after a failed `Write`. While it backs off, a disconnect ends it. -/
theorem backsOff_iff (identifier appId : GoString) (x : Traced)
    (hx : Reachable (tracedStep identifier appId) Always {} x) :
    (BacksOff x.trace ∧ Interruptible x.trace ↔ NoReconnect x.trace) ∧
      ∀ env n, x.sink.pc = .backoff env n → x.sink.disconnected = true →
        step identifier appId x.sink .selectDisconnect = some (x.sink.finish .returned) := by
  have hchain := (ordered_reachable hx).chain
  refine ⟨⟨fun h => noReconnect_of_backsOff h.1, fun hno =>
    ⟨backsOff_of_noReconnect hchain hno, interruptible_of_noReconnect hchain hno⟩⟩, ?_⟩
  intro env n hpc hdisconnected
  simp only [step, hpc, hdisconnected, if_true]

/-! ## A peer that accepts and takes no message -/

def sampleEnvelope : Events.Envelope :=
  { eventType := .logMessage, logMessage := some ⟨[], .OUT, 0, [], [], []⟩ }

theorem backsOff_refused :
    ∃ x, Reachable (tracedStep [] []) Always {} x ∧
      x.trace = [.connect true, .write false, .connect false, .wait, .connect true, .write true] ∧
      BacksOff x.trace ∧ Interruptible x.trace := by
  have hrun : (run (tracedStep [] []) {} [.receive sampleEnvelope, .connected none 0,
      .written (some []), .connected (some []) 0, .timer, .connected none 0, .written none]).map
        Traced.trace = some [.connect true, .write false, .connect false, .wait, .connect true,
          .write true] := by
    decide
  obtain ⟨x, hreach, htrace⟩ := exists_reachable_of_run hrun
  refine ⟨x, hreach, htrace, (backsOff_iff [] [] x hreach).1.mpr ?_⟩
  intro ok hpattern
  rw [htrace] at hpattern
  revert hpattern
  cases ok <;> decide

/-- `Write` fails, and `Connect` succeeds right after it. -/
theorem exists_reconnect {x : Traced} {tries : Nat}
    (hpc : x.sink.pc = .write sampleEnvelope tries) :
    ∃ x₁ x₂, tracedStep [] [] x (.written (some [])) = some x₁ ∧
      tracedStep [] [] x₁ (.connected none 0) = some x₂ ∧
      x₂.sink.pc = .write sampleEnvelope (tries + 1) ∧
      x₂.sink.disconnected = x.sink.disconnected ∧
      x₂.trace = x.trace ++ [.write false, .connect true] := by
  simp only [tracedStep, step, event, hpc]
  refine ⟨_, _, rfl, rfl, rfl, rfl, ?_⟩
  show x.trace ++ [.write false] ++ [.connect true] = _
  rw [List.append_assoc]
  rfl

/-- The same message is tried any number of times after a disconnect. -/
theorem exists_reconnects (n : Nat) :
    ∃ x tries, Reachable (tracedStep [] []) Always {} x ∧
      x.sink.pc = .write sampleEnvelope tries ∧ x.sink.disconnected = true ∧
      x.trace = .connect true :: (List.replicate n [.write false, .connect true]).flatten := by
  induction n with
  | zero =>
    have hrun : (run (tracedStep [] []) {} [.receive sampleEnvelope, .disconnect,
        .connected none 0]).map (fun x => (x.sink.pc, x.sink.disconnected, x.trace)) =
          some (.write sampleEnvelope 0, true, [.connect true]) := by
      decide
    obtain ⟨x, hx, hfinal⟩ := exists_reachable_of_run hrun
    simp only [Prod.mk.injEq] at hfinal
    exact ⟨x, 0, hx, hfinal⟩
  | succ n ih =>
    obtain ⟨x, tries, hx, hpc, hdisconnected, htrace⟩ := ih
    obtain ⟨x₁, x₂, hwritten, hconnected, hpc₂, hdisconnected₂, htrace₂⟩ := exists_reconnect hpc
    refine ⟨x₂, tries + 1, (hx.tail trivial hwritten).tail trivial hconnected, hpc₂,
      hdisconnected₂.trans hdisconnected, ?_⟩
    rw [htrace₂, htrace, List.replicate_succ', List.flatten_append]
    rfl

/-- After a disconnect attempts fail any number of times without a wait. -/
theorem fails_without_wait (n : Nat) :
    ∃ x, Reachable (tracedStep [] []) Always {} x ∧ x.sink.disconnected = true ∧
      .wait ∉ x.trace ∧ x.trace.countP Event.failed = n ∧ (2 ≤ n → ¬ BacksOff x.trace) := by
  obtain ⟨x, -, hx, -, hdisconnected, htrace⟩ := exists_reconnects n
  refine ⟨x, hx, hdisconnected, ?_, ?_, ?_⟩
  · rw [htrace]
    simp
  · rw [htrace, List.countP_cons_of_neg (by decide), List.countP_flatten, List.map_replicate,
      List.sum_replicate]
    simp [Event.failed]
  · intro hn hbacks
    obtain ⟨m, rfl⟩ := Nat.exists_eq_add_of_le' hn
    refine noReconnect_of_backsOff hbacks false ⟨[.connect true], .connect true ::
      (List.replicate m [.write false, .connect true]).flatten, ?_⟩
    rw [htrace, List.replicate_succ, List.replicate_succ]
    rfl

theorem fails_three_times_without_wait :
    ∃ x, Reachable (tracedStep [] []) Always {} x ∧ x.sink.disconnected = true ∧
      ¬ BacksOff x.trace ∧ ¬ Interruptible x.trace := by
  obtain ⟨x, hx, hdisconnected, hwait, hfailed, hbacks⟩ := fails_without_wait 3
  refine ⟨x, hx, hdisconnected, hbacks (by decide), ?_⟩
  intro h
  have hle := h x.trace List.infix_rfl hwait
  omega

/-! ## The writer for HTTPS drains -/

/-- `httpsWriter`, as far as its errors go. -/
structure HttpsWriter where
  lastError : Option GoString := none

/-- `httpsWriter.Connect`. -/
def HttpsWriter.connect (w : HttpsWriter) : Option GoString × HttpsWriter :=
  match w.lastError with
  | some err => (some err, { w with lastError := none })
  | none => (none, w)

/-- `httpsWriter.Write`, for a result of `writeHttp`. -/
def HttpsWriter.write (_ : HttpsWriter) (err : Option GoString) : HttpsWriter :=
  { lastError := err }

/-- `Run` with this writer, which is called for every attempt. -/
def httpsStep (identifier appId : GoString) (y : Traced × HttpsWriter) (a : Action) :
    Option (Traced × HttpsWriter) :=
  (tracedStep identifier appId y.1 a).bind (fun x =>
    match a, event y.1.sink a with
    | .connected err _, some (.connect _) =>
      if err = y.2.connect.1 then some (x, y.2.connect.2) else none
    | .written err, some (.write _) => some (x, y.2.write err)
    | _, _ => some (x, y.2))

/-- What the writer keeps from a failed `Write` to the next `Connect`. -/
structure Defers (y : Traced × HttpsWriter) : Prop where
  chain : y.1.trace.IsChain (fun e e' => e = .write false → e' ≠ .connect true)
  lastError : y.1.trace.getLast? = some (.write false) → y.2.lastError.isSome = true

section Https

variable {identifier appId : GoString} {y y' : Traced × HttpsWriter}

theorem reachable_fst (hy : Reachable (httpsStep identifier appId) Always ({}, {}) y) :
    Reachable (tracedStep identifier appId) Always {} y.1 := by
  refine hy.invariant (P := fun y => Reachable (tracedStep identifier appId) Always {} y.1) .refl ?_
  intro y a y' hy _ hstep
  obtain ⟨x, hx, hy'⟩ := Option.bind_eq_some_iff.mp hstep
  have hfst : y'.1 = x := by
    split at hy'
    · split at hy' <;> cases hy'
      rfl
    · cases hy'
      rfl
    · cases hy'
      rfl
  rw [hfst]
  exact hy.tail trivial hx

theorem Defers.concat (h : Defers y) {x : Traced} {e : Option Event} {w : HttpsWriter}
    (htrace : x.trace = y.1.trace ++ e.toList)
    (hconnect : e = some (.connect true) → y.2.lastError = none)
    (hwrite : e = some (.write false) → w.lastError.isSome = true)
    (hnone : e = none → w = y.2) : Defers (x, w) := by
  cases e with
  | none =>
    rw [Option.toList_none, List.append_nil] at htrace
    refine ⟨?_, ?_⟩
    · rw [htrace]
      exact h.chain
    · rw [htrace, hnone rfl]
      exact h.lastError
  | some e =>
    refine ⟨?_, ?_⟩
    · rw [htrace]
      refine isChain_concat h.chain ?_
      intro last hlast hfailed hok
      have hsome := h.lastError (by rw [← hfailed]; exact hlast)
      rw [hconnect (by rw [hok])] at hsome
      cases hsome
    · rw [htrace, Option.toList_some, List.getLast?_concat]
      exact hwrite

theorem event_eq_connect {st : State} {a : Action} {ok : Bool}
    (h : event st a = some (.connect ok)) :
    ∃ err rand, a = .connected err rand ∧ ok = err.isNone := by
  unfold event at h
  split at h
  · cases h
    exact ⟨_, _, rfl, rfl⟩
  · cases h
  · split at h <;> cases h
  · cases h

theorem event_eq_write {st : State} {a : Action} {ok : Bool}
    (h : event st a = some (.write ok)) : ∃ err, a = .written err ∧ ok = err.isNone := by
  unfold event at h
  split at h
  · cases h
  · cases h
  · split at h <;> cases h
    exact ⟨_, rfl, rfl⟩
  · cases h

theorem HttpsWriter.connect_none {w : HttpsWriter} (h : w.connect.1 = none) :
    w.lastError = none := by
  unfold connect at h
  split at h
  · cases h
  · assumption

theorem Defers.step (h : Defers y) {a : Action}
    (hstep : httpsStep identifier appId y a = some y') : Defers y' := by
  obtain ⟨x, hx, hy'⟩ := Option.bind_eq_some_iff.mp hstep
  obtain ⟨sink, -, rfl⟩ := Option.map_eq_some_iff.mp hx
  split at hy'
  · next err rand ok hevent =>
    split at hy'
    · next herr =>
      cases hy'
      refine h.concat rfl ?_ ?_ ?_ <;> rw [hevent]
      · rintro ⟨⟩
        obtain ⟨err', rand', heq, hnone⟩ := event_eq_connect hevent
        cases heq
        rw [eq_comm, Option.isNone_iff_eq_none, herr] at hnone
        exact HttpsWriter.connect_none hnone
      · rintro ⟨⟩
      · rintro ⟨⟩
    · cases hy'
  · next err ok hevent =>
    cases hy'
    refine h.concat rfl ?_ ?_ ?_ <;> rw [hevent]
    · rintro ⟨⟩
    · rintro ⟨⟩
      obtain ⟨err', heq, hsome⟩ := event_eq_write hevent
      cases heq
      rw [eq_comm, Option.isNone_eq_false_iff] at hsome
      exact hsome
    · rintro ⟨⟩
  · next hconnect hwrite =>
    cases hy'
    refine h.concat rfl ?_ ?_ (fun _ => rfl)
    · intro hevent
      obtain ⟨err, rand, rfl, -⟩ := event_eq_connect hevent
      exact absurd hevent (hconnect err rand _ rfl)
    · intro hevent
      obtain ⟨err, rfl, -⟩ := event_eq_write hevent
      exact absurd hevent (hwrite err _ rfl)

/-- A drain over HTTPS backs off. -/
theorem https_backsOff (hy : Reachable (httpsStep identifier appId) Always ({}, {}) y) :
    BacksOff y.1.trace ∧ Interruptible y.1.trace := by
  have hdefers : Defers y :=
    hy.invariant ⟨List.isChain_nil, nofun⟩ (fun _ _ _ h _ hstep => h.step hstep)
  have hno : NoReconnect y.1.trace := by
    intro ok hpattern
    have hchain := List.IsChain.infix hdefers.chain hpattern
    exact (List.isChain_cons_cons.mp hchain).1 rfl rfl
  have hchain := (ordered_reachable (reachable_fst hy)).chain
  exact ⟨backsOff_of_noReconnect hchain hno, interruptible_of_noReconnect hchain hno⟩

theorem https_backsOff_failedWrite :
    ∃ y, Reachable (httpsStep [] []) Always ({}, {}) y ∧
      y.1.trace = [.connect true, .write false, .connect false, .wait, .connect true] ∧
      BacksOff y.1.trace ∧ Interruptible y.1.trace := by
  have hrun : (run (httpsStep [] []) ({}, {}) [.receive sampleEnvelope, .connected none 0,
      .written (some []), .connected (some []) 0, .timer, .connected none 0]).map
        (fun y => y.1.trace) = some [.connect true, .write false, .connect false, .wait,
          .connect true] := by
    decide
  obtain ⟨y, hy, htrace⟩ := exists_reachable_of_run hrun
  exact ⟨y, hy, htrace, https_backsOff hy⟩

end Https

end Loggregator.Doppler.SyslogSink
