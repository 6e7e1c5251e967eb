import Loggregator.Doppler.DropAccounting

/-!
# Order and notices of the truncating buffer

What the consumer has received, the queue and the message that is being forwarded stand in one
line. Every operation of `Run` keeps the order of the line: an input joins it at its end, a
notice joins it right before the message that did not fit, and an overflow removes entries from
the middle. So the inputs in the line are a subsequence of the allowed inputs.

An overflow may discard the notices of an earlier one. It then sends a notice of its own, which is
later than every discard so far.
-/

namespace Loggregator.Doppler.TruncatingBuffer

open Lib

/-- The envelope reports dropped messages: it is a log message of loggregator on the error output,
which names how many were dropped, now and in all, and between which ends. -/
def DropNotice (context : BufferContext) (env : Events.Envelope) : Prop :=
  env.eventType = .logMessage ∧ ∃ m, env.logMessage = some m ∧ m.messageType = .ERR ∧
    m.sourceType = str "LGR" ∧ ∃ delta total : UInt64,
      m.message = str "Log message output is too high. " ++ formatNat delta.toNat ++
        str " messages dropped (Total " ++ formatNat total.toNat ++
        str " messages dropped) from " ++ context.origin ++ str " to " ++ context.destination ++
        str "."

/-- The envelope that carries the log message of `notifyMessagesDropped` is such a notice. -/
theorem dropNotice_of_carriedBy {context : BufferContext} {delta total : UInt64} {appId : GoString}
    {now : Int64} {env : Events.Envelope}
    (h : (Event.logMessage (generateLogMessage delta total appId context.origin
      context.destination now)).CarriedBy env) : DropNotice context env :=
  ⟨h.1, _, h.2, rfl, rfl, delta, total, rfl⟩

/-- The buffer reports what it drops: its context allows log messages and `emitter.Wrap` does not
fail. -/
structure Params.Reports (p : Params) : Prop where
  logMessage : p.context.eventAllowed .logMessage = true
  wrap : ∀ event now, (p.emitter.wrap event p.context.origin now).isSome

/-- Every context of the package allows log messages. -/
theorem Params.reports_of_context (p : Params) {getAppId : Events.Envelope → GoString}
    (systemAppId : GoString) {origin destination : GoString}
    (hcontext : p.context ∈ [defaultContext getAppId origin destination,
      logAllowedContext getAppId origin destination, systemContext systemAppId origin destination])
    (hwrap : ∀ event now, (p.emitter.wrap event p.context.origin now).isSome) : p.Reports := by
  refine ⟨?_, hwrap⟩
  simp only [List.mem_cons, List.not_mem_nil, or_false] at hcontext
  rcases hcontext with h | h | h
  · rw [h]
    rfl
  · rw [h]
    rfl
  · rw [h]
    rfl

namespace State

/-- The entries that were not discarded, the oldest first. -/
def line (st : State) : List Entry := st.received ++ st.queue ++ st.pc.msg.toList

/-- A log notice sent after this time was received or is queued. -/
def Noticed (p : Params) (st : State) (t : Nat) : Prop :=
  ∃ t' env, t < t' ∧ .notice t' env ∈ st.received ++ st.queue ∧ DropNotice p.context env

/-- Every discarded input has a notice. -/
def AllNoticed (p : Params) (st : State) : Prop :=
  ∀ t e, (t, e) ∈ st.discarded → e.isInput = true → st.Noticed p t

end State

/-- A log message about dropped messages is still to be sent. -/
def LogPending (p : Params) (events : List Event) : Prop :=
  ∃ delta total appId now, Event.logMessage (generateLogMessage delta total appId
    p.context.origin p.context.destination now) ∈ events

/-- The discarded inputs have their notices, or will have them. -/
def State.NoticePhase (p : Params) (st : State) : Pc → Prop
  | .idle | .forwardMessage _ | .returned => st.AllNoticed p
  | .dropMessages _ _ => True
  | .emitMessage events _ => LogPending p events ∨ st.AllNoticed p

structure Ordered (p : Params) (st : State) : Prop where
  order : (st.line.filterMap Entry.toInput).Sublist st.allowed
  increasing : (st.allowed.map Prod.fst).Pairwise (· < ·)
  bounded : ∀ m ∈ st.allowed, m.1 < st.inputs
  types : ∀ e ∈ st.line, p.context.eventAllowed e.envelope.eventType = true
  events : ∀ events msg, st.pc = .emitMessage events msg →
    ∀ event ∈ events, p.context.eventAllowed event.eventType = true
  past : ∀ t e, (t, e) ∈ st.discarded → t < st.time
  phase : st.NoticePhase p st.pc

section Ordered

variable {p : Params} {st st' : State}

theorem ordered_initial (p : Params) : Ordered p {} := by
  refine ⟨?_, ?_, ?_, ?_, ?_, ?_, ?_⟩ <;> simp [State.line, Pc.msg, State.NoticePhase,
    State.AllNoticed]

theorem notifyMessagesDropped_allowed (context : BufferContext) (delta total : UInt64)
    (appId : GoString) (now : Int64) :
    ∀ event ∈ notifyMessagesDropped context delta total appId now,
      context.eventAllowed event.eventType = true := by
  intro event hevent
  rcases List.mem_append.mp hevent with h | h
  · split at h
    · next hallowed =>
      cases List.mem_singleton.mp h
      exact hallowed
    · cases h
  · split at h
    · next hallowed =>
      cases List.mem_singleton.mp h
      exact hallowed
    · cases h

theorem logPending_notify (hlog : p.context.eventAllowed .logMessage = true)
    (delta total : UInt64) (appId : GoString) (now : Int64) :
    LogPending p (notifyMessagesDropped p.context delta total appId now) := by
  refine ⟨delta, total, appId, now, ?_⟩
  simp [notifyMessagesDropped, hlog]

/-- Only where the entries of the line stand is changed. -/
theorem Ordered.keep (ho : Ordered p st) (hline : st'.line = st.line)
    (hallowed : st'.allowed = st.allowed) (hinputs : st.inputs ≤ st'.inputs)
    (hevents : ∀ events msg, st'.pc = .emitMessage events msg →
      ∀ event ∈ events, p.context.eventAllowed event.eventType = true)
    (hpast : ∀ t e, (t, e) ∈ st'.discarded → t < st'.time)
    (hphase : st'.NoticePhase p st'.pc) : Ordered p st' := by
  refine ⟨?_, ?_, ?_, ?_, hevents, hpast, hphase⟩
  · rw [hline, hallowed]
    exact ho.order
  · rw [hallowed]
    exact ho.increasing
  · rw [hallowed]
    intro m hm
    exact Nat.lt_of_lt_of_le (ho.bounded m hm) hinputs
  · rw [hline]
    exact ho.types

theorem Ordered.past_succ (ho : Ordered p st) : ∀ t e, (t, e) ∈ st.discarded → t < st.time + 1 :=
  fun t e h => Nat.lt_succ_of_lt (ho.past t e h)

theorem State.AllNoticed.mono (h : st.AllNoticed p) (hdiscarded : st'.discarded = st.discarded)
    (hkept : ∀ e ∈ st.received ++ st.queue, e ∈ st'.received ++ st'.queue) :
    st'.AllNoticed p := by
  intro t e he hin
  rw [hdiscarded] at he
  obtain ⟨t', env, ht, hmem, hnotice⟩ := h t e he hin
  exact ⟨t', env, ht, hkept _ hmem, hnotice⟩

theorem Ordered.discard (ho : Ordered p st) {msg entry : Entry} {dropped : UInt64}
    {queue : List Entry} (hpc : st.pc = .dropMessages msg dropped)
    (hqueue : st.queue = entry :: queue) : Ordered p { st with
      queue := queue
      pc := .dropMessages msg (dropped + 1)
      discarded := st.discarded ++ [(st.time, entry)]
      discarding := st.discarding ++ [entry]
      time := st.time + 1 } := by
  have hsub : (st.received ++ queue ++ [msg]).Sublist st.line := by
    rw [State.line, hpc, hqueue]
    exact ((List.Sublist.refl _).append (List.sublist_cons_self _ _)).append (List.Sublist.refl _)
  refine ⟨(hsub.filterMap _).trans ho.order, ho.increasing, ho.bounded, ?_, ?_, ?_, trivial⟩
  · intro e he
    exact ho.types e (hsub.subset he)
  · intro events msg h
    cases h
  · intro t e h
    rcases List.mem_append.mp h with h | h
    · exact ho.past_succ t e h
    · cases List.mem_singleton.mp h
      exact Nat.lt_succ_self _

theorem Ordered.emit (ho : Ordered p st) {event : Event} {events : List Event} {msg : Entry}
    {env : Events.Envelope} {now : Int64} (hpc : st.pc = .emitMessage (event :: events) msg)
    (hwrap : p.emitter.wrap event p.context.origin now = some env) : Ordered p { st with
      queue := st.queue ++ [.notice st.time env]
      queuedInternalMessageCount := st.queuedInternalMessageCount + 1
      pc := .emitMessage events msg
      time := st.time + 1 } := by
  have horder := ho.order
  have htypes := ho.types
  have hphase := ho.phase
  rw [State.line, hpc] at horder htypes
  rw [hpc] at hphase
  refine ⟨?_, ho.increasing, ho.bounded, ?_, ?_, ho.past_succ, ?_⟩
  · simpa [State.line, Pc.msg, List.filterMap_append, List.filterMap_cons, Entry.toInput]
      using horder
  · intro e he
    simp only [State.line, Pc.msg, List.mem_append, List.mem_singleton, or_assoc] at he
    rcases he with he | he | rfl | he
    · exact htypes e (by simp [he])
    · exact htypes e (by simp [he])
    · simp only [Entry.envelope, p.emitter.eventType_wrap hwrap]
      exact ho.events _ _ hpc event List.mem_cons_self
    · exact htypes e (List.mem_append_right _ he)
  · intro events' msg' h
    cases h
    intro event' hevent'
    exact ho.events _ _ hpc event' (List.mem_cons_of_mem _ hevent')
  · rcases hphase with ⟨delta, total, appId, now', hmem⟩ | hall
    · rcases List.mem_cons.mp hmem with rfl | hmem
      · -- this is the notice that covers everything discarded so far
        right
        intro t e he _
        refine ⟨st.time, env, ho.past t e he, ?_,
          dropNotice_of_carriedBy (p.emitter.carries_wrap _ _ _ _ hwrap)⟩
        simp
      · exact Or.inl ⟨delta, total, appId, now', hmem⟩
    · right
      exact hall.mono rfl (fun e he => by
        simp only [← List.append_assoc]
        exact List.mem_append_left _ he)

theorem Ordered.take (ho : Ordered p st) {msg : Events.Envelope} (hpc : st.pc = .idle)
    (hallowed : p.context.eventAllowed msg.eventType = true) : Ordered p { st with
      pc := .forwardMessage (.input st.inputs msg)
      allowed := st.allowed ++ [(st.inputs, msg)]
      inputs := st.inputs + 1 } := by
  have horder := ho.order
  have htypes := ho.types
  have hphase := ho.phase
  simp only [State.line, hpc, Pc.msg, Option.toList_none, List.append_nil] at horder htypes
  rw [hpc] at hphase
  refine ⟨?_, ?_, ?_, ?_, ?_, ho.past, hphase⟩
  · simp only [State.line, Pc.msg, Option.toList_some, List.filterMap_append]
    rw [← List.filterMap_append]
    exact horder.append (List.Sublist.refl _)
  · rw [List.map_append, List.pairwise_append]
    refine ⟨ho.increasing, List.pairwise_singleton _ _, ?_⟩
    intro i hi j hj
    obtain ⟨m, hm, rfl⟩ := List.mem_map.mp hi
    cases List.mem_singleton.mp hj
    exact ho.bounded m hm
  · intro m hm
    rcases List.mem_append.mp hm with hm | hm
    · exact Nat.lt_succ_of_lt (ho.bounded m hm)
    · cases List.mem_singleton.mp hm
      exact Nat.lt_succ_self _
  · intro e he
    simp only [State.line, Pc.msg, Option.toList_some] at he
    rcases List.mem_append.mp he with he | he
    · exact htypes e he
    · cases List.mem_singleton.mp he
      exact hallowed
  · intro events msg h
    cases h

theorem Ordered.receive (ho : Ordered p st) {entry : Entry} {queue : List Entry}
    (hqueue : st.queue = entry :: queue) : Ordered p (st.receive entry queue) := by
  have hphase := ho.phase
  have hkept : ∀ e ∈ st.received ++ st.queue,
      e ∈ (st.receive entry queue).received ++ (st.receive entry queue).queue := by
    intro e he
    rw [hqueue] at he
    simpa [State.receive] using he
  refine ho.keep (by simp [State.line, State.receive, hqueue]) rfl (Nat.le_refl _) ho.events
    ho.past ?_
  change State.NoticePhase p _ st.pc
  cases hpc : st.pc with
  | idle | forwardMessage _ | returned =>
    rw [hpc] at hphase
    exact State.AllNoticed.mono hphase rfl hkept
  | dropMessages _ _ => trivial
  | emitMessage _ _ =>
    rw [hpc] at hphase
    exact hphase.imp id (fun hall => hall.mono rfl hkept)

theorem ordered_step (hp : p.Reports) {a : Action} (hc : Counted p st) (ho : Ordered p st)
    (h : step p st a = some st') : Ordered p st' := by
  have hphase := ho.phase
  cases step_cases h with
  | skip hpc hnot =>
    exact ho.keep rfl rfl (Nat.le_succ _) (by simp [hpc]) ho.past (by
      simp only [hpc] at hphase ⊢
      exact hphase)
  | take hpc hallowed => exact ho.take hpc hallowed
  | stop hpc =>
    rw [hpc] at hphase
    exact ho.keep (by simp [State.line, hpc, Pc.msg]) rfl (Nat.le_refl _) (by simp) ho.past hphase
  | sent hpc hroom =>
    rw [hpc] at hphase
    exact ho.keep (by simp [State.line, hpc, Pc.msg]) rfl (Nat.le_refl _) (by simp) ho.past_succ
      (State.AllNoticed.mono hphase rfl (fun e he => by
        simp only [← List.append_assoc]
        exact List.mem_append_left _ he))
  | full hpc hfull =>
    exact ho.keep (by simp [State.line, hpc, Pc.msg]) rfl (Nat.le_refl _) (by simp) ho.past_succ
      trivial
  | discard hpc hqueue => exact ho.discard hpc hqueue
  | report hpc hqueue =>
    refine ho.keep (by simp [State.line, hpc, Pc.msg]) rfl (Nat.le_refl _) ?_ ho.past_succ
      (Or.inl (logPending_notify hp.logMessage _ _ _ _))
    intro events msg hevents
    cases hevents
    exact notifyMessagesDropped_allowed _ _ _ _ _
  | unwrapped hpc hwrap =>
    exact absurd hwrap (Option.isSome_iff_ne_none.mp (hp.wrap _ _))
  | emit hpc hwrap hroom => exact ho.emit hpc hwrap
  | write hpc hroom =>
    rw [hpc] at hphase
    have hall : st.AllNoticed p := by
      rcases hphase with ⟨_, _, _, _, hmem⟩ | hall
      · cases hmem
      · exact hall
    exact ho.keep (by simp [State.line, hpc, Pc.msg]) rfl (Nat.le_refl _) (by simp) ho.past_succ
      (hall.mono rfl (fun e he => by
        simp only [← List.append_assoc]
        exact List.mem_append_left _ he))
  | lost hpc hfull => exact absurd (hc.room_of_emit hpc) hfull
  | receive hqueue => exact ho.receive hqueue

theorem ordered_of_reachable (hp : p.Reports) (h : Reachable (step p) Always {} st) :
    Counted p st ∧ Ordered p st :=
  h.invariant (P := fun st => Counted p st ∧ Ordered p st)
    ⟨counted_initial p, ordered_initial p⟩
    (fun _ _ _ hi _ hs => ⟨counted_step hi.1 hs, ordered_step hp hi.1 hi.2 hs⟩)

/-- What is sent after `dropMessages` stands behind notices only. -/
theorem Counted.notices_of_emit (hc : Counted p st) {events : List Event} {msg : Entry}
    (hpc : st.pc = .emitMessage events msg) : ∀ e ∈ st.queue, e.isNotice = true := by
  have hphase := hc.phase
  rw [hpc] at hphase
  obtain ⟨k, ⟨-, -, ns, ms, hqueue, hns, -, -, hms, -⟩, -⟩ := hphase
  cases List.length_eq_zero_iff.mp (Nat.le_zero.mp hms)
  rw [hqueue, List.append_nil]
  exact List.countP_eq_length.mp hns

end Ordered

/-- Nothing is lost silently and `Run` does not block itself. -/
structure State.Lossless (p : Params) (st : State) : Prop where
  /-- The allowed inputs stand in input order, each with its own position. -/
  inputs : (st.allowed.map Prod.fst).Pairwise (· < ·)
  /-- The received inputs are a subsequence of them, so without duplicates. -/
  order : (st.received.filterMap Entry.toInput).Sublist st.allowed
  /-- The types of everything received are allowed. -/
  types : ∀ e ∈ st.received, p.context.eventAllowed e.envelope.eventType = true
  /-- The send of `emitMessage` does not wait. -/
  emit : ∀ event events msg now, st.pc = .emitMessage (event :: events) msg →
    ∃ env, p.emitter.wrap event p.context.origin now = some env ∧
      ∃ st', step p st (.run now) = some st' ∧ st'.queue = st.queue ++ [.notice st.time env]
  /-- `writeToOutput` sends the message, behind notices only. -/
  write : ∀ msg now, st.pc = .emitMessage [] msg → (∀ e ∈ st.queue, e.isNotice = true) ∧
    ∃ st', step p st (.run now) = some st' ∧ st'.queue = st.queue ++ [msg] ∧
      st'.discarded = st.discarded ∧ st'.droppedMessageCount = st.droppedMessageCount
  /-- Between two inputs every discarded input has its notice. -/
  noticed : st.pc = .idle → st.AllNoticed p

/-- Nothing is lost silently in any interleaving of `Run` and the consumer. -/
theorem lossless_of_reports {p : Params} (hp : p.Reports) {st : State}
    (hst : Reachable (step p) Always {} st) : st.Lossless p := by
  obtain ⟨hc, ho⟩ := ordered_of_reachable hp hst
  have hsub : st.received.Sublist st.line := by
    rw [State.line, List.append_assoc]
    exact List.sublist_append_left _ _
  refine ⟨ho.increasing, (hsub.filterMap _).trans ho.order, ?_, ?_, ?_, ?_⟩
  · intro e he
    exact ho.types e (hsub.subset he)
  · intro event events msg now hpc
    obtain ⟨env, henv⟩ := Option.isSome_iff_exists.mp (hp.wrap event now)
    have hroom := hc.room_of_emit hpc
    simp only [step, State.stepRun, hpc, State.emitMessage, henv, if_pos hroom]
    exact ⟨env, rfl, _, rfl, rfl⟩
  · intro msg now hpc
    refine ⟨hc.notices_of_emit hpc, ?_⟩
    have hroom := hc.room_of_emit hpc
    simp only [step, State.stepRun, hpc, State.writeToOutput, if_pos hroom]
    exact ⟨_, rfl, rfl, rfl, rfl⟩
  · intro hpc
    have hphase := ho.phase
    rw [hpc] at hphase
    exact hphase

/-- Two overflows, with receives in both of them. -/
def overflowTwice : List Action :=
  overflowWithReceive ++ sendInput ++
    [.receive, .run 0, .run 0, .run 0, .run 0, .run 0, .run 0, .receive]

/-- The log messages that are received in it. -/
def overflowTwiceTexts : List GoString :=
  [str "Log message output is too high. 2 messages dropped (Total 2 messages dropped) " ++
      str "from doppler to 127.0.0.1.",
    str "Log message output is too high. 0 messages dropped (Total 2 messages dropped) " ++
      str "from doppler to 127.0.0.1."]

theorem overflowTwice_lossless :
    smallestBuffer.Reports ∧ ∃ st, run (step smallestBuffer) {} overflowTwice = some st ∧
      st.overflows.length = 2 ∧ st.received.filterMap (fun e => e.envelope.logMessage.map
        Events.LogMessage.message) = overflowTwiceTexts ∧ st.Lossless smallestBuffer := by
  have hp : smallestBuffer.Reports :=
    smallestBuffer.reports_of_context (str "system") List.mem_cons_self (fun _ _ => rfl)
  have hrun : (run (step smallestBuffer) {} overflowTwice).map
      (fun st => (st.overflows.length, st.received.filterMap (fun e =>
        e.envelope.logMessage.map Events.LogMessage.message))) =
      some (2, overflowTwiceTexts) := by decide +kernel
  obtain ⟨st, hst, hfinal⟩ := Option.map_eq_some_iff.mp hrun
  simp only [Prod.mk.injEq] at hfinal
  exact ⟨hp, st, hst, hfinal.1, hfinal.2, lossless_of_reports hp (Reachable.refl.of_run hst)⟩

end Loggregator.Doppler.TruncatingBuffer
