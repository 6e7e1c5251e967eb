import Loggregator.Lib.Transition
import Loggregator.Plumbing.Envelope

/-!
# The truncating buffer of a sink

`doppler/internal/truncatingbuffer`. `Run` forwards the allowed inputs to a bounded output
channel. When the channel is full it discards what is queued, puts its own notices about this in
front, and goes on with the message that did not fit. The consumer receives concurrently. An
action of `Run` is one operation on a channel with the local work that follows it; the counters
are touched by `Run` only.

An entry of the queue is marked as an input, with its position among all inputs, or as a notice,
with the time it was sent at. The records `allowed`, `received`, `discarded` and `overflows` say
what happened, the oldest first. None of this is read by the code.
-/

namespace Loggregator.Doppler.TruncatingBuffer

open Lib

/-- `BufferContext`. -/
structure BufferContext where
  eventAllowed : Events.EventType → Bool
  destination : GoString
  origin : GoString
  appID : Events.Envelope → GoString

/-- `DefaultContext`; `getAppId` is the function of `envelope_extensions`, which is not part of the
repository. -/
def defaultContext (getAppId : Events.Envelope → GoString) (origin destination : GoString) :
    BufferContext where
  eventAllowed := fun _ => true
  destination := destination
  origin := origin
  appID := getAppId

/-- `LogAllowedContext`. -/
def logAllowedContext (getAppId : Events.Envelope → GoString) (origin destination : GoString) :
    BufferContext :=
  { defaultContext getAppId origin destination with eventAllowed := fun t => t = .logMessage }

/-- `SystemContext`; `systemAppId` is a constant of `envelope_extensions`. -/
def systemContext (systemAppId origin destination : GoString) : BufferContext :=
  defaultContext (fun _ => systemAppId) origin destination

/-- The events that the buffer emits. -/
inductive Event where
  | logMessage (m : Events.LogMessage)
  | counterEvent (c : Events.CounterEvent)

def Event.eventType : Event → Events.EventType
  | .logMessage _ => .logMessage
  | .counterEvent _ => .counterEvent

/-- The envelope has the event, and its type. -/
def Event.CarriedBy (env : Events.Envelope) : Event → Prop
  | .logMessage m => env.eventType = .logMessage ∧ env.logMessage = some m
  | .counterEvent c => env.eventType = .counterEvent ∧ env.counterEvent = some c

/-- `emitter.Wrap`, for an event, an origin and the time. It may fail; an envelope that it returns
carries the event. -/
structure Emitter where
  wrap : Event → GoString → Int64 → Option Events.Envelope
  carries_wrap : ∀ event origin now env, wrap event origin now = some env → event.CarriedBy env

theorem Emitter.eventType_wrap (emitter : Emitter) {event : Event} {origin : GoString}
    {now : Int64} {env : Events.Envelope} (h : emitter.wrap event origin now = some env) :
    env.eventType = event.eventType := by
  have hcarries := emitter.carries_wrap event origin now env h
  cases event with
  | logMessage m | counterEvent c => exact hcarries.1

/-- The parameters of a buffer. `NewTruncatingBuffer` panics for a size below 3, and `make` for
one that is no `int`. -/
structure Params where
  emitter : Emitter
  context : BufferContext
  bufferSize : UInt64
  three_le : 3 ≤ bufferSize.toNat
  lt_int : bufferSize.toNat < 2 ^ 63

/-- An entry of the output channel. -/
inductive Entry where
  | input (pos : Nat) (msg : Events.Envelope)
  | notice (time : Nat) (env : Events.Envelope)
  deriving DecidableEq

namespace Entry

def envelope : Entry → Events.Envelope
  | .input _ msg => msg
  | .notice _ env => env

def isInput : Entry → Bool
  | .input _ _ => true
  | .notice _ _ => false

def isNotice : Entry → Bool
  | .input _ _ => false
  | .notice _ _ => true

/-- The position and the envelope of an input. -/
def toInput : Entry → Option (Nat × Events.Envelope)
  | .input pos msg => some (pos, msg)
  | .notice _ _ => none

end Entry

/-- An overflow, when `dropMessages` has returned `dropped`: what was discarded, what the consumer
received since the send failed, and `queuedInternalMessageCount`. -/
structure Overflow where
  deltaDropped : UInt64
  dropped : UInt64
  queuedInternal : UInt64
  discarded : List Entry
  taken : List Entry

/-- `Run`, by the channel operation that comes next. -/
inductive Pc where
  /-- The `select` of `Run`. -/
  | idle
  /-- The `select` of `forwardMessage`. -/
  | forwardMessage (msg : Entry)
  /-- The `select` of `dropMessages`. -/
  | dropMessages (msg : Entry) (dropped : UInt64)
  /-- `emitMessage` for each event, and then the `select` of `writeToOutput`. -/
  | emitMessage (events : List Event) (msg : Entry)
  | returned

structure State where
  queue : List Entry := []
  sentMessageCount : UInt64 := 0
  queuedInternalMessageCount : UInt64 := 0
  droppedMessageCount : UInt64 := 0
  pc : Pc := .idle
  /-- The number of inputs so far. -/
  inputs : Nat := 0
  /-- The number of operations of `Run` so far. -/
  time : Nat := 0
  allowed : List (Nat × Events.Envelope) := []
  received : List Entry := []
  discarded : List (Nat × Entry) := []
  overflows : List Overflow := []
  /-- What the current overflow has discarded so far, and what was received meanwhile. -/
  discarding : List Entry := []
  taken : List Entry := []

/-- The actions: an input and the stop signal for `Run`, its next channel operation at a time of
the clock, and a receive of the consumer. -/
inductive Action where
  | input (msg : Events.Envelope)
  | stop
  | run (now : Int64)
  | receive

/-- `generateLogMessage`. -/
def generateLogMessage (deltaDropped totalDropped : UInt64) (appId source destination : GoString)
    (now : Int64) : Events.LogMessage where
  message := str "Log message output is too high. " ++ formatNat deltaDropped.toNat ++
    str " messages dropped (Total " ++ formatNat totalDropped.toNat ++
    str " messages dropped) from " ++ source ++ str " to " ++ destination ++ str "."
  messageType := .ERR
  timestamp := now
  appId := appId
  sourceType := str "LGR"
  sourceInstance := []

/-- `generateCounterEvent`. -/
def generateCounterEvent (delta total : UInt64) : Events.CounterEvent where
  name := str "TruncatingBuffer.DroppedMessages"
  delta := delta
  total := total

/-- `notifyMessagesDropped`: the events that it emits. -/
def notifyMessagesDropped (context : BufferContext) (deltaDropped totalDropped : UInt64)
    (appId : GoString) (now : Int64) : List Event :=
  (if context.eventAllowed .logMessage then
    [.logMessage (generateLogMessage deltaDropped totalDropped appId context.origin
      context.destination now)]
  else []) ++
  (if context.eventAllowed .counterEvent then
    [.counterEvent (generateCounterEvent deltaDropped totalDropped)]
  else [])

section Step

variable (p : Params) (st : State)

/-- The channel has room. -/
def State.Room : Prop := st.queue.length < p.bufferSize.toNat

instance : Decidable (st.Room p) := inferInstanceAs (Decidable (_ < _))

/-- `forwardMessage` up to the end of its first branch, or to `dropMessages`. -/
def State.forwardMessage (msg : Entry) : State :=
  if st.Room p then
    let sent := st.sentMessageCount + 1
    let queuedInternalMessageWasSent := p.bufferSize < sent + st.queuedInternalMessageCount
    { st with
      queue := st.queue ++ [msg]
      sentMessageCount := sent
      queuedInternalMessageCount :=
        if 0 < st.queuedInternalMessageCount ∧ queuedInternalMessageWasSent then
          st.queuedInternalMessageCount - 1
        else st.queuedInternalMessageCount
      pc := .idle
      time := st.time + 1 }
  else
    { st with pc := .dropMessages msg 0, discarding := [], taken := [], time := st.time + 1 }

/-- One turn of `dropMessages`; with the last one `forwardMessage` goes on to
`notifyMessagesDropped`. -/
def State.dropMessages (msg : Entry) (dropped : UInt64) (now : Int64) : State :=
  match st.queue with
  | entry :: queue =>
    { st with
      queue := queue
      pc := .dropMessages msg (dropped + 1)
      discarded := st.discarded ++ [(st.time, entry)]
      discarding := st.discarding ++ [entry]
      time := st.time + 1 }
  | [] =>
    let deltaDropped := dropped - st.queuedInternalMessageCount
    let total := st.droppedMessageCount + deltaDropped
    { st with
      queuedInternalMessageCount := 0
      droppedMessageCount := total
      pc := .emitMessage (notifyMessagesDropped p.context deltaDropped total
        (p.context.appID msg.envelope) now) msg
      overflows := st.overflows ++
        [⟨deltaDropped, dropped, st.queuedInternalMessageCount, st.discarding, st.taken⟩]
      time := st.time + 1 }

/-- `emitMessage`. The send blocks as long as the channel is full. -/
def State.emitMessage (event : Event) (events : List Event) (msg : Entry) (now : Int64) :
    Option State :=
  match p.emitter.wrap event p.context.origin now with
  | none => some { st with pc := .emitMessage events msg, time := st.time + 1 }
  | some env =>
    if st.Room p then
      some { st with
        queue := st.queue ++ [.notice st.time env]
        queuedInternalMessageCount := st.queuedInternalMessageCount + 1
        pc := .emitMessage events msg
        time := st.time + 1 }
    else none

/-- `writeToOutput`, and the end of `forwardMessage`. -/
def State.writeToOutput (msg : Entry) : State :=
  if st.Room p then
    { st with queue := st.queue ++ [msg], sentMessageCount := 1, pc := .idle, time := st.time + 1 }
  else
    { st with
      droppedMessageCount := st.droppedMessageCount + 1
      discarded := st.discarded ++ [(st.time, msg)]
      sentMessageCount := 1
      pc := .idle
      time := st.time + 1 }

/-- The next channel operation of `Run`. -/
def State.stepRun (now : Int64) : Option State :=
  match st.pc with
  | .forwardMessage msg => some (st.forwardMessage p msg)
  | .dropMessages msg dropped => some (st.dropMessages p msg dropped now)
  | .emitMessage (event :: events) msg => st.emitMessage p event events msg now
  | .emitMessage [] msg => some (st.writeToOutput p msg)
  | .idle | .returned => none

/-- An input for `Run`. -/
def State.input (msg : Events.Envelope) : State :=
  if p.context.eventAllowed msg.eventType then
    { st with
      pc := .forwardMessage (.input st.inputs msg)
      allowed := st.allowed ++ [(st.inputs, msg)]
      inputs := st.inputs + 1 }
  else { st with inputs := st.inputs + 1 }

def Pc.Dropping : Pc → Prop
  | .dropMessages _ _ => True
  | _ => False

instance : (pc : Pc) → Decidable pc.Dropping
  | .dropMessages _ _ => isTrue trivial
  | .idle | .forwardMessage _ | .emitMessage _ _ | .returned => isFalse not_false

/-- A receive of the consumer. -/
def State.receive (entry : Entry) (queue : List Entry) : State :=
  { st with
    queue := queue
    received := st.received ++ [entry]
    taken := if st.pc.Dropping then st.taken ++ [entry] else st.taken }

/-- One action. -/
def step : Action → Option State
  | .input msg =>
    match st.pc with
    | .idle => some (st.input p msg)
    | _ => none
  | .stop =>
    match st.pc with
    | .idle => some { st with pc := .returned }
    | _ => none
  | .run now => st.stepRun p now
  | .receive =>
    match st.queue with
    | [] => none
    | entry :: queue => some (st.receive entry queue)

end Step

/-! ## What an action can do -/

/-- The actions by what they change. -/
inductive Step (p : Params) (st : State) : Action → State → Prop where
  | skip {msg : Events.Envelope} (hpc : st.pc = .idle)
      (hnot : p.context.eventAllowed msg.eventType = false) :
      Step p st (.input msg) { st with inputs := st.inputs + 1 }
  | take {msg : Events.Envelope} (hpc : st.pc = .idle)
      (hallowed : p.context.eventAllowed msg.eventType = true) :
      Step p st (.input msg) { st with
        pc := .forwardMessage (.input st.inputs msg)
        allowed := st.allowed ++ [(st.inputs, msg)]
        inputs := st.inputs + 1 }
  | stop (hpc : st.pc = .idle) : Step p st .stop { st with pc := .returned }
  | sent {msg : Entry} {now : Int64} (hpc : st.pc = .forwardMessage msg) (hroom : st.Room p) :
      Step p st (.run now) { st with
        queue := st.queue ++ [msg]
        sentMessageCount := st.sentMessageCount + 1
        queuedInternalMessageCount :=
          if 0 < st.queuedInternalMessageCount ∧
              p.bufferSize < st.sentMessageCount + 1 + st.queuedInternalMessageCount then
            st.queuedInternalMessageCount - 1
          else st.queuedInternalMessageCount
        pc := .idle
        time := st.time + 1 }
  | full {msg : Entry} {now : Int64} (hpc : st.pc = .forwardMessage msg) (hfull : ¬ st.Room p) :
      Step p st (.run now) { st with
        pc := .dropMessages msg 0, discarding := [], taken := [], time := st.time + 1 }
  | discard {msg entry : Entry} {dropped : UInt64} {queue : List Entry} {now : Int64}
      (hpc : st.pc = .dropMessages msg dropped) (hqueue : st.queue = entry :: queue) :
      Step p st (.run now) { st with
        queue := queue
        pc := .dropMessages msg (dropped + 1)
        discarded := st.discarded ++ [(st.time, entry)]
        discarding := st.discarding ++ [entry]
        time := st.time + 1 }
  | report {msg : Entry} {dropped : UInt64} {now : Int64}
      (hpc : st.pc = .dropMessages msg dropped) (hqueue : st.queue = []) :
      Step p st (.run now) { st with
        queuedInternalMessageCount := 0
        droppedMessageCount :=
          st.droppedMessageCount + (dropped - st.queuedInternalMessageCount)
        pc := .emitMessage (notifyMessagesDropped p.context
          (dropped - st.queuedInternalMessageCount)
          (st.droppedMessageCount + (dropped - st.queuedInternalMessageCount))
          (p.context.appID msg.envelope) now) msg
        overflows := st.overflows ++ [⟨dropped - st.queuedInternalMessageCount, dropped,
          st.queuedInternalMessageCount, st.discarding, st.taken⟩]
        time := st.time + 1 }
  | unwrapped {event : Event} {events : List Event} {msg : Entry} {now : Int64}
      (hpc : st.pc = .emitMessage (event :: events) msg)
      (hwrap : p.emitter.wrap event p.context.origin now = none) :
      Step p st (.run now) { st with pc := .emitMessage events msg, time := st.time + 1 }
  | emit {event : Event} {events : List Event} {msg : Entry} {env : Events.Envelope}
      {now : Int64} (hpc : st.pc = .emitMessage (event :: events) msg)
      (hwrap : p.emitter.wrap event p.context.origin now = some env) (hroom : st.Room p) :
      Step p st (.run now) { st with
        queue := st.queue ++ [.notice st.time env]
        queuedInternalMessageCount := st.queuedInternalMessageCount + 1
        pc := .emitMessage events msg
        time := st.time + 1 }
  | write {msg : Entry} {now : Int64} (hpc : st.pc = .emitMessage [] msg) (hroom : st.Room p) :
      Step p st (.run now) { st with
        queue := st.queue ++ [msg], sentMessageCount := 1, pc := .idle, time := st.time + 1 }
  | lost {msg : Entry} {now : Int64} (hpc : st.pc = .emitMessage [] msg)
      (hfull : ¬ st.Room p) :
      Step p st (.run now) { st with
        droppedMessageCount := st.droppedMessageCount + 1
        discarded := st.discarded ++ [(st.time, msg)]
        sentMessageCount := 1
        pc := .idle
        time := st.time + 1 }
  | receive {entry : Entry} {queue : List Entry} (hqueue : st.queue = entry :: queue) :
      Step p st .receive (st.receive entry queue)

theorem step_run {p : Params} {st st' : State} {now : Int64}
    (h : st.stepRun p now = some st') : Step p st (.run now) st' := by
  unfold State.stepRun at h
  split at h
  · next msg hpc =>
    cases h
    unfold State.forwardMessage
    split
    · next hroom => exact .sent hpc hroom
    · next hfull => exact .full hpc hfull
  · next msg dropped hpc =>
    cases h
    unfold State.dropMessages
    split
    · next entry queue hqueue => exact .discard hpc hqueue
    · next hqueue => exact .report hpc hqueue
  · next event events msg hpc =>
    unfold State.emitMessage at h
    split at h
    · next hwrap =>
      cases h
      exact .unwrapped hpc hwrap
    · next env hwrap =>
      split at h
      · next hroom =>
        cases h
        exact .emit hpc hwrap hroom
      · cases h
  · next msg hpc =>
    cases h
    unfold State.writeToOutput
    split
    · next hroom => exact .write hpc hroom
    · next hfull => exact .lost hpc hfull
  · cases h
  · cases h

/-- Every action is one of these. -/
theorem step_cases {p : Params} {st st' : State} {a : Action} (h : step p st a = some st') :
    Step p st a st' := by
  cases a with
  | input msg =>
    simp only [step] at h
    split at h
    · next hpc =>
      cases h
      unfold State.input
      split
      · next hallowed => exact .take hpc hallowed
      · next hnot => exact .skip hpc (by simpa using hnot)
    · cases h
  | stop =>
    simp only [step] at h
    split at h
    · next hpc =>
      cases h
      exact .stop hpc
    · cases h
  | run now => exact step_run h
  | receive =>
    simp only [step] at h
    split at h
    · cases h
    · next entry queue hqueue =>
      cases h
      exact .receive hqueue

/-! ## Inputs and notices -/

/-- The number of inputs among the entries. -/
def inputs (entries : List Entry) : Nat := entries.countP Entry.isInput

/-- The number of the buffer's own notices among the entries. -/
def notices (entries : List Entry) : Nat := entries.countP Entry.isNotice

@[simp] theorem inputs_nil : inputs [] = 0 := rfl

@[simp] theorem notices_nil : notices [] = 0 := rfl

@[simp] theorem inputs_append (l l' : List Entry) : inputs (l ++ l') = inputs l + inputs l' :=
  List.countP_append

@[simp] theorem notices_append (l l' : List Entry) :
    notices (l ++ l') = notices l + notices l' :=
  List.countP_append

theorem notices_cons (e : Entry) (l : List Entry) :
    notices (e :: l) = notices [e] + notices l := by
  rw [← notices_append, List.singleton_append]

theorem inputs_add_notices (l : List Entry) : inputs l + notices l = l.length := by
  induction l with
  | nil => rfl
  | cons e l ih =>
    rw [inputs, notices, List.countP_cons, List.countP_cons, List.length_cons]
    rw [inputs, notices] at ih
    cases e <;> simp only [Entry.isInput, Entry.isNotice] <;> simp <;> omega

end Loggregator.Doppler.TruncatingBuffer
