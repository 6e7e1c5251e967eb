import Loggregator.Doppler.GroupedSinks
import Loggregator.Lib.Transition
import Loggregator.Plumbing.Envelope

/-!
# The registry of sinks with its channels

All of `doppler/internal/groupedsinks`: the sinks of applications, the sinks of firehose
subscriptions and the broadcasts. `GroupedSinks` models the part that the sink manager's drains
use; here the channels are modelled too. The language panics when a closed channel is closed or
sent on, so an operation returns a registry or a panic.

An `AppGroup` and a `firehoseGroup` are the same kind of map with the same methods, except that a
firehose broadcast goes to one sink of the group. A sink that a loop removes before it has come
to it is not visited.
-/

namespace Loggregator.Doppler.SinkRegistry

open Lib

inductive Panic where
  | closeOfClosedChannel
  | sendOnClosedChannel
  deriving DecidableEq

/-- A channel: how much it takes, and what was sent and not received. -/
structure Channel where
  capacity : Nat := 0
  queue : List Events.Envelope := []

/-- The channels, and the closed ones in the order in which they were closed. -/
structure Channels where
  channel : Chan → Channel := fun _ => {}
  closed : List Chan := []

namespace Channels

/-- `close(c)`. -/
def close (cs : Channels) (c : Chan) : Except Panic Channels :=
  if c ∈ cs.closed then .error .closeOfClosedChannel
  else .ok { cs with closed := cs.closed ++ [c] }

/-- Replace what is known of a channel. -/
def set (cs : Channels) (c : Chan) (ch : Channel) : Channels :=
  { cs with channel := fun c' => if c' = c then ch else cs.channel c' }

/-- `select { case c <- msg: default: }`, and whether the message was sent. -/
def trySend (cs : Channels) (c : Chan) (msg : Events.Envelope) : Except Panic (Bool × Channels) :=
  if c ∈ cs.closed then .error .sendOnClosedChannel
  else if (cs.channel c).queue.length < (cs.channel c).capacity then
    .ok (true, cs.set c { cs.channel c with queue := (cs.channel c).queue ++ [msg] })
  else .ok (false, cs)

end Channels

/-- A `firehoseGroup`. -/
abbrev FirehoseGroup := Dict GoString SinkWrapper

/-- What `ShouldReceiveErrors` returns; `other` for the types that the registry does not name. -/
def shouldReceiveErrors (other : Sink → Bool) (sink : Sink) : Bool :=
  match sink.type with
  | .dumpSink | .websocketSink => true
  | .syslogSink | .containerMetricSink => false
  | .other => other sink

section Groups

/-- `removeSink` of a group. -/
def removeSink (group : AppGroup) (sink : Sink) (cs : Channels) :
    Except Panic (Bool × AppGroup × Channels) :=
  match AppGroup.removeSink group sink with
  | (none, group) => .ok (false, group, cs)
  | (some inputChan, group) => (cs.close inputChan).map (fun cs => (true, group, cs))

/-- One turn of `RemoveAllSinks`. -/
def removeVisited (s : AppGroup × Channels) (p : Sigma fun _ : GoString => SinkWrapper) :
    Except Panic (AppGroup × Channels) :=
  match s.1.lookup p.1 with
  | none => .ok s
  | some wrapper => (removeSink s.1 wrapper.sink s.2).map Prod.snd

/-- `RemoveAllSinks` of a group. -/
def removeAllSinks (group : AppGroup) (cs : Channels) : Except Panic (AppGroup × Channels) :=
  group.entries.foldlM removeVisited (group, cs)

/-- The map of groups with a sink registered, after the checks of its strings. -/
def register (groups : Dict GoString AppGroup) (inputChan : Chan) (sink : Sink) :
    Bool × Dict GoString AppGroup :=
  let group := (groups.lookup sink.appID).getD ∅
  let (ok, group) := AppGroup.addSink group sink inputChan
  (ok, groups.insert sink.appID group)

/-- `CloseAndDelete` and `CloseAndDeleteFirehose`, on their map of groups. -/
def delete (groups : Dict GoString AppGroup) (sink : Sink) (cs : Channels) :
    Except Panic (Bool × Dict GoString AppGroup × Channels) :=
  match groups.lookup sink.appID with
  | none => .ok (false, groups, cs)
  | some group => (removeSink group sink cs).map (fun (removed, group, cs) =>
      (removed, groups.putGroup sink.appID group, cs))

/-- One turn of a loop of `DeleteAll`. -/
def deleteVisited (s : Dict GoString AppGroup × Channels)
    (p : Sigma fun _ : GoString => AppGroup) :
    Except Panic (Dict GoString AppGroup × Channels) :=
  match s.1.lookup p.1 with
  | none => .ok s
  | some group => (removeAllSinks group s.2).map (fun r => (s.1.erase p.1, r.2))

/-- A loop of `DeleteAll`. -/
def deleteGroups (groups : Dict GoString AppGroup) (cs : Channels) :
    Except Panic (Dict GoString AppGroup × Channels) :=
  groups.entries.foldlM deleteVisited (groups, cs)

/-- `randomWrapper`, where `rand.Intn` gives `r` modulo the number of wrappers. -/
def randomWrapper (group : FirehoseGroup) (r : Nat) : Option SinkWrapper :=
  (Dict.values group)[r % (Dict.values group).length]?

end Groups

/-- `GroupedSinks`, with its channels and the counts of dropped messages. -/
structure Registry where
  apps : Dict GoString AppGroup := ∅
  firehoses : Dict GoString FirehoseGroup := ∅
  channels : Channels := {}
  dropped : Nat := 0
  errorsDropped : Nat := 0

namespace Registry

variable (r : Registry)

/-- `GroupedSinks.RegisterAppSink`. -/
def registerAppSink (inputChan : Chan) (sink : Sink) : Bool × Registry :=
  if sink.appID = [] ∨ sink.identifier = [] then (false, r)
  else
    let (ok, apps) := register r.apps inputChan sink
    (ok, { r with apps := apps })

/-- `GroupedSinks.RegisterFirehoseSink`; it does not check the identifier. -/
def registerFirehoseSink (inputChan : Chan) (sink : Sink) : Bool × Registry :=
  if sink.appID = [] then (false, r)
  else
    let (ok, firehoses) := register r.firehoses inputChan sink
    (ok, { r with firehoses := firehoses })

/-- `GroupedSinks.CloseAndDelete`. -/
def closeAndDelete (sink : Sink) : Except Panic (Bool × Registry) :=
  (delete r.apps sink r.channels).map (fun (removed, apps, cs) =>
    (removed, { r with apps := apps, channels := cs }))

/-- `GroupedSinks.CloseAndDeleteFirehose`. -/
def closeAndDeleteFirehose (sink : Sink) : Except Panic (Bool × Registry) :=
  (delete r.firehoses sink r.channels).map (fun (removed, firehoses, cs) =>
    (removed, { r with firehoses := firehoses, channels := cs }))

/-- `GroupedSinks.DeleteAll`. -/
def deleteAll : Except Panic Registry := do
  let (apps, cs) ← deleteGroups r.apps r.channels
  let (firehoses, cs) ← deleteGroups r.firehoses cs
  return { r with apps := apps, firehoses := firehoses, channels := cs }

/-- A send of a message, counted under `sinks.dropped` when the channel has no room. -/
def send (msg : Events.Envelope) (wrapper : SinkWrapper) : Except Panic Registry :=
  (r.channels.trySend wrapper.inputChan msg).map (fun (sent, cs) =>
    { r with channels := cs, dropped := if sent then r.dropped else r.dropped + 1 })

/-- A send of an error, counted under `sinks.errors.dropped`. -/
def sendError (msg : Events.Envelope) (wrapper : SinkWrapper) : Except Panic Registry :=
  (r.channels.trySend wrapper.inputChan msg).map (fun (sent, cs) =>
    { r with
      channels := cs
      errorsDropped := if sent then r.errorsDropped else r.errorsDropped + 1 })

/-- `AppGroup.BroadcastMessage`. -/
def broadcastMessage (group : AppGroup) (msg : Events.Envelope) : Except Panic Registry :=
  (Dict.values group).foldlM (fun r wrapper => r.send msg wrapper) r

/-- `AppGroup.BroadcastError`. -/
def broadcastErrorMessage (other : Sink → Bool) (group : AppGroup) (msg : Events.Envelope) :
    Except Panic Registry :=
  (Dict.values group).foldlM (fun r wrapper =>
    if shouldReceiveErrors other wrapper.sink then r.sendError msg wrapper else .ok r) r

/-- `broadcastMessageToFirehoses`, where `rand` is what `rand.Intn` gives for each
subscription. -/
def broadcastMessageToFirehoses (rand : GoString → Nat) (msg : Events.Envelope) :
    Except Panic Registry :=
  r.firehoses.entries.foldlM (fun r p =>
    match randomWrapper p.2 (rand p.1) with
    | none => .ok r
    | some wrapper => r.send msg wrapper) r

/-- `GroupedSinks.Broadcast`. -/
def broadcast (rand : GoString → Nat) (appId : GoString) (msg : Events.Envelope) :
    Except Panic Registry := do
  let r' ← match r.apps.lookup appId with
    | none => .ok r
    | some sinksForApp => r.broadcastMessage sinksForApp msg
  r'.broadcastMessageToFirehoses rand msg

/-- `GroupedSinks.BroadcastError`. -/
def broadcastError (other : Sink → Bool) (rand : GoString → Nat) (appId : GoString)
    (msg : Events.Envelope) : Except Panic Registry := do
  let r' ← match r.apps.lookup appId with
    | none => .ok r
    | some sinksForApp => r.broadcastErrorMessage other sinksForApp msg
  r'.broadcastMessageToFirehoses rand msg

end Registry

/-! ## The calls and their ledger -/

/-- The two kinds of registrations. -/
inductive Kind where
  | app
  | firehose
  deriving DecidableEq

/-- A successful registration: its kind, its sink and its channel. -/
structure Registration where
  kind : Kind
  wrapper : SinkWrapper
  deriving DecidableEq

/-- The channel of a registration. -/
def Registration.chan (reg : Registration) : Chan := reg.wrapper.inputChan

/-- The call for this kind and this sink removes the registration. -/
def Registration.Meant (kind : Kind) (sink : Sink) (reg : Registration) : Bool :=
  decide (reg.kind = kind) && decide (reg.wrapper.sink.key = sink.key)

/-- What the calls amount to: the registrations that succeeded and were not removed, and those
that were. -/
structure Ledger where
  live : List Registration := []
  removed : List Registration := []

namespace Ledger

/-- A call of a register function with its result. -/
def register (l : Ledger) (kind : Kind) (wrapper : SinkWrapper) (ok : Bool) : Ledger :=
  if ok then { l with live := l.live ++ [⟨kind, wrapper⟩] } else l

/-- Remove the registrations that meet a condition. -/
def remove (l : Ledger) (P : Registration → Bool) : Ledger where
  live := l.live.filter (fun reg => !P reg)
  removed := l.removed ++ l.live.filter P

end Ledger

/-- The registry, the ledger of the calls so far and the channels that they were given. The code
does not read the last two. -/
structure State where
  registry : Registry := {}
  ledger : Ledger := {}
  given : List Chan := []

/-- The calls, each of which holds the lock of the registry, and what the consumer of a channel
does: it may change how much is queued and how much is taken in any way. -/
inductive Action where
  | registerAppSink (inputChan : Chan) (sink : Sink)
  | registerFirehoseSink (inputChan : Chan) (sink : Sink)
  | closeAndDelete (sink : Sink)
  | closeAndDeleteFirehose (sink : Sink)
  | deleteAll
  | broadcast (rand : GoString → Nat) (appId : GoString) (msg : Events.Envelope)
  | broadcastError (other : Sink → Bool) (rand : GoString → Nat) (appId : GoString)
      (msg : Events.Envelope)
  | consume (c : Chan) (ch : Channel)

/-- The effect of a call. -/
def State.apply (st : State) : Action → Except Panic State
  | .registerAppSink inputChan sink =>
    let (ok, registry) := st.registry.registerAppSink inputChan sink
    .ok ⟨registry, st.ledger.register .app ⟨inputChan, sink⟩ ok, inputChan :: st.given⟩
  | .registerFirehoseSink inputChan sink =>
    let (ok, registry) := st.registry.registerFirehoseSink inputChan sink
    .ok ⟨registry, st.ledger.register .firehose ⟨inputChan, sink⟩ ok, inputChan :: st.given⟩
  | .closeAndDelete sink => (st.registry.closeAndDelete sink).map (fun (_, registry) =>
      { st with registry := registry, ledger := st.ledger.remove (Registration.Meant .app sink) })
  | .closeAndDeleteFirehose sink =>
    (st.registry.closeAndDeleteFirehose sink).map (fun (_, registry) =>
      { st with
        registry := registry, ledger := st.ledger.remove (Registration.Meant .firehose sink) })
  | .deleteAll => st.registry.deleteAll.map (fun registry =>
      { st with registry := registry, ledger := st.ledger.remove (fun _ => true) })
  | .broadcast rand appId msg => (st.registry.broadcast rand appId msg).map (fun registry =>
      { st with registry := registry })
  | .broadcastError other rand appId msg =>
    (st.registry.broadcastError other rand appId msg).map (fun registry =>
      { st with registry := registry })
  | .consume c ch => .ok { st with
      registry := { st.registry with channels := st.registry.channels.set c ch } }

/-- One call; after a panic there is none. -/
def step : Except Panic State → Action → Option (Except Panic State)
  | .error _, _ => none
  | .ok st, a => some (st.apply a)

/-- A register call is given a channel that no call was given before. -/
def Fresh : Except Panic State → Action → Prop
  | .ok st, .registerAppSink inputChan _ => inputChan ∉ st.given
  | .ok st, .registerFirehoseSink inputChan _ => inputChan ∉ st.given
  | _, _ => True

instance : (s : Except Panic State) → (a : Action) → Decidable (Fresh s a)
  | .ok st, .registerAppSink inputChan _ => inferInstanceAs (Decidable (inputChan ∉ st.given))
  | .ok st, .registerFirehoseSink inputChan _ =>
    inferInstanceAs (Decidable (inputChan ∉ st.given))
  | .ok _, .closeAndDelete _ | .ok _, .closeAndDeleteFirehose _ | .ok _, .deleteAll
  | .ok _, .broadcast _ _ _ | .ok _, .broadcastError _ _ _ _ | .ok _, .consume _ _
  | .error _, _ => isTrue trivial

/-! ## The registry of the sink manager -/

/-- The part that `GroupedSinks` models. -/
def Registry.toGroupedSinks (r : Registry) : GroupedSinks := ⟨r.apps, r.channels.closed⟩

theorem Registry.registerAppSink_toGroupedSinks (r : Registry) (c : Chan) (sink : Sink) :
    r.toGroupedSinks.registerAppSink c sink =
      ((r.registerAppSink c sink).1, (r.registerAppSink c sink).2.toGroupedSinks) := by
  unfold GroupedSinks.registerAppSink registerAppSink
  split <;> rfl

/-- A `CloseAndDelete` that does not panic does what `GroupedSinks.closeAndDelete` does. -/
theorem Registry.closeAndDelete_toGroupedSinks {r r' : Registry} {sink : Sink} {removed : Bool}
    (h : r.closeAndDelete sink = .ok (removed, r')) :
    r.toGroupedSinks.closeAndDelete sink = (removed, r'.toGroupedSinks) := by
  unfold closeAndDelete delete at h
  unfold GroupedSinks.closeAndDelete
  change (match r.apps.lookup sink.appID with | none => _ | some sinksForApp => _) = _
  cases hg : r.apps.lookup sink.appID with
  | none =>
    rw [hg] at h
    cases h
    rfl
  | some group =>
    rw [hg] at h
    simp only [removeSink, AppGroup.removeSink] at h ⊢
    cases hw : group.lookup sink.identifier with
    | none =>
      rw [hw] at h
      cases h
      simp [toGroupedSinks]
    | some w =>
      rw [hw] at h
      simp only [Option.map_some, Channels.close] at h
      split at h
      · cases h
      · cases h
        simp [toGroupedSinks]

end Loggregator.Doppler.SinkRegistry
