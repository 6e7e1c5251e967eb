import Loggregator.Doppler.BroadcastDelivery
import Loggregator.Doppler.ContainerMetricSink
import Loggregator.Doppler.DumpSink
import Loggregator.Lib.Handoff

/-!
# What doppler answers about an application

The sink manager with its message router, over the registry of sinks with its channels. The
router takes one envelope after the other and calls `SendTo`, which makes the two sinks that keep
data of the envelope's application where they are missing, and broadcasts. Each of these sinks has
a goroutine that takes envelopes from its channel; it returns when the channel is closed or after
some time without them, and unregisters its sink. `RecentLogsFor` and `LatestContainerMetrics` read
what the sinks hold at that moment.

The other sinks, the drains' and the websockets', come and go and take envelopes from their
channels in any way. The gauges of the sinks are in `SinkGauges`.
-/

namespace Loggregator.Doppler.SinkData

open Lib
open SinkRegistry (Registry Registration Kind Panic Channel Kept)

/-- What `New` is given for the two kinds of sinks. The application of an envelope is a parameter:
`envelope_extensions.GetAppId` is not part of the repository. -/
structure Config where
  recentLogCount : UInt32
  metricTTL : Int64
  appId : Events.Envelope → GoString

/-- A panic: of a channel's use, or of `Next` on a nil ring. -/
inductive Fault where
  | channel (p : Panic)
  | nilRing

/-- The capacity of a sink's channel. -/
def channelCapacity : Nat := 128

/-- The contents of a sink. A sink of metrics has the time of the last call of `GetLatest`, which
the code does not. -/
inductive Data where
  | dump (sink : DumpSink)
  | metrics (sink : ContainerMetricSink) (clock : Int)

/-- A turn of the loop of `Run`. -/
def Data.receive (msg : Events.Envelope) : Data → Option Data
  | .dump sink => (sink.receive msg).map .dump
  | .metrics sink clock => some (.metrics (sink.receive msg) clock)

/-- Where the goroutine of a sink is. -/
inductive Stage where
  | running
  | returned
  | unregistered
  deriving DecidableEq

/-- A sink that keeps data, with its channel. The code does not have the last two fields: how many
broadcasts there had been when it was registered, and the history of its channel. -/
structure DataSink where
  wrapper : SinkWrapper
  data : Data
  stage : Stage := .running
  since : Nat
  handoff : Handoff Events.Envelope := {}

def DataSink.chan (d : DataSink) : Chan := d.wrapper.inputChan

/-- `dump.NewDumpSink`, as a sink of the registry. -/
def dumpSink (object : Nat) (appID : GoString) : Sink := ⟨object, appID, appID, .dumpSink⟩

/-- The identifier of a sink of container metrics. -/
def metricsIdentifier (appID : GoString) : GoString := str "container-metrics-" ++ appID

/-- `containermetric.NewContainerMetricSink`, as a sink of the registry. -/
def containerMetricSink (object : Nat) (appID : GoString) : Sink :=
  ⟨object, appID, metricsIdentifier appID, .containerMetricSink⟩

/-- The registration under an identifier, if its sink has this type. -/
def wrapperFor (r : Registry) (type : SinkType) (appID identifier : GoString) :
    Option SinkWrapper :=
  ((r.apps.lookup appID).bind (fun group => group.lookup identifier)).filter
    (fun w => w.sink.type = type)

/-- `GroupedSinks.DumpFor`. -/
def dumpFor (r : Registry) (appID : GoString) : Option SinkWrapper :=
  wrapperFor r .dumpSink appID appID

/-- `GroupedSinks.ContainerMetricsFor`. -/
def containerMetricsFor (r : Registry) (appID : GoString) : Option SinkWrapper :=
  wrapperFor r .containerMetricSink appID (metricsIdentifier appID)

/-- Where a call of `SendTo` is. -/
inductive Pc where
  | ensureRecentLogs
  | newRecentLogs
  | ensureContainerMetrics
  | newContainerMetrics
  | broadcast
  deriving DecidableEq

/-- A broadcast that was made. -/
structure Broadcast where
  error : Bool
  msg : Events.Envelope

/-- The registry, the sinks that keep data, and the call of `SendTo` that the router is in. The
code does not have the log of the broadcasts. -/
structure State where
  base : SinkRegistry.State := {}
  nextChan : Chan := 0
  router : Option (Events.Envelope × Pc) := none
  sinks : List DataSink := []
  log : List Broadcast := []

/-- The steps: of the router, of the listener for errors, of the goroutines of the sinks, of those
who register and remove other sinks and take from their channels, and the calls of `GetLatest` and
`Stop`. -/
inductive Action where
  | next (msg : Events.Envelope)
  | sendTo (rand : GoString → Nat)
  | broadcastError (other : Sink → Bool) (rand : GoString → Nat) (msg : Events.Envelope)
  | receive (k : Nat)
  | inactive (k : Nat)
  | closed (k : Nat)
  | unregister (k : Nat)
  | registerSink (kind : Kind) (sink : Sink)
  | unregisterSink (kind : Kind) (sink : Sink)
  | consume (c : Chan) (ch : Channel)
  | getLatest (k : Nat) (now : Int)
  | stop

/-- A call of the registry that may panic. -/
def State.call (st : State) (a : SinkRegistry.Action) (f : SinkRegistry.State → State) :
    Except Fault State :=
  match st.base.apply a with
  | .ok base => .ok (f base)
  | .error p => .error (.channel p)

/-- A channel of the capacity of sinks, and the registration of a sink with it. -/
def register (base : SinkRegistry.State) (kind : Kind) (c : Chan) (sink : Sink) :
    Except Panic SinkRegistry.State := do
  let base ← base.apply (.consume c { capacity := channelCapacity })
  match kind with
  | .app => base.apply (.registerAppSink c sink)
  | .firehose => base.apply (.registerFirehoseSink c sink)

/-- `RegisterSink` for a new sink that keeps data. -/
def State.registerData (st : State) (sink : Sink) (data : Data) : Except Fault State :=
  match register st.base .app st.nextChan sink with
  | .error p => .error (.channel p)
  | .ok base =>
    if (st.base.registry.registerAppSink st.nextChan sink).1 then
      .ok { st with
        base := base
        nextChan := st.nextChan + 1
        sinks := st.sinks ++ [⟨⟨st.nextChan, sink⟩, data, .running, st.log.length, {}⟩] }
    else .ok { st with base := base, nextChan := st.nextChan + 1 }

/-- The history of a sink's channel when a message is offered to these wrappers. -/
def DataSink.offered (r : Registry) (msg : Events.Envelope) (ws : List SinkWrapper)
    (d : DataSink) : DataSink :=
  if d.wrapper ∈ ws then
    { d with handoff := d.handoff.offer msg (r.channels.room d.chan) }
  else d

/-- The state after a broadcast to these sinks of an application. -/
def State.broadcasted (st : State) (b : Broadcast) (ws : List SinkWrapper)
    (base : SinkRegistry.State) : State :=
  { st with
    base := base
    log := st.log ++ [b]
    sinks := st.sinks.map (DataSink.offered st.base.registry b.msg ws) }

/-- The next operation of `SendTo`. -/
def State.sendTo (config : Config) (st : State) (rand : GoString → Nat) (msg : Events.Envelope) :
    Pc → Except Fault State
  | .ensureRecentLogs =>
    let pc := if (dumpFor st.base.registry (config.appId msg)).isSome then Pc.ensureContainerMetrics
      else .newRecentLogs
    .ok { st with router := some (msg, pc) }
  | .newRecentLogs =>
    { st with router := some (msg, .ensureContainerMetrics) }.registerData
      (dumpSink st.nextChan (config.appId msg)) (.dump (DumpSink.newDumpSink config.recentLogCount))
  | .ensureContainerMetrics =>
    let pc := if (containerMetricsFor st.base.registry (config.appId msg)).isSome then Pc.broadcast
      else .newContainerMetrics
    .ok { st with router := some (msg, pc) }
  | .newContainerMetrics =>
    { st with router := some (msg, .broadcast) }.registerData
      (containerMetricSink st.nextChan (config.appId msg)) (.metrics ⟨config.metricTTL, ∅⟩ 0)
  | .broadcast =>
    st.call (.broadcast rand (config.appId msg) msg) (fun base =>
      { st with router := none }.broadcasted ⟨false, msg⟩
        (st.base.registry.appWrappers (config.appId msg)) base)

/-- The effect of a step. -/
def State.apply (config : Config) (st : State) : Action → Option (Except Fault State)
  | .next msg =>
    match st.router with
    | none => some (.ok { st with router := some (msg, .ensureRecentLogs) })
    | some _ => none
  | .sendTo rand =>
    match st.router with
    | none => none
    | some (msg, pc) => some (st.sendTo config rand msg pc)
  | .broadcastError other rand msg =>
    some (st.call (.broadcastError other rand (config.appId msg) msg) (fun base =>
      st.broadcasted ⟨true, msg⟩ (st.base.registry.errorWrappers other (config.appId msg)) base))
  | .receive k =>
    match st.sinks[k]? with
    | none => none
    | some d =>
      match d.stage, (st.base.registry.channels.channel d.chan).queue with
      | .running, msg :: queue =>
        let ch := { st.base.registry.channels.channel d.chan with queue := queue }
        match d.data.receive msg with
        | none => some (.error .nilRing)
        | some data =>
          some (st.call (.consume d.chan ch) (fun base =>
            { st with
              base := base
              sinks := st.sinks.set k { d with data := data, handoff := d.handoff.receive msg } }))
      | _, _ => none
  | .inactive k =>
    match st.sinks[k]? with
    | none => none
    | some d =>
      match d.stage with
      | .running => some (.ok { st with sinks := st.sinks.set k { d with stage := .returned } })
      | _ => none
  | .closed k =>
    match st.sinks[k]? with
    | none => none
    | some d =>
      match d.stage, (st.base.registry.channels.channel d.chan).queue with
      | .running, [] =>
        if d.chan ∈ st.base.registry.channels.closed then
          some (.ok { st with sinks := st.sinks.set k { d with stage := .returned } })
        else none
      | _, _ => none
  | .unregister k =>
    match st.sinks[k]? with
    | none => none
    | some d =>
      match d.stage with
      | .returned =>
        some (st.call (.closeAndDelete d.wrapper.sink) (fun base =>
          { st with base := base, sinks := st.sinks.set k { d with stage := .unregistered } }))
      | _ => none
  | .registerSink kind sink =>
    if sink.type = .dumpSink ∨ sink.type = .containerMetricSink then none
    else
      match register st.base kind st.nextChan sink with
      | .error p => some (.error (.channel p))
      | .ok base => some (.ok { st with base := base, nextChan := st.nextChan + 1 })
  | .unregisterSink kind sink =>
    match kind with
    | .app => some (st.call (.closeAndDelete sink) (fun base => { st with base := base }))
    | .firehose =>
      some (st.call (.closeAndDeleteFirehose sink) (fun base => { st with base := base }))
  | .consume c ch =>
    if c ∈ st.sinks.map DataSink.chan then none
    else some (st.call (.consume c ch) (fun base => { st with base := base }))
  | .getLatest k now =>
    match st.sinks[k]? with
    | none => none
    | some d =>
      match d.data with
      | .metrics sink clock =>
        if now < clock then none
        else some (.ok { st with
          sinks := st.sinks.set k { d with data := .metrics (sink.getLatest now).2 now } })
      | .dump _ => none
  | .stop => some (st.call .deleteAll (fun base => { st with base := base }))

/-- One step; after a panic there is none. -/
def step (config : Config) : Except Fault State → Action → Option (Except Fault State)
  | .error _, _ => none
  | .ok st, a => st.apply config a

/-- The data of the sink with this registration. -/
def State.dataOf (st : State) (w : SinkWrapper) : Option Data :=
  (st.sinks.find? (fun d => d.wrapper = w)).map DataSink.data

/-- `RecentLogsFor`, with `none` for a panic. -/
def State.recentLogsFor (st : State) (appID : GoString) : Option (List Events.Envelope) :=
  match dumpFor st.base.registry appID with
  | none => some []
  | some w =>
    match st.dataOf w with
    | some (.dump sink) => sink.dump
    | _ => some []

/-- What `LatestContainerMetrics` returns at a time. -/
def State.latestContainerMetrics (st : State) (appID : GoString) (now : Int) :
    List Events.Envelope :=
  match containerMetricsFor st.base.registry appID with
  | none => []
  | some w =>
    match st.dataOf w with
    | some (.metrics sink _) => (sink.getLatest now).1
    | _ => []

/-! ## What the steps leave alone -/

/-- A sink's registration and channel when the registry goes from one state to another: it is not
registered anew, it is not forgotten, and its channel holds what it held. -/
structure Frame (b b' : SinkRegistry.State) (w : SinkWrapper) : Prop where
  live : ⟨.app, w⟩ ∈ b'.ledger.live → ⟨.app, w⟩ ∈ b.ledger.live
  recorded : ⟨.app, w⟩ ∈ b.ledger.live ++ b.ledger.removed →
    ⟨.app, w⟩ ∈ b'.ledger.live ++ b'.ledger.removed
  queue : (b'.registry.channels.channel w.inputChan).queue =
    (b.registry.channels.channel w.inputChan).queue

section Frame

variable {b b' : SinkRegistry.State} {w : SinkWrapper}

/-- The registry with a new channel for a sink. -/
def withChannel (r : Registry) (c : Chan) : Registry :=
  { r with channels := r.channels.set c { capacity := channelCapacity } }

theorem register_app (b : SinkRegistry.State) (c : Chan) (sink : Sink) :
    register b .app c sink = .ok ⟨((withChannel b.registry c).registerAppSink c sink).2,
      b.ledger.register .app ⟨c, sink⟩ (b.registry.registerAppSink c sink).1, c :: b.given⟩ := by
  have hok : ((withChannel b.registry c).registerAppSink c sink).1 =
      (b.registry.registerAppSink c sink).1 := by
    rw [Registry.registerAppSink, Registry.registerAppSink]
    split <;> rfl
  rw [← hok]
  rfl

theorem register_firehose (b : SinkRegistry.State) (c : Chan) (sink : Sink) :
    register b .firehose c sink = .ok ⟨((withChannel b.registry c).registerFirehoseSink c sink).2,
      b.ledger.register .firehose ⟨c, sink⟩
        ((withChannel b.registry c).registerFirehoseSink c sink).1, c :: b.given⟩ := rfl

theorem registerAppSink_channels (r : Registry) (c : Chan) (sink : Sink) :
    (r.registerAppSink c sink).2.channels = r.channels := by
  rw [Registry.registerAppSink]
  split <;> rfl

theorem registerFirehoseSink_channels (r : Registry) (c : Chan) (sink : Sink) :
    (r.registerFirehoseSink c sink).2.channels = r.channels := by
  rw [Registry.registerFirehoseSink]
  split <;> rfl

/-- What is registered after a registration. -/
theorem live_of_register {l : SinkRegistry.Ledger} {kind : Kind} {w' : SinkWrapper} {ok : Bool}
    (h : ⟨.app, w⟩ ∈ (l.register kind w' ok).live) : ⟨.app, w⟩ ∈ l.live ∨ w = w' := by
  rw [SinkRegistry.Ledger.register] at h
  split at h
  · rcases List.mem_append.mp h with h | h
    · exact Or.inl h
    · exact Or.inr (Registration.mk.inj (List.mem_singleton.mp h)).2
  · exact Or.inl h

/-- A registration with another channel. -/
theorem Frame.register {kind : Kind} {c : Chan} {sink : Sink} (hc : w.inputChan ≠ c)
    (h : register b kind c sink = .ok b') : Frame b b' w := by
  have hledger : ∀ (kind : Kind) ok, ⟨.app, w⟩ ∈ (b.ledger.register kind ⟨c, sink⟩ ok).live →
      ⟨.app, w⟩ ∈ b.ledger.live := by
    intro kind ok hmem
    refine (live_of_register hmem).resolve_right ?_
    rintro rfl
    exact hc rfl
  have hrecorded : ∀ (kind : Kind) ok, ⟨.app, w⟩ ∈ b.ledger.live ++ b.ledger.removed →
      ⟨.app, w⟩ ∈ (b.ledger.register kind ⟨c, sink⟩ ok).live ++
        (b.ledger.register kind ⟨c, sink⟩ ok).removed := by
    intro kind ok hmem
    rw [SinkRegistry.Ledger.register]
    split
    · simp only [List.mem_append] at hmem ⊢
      tauto
    · exact hmem
  have hchannel : (withChannel b.registry c).channels.channel w.inputChan =
      b.registry.channels.channel w.inputChan := if_neg hc
  cases kind with
  | app =>
    rw [register_app] at h
    cases h
    exact ⟨hledger _ _, hrecorded _ _, by rw [registerAppSink_channels, hchannel]⟩
  | firehose =>
    rw [register_firehose] at h
    cases h
    exact ⟨hledger _ _, hrecorded _ _, by rw [registerFirehoseSink_channels, hchannel]⟩

/-- Registrations are removed, and their channels closed. -/
theorem Frame.remove {P : Registration → Bool} {r' : Registry}
    (hchannel : r'.channels.channel = b.registry.channels.channel) :
    Frame b { b with registry := r', ledger := b.ledger.remove P } w := by
  refine ⟨?_, ?_, by rw [hchannel]⟩
  · intro hmem
    exact (List.mem_filter.mp hmem).1
  · intro hmem
    simp only [SinkRegistry.Ledger.remove, List.mem_append, List.mem_filter] at hmem ⊢
    by_cases hP : P ⟨.app, w⟩ = true <;> simp only [hP] <;> tauto

/-- A consumer takes from another channel. -/
theorem Frame.consume {c : Chan} {ch : Channel} (hc : w.inputChan ≠ c)
    (h : b.apply (.consume c ch) = .ok b') : Frame b b' w := by
  cases h
  exact ⟨id, id, congrArg Channel.queue (if_neg hc)⟩

end Frame

variable {cs cs' : SinkRegistry.Channels}

theorem removeSink_channel {group group' : AppGroup} {sink : Sink} {removed : Bool}
    (h : SinkRegistry.removeSink group sink cs = .ok (removed, group', cs')) :
    cs'.channel = cs.channel := by
  unfold SinkRegistry.removeSink at h
  split at h
  · cases h
    rfl
  · obtain ⟨_, hclose, heq⟩ := ok_of_map h
    cases heq
    rw [SinkRegistry.Channels.close] at hclose
    split at hclose
    · cases hclose
    · cases hclose
      rfl

theorem delete_channel {groups groups' : Dict GoString AppGroup} {sink : Sink} {removed : Bool}
    (h : SinkRegistry.delete groups sink cs = .ok (removed, groups', cs')) :
    cs'.channel = cs.channel := by
  unfold SinkRegistry.delete at h
  split at h
  · cases h
    rfl
  · obtain ⟨_, hremove, heq⟩ := ok_of_map h
    cases heq
    exact removeSink_channel hremove

theorem removeAllSinks_channel {group group' : AppGroup}
    (h : SinkRegistry.removeAllSinks group cs = .ok (group', cs')) : cs'.channel = cs.channel := by
  refine foldlM_invariant (P := fun s => s.2.channel = cs.channel) ?_ rfl h
  intro s p s' hs hvisit
  rw [SinkRegistry.removeVisited] at hvisit
  split at hvisit
  · cases hvisit
    exact hs
  · obtain ⟨_, hremove, rfl⟩ := ok_of_map hvisit
    exact (removeSink_channel hremove).trans hs

theorem deleteGroups_channel {groups groups' : Dict GoString AppGroup}
    (h : SinkRegistry.deleteGroups groups cs = .ok (groups', cs')) : cs'.channel = cs.channel := by
  refine foldlM_invariant (P := fun s => s.2.channel = cs.channel) ?_ rfl h
  intro s p s' hs hvisit
  rw [SinkRegistry.deleteVisited] at hvisit
  split at hvisit
  · cases hvisit
    exact hs
  · obtain ⟨_, hremove, rfl⟩ := ok_of_map hvisit
    exact (removeAllSinks_channel hremove).trans hs

section Removals

variable {b b' : SinkRegistry.State} {w : SinkWrapper}

theorem Frame.closeAndDelete {sink : Sink} (h : b.apply (.closeAndDelete sink) = .ok b') :
    Frame b b' w := by
  obtain ⟨_, hcall, rfl⟩ := ok_of_map h
  obtain ⟨_, hdelete, rfl⟩ := ok_of_map hcall
  exact .remove (delete_channel hdelete)

theorem Frame.closeAndDeleteFirehose {sink : Sink}
    (h : b.apply (.closeAndDeleteFirehose sink) = .ok b') : Frame b b' w := by
  obtain ⟨_, hcall, rfl⟩ := ok_of_map h
  obtain ⟨_, hdelete, rfl⟩ := ok_of_map hcall
  exact .remove (delete_channel hdelete)

theorem Frame.deleteAll (h : b.apply .deleteAll = .ok b') : Frame b b' w := by
  obtain ⟨_, hcall, rfl⟩ := ok_of_map h
  obtain ⟨_, happs, hrest⟩ := ok_of_bind hcall
  obtain ⟨_, hfirehoses, heq⟩ := ok_of_bind hrest
  cases heq
  exact .remove ((deleteGroups_channel hfirehoses).trans (deleteGroups_channel happs))

end Removals

/-! ## What the sinks hold -/

def isLogMessage (msg : Events.Envelope) : Bool := msg.eventType = .logMessage

def isContainerMetric (msg : Events.Envelope) : Bool := msg.eventType = .containerMetric

/-- The contents of a sink after it received these envelopes. -/
def Data.Holds (config : Config) (type : SinkType) (received : List Events.Envelope) :
    Data → Prop
  | .dump sink => type = .dumpSink ∧
      sink.Holds config.recentLogCount.toNat (received.filter isLogMessage)
  | .metrics sink clock => type = .containerMetricSink ∧
      ContainerMetricSink.Fresh config.metricTTL (received.filter isContainerMetric)
        ⟨sink, clock, false⟩

theorem Data.Holds.receive {config : Config} {type : SinkType} {received : List Events.Envelope}
    {data : Data} (hsize : 1 ≤ config.recentLogCount) (h : data.Holds config type received)
    (msg : Events.Envelope) :
    ∃ data', data.receive msg = some data' ∧ data'.Holds config type (received ++ [msg]) := by
  have hpos : 1 ≤ config.recentLogCount.toNat := UInt32.le_iff_toNat_le.mp hsize
  cases data with
  | dump sink =>
    obtain ⟨htype, hholds⟩ := h
    obtain ⟨sink', hsink⟩ := Option.isSome_iff_exists.mp (hholds.receive msg)
    refine ⟨.dump sink', by rw [Data.receive, hsink]; rfl, htype, ?_⟩
    rw [DumpSink.receive] at hsink
    rw [List.filter_append]
    by_cases hlog : msg.eventType = .logMessage
    · rw [if_neg (not_not_intro hlog)] at hsink
      simpa [isLogMessage, hlog] using hholds.addMsg hpos hsink
    · rw [if_pos hlog] at hsink
      cases hsink
      simpa [isLogMessage, hlog] using hholds
  | metrics sink clock =>
    obtain ⟨htype, hfresh⟩ := h
    refine ⟨_, rfl, htype, ?_⟩
    rw [List.filter_append, ContainerMetricSink.receive]
    by_cases hmetric : msg.eventType = .containerMetric
    · rw [if_neg (not_not_intro hmetric)]
      simpa [isContainerMetric, hmetric] using hfresh.updateMetric msg
    · rw [if_pos hmetric]
      simpa [isContainerMetric, hmetric] using hfresh

/-- The envelopes that broadcasts offer to a sink while it is registered: those of its application,
the errors among them only if it receives errors. -/
def addressed (config : Config) (sink : Sink) (log : List Broadcast) : List Events.Envelope :=
  (log.filter (fun b => decide (config.appId b.msg = sink.appID) &&
    (!b.error || decide (sink.type = .dumpSink)))).map Broadcast.msg

/-- What holds of a sink that keeps data at every moment. -/
structure DataSink.Sound (config : Config) (base : SinkRegistry.State) (log : List Broadcast)
    (d : DataSink) : Prop where
  recorded : ⟨.app, d.wrapper⟩ ∈ base.ledger.live ++ base.ledger.removed
  since : d.since ≤ log.length
  explains : d.handoff.Explains (base.registry.channels.channel d.chan).queue
  offered : ⟨.app, d.wrapper⟩ ∈ base.ledger.live →
    d.handoff.offered.map Prod.fst = addressed config d.wrapper.sink (log.drop d.since)
  own : ∀ msg ∈ d.handoff.offered.map Prod.fst, config.appId msg = d.wrapper.sink.appID
  data : d.data.Holds config d.wrapper.sink.type d.handoff.received

theorem DataSink.Sound.frame {config : Config} {b b' : SinkRegistry.State} {log : List Broadcast}
    {d : DataSink} (h : d.Sound config b log) (hframe : Frame b b' d.wrapper) :
    d.Sound config b' log :=
  { h with
    recorded := hframe.recorded h.recorded
    explains := by
      have hqueue : (b'.registry.channels.channel d.chan).queue = _ := hframe.queue
      rw [hqueue]
      exact h.explains
    offered := fun hlive => h.offered (hframe.live hlive) }

/-- The invariant of the sink manager. -/
structure State.Linked (config : Config) (st : State) : Prop where
  kept : Kept st.base
  fresh : ∀ c ∈ st.base.given, c < st.nextChan
  chans : (st.sinks.map DataSink.chan).Nodup
  /-- The sinks of the two kinds that are registered are those the sink manager made. -/
  held : ∀ w, ⟨.app, w⟩ ∈ st.base.ledger.live →
    w.sink.type = .dumpSink ∨ w.sink.type = .containerMetricSink →
    w ∈ st.sinks.map DataSink.wrapper
  sound : ∀ d ∈ st.sinks, d.Sound config st.base st.log

section Linked

variable {config : Config} {st : State}

theorem linked_initial : ({} : State).Linked config where
  kept := SinkRegistry.kept_initial
  fresh := fun _ hc => absurd hc List.not_mem_nil
  chans := List.nodup_nil
  held := fun _ hw => absurd hw List.not_mem_nil
  sound := fun _ hd => absurd hd List.not_mem_nil

variable {d : DataSink} {b' : SinkRegistry.State}

section

variable (h : st.Linked config)
include h

/-- The channel of a sink has been given out. -/
theorem State.Linked.chan_lt (hd : d ∈ st.sinks) :
    d.chan < st.nextChan :=
  h.fresh _ (h.kept.given _ ((h.sound d hd).recorded))

/-- Who has a sink's channel has its registration. -/
theorem State.Linked.wrapper_eq (hd : d ∈ st.sinks) {reg : Registration}
    (hreg : reg ∈ st.base.ledger.live ++ st.base.ledger.removed) (hchan : reg.chan = d.chan) :
    reg = ⟨.app, d.wrapper⟩ :=
  List.inj_on_of_nodup_map h.kept.distinct hreg (h.sound d hd).recorded hchan

/-- The registry changes in a way that leaves all sinks alone. -/
theorem State.Linked.frame (hkept : Kept b') {n : Chan} (hfresh : ∀ c ∈ b'.given, c < n)
    (hheld : ∀ w, ⟨.app, w⟩ ∈ b'.ledger.live →
      w.sink.type = .dumpSink ∨ w.sink.type = .containerMetricSink →
      ⟨.app, w⟩ ∈ st.base.ledger.live) (hframe : ∀ d ∈ st.sinks, Frame st.base b' d.wrapper)
    (router : Option (Events.Envelope × Pc)) :
    { st with base := b', nextChan := n, router := router }.Linked config where
  kept := hkept
  fresh := hfresh
  chans := h.chans
  held := fun w hw htype => h.held w (hheld w hw htype) htype
  sound := fun d hd => (h.sound d hd).frame (hframe d hd)

/-- A sink changes and keeps its registration; the registry changes at most its channel. -/
theorem State.Linked.setSink (hkept : Kept b') (hgiven : b'.given = st.base.given)
    (hlive : b'.ledger.live = st.base.ledger.live) {k : Nat} (d' : DataSink)
    (hk : st.sinks[k]? = some d) (hwrapper : d'.wrapper = d.wrapper)
    (hothers : ∀ e ∈ st.sinks, e ≠ d → e.Sound config b' st.log)
    (hsound : d'.Sound config b' st.log) :
    { st with base := b', sinks := st.sinks.set k d' }.Linked config := by
  have hmap : (st.sinks.set k d').map DataSink.wrapper = st.sinks.map DataSink.wrapper := by
    have hplace : (st.sinks.map DataSink.wrapper)[k]? = some d.wrapper := by
      rw [List.getElem?_map, hk]
      rfl
    obtain ⟨hlt, hd⟩ := List.getElem?_eq_some_iff.mp hplace
    rw [List.map_set, hwrapper, ← hd]
    exact List.set_getElem_self hlt
  have hchans : ∀ l : List DataSink,
      l.map DataSink.chan = (l.map DataSink.wrapper).map SinkWrapper.inputChan := by
    intro l
    rw [List.map_map]
    rfl
  refine ⟨hkept, by rw [hgiven]; exact h.fresh, ?_, ?_, ?_⟩
  · rw [hchans, hmap, ← hchans]
    exact h.chans
  · intro w hw htype
    rw [hmap]
    exact h.held w (hlive ▸ hw) htype
  · intro e he
    obtain ⟨j, hj⟩ := List.getElem?_of_mem he
    rcases getElem?_set_cases hj with ⟨-, rfl⟩ | ⟨hjk, hj⟩
    · exact hsound
    · refine hothers e (List.mem_of_getElem? hj) ?_
      rintro rfl
      exact hjk ((List.getElem?_inj (List.getElem?_eq_some_iff.mp hj).1 h.chans.of_map).mp
        (hj.trans hk.symm))

/-- A sink changes and nothing else. -/
theorem State.Linked.setData {k : Nat} {d' : DataSink} (hk : st.sinks[k]? = some d)
    (hwrapper : d'.wrapper = d.wrapper)
    (hsound : d.Sound config st.base st.log → d'.Sound config st.base st.log) :
    { st with sinks := st.sinks.set k d' }.Linked config :=
  h.setSink h.kept rfl rfl d' hk hwrapper (fun e he _ => h.sound e he)
    (hsound (h.sound d (List.mem_of_getElem? hk)))

theorem State.Linked.nextChan_notMem : st.nextChan ∉ st.base.given :=
  fun hmem => Nat.lt_irrefl _ (h.fresh _ hmem)

end

/-- A registration with a channel that was not given out before. -/
theorem register_spec {b : SinkRegistry.State} (hk : Kept b) (kind : Kind) {c : Chan}
    (hc : c ∉ b.given) (sink : Sink) :
    ∃ b', register b kind c sink = .ok b' ∧ Kept b' ∧ b'.given = c :: b.given ∧
      ∀ w, ⟨.app, w⟩ ∈ b'.ledger.live → ⟨.app, w⟩ ∈ b.ledger.live ∨ w = ⟨c, sink⟩ := by
  have hkept : Kept { b with registry := withChannel b.registry c } := hk.sends rfl rfl rfl
  cases kind with
  | app => exact ⟨_, rfl, hkept.registerAppSink hc sink, rfl, fun _ => live_of_register⟩
  | firehose => exact ⟨_, rfl, hkept.registerFirehoseSink hc sink, rfl, fun _ => live_of_register⟩

theorem State.Linked.fresh_given (h : st.Linked config)
    (hgiven : b'.given = st.nextChan :: st.base.given) : ∀ c ∈ b'.given, c < st.nextChan + 1 := by
  intro c hc
  rw [hgiven] at hc
  rcases List.mem_cons.mp hc with rfl | hc
  · exact Nat.lt_succ_self _
  · exact Nat.lt_succ_of_lt (h.fresh c hc)

/-- Another sink is registered. -/
theorem State.Linked.registerSink (h : st.Linked config) (kind : Kind) {sink : Sink}
    (htype : ¬ (sink.type = .dumpSink ∨ sink.type = .containerMetricSink)) :
    ∃ b', register st.base kind st.nextChan sink = .ok b' ∧
      { st with base := b', nextChan := st.nextChan + 1 }.Linked config := by
  obtain ⟨b', hcall, hkept, hgiven, hlive⟩ :=
    register_spec h.kept kind h.nextChan_notMem sink
  refine ⟨b', hcall, h.frame hkept (h.fresh_given hgiven) ?_ ?_ st.router⟩
  · intro w hw hwtype
    rcases hlive w hw with hw | rfl
    · exact hw
    · exact absurd hwtype htype
  · intro d hd
    exact .register (Nat.ne_of_lt (h.chan_lt hd)) hcall

/-- A sink that keeps data is made and, unless there is another one, registered. -/
theorem State.Linked.registerData (h : st.Linked config) {sink : Sink} {data : Data}
    (hdata : data.Holds config sink.type []) :
    ∃ st', st.registerData sink data = .ok st' ∧ st'.Linked config := by
  obtain ⟨b', hcall, hkept, hgiven, hlive⟩ :=
    register_spec h.kept .app h.nextChan_notMem sink
  have hfresh := h.fresh_given hgiven
  have hframe : ∀ d ∈ st.sinks, Frame st.base b' d.wrapper :=
    fun d hd => .register (Nat.ne_of_lt (h.chan_lt hd)) hcall
  have hb' := hcall
  rw [register_app, Except.ok.injEq] at hb'
  rw [State.registerData, hcall]
  by_cases hok : (st.base.registry.registerAppSink st.nextChan sink).1 = true
  · refine ⟨_, if_pos hok, ?_⟩
    have hnew : ⟨.app, ⟨st.nextChan, sink⟩⟩ ∈ b'.ledger.live := by
      rw [← hb', hok]
      exact List.mem_append_right _ (List.mem_singleton_self _)
    refine ⟨hkept, hfresh, ?_, ?_, ?_⟩
    · rw [List.map_append, List.nodup_append]
      refine ⟨h.chans, List.nodup_singleton _, ?_⟩
      intro c hc c' hc'
      obtain ⟨d, hd, rfl⟩ := List.mem_map.mp hc
      rw [List.mem_singleton.mp hc']
      exact Nat.ne_of_lt (h.chan_lt hd)
    · intro w hw htype
      rw [List.map_append, List.mem_append]
      rcases hlive w hw with hw | rfl
      · exact Or.inl (h.held w hw htype)
      · exact Or.inr (List.mem_singleton_self _)
    · intro d hd
      rcases List.mem_append.mp hd with hd | hd
      · exact (h.sound d hd).frame (hframe d hd)
      · rw [List.mem_singleton.mp hd]
        refine ⟨List.mem_append_left _ hnew, Nat.le_refl _, ?_, ?_, ?_, hdata⟩
        · have hqueue : (b'.registry.channels.channel st.nextChan).queue = [] := by
            rw [← hb', registerAppSink_channels]
            exact congrArg Channel.queue (if_pos rfl)
          exact hqueue.symm ▸ Handoff.explains_empty
        · intro _
          rw [List.drop_length]
          rfl
        · exact fun _ hm => absurd hm List.not_mem_nil
  · refine ⟨_, if_neg hok, h.frame hkept hfresh ?_ hframe st.router⟩
    intro w hw _
    rw [← hb', Bool.eq_false_iff.mpr hok] at hw
    exact hw

/-- A call that registers nothing. -/
def quiet : SinkRegistry.Action → Bool
  | .registerAppSink _ _ | .registerFirehoseSink _ _ => false
  | _ => true

theorem given_of_quiet {b : SinkRegistry.State} {a : SinkRegistry.Action} (ha : quiet a = true)
    (h : b.apply a = .ok b') : b'.given = b.given := by
  cases a with
  | registerAppSink c sink | registerFirehoseSink c sink => cases ha
  | closeAndDelete sink | closeAndDeleteFirehose sink | deleteAll | broadcast rand appId msg
  | broadcastError other rand appId msg =>
    obtain ⟨_, -, rfl⟩ := ok_of_map h
    rfl
  | consume c ch =>
    cases h
    rfl

section

variable (h : st.Linked config)
include h

/-- A call of the registry that leaves all sinks alone. -/
theorem State.Linked.call {a : SinkRegistry.Action} (ha : quiet a = true)
    (hframe : ∀ b' w, st.base.apply a = .ok b' → w ∈ st.sinks.map DataSink.wrapper →
      Frame st.base b' w)
    (hlive : ∀ b' w, st.base.apply a = .ok b' → ⟨.app, w⟩ ∈ b'.ledger.live →
      ⟨.app, w⟩ ∈ st.base.ledger.live) :
    ∃ b', st.base.apply a = .ok b' ∧ { st with base := b' }.Linked config := by
  have hfresh : SinkRegistry.Fresh (.ok st.base) a := by
    cases a <;> trivial
  obtain ⟨b', hcall, hkept⟩ := h.kept.apply hfresh
  refine ⟨b', hcall, h.frame hkept ?_ (fun w hw _ => hlive b' w hcall hw) ?_ st.router⟩
  · rw [given_of_quiet ha hcall]
    exact h.fresh
  · exact fun d hd => hframe b' _ hcall (List.mem_map_of_mem hd)

/-- Sinks are removed by their strings. -/
theorem State.Linked.closeAndDelete (sink : Sink) :
    ∃ b', st.base.apply (.closeAndDelete sink) = .ok b' ∧
      { st with base := b' }.Linked config :=
  h.call rfl (fun _ _ hcall _ => .closeAndDelete hcall)
    (fun _ _ hcall => (Frame.closeAndDelete hcall).live)

theorem State.Linked.closeAndDeleteFirehose (sink : Sink) :
    ∃ b', st.base.apply (.closeAndDeleteFirehose sink) = .ok b' ∧
      { st with base := b' }.Linked config :=
  h.call rfl (fun _ _ hcall _ => .closeAndDeleteFirehose hcall)
    (fun _ _ hcall => (Frame.closeAndDeleteFirehose hcall).live)

theorem State.Linked.deleteAll :
    ∃ b', st.base.apply .deleteAll = .ok b' ∧ { st with base := b' }.Linked config :=
  h.call rfl (fun _ _ hcall _ => .deleteAll hcall) (fun _ _ hcall => (Frame.deleteAll hcall).live)

/-- Something is taken from a channel that is no sink's with data. -/
theorem State.Linked.consume {c : Chan} (hc : c ∉ st.sinks.map DataSink.chan) (ch : Channel) :
    ∃ b', st.base.apply (.consume c ch) = .ok b' ∧ { st with base := b' }.Linked config := by
  refine h.call rfl ?_ (fun _ _ hcall hw => by cases hcall; exact hw)
  intro b' w hcall hw
  refine .consume ?_ hcall
  rintro rfl
  obtain ⟨d, hd, rfl⟩ := List.mem_map.mp hw
  exact hc (List.mem_map_of_mem hd)

/-- A sink takes the first envelope of its channel. -/
theorem State.Linked.receive (hsize : 1 ≤ config.recentLogCount) {k : Nat}
    (hk : st.sinks[k]? = some d) {msg : Events.Envelope} {queue : List Events.Envelope}
    (hqueue : (st.base.registry.channels.channel d.chan).queue = msg :: queue) :
    ∃ data b', d.data.receive msg = some data ∧
      st.base.apply (.consume d.chan
        { st.base.registry.channels.channel d.chan with queue := queue }) = .ok b' ∧
      { st with
        base := b'
        sinks := st.sinks.set k { d with data := data, handoff := d.handoff.receive msg }
        }.Linked config := by
  have hd := List.mem_of_getElem? hk
  have hsound := h.sound d hd
  obtain ⟨data, hreceive, hdata⟩ := hsound.data.receive hsize msg
  obtain ⟨b', hcall⟩ : ∃ b', st.base.apply (.consume d.chan
      { st.base.registry.channels.channel d.chan with queue := queue }) = .ok b' := ⟨_, rfl⟩
  have hkept : Kept b' := by
    cases hcall
    exact h.kept.sends rfl rfl rfl
  refine ⟨data, b', hreceive, hcall, ?_⟩
  refine h.setSink hkept (given_of_quiet rfl hcall) (by cases hcall; rfl)
    { d with data := data, handoff := d.handoff.receive msg } hk rfl ?_ ?_
  · intro e he hne
    refine (h.sound e he).frame (.consume ?_ hcall)
    intro hchan
    exact hne (List.inj_on_of_nodup_map h.chans he hd hchan)
  · have hexplains := hsound.explains
    rw [hqueue] at hexplains
    cases hcall
    have hself : ((st.base.registry.channels.set d.chan
        { st.base.registry.channels.channel d.chan with queue := queue }).channel d.chan).queue =
        queue := congrArg Channel.queue (if_pos rfl)
    exact { hsound with
      explains := hself.symm ▸ hexplains.receive
      data := hdata }

end

theorem wrapper_offered (r : Registry) (msg : Events.Envelope) (ws : List SinkWrapper)
    (d : DataSink) : (d.offered r msg ws).wrapper = d.wrapper := by
  rw [DataSink.offered]
  split <;> rfl

theorem addressed_concat (sink : Sink) (log : List Broadcast) (b : Broadcast) :
    addressed config sink (log ++ [b]) = addressed config sink log ++
      if config.appId b.msg = sink.appID ∧ (b.error = true → sink.type = .dumpSink) then [b.msg]
      else [] := by
  rw [addressed, List.filter_append, List.map_append]
  congr 1
  cases herror : b.error <;> by_cases happ : config.appId b.msg = sink.appID <;>
    by_cases htype : sink.type = .dumpSink <;> simp [herror, happ, htype]

/-- The sinks of an application that a broadcast goes to, among those that keep data. -/
structure Recipients (config : Config) (st : State) (b : Broadcast) (ws : List SinkWrapper) :
    Prop where
  sublist : ws.Sublist (st.base.registry.appWrappers (config.appId b.msg))
  mem : ∀ d ∈ st.sinks, d.wrapper ∈ ws ↔ ⟨.app, d.wrapper⟩ ∈ st.base.ledger.live ∧
    config.appId b.msg = d.wrapper.sink.appID ∧
      (b.error = true → d.wrapper.sink.type = .dumpSink)

/-- A sink after a broadcast. -/
theorem State.Linked.sound_offered (h : st.Linked config) {b : Broadcast} {ws : List SinkWrapper}
    (hws : Recipients config st b ws) (rand : GoString → Nat) (hd : d ∈ st.sinks)
    {base : SinkRegistry.State} (hledger : base.ledger = st.base.ledger)
    (hchannels : base.registry.channels = st.base.registry.channels.offer b.msg
      (ws ++ st.base.registry.firehoseWrappers rand)) :
    (d.offered st.base.registry b.msg ws).Sound config base (st.log ++ [b]) := by
  have hsound := h.sound d hd
  have hdrop : (st.log ++ [b]).drop d.since = st.log.drop d.since ++ [b] :=
    List.drop_append_of_le_length hsound.since
  have hsince : d.since ≤ (st.log ++ [b]).length := by
    rw [List.length_append]
    exact Nat.le_add_right_of_le hsound.since
  rw [DataSink.offered]
  split
  · next hmem =>
    obtain ⟨hlive, happ, herror⟩ := (hws.mem d hd).mp hmem
    have hchan : d.chan ∈ (ws ++ st.base.registry.firehoseWrappers rand).map
        SinkWrapper.inputChan := List.mem_map_of_mem (List.mem_append_left _ hmem)
    refine ⟨by rw [hledger]; exact hsound.recorded, hsince, ?_, ?_, ?_, hsound.data⟩
    · have hqueue : (base.registry.channels.channel d.chan).queue =
          if st.base.registry.channels.room d.chan = true then
            (st.base.registry.channels.channel d.chan).queue ++ [b.msg]
          else (st.base.registry.channels.channel d.chan).queue := by
        rw [hchannels, SinkRegistry.Channels.offer_channel]
        simp only [hchan, true_and]
        split <;> rfl
      change (d.handoff.offer b.msg _).Explains (base.registry.channels.channel d.chan).queue
      rw [hqueue]
      cases hroom : st.base.registry.channels.room d.chan with
      | true => exact hsound.explains.keep b.msg
      | false => exact hsound.explains.drop b.msg
    · intro _
      rw [hdrop, addressed_concat, if_pos ⟨happ, herror⟩, ← hsound.offered hlive]
      exact List.map_append
    · intro msg hmsg
      have hcases : msg ∈ d.handoff.offered.map Prod.fst ∨ msg = b.msg := by
        simpa [Handoff.offer] using hmsg
      rcases hcases with hold | rfl
      · exact hsound.own msg hold
      · exact happ
  · next hmem =>
    have hchan : d.chan ∉ (ws ++ st.base.registry.firehoseWrappers rand).map
        SinkWrapper.inputChan := by
      intro hc
      obtain ⟨w, hw, hwchan⟩ := List.mem_map.mp hc
      rcases List.mem_append.mp hw with hw | hw
      · have hlive := ((h.kept.mem_appWrappers _ w).mp (hws.sublist.subset hw)).1
        have heq := h.wrapper_eq hd (List.mem_append_left _ hlive) hwchan
        exact hmem ((Registration.mk.inj heq).2 ▸ hw)
      · have hregistered := SinkRegistry.mem_registrations_firehose
          ((SinkRegistry.firehoseWrappers_sublist _ rand).subset hw)
        have hlive := h.kept.held.mem_iff.mp hregistered
        have heq := h.wrapper_eq hd (List.mem_append_left _ hlive) hwchan
        cases (Registration.mk.inj heq).1
    refine { hsound with
      recorded := by rw [hledger]; exact hsound.recorded
      since := hsince
      explains := ?_
      offered := ?_ }
    · rw [hchannels, SinkRegistry.Channels.offer_channel_of_not_mem hchan]
      exact hsound.explains
    · intro hlive
      rw [hledger] at hlive
      rw [hdrop, addressed_concat, if_neg, List.append_nil]
      · exact hsound.offered hlive
      · rintro ⟨happ, herror⟩
        exact hmem ((hws.mem d hd).mpr ⟨hlive, happ, herror⟩)

theorem State.Linked.broadcasted (h : st.Linked config) {b : Broadcast} {ws : List SinkWrapper}
    (hws : Recipients config st b ws) (rand : GoString → Nat) (error : Bool)
    (router : Option (Events.Envelope × Pc)) :
    ({ st with router := router }.broadcasted b ws { st.base with
      registry := (st.base.registry.offer error b.msg ws).offer false b.msg
        (st.base.registry.firehoseWrappers rand) }).Linked config := by
  have hchannels : ((st.base.registry.offer error b.msg ws).offer false b.msg
      (st.base.registry.firehoseWrappers rand)).channels =
      st.base.registry.channels.offer b.msg (ws ++ st.base.registry.firehoseWrappers rand) :=
    SinkRegistry.Channels.offer_offer (h.kept.offer_disjoint rand hws.sublist)
  have hmap : ∀ {β : Type} (f : SinkWrapper → β),
      (st.sinks.map (DataSink.offered st.base.registry b.msg ws)).map (fun d => f d.wrapper) =
        st.sinks.map (fun d => f d.wrapper) := by
    intro β f
    rw [List.map_map]
    exact List.map_congr_left (fun d _ => congrArg f (wrapper_offered _ _ _ d))
  refine ⟨h.kept.sends rfl rfl rfl, h.fresh, ?_, ?_, ?_⟩
  · exact (hmap SinkWrapper.inputChan).symm ▸ h.chans
  · intro w hw htype
    exact (hmap id).symm ▸ h.held w hw htype
  · intro e he
    obtain ⟨d, hd, rfl⟩ := List.mem_map.mp he
    exact h.sound_offered hws rand hd rfl hchannels

/-- The type of a sink that keeps data. -/
theorem DataSink.Sound.type {base : SinkRegistry.State} {log : List Broadcast}
    (h : d.Sound config base log) :
    d.wrapper.sink.type = .dumpSink ∨ d.wrapper.sink.type = .containerMetricSink := by
  have hdata := h.data
  cases hd : d.data with
  | dump sink =>
    rw [hd] at hdata
    exact Or.inl hdata.1
  | metrics sink clock =>
    rw [hd] at hdata
    exact Or.inr hdata.1

/-- `Broadcast` goes to all sinks of the application. -/
theorem State.Linked.recipients (h : st.Linked config) (msg : Events.Envelope) :
    Recipients config st ⟨false, msg⟩ (st.base.registry.appWrappers (config.appId msg)) where
  sublist := List.Sublist.refl _
  mem := by
    intro d _
    rw [h.kept.mem_appWrappers]
    simp [eq_comm]

/-- `BroadcastError` goes to those that receive errors. -/
theorem State.Linked.recipients_error (h : st.Linked config) (other : Sink → Bool)
    (msg : Events.Envelope) :
    Recipients config st ⟨true, msg⟩ (st.base.registry.errorWrappers other (config.appId msg)) where
  sublist := st.base.registry.errorWrappers_sublist other _
  mem := by
    intro d hd
    have herrors : SinkRegistry.shouldReceiveErrors other d.wrapper.sink = true ↔
        d.wrapper.sink.type = .dumpSink := by
      rw [SinkRegistry.shouldReceiveErrors]
      rcases (h.sound d hd).type with htype | htype <;> simp [htype]
    rw [Registry.errorWrappers, List.mem_filter, h.kept.mem_appWrappers, herrors]
    simp only [forall_const, eq_comm (a := config.appId msg)]
    tauto

theorem State.call_ok {a : SinkRegistry.Action} (f : SinkRegistry.State → State)
    (h : st.base.apply a = .ok b') : st.call a f = .ok (f b') := by
  rw [State.call, h]

/-- Every operation of `SendTo` keeps the invariant, and none panics. -/
theorem State.Linked.sendTo (hsize : 1 ≤ config.recentLogCount) (h : st.Linked config)
    (rand : GoString → Nat) (msg : Events.Envelope) (pc : Pc) :
    ∃ st', st.sendTo config rand msg pc = .ok st' ∧ st'.Linked config := by
  cases pc with
  | ensureRecentLogs | ensureContainerMetrics => exact ⟨_, rfl, { h with }⟩
  | newRecentLogs =>
    have h' : { st with router := some (msg, .ensureContainerMetrics) }.Linked config :=
      { h with }
    exact h'.registerData ⟨rfl, DumpSink.holds_newDumpSink hsize⟩
  | newContainerMetrics =>
    have h' : { st with router := some (msg, .broadcast) }.Linked config := { h with }
    exact h'.registerData ⟨rfl, ContainerMetricSink.fresh_initial _ _⟩
  | broadcast =>
    rw [State.sendTo, State.call, SinkRegistry.State.apply, h.kept.broadcast_eq]
    exact ⟨_, rfl, h.broadcasted (h.recipients msg) rand false none⟩

/-- Every step of the sink manager keeps the invariant, and none panics. -/
theorem State.Linked.apply (hsize : 1 ≤ config.recentLogCount) (h : st.Linked config) {a : Action}
    {s' : Except Fault State} (hstep : st.apply config a = some s') :
    ∃ st', s' = .ok st' ∧ st'.Linked config := by
  cases a with
  | next msg =>
    simp only [State.apply] at hstep
    split at hstep
    · cases hstep
      exact ⟨_, rfl, { h with }⟩
    · cases hstep
  | sendTo rand =>
    simp only [State.apply] at hstep
    split at hstep
    · cases hstep
    · cases hstep
      exact h.sendTo hsize rand _ _
  | broadcastError other rand msg =>
    cases hstep
    rw [State.call, SinkRegistry.State.apply, h.kept.broadcastError_eq]
    exact ⟨_, rfl, h.broadcasted (h.recipients_error other msg) rand true st.router⟩
  | receive k =>
    simp only [State.apply] at hstep
    split at hstep
    · cases hstep
    · next d hk =>
      split at hstep
      · next msg queue _ hqueue =>
        obtain ⟨data, b', hreceive, hcall, hlinked⟩ := h.receive hsize hk hqueue
        rw [hreceive] at hstep
        cases hstep
        exact ⟨_, State.call_ok _ hcall, hlinked⟩
      · cases hstep
  | inactive k =>
    simp only [State.apply] at hstep
    split at hstep
    · cases hstep
    · next hk =>
      split at hstep
      · cases hstep
        exact ⟨_, rfl, h.setData hk rfl (fun hsound => { hsound with })⟩
      · cases hstep
  | closed k =>
    simp only [State.apply] at hstep
    split at hstep
    · cases hstep
    · next hk =>
      split at hstep
      · split at hstep
        · cases hstep
          exact ⟨_, rfl, h.setData hk rfl (fun hsound => { hsound with })⟩
        · cases hstep
      · cases hstep
  | unregister k =>
    simp only [State.apply] at hstep
    split at hstep
    · cases hstep
    · next d hk =>
      split at hstep
      · cases hstep
        obtain ⟨b', hcall, hlinked⟩ := h.closeAndDelete d.wrapper.sink
        exact ⟨_, State.call_ok _ hcall, hlinked.setData hk rfl (fun hsound => { hsound with })⟩
      · cases hstep
  | registerSink kind sink =>
    simp only [State.apply] at hstep
    split at hstep
    · cases hstep
    · next htype =>
      obtain ⟨b', hcall, hlinked⟩ := h.registerSink kind htype
      rw [hcall] at hstep
      cases hstep
      exact ⟨_, rfl, hlinked⟩
  | unregisterSink kind sink =>
    cases kind with
    | app =>
      cases hstep
      obtain ⟨b', hcall, hlinked⟩ := h.closeAndDelete sink
      exact ⟨_, State.call_ok _ hcall, hlinked⟩
    | firehose =>
      cases hstep
      obtain ⟨b', hcall, hlinked⟩ := h.closeAndDeleteFirehose sink
      exact ⟨_, State.call_ok _ hcall, hlinked⟩
  | consume c ch =>
    simp only [State.apply] at hstep
    split at hstep
    · cases hstep
    · next hc =>
      cases hstep
      obtain ⟨b', hcall, hlinked⟩ := h.consume hc ch
      exact ⟨_, State.call_ok _ hcall, hlinked⟩
  | getLatest k now =>
    simp only [State.apply] at hstep
    split at hstep
    · cases hstep
    · next d hk =>
      split at hstep
      · next sink clock hdata =>
        split at hstep
        · cases hstep
        · next hnow =>
          cases hstep
          refine ⟨_, rfl, h.setData hk rfl (fun hsound => ?_)⟩
          have hholds := hsound.data
          rw [hdata] at hholds
          exact { hsound with data := ⟨hholds.1, hholds.2.getLatest (Int.not_lt.mp hnow)⟩ }
      · cases hstep
  | stop =>
    cases hstep
    obtain ⟨b', hcall, hlinked⟩ := h.deleteAll
    exact ⟨_, State.call_ok _ hcall, hlinked⟩

end Linked

theorem linked_of_reachable {config : Config} (hsize : 1 ≤ config.recentLogCount)
    {s : Except Fault State} (hs : Reachable (step config) Always (.ok {}) s) :
    ∃ st, s = .ok st ∧ st.Linked config := by
  refine hs.invariant (P := fun s => ∃ st, s = .ok st ∧ st.Linked config)
    ⟨{}, rfl, linked_initial⟩ ?_
  rintro _ a s' ⟨st, rfl, h⟩ - hstep
  exact h.apply hsize hstep

/-! ## The answers -/

section Answers

variable {config : Config} {st : State}

/-- A registration that is found by its strings is live, and its sink is one that keeps data. -/
theorem State.Linked.found (h : st.Linked config) {type : SinkType} {appID identifier : GoString}
    {w : SinkWrapper} (hw : wrapperFor st.base.registry type appID identifier = some w)
    (htype : type = .dumpSink ∨ type = .containerMetricSink) :
    ∃ d ∈ st.sinks, d.wrapper = w ∧ st.dataOf w = some d.data ∧ w.sink.type = type ∧
      w.sink.appID = appID ∧ ⟨.app, w⟩ ∈ st.base.ledger.live := by
  rw [wrapperFor, Option.filter_eq_some_iff] at hw
  obtain ⟨hlookup, hwtype⟩ := hw
  have hwtype : w.sink.type = type := by simpa using hwtype
  have hmem : w ∈ st.base.registry.appWrappers appID := by
    obtain ⟨group, hgroup, hw⟩ := Option.bind_eq_some_iff.mp hlookup
    rw [Registry.appWrappers, hgroup]
    exact Dict.mem_values.mpr ⟨identifier, hw⟩
  obtain ⟨hlive, happ⟩ := (h.kept.mem_appWrappers appID w).mp hmem
  obtain ⟨d₀, hd₀, hw₀⟩ := List.mem_map.mp (h.held w hlive (hwtype ▸ htype))
  obtain ⟨d, hfind⟩ := Option.isSome_iff_exists.mp
    (List.find?_isSome (p := fun d : DataSink => decide (d.wrapper = w)).mpr
      ⟨d₀, hd₀, decide_eq_true hw₀⟩)
  refine ⟨d, List.mem_of_find?_eq_some hfind, ?_, ?_, hwtype, happ, hlive⟩
  · simpa using List.find?_some hfind
  · rw [State.dataOf, hfind]
    rfl

/-- What a sink that keeps data has received of what was broadcast for it since it was registered:
the rest is in its channel or was dropped. -/
structure DataSink.Accounts (config : Config) (d : DataSink) (st : State) : Prop where
  received : (d.handoff.received ++ (st.base.registry.channels.channel d.chan).queue).Sublist
    (addressed config d.wrapper.sink (st.log.drop d.since))
  accounted : (addressed config d.wrapper.sink (st.log.drop d.since)).length =
    d.handoff.received.length + (st.base.registry.channels.channel d.chan).queue.length +
      d.handoff.dropped
  complete : d.handoff.dropped = 0 →
    (st.base.registry.channels.channel d.chan).queue = [] →
    d.handoff.received = addressed config d.wrapper.sink (st.log.drop d.since)
  own : ∀ msg ∈ d.handoff.received, config.appId msg = d.wrapper.sink.appID

theorem DataSink.Sound.accounts {d : DataSink} (h : d.Sound config st.base st.log)
    (hlive : ⟨.app, d.wrapper⟩ ∈ st.base.ledger.live) : d.Accounts config st := by
  have hreceived : (d.handoff.received ++
      (st.base.registry.channels.channel d.chan).queue).Sublist
      (addressed config d.wrapper.sink (st.log.drop d.since)) := by
    rw [← h.offered hlive]
    exact h.explains.symm ▸ d.handoff.kept_sublist
  have haccounted : (addressed config d.wrapper.sink (st.log.drop d.since)).length =
      d.handoff.received.length + (st.base.registry.channels.channel d.chan).queue.length +
        d.handoff.dropped := by
    rw [← h.offered hlive, List.length_map]
    exact h.explains.length
  refine ⟨hreceived, haccounted, ?_, ?_⟩
  · intro hdropped hqueue
    rw [hqueue, List.append_nil] at hreceived
    rw [hqueue, hdropped] at haccounted
    exact hreceived.eq_of_length haccounted.symm
  · exact fun msg hmsg => h.own msg (h.explains.received_sublist.subset hmsg)

/-- In every reachable state `RecentLogsFor` returns nothing, if the application has no sink of
recent logs, or the last log messages that this sink has received. These were broadcast for the
application since the sink was registered, in this order; what it has not received is in its
channel or was dropped. An answer only has envelopes of the application. -/
theorem recentLogsFor_spec (hsize : 1 ≤ config.recentLogCount)
    (hst : Reachable (step config) Always (.ok {}) (.ok st)) (appID : GoString) :
    (dumpFor st.base.registry appID = none ∧ st.recentLogsFor appID = some []) ∨
    ∃ d ∈ st.sinks, dumpFor st.base.registry appID = some d.wrapper ∧
      d.wrapper.sink.appID = appID ∧ d.Accounts config st ∧
      (let logs := d.handoff.received.filter isLogMessage
       st.recentLogsFor appID =
        some (logs.rtake (min logs.length config.recentLogCount.toNat)) ∧
       ∀ msg ∈ logs, config.appId msg = appID) := by
  obtain ⟨_, heq, h⟩ := linked_of_reachable hsize hst
  cases heq
  cases hw : dumpFor st.base.registry appID with
  | none =>
    left
    refine ⟨rfl, ?_⟩
    rw [State.recentLogsFor, hw]
  | some w =>
    right
    obtain ⟨d, hd, rfl, hdata, htype, happ, hlive⟩ := h.found hw (Or.inl rfl)
    have hsound := h.sound d hd
    have haccounts := hsound.accounts hlive
    refine ⟨d, hd, rfl, happ, haccounts, ?_, ?_⟩
    · have hholds := hsound.data
      rw [State.recentLogsFor, hw]
      simp only [hdata]
      cases hd' : d.data with
      | dump sink =>
        rw [hd'] at hholds
        exact hholds.2.dump
      | metrics sink clock =>
        rw [hd'] at hholds
        cases htype.symm.trans hholds.1
    · intro msg hmsg
      rw [haccounts.own msg (List.mem_filter.mp hmsg).1, happ]

/-- In every reachable state `LatestContainerMetrics` returns nothing, if the application has no
sink of metrics, or for each instance the first of its latest metrics that the sink has received,
unless it is older than the time to live, at any time from the last call of `GetLatest` on. An
answer only has metrics of the application. -/
theorem latestContainerMetrics_spec (hsize : 1 ≤ config.recentLogCount)
    (httl : config.metricTTL ≠ Int64.minValue)
    (hst : Reachable (step config) Always (.ok {}) (.ok st)) (appID : GoString) :
    (containerMetricsFor st.base.registry appID = none ∧
      ∀ now, st.latestContainerMetrics appID now = []) ∨
    ∃ d ∈ st.sinks, containerMetricsFor st.base.registry appID = some d.wrapper ∧
      d.wrapper.sink.appID = appID ∧ d.Accounts config st ∧
      ∃ sink clock, d.data = .metrics sink clock ∧ ∀ now, clock ≤ now →
        ((st.latestContainerMetrics appID now).map
          ContainerMetricSink.instanceIndex).Nodup ∧
        ∀ metric, metric ∈ st.latestContainerMetrics appID now ↔
          ∃ i, ContainerMetricSink.latest (d.handoff.received.filter isContainerMetric) i =
              some metric ∧
            now - config.metricTTL.toInt ≤ metric.timestamp.toInt ∧
            config.appId metric = appID := by
  obtain ⟨_, heq, h⟩ := linked_of_reachable hsize hst
  cases heq
  cases hw : containerMetricsFor st.base.registry appID with
  | none =>
    left
    refine ⟨rfl, fun now => ?_⟩
    rw [State.latestContainerMetrics, hw]
  | some w =>
    right
    obtain ⟨d, hd, rfl, hdata, htype, happ, hlive⟩ := h.found hw (Or.inr rfl)
    have hsound := h.sound d hd
    have hholds := hsound.data
    have haccounts := hsound.accounts hlive
    refine ⟨d, hd, rfl, happ, haccounts, ?_⟩
    cases hd' : d.data with
    | dump sink =>
      rw [hd'] at hholds
      cases htype.symm.trans hholds.1
    | metrics sink clock =>
      rw [hd'] at hholds hdata
      refine ⟨sink, clock, rfl, fun now hnow => ?_⟩
      have hanswer : st.latestContainerMetrics appID now = (sink.getLatest now).1 := by
        rw [State.latestContainerMetrics, hw]
        simp only [hdata]
      have hown : ∀ i metric, ContainerMetricSink.latest
          (d.handoff.received.filter isContainerMetric) i = some metric →
          config.appId metric = appID := by
        intro i metric hlatest
        have hmem := (List.mem_filter.mp (List.mem_of_find?_eq_some hlatest)).1
        rw [haccounts.own metric (List.mem_filter.mp hmem).1, happ]
      rw [hanswer]
      refine ⟨hholds.2.nodup now, fun metric => ?_⟩
      rw [hholds.2.mem_getLatest hnow, ContainerMetricSink.earliestLiveTimestamp_eq httl]
      constructor
      · rintro ⟨i, hlatest, hlive⟩
        exact ⟨i, hlatest, hlive, hown i metric hlatest⟩
      · rintro ⟨i, hlatest, hlive, -⟩
        exact ⟨i, hlatest, hlive⟩

end Answers

/-- A log message and a container metric of one application. -/
def logAt (t : Int64) : Events.Envelope :=
  { eventType := .logMessage, timestamp := t,
    logMessage := some { message := [], messageType := .OUT, timestamp := t, appId := str "app",
                         sourceType := [], sourceInstance := [] } }

def metricAt (t : Int64) : Events.Envelope :=
  { eventType := .containerMetric, timestamp := t,
    containerMetric := some { applicationId := str "app", instanceIndex := 0, cpuPercentage := ⟨0⟩,
                              memoryBytes := 0, diskBytes := 0, memoryBytesQuota := 0,
                              diskBytesQuota := 0 } }

/-- Room for one log message, and metrics live for ten nanoseconds. -/
def oneAppConfig : Config where
  recentLogCount := 1
  metricTTL := 10
  appId e :=
    match e.logMessage with
    | some m => m.appId
    | none => (e.containerMetric.map Events.ContainerMetric.applicationId).getD []

/-- Two log messages and a metric, which the sink of recent logs and the one of metrics take. -/
def oneApp : List Action :=
  let route (msg : Events.Envelope) (n : Nat) : List Action :=
    .next msg :: List.replicate n (.sendTo (fun _ => 0))
  route (logAt 1) 5 ++ route (logAt 2) 3 ++ route (metricAt 3) 3 ++
    [.receive 0, .receive 0, .receive 0, .receive 1, .receive 1, .receive 1]

theorem oneApp_outcome : ∃ st, Reachable (step oneAppConfig) Always (.ok {}) (.ok st) ∧
    st.recentLogsFor (str "app") = some [logAt 2] ∧
    st.latestContainerMetrics (str "app") 5 = [metricAt 3] := by
  have hrun : (run (step oneAppConfig) (.ok {}) oneApp).map (fun s =>
      match s with
      | .ok st => some (st.recentLogsFor (str "app"), st.latestContainerMetrics (str "app") 5)
      | .error _ => none) = some (some (some [logAt 2], [metricAt 3])) := by decide +kernel
  obtain ⟨s, hs, hfinal⟩ := exists_reachable_of_run hrun
  cases s with
  | error _ => cases hfinal
  | ok st =>
    simp only [Option.some.injEq, Prod.mk.injEq] at hfinal
    exact ⟨st, hs, hfinal.1, hfinal.2⟩

theorem recentLogsFor_oneApp : ∃ (st : State) (d : DataSink), d ∈ st.sinks ∧
    d.Accounts oneAppConfig st ∧ st.recentLogsFor (str "app") = some [logAt 2] := by
  obtain ⟨st, hst, hlogs, -⟩ := oneApp_outcome
  rcases recentLogsFor_spec (by decide) hst (str "app") with ⟨-, hnone⟩ | ⟨d, hd, -, -, hacc, -⟩
  · cases hlogs.symm.trans hnone
  · exact ⟨st, d, hd, hacc, hlogs⟩

theorem latestContainerMetrics_oneApp : ∃ (st : State) (d : DataSink), d ∈ st.sinks ∧
    d.Accounts oneAppConfig st ∧ st.latestContainerMetrics (str "app") 5 = [metricAt 3] := by
  obtain ⟨st, hst, -, hmetrics⟩ := oneApp_outcome
  rcases latestContainerMetrics_spec (by decide) (by decide) hst (str "app") with
    ⟨-, hnone⟩ | ⟨d, hd, -, -, hacc, -⟩
  · cases hmetrics.symm.trans (hnone 5)
  · exact ⟨st, d, hd, hacc, hmetrics⟩

/-- Without room for recent logs the first log message ends doppler. -/
theorem nilRing_reachable (ttl : Int64) (appId : Events.Envelope → GoString) :
    Reachable (step ⟨0, ttl, fun e => if e = logAt 1 then str "app" else appId e⟩) Always
      (.ok {}) (.error .nilRing) := by
  have hrun : run (step ⟨0, ttl, fun e => if e = logAt 1 then str "app" else appId e⟩) (.ok {})
      (.next (logAt 1) :: List.replicate 5 (.sendTo (fun _ => 0)) ++ [.receive 0]) =
      some (.error .nilRing) := rfl
  exact .of_run .refl hrun

/-- No order of steps makes the sink manager panic, by a channel that is closed or by a ring that
is nil, exactly if it is configured to keep recent logs. -/
theorem never_panics_iff (config : Config)
    (happ : ∀ e m, e.eventType = .logMessage → e.logMessage = some m → config.appId e = m.appId) :
    (∀ s, Reachable (step config) Always (.ok {}) s → ∃ st, s = .ok st) ↔
      1 ≤ config.recentLogCount := by
  constructor
  · intro h
    by_contra hsize
    have hzero : config.recentLogCount = 0 := by
      rw [UInt32.le_iff_toNat_le] at hsize
      apply UInt32.toNat_inj.mp
      simp only [UInt32.toNat_one, UInt32.toNat_zero] at hsize ⊢
      omega
    -- the run needs the application of one envelope only
    have hlog : (fun e => if e = logAt 1 then str "app" else config.appId e) = config.appId := by
      funext e
      split
      · next he =>
        subst he
        exact (happ (logAt 1) _ rfl rfl).symm
      · rfl
    have hnil := nilRing_reachable config.metricTTL config.appId
    rw [hlog, ← hzero] at hnil
    obtain ⟨st, hst⟩ := h _ hnil
    cases hst
  · intro hsize s hs
    obtain ⟨st, rfl, -⟩ := linked_of_reachable hsize hs
    exact ⟨st, rfl⟩

theorem never_panics_oneApp : 1 ≤ oneAppConfig.recentLogCount ∧
    ∀ s, Reachable (step oneAppConfig) Always (.ok {}) s → ∃ st, s = .ok st := by
  have happ : ∀ (e : Events.Envelope) m, e.eventType = .logMessage → e.logMessage = some m →
      oneAppConfig.appId e = m.appId := by
    intro e m _ hm
    simp only [oneAppConfig, hm]
  exact ⟨by decide, (never_panics_iff oneAppConfig happ).mpr (by decide)⟩

end Loggregator.Doppler.SinkData
