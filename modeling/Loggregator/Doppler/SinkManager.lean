import Loggregator.Doppler.GroupedSinks
import Loggregator.Lib.Transition

/-!
# The sink manager's goroutines

`doppler/internal/sinkserver/sinkmanager/sink_manager.go`: `RegisterSink`, `UnregisterSink`, the
goroutine of each sink and the listener for deleted drains. A thread is a call in progress; its
steps are the operations on shared state, and `done` threads are kept so that a thread has one
index for the whole run.

`UnregisterSink` removes by application id and identifier. A call for one sink can therefore
remove another that was registered under the same strings in the meantime. `ok` says when that
cannot happen, step by step: a sink is registered only while no call for another sink with its
strings is still on its way to `CloseAndDelete`.
-/

namespace Loggregator.Doppler.SinkManager

open Lib

/-- `metrics.SinkManagerMetrics`, the gauges of the application sinks. -/
structure Metrics where
  dumpSinks : Int32 := 0
  websocketSinks : Int32 := 0
  syslogSinks : Int32 := 0
  containerMetrics : Int32 := 0
  deriving DecidableEq

/-- Add to the gauge of a sink's type. -/
def Metrics.add (m : Metrics) (sink : Sink) (n : Int32) : Metrics :=
  match sink.type with
  | .dumpSink => { m with dumpSinks := m.dumpSinks + n }
  | .syslogSink => { m with syslogSinks := m.syslogSinks + n }
  | .websocketSink => { m with websocketSinks := m.websocketSinks + n }
  | .containerMetricSink => { m with containerMetrics := m.containerMetrics + n }
  | .other => m

/-- `SinkManagerMetrics.Inc`. -/
def Metrics.inc (m : Metrics) (sink : Sink) : Metrics := m.add sink 1

/-- `SinkManagerMetrics.Dec`. -/
def Metrics.dec (m : Metrics) (sink : Sink) : Metrics := m.add sink (-1)

/-- A call in progress, by the operation that comes next. -/
inductive Thread where
  /-- `RegisterSink` after a successful `RegisterAppSink`: `metrics.Inc` and the start of the
  goroutine are to come. -/
  | inc (sink : Sink) (inputChan : Chan)
  /-- The goroutine of a sink in `sink.Run`, which may return at any time. -/
  | run (sink : Sink) (inputChan : Chan)
  /-- `UnregisterSink` before `CloseAndDelete`. -/
  | close (sink : Sink)
  /-- `UnregisterSink` before `metrics.Dec`. -/
  | dec (sink : Sink)
  /-- `UnregisterSink` of a syslog sink before `Disconnect`. -/
  | disconnect (sink : Sink)
  | done (sink : Sink)
  deriving DecidableEq

/-- The listener for deleted drains. It waits for its own call of `UnregisterSink`. -/
inductive Listener where
  | idle
  | drain (appId url : GoString)
  | waiting (thread : Nat)
  deriving DecidableEq

/-- The state that the calls share. `removals` records each removal with the sink that the
call of `UnregisterSink` was for. -/
structure State where
  sinks : GroupedSinks := {}
  metrics : Metrics := {}
  nextChan : Chan := 0
  threads : List Thread := []
  listener : Listener := .idle
  disconnected : List Nat := []
  removals : List (Sink × SinkWrapper) := []

/-- The actions: a call of `RegisterSink` up to its registration, a call of `UnregisterSink`
from outside, the operations of the listener, and the next operation of a thread. -/
inductive Action where
  | register (sink : Sink)
  | unregister (sink : Sink)
  | receive (appId url : GoString)
  | drain
  | resume
  | thread (i : Nat)
  deriving DecidableEq

/-- The next operation of a thread. -/
def stepThread (st : State) (i : Nat) : Option State :=
  match st.threads[i]? with
  | some (.inc sink c) =>
    some { st with metrics := st.metrics.inc sink, threads := st.threads.set i (.run sink c) }
  | some (.run sink _) => some { st with threads := st.threads.set i (.close sink) }
  | some (.close sink) =>
    let (removed, sinks) := st.sinks.closeAndDelete sink
    some { st with
      sinks := sinks
      threads := st.threads.set i (if removed then .dec sink else .done sink)
      removals := st.removals ++ (st.sinks.wrapper sink.key).toList.map (fun w => (sink, w)) }
  | some (.dec sink) =>
    some { st with
      metrics := st.metrics.dec sink
      threads := st.threads.set i
        (if sink.type = .syslogSink then .disconnect sink else .done sink) }
  | some (.disconnect sink) =>
    some { st with
      disconnected := sink.object :: st.disconnected
      threads := st.threads.set i (.done sink) }
  | some (.done _) => none
  | none => none

/-- One action. -/
def step (st : State) : Action → Option State
  | .register sink =>
    let (ok, sinks) := st.sinks.registerAppSink st.nextChan sink
    some { st with
      sinks := sinks
      nextChan := st.nextChan + 1
      threads := st.threads ++ (if ok then [.inc sink st.nextChan] else []) }
  | .unregister sink => some { st with threads := st.threads ++ [.close sink] }
  | .receive appId url =>
    if st.listener = .idle then some { st with listener := .drain appId url } else none
  | .drain =>
    match st.listener with
    | .drain appId url =>
      match st.sinks.drainFor appId url with
      | none => some { st with listener := .idle }
      | some sink =>
        some { st with
          threads := st.threads ++ [.close sink]
          listener := .waiting st.threads.length }
    | _ => none
  | .resume =>
    match st.listener with
    | .waiting i =>
      match st.threads[i]? with
      | some (.done _) => some { st with listener := .idle }
      | _ => none
    | _ => none
  | .thread i => stepThread st i

/-- `RegisterSink`, as a call that nothing interrupts. -/
def registerSink (st : State) (sink : Sink) : Bool × State :=
  let (ok, sinks) := st.sinks.registerAppSink st.nextChan sink
  let st := { st with sinks := sinks, nextChan := st.nextChan + 1 }
  if ok then
    (true, { st with
      metrics := st.metrics.inc sink
      threads := st.threads ++ [.run sink (st.nextChan - 1)] })
  else (false, st)

/-- `UnregisterSink`, as a call that nothing interrupts. -/
def unregisterSink (st : State) (sink : Sink) : State :=
  let (ok, sinks) := st.sinks.closeAndDelete sink
  let st := { st with
    sinks := sinks
    threads := st.threads ++ [.done sink]
    removals := st.removals ++ (st.sinks.wrapper sink.key).toList.map (fun w => (sink, w)) }
  if ok then
    { st with
      metrics := st.metrics.dec sink
      disconnected :=
        if sink.type = .syslogSink then sink.object :: st.disconnected else st.disconnected }
  else st

/-- `RegisterSink` is a run of its operations. -/
theorem run_registerSink (st : State) (sink : Sink) :
    ∃ as, run step st (.register sink :: as) = some (registerSink st sink).2 := by
  cases hok : (st.sinks.registerAppSink st.nextChan sink).1 with
  | false => exact ⟨[], by simp [run, step, registerSink, hok]⟩
  | true => exact ⟨[.thread st.threads.length], by
      simp [run, step, stepThread, registerSink, hok]⟩

/-- `UnregisterSink` is a run of its operations. -/
theorem run_unregisterSink (st : State) (sink : Sink) :
    ∃ as, run step st (.unregister sink :: as) = some (unregisterSink st sink) := by
  cases hok : (st.sinks.closeAndDelete sink).1 with
  | false =>
    refine ⟨[.thread st.threads.length], ?_⟩
    simp [run, step, stepThread, unregisterSink, hok]
  | true =>
    by_cases htype : sink.type = .syslogSink
    · refine ⟨[.thread st.threads.length, .thread st.threads.length,
        .thread st.threads.length], ?_⟩
      simp [run, step, stepThread, unregisterSink, hok, htype]
    · refine ⟨[.thread st.threads.length, .thread st.threads.length], ?_⟩
      simp [run, step, stepThread, unregisterSink, hok, htype]

theorem registerSink_sinks (st : State) (sink : Sink) :
    (registerSink st sink).2.sinks = (st.sinks.registerAppSink st.nextChan sink).2 := by
  unfold registerSink
  simp only
  split <;> rfl

theorem unregisterSink_sinks (st : State) (sink : Sink) :
    (unregisterSink st sink).sinks = (st.sinks.closeAndDelete sink).2 := by
  unfold unregisterSink
  simp only
  split <;> rfl

namespace Thread

/-- The sink that the call is for. -/
def sink : Thread → Sink
  | .inc s _ | .run s _ | .close s | .dec s | .disconnect s | .done s => s

/-- `CloseAndDelete` is still to come. -/
def Pending : Thread → Prop
  | .inc _ _ | .run _ _ | .close _ => True
  | .dec _ | .disconnect _ | .done _ => False

/-- `UnregisterSink` has been called: from outside, by the listener, or because `Run` has
returned. -/
def Ended : Thread → Prop
  | .inc _ _ | .run _ _ => False
  | .close _ | .dec _ | .disconnect _ | .done _ => True

/-- The input channel, while the sink runs or is about to. -/
def inputChan : Thread → Option Chan
  | .inc _ c | .run _ c => some c
  | .close _ | .dec _ | .disconnect _ | .done _ => none

instance (th : Thread) : Decidable th.Pending := by
  cases th <;> unfold Pending <;> infer_instance

instance (th : Thread) : Decidable th.Ended := by
  cases th <;> unfold Ended <;> infer_instance

end Thread

/-- A call of `UnregisterSink` removes the registration of its own sink only, and a sink that
was registered, with no call of `UnregisterSink` for it, is registered with an open channel. -/
structure Safe (st : State) : Prop where
  own : ∀ p ∈ st.removals, p.2.sink = p.1
  stays : ∀ th ∈ st.threads, ∀ c, th.inputChan = some c →
    (∀ th' ∈ st.threads, th'.sink = th.sink → ¬ th'.Ended) →
    st.sinks.wrapper th.sink.key = some ⟨c, th.sink⟩ ∧ c ∉ st.sinks.closed

/-- A sink may be registered when every call on its way to remove something under its strings
is for this very sink, and `UnregisterSink` may be called from outside when nothing else is
registered under the strings of its sink. -/
def ok (st : State) : Action → Prop
  | .register sink => st.sinks.Free sink →
      ∀ th ∈ st.threads, th.Pending → th.sink.key = sink.key → th.sink = sink
  | .unregister sink => ∀ w ∈ st.sinks.wrapper sink.key, w.sink = sink
  | _ => True

instance (st : State) (a : Action) : Decidable (ok st a) := by
  cases a <;> unfold ok <;> infer_instance

/-! ## One operation of a thread -/

/-- A thread moves on to its next operation. -/
structure Moves (th th' : Thread) : Prop where
  sink : th'.sink = th.sink
  ended : th.Ended → th'.Ended
  pending : th'.Pending → th.Pending
  inputChan : ∀ c, th'.inputChan = some c → th.inputChan = some c

/-- What an operation does to the registry and to the record of removals: nothing, unless it is
`CloseAndDelete`. -/
inductive Effect (st : State) : Thread → Thread → State → Prop where
  | quiet {th th' : Thread} {st' : State} (hsinks : st'.sinks = st.sinks)
      (hremovals : st'.removals = st.removals) : Effect st th th' st'
  | close {sink : Sink} {th' : Thread} {st' : State}
      (hsinks : st'.sinks = (st.sinks.closeAndDelete sink).2)
      (hremovals : st'.removals =
        st.removals ++ (st.sinks.wrapper sink.key).toList.map (fun w => (sink, w)))
      (hended : ¬ th'.Pending) : Effect st (.close sink) th' st'

variable {i : Nat} {st st' : State}

theorem stepThread_spec (h : stepThread st i = some st') :
    ∃ th th', st.threads[i]? = some th ∧ st'.threads = st.threads.set i th' ∧
      st'.nextChan = st.nextChan ∧ Moves th th' ∧ Effect st th th' st' := by
  unfold stepThread at h
  cases hth : st.threads[i]? with
  | none => rw [hth] at h; cases h
  | some th =>
    rw [hth] at h
    cases th with
    | inc sink c =>
      cases h
      exact ⟨_, _, rfl, rfl, rfl, ⟨rfl, nofun, id, fun _ => id⟩, .quiet rfl rfl⟩
    | run sink c =>
      cases h
      exact ⟨_, _, rfl, rfl, rfl, ⟨rfl, nofun, id, nofun⟩, .quiet rfl rfl⟩
    | close sink =>
      simp only [Option.some.injEq] at h
      subst h
      refine ⟨_, _, rfl, rfl, rfl, ?_, .close rfl rfl ?_⟩
      · cases (st.sinks.closeAndDelete sink).1
        · exact ⟨rfl, id, nofun, nofun⟩
        · exact ⟨rfl, id, nofun, nofun⟩
      · cases (st.sinks.closeAndDelete sink).1 <;> exact id
    | dec sink =>
      cases h
      refine ⟨_, _, rfl, rfl, rfl, ?_, .quiet rfl rfl⟩
      split
      · exact ⟨rfl, id, id, fun _ => id⟩
      · exact ⟨rfl, id, id, fun _ => id⟩
    | disconnect sink =>
      cases h
      exact ⟨_, _, rfl, rfl, rfl, ⟨rfl, id, id, fun _ => id⟩, .quiet rfl rfl⟩
    | done sink => cases h

/-! ## The invariant -/

/-- The invariant of the runs that keep to `ok`. A call that is still to remove something finds
its own sink or nothing. -/
structure Inv (g : GroupedSinks) (nextChan : Chan) (threads : List Thread)
    (removals : List (Sink × SinkWrapper)) : Prop where
  keyed : ∀ k w, g.wrapper k = some w → w.sink.key = k
  isOpen : ∀ k w, g.wrapper k = some w → w.inputChan < nextChan ∧ w.inputChan ∉ g.closed
  distinct : ∀ k w k' w', g.wrapper k = some w → g.wrapper k' = some w' →
    w.inputChan = w'.inputChan → k = k'
  closed_lt : ∀ c ∈ g.closed, c < nextChan
  owner : ∀ th ∈ threads, th.Pending → ∀ w, g.wrapper th.sink.key = some w → w.sink = th.sink
  own : ∀ p ∈ removals, p.2.sink = p.1
  stays : ∀ th ∈ threads, ∀ c, th.inputChan = some c →
    (∀ th' ∈ threads, th'.sink = th.sink → ¬ th'.Ended) →
    g.wrapper th.sink.key = some ⟨c, th.sink⟩

section Steps

variable {g : GroupedSinks} {nextChan : Chan} {threads : List Thread}
  {removals : List (Sink × SinkWrapper)}

theorem Inv.initial : Inv {} 0 [] [] := by
  refine ⟨?_, ?_, ?_, ?_, ?_, ?_, ?_⟩ <;> simp

/-- A call that is for the sink registered under its strings, if any, may begin. -/
theorem Inv.push (hi : Inv g nextChan threads removals) {sink : Sink}
    (hs : ∀ w, g.wrapper sink.key = some w → w.sink = sink) :
    Inv g nextChan (threads ++ [.close sink]) removals := by
  refine ⟨hi.keyed, hi.isOpen, hi.distinct, hi.closed_lt, ?_, hi.own, ?_⟩
  · intro th hth hp w hw
    rcases List.mem_append.mp hth with hold | hnew
    · exact hi.owner th hold hp w hw
    · rw [List.mem_singleton] at hnew
      subst hnew
      exact hs w hw
  · intro th hth c hc hlive
    rcases List.mem_append.mp hth with hold | hnew
    · exact hi.stays th hold c hc (fun th' h' => hlive th' (List.mem_append_left _ h'))
    · rw [List.mem_singleton] at hnew
      subst hnew
      cases hc

/-- Threads that no call has ended were not ended before a thread moved on. -/
theorem not_ended_of_set {i : Nat} {th th' : Thread} (hth : threads[i]? = some th)
    (hm : Moves th th') {s : Sink} (hlive : ∀ t ∈ threads.set i th', t.sink = s → ¬ t.Ended) :
    ∀ t ∈ threads, t.sink = s → ¬ t.Ended := by
  intro t ht hs hended
  obtain ⟨j, hj⟩ := List.mem_iff_getElem?.mp ht
  by_cases hij : i = j
  · subst hij
    cases hth.symm.trans hj
    have hlt := (List.getElem?_eq_some_iff.mp hth).1
    exact hlive th' (List.mem_set hlt th') (hm.sink.trans hs) (hm.ended hended)
  · have hmem : t ∈ threads.set i th' := by
      apply List.mem_of_getElem? (i := j)
      rw [List.getElem?_set_ne hij, hj]
    exact hlive t hmem hs hended

variable (hi : Inv g nextChan threads removals)
include hi

/-- An operation that leaves the registry alone. -/
theorem Inv.move {i : Nat} {th th' : Thread} (hth : threads[i]? = some th) (hm : Moves th th') :
    Inv g nextChan (threads.set i th') removals := by
  have hmem := List.mem_of_getElem? hth
  refine ⟨hi.keyed, hi.isOpen, hi.distinct, hi.closed_lt, ?_, hi.own, ?_⟩
  · intro t ht hp w hw
    rcases List.mem_or_eq_of_mem_set ht with hold | rfl
    · exact hi.owner t hold hp w hw
    · rw [hm.sink] at hw ⊢
      exact hi.owner th hmem (hm.pending hp) w hw
  · intro t ht c hc hlive
    have hlive' := not_ended_of_set hth hm hlive
    rcases List.mem_or_eq_of_mem_set ht with hold | rfl
    · exact hi.stays t hold c hc hlive'
    · rw [hm.sink] at hlive' ⊢
      exact hi.stays th hmem c (hm.inputChan c hc) hlive'

/-- `CloseAndDelete` finds its own sink or nothing. -/
theorem Inv.close {i : Nat} {sink : Sink} {th' : Thread} (hth : threads[i]? = some (.close sink))
    (hm : Moves (.close sink) th') (hp : ¬ th'.Pending) :
    Inv (g.closeAndDelete sink).2 nextChan (threads.set i th')
      (removals ++ (g.wrapper sink.key).toList.map (fun w => (sink, w))) := by
  have hmem := List.mem_of_getElem? hth
  have hown : ∀ w, g.wrapper sink.key = some w → w.sink = sink :=
    hi.owner _ hmem trivial
  have hkeep : ∀ {k w}, (g.closeAndDelete sink).2.wrapper k = some w →
      k ≠ sink.key ∧ g.wrapper k = some w := by
    intro k w hw
    rw [g.closeAndDelete_wrapper] at hw
    split at hw
    · cases hw
    · next hk => exact ⟨hk, hw⟩
  refine ⟨?_, ?_, ?_, ?_, ?_, ?_, ?_⟩
  · intro k w hw
    exact hi.keyed k w (hkeep hw).2
  · intro k w hw
    obtain ⟨hk, hw⟩ := hkeep hw
    refine ⟨(hi.isOpen k w hw).1, ?_⟩
    rw [g.closeAndDelete_closed, List.mem_append]
    intro hc
    rcases hc with hc | hc
    · exact (hi.isOpen k w hw).2 hc
    · -- the channel that is closed now belongs to another registration
      simp only [Option.mem_toList, Option.map_eq_some_iff] at hc
      obtain ⟨w', hw', hc⟩ := hc
      exact hk (hi.distinct k w _ w' hw hw' hc.symm)
  · intro k w k' w' hw hw' hc
    exact hi.distinct k w k' w' (hkeep hw).2 (hkeep hw').2 hc
  · intro c hc
    rw [g.closeAndDelete_closed, List.mem_append] at hc
    rcases hc with hc | hc
    · exact hi.closed_lt c hc
    · simp only [Option.mem_toList, Option.map_eq_some_iff] at hc
      obtain ⟨w, hw, rfl⟩ := hc
      exact (hi.isOpen _ w hw).1
  · intro t ht hpend w hw
    rcases List.mem_or_eq_of_mem_set ht with hold | rfl
    · exact hi.owner t hold hpend w (hkeep hw).2
    · exact absurd hpend hp
  · intro p hpm
    rcases List.mem_append.mp hpm with hold | hnew
    · exact hi.own p hold
    · simp only [List.mem_map, Option.mem_toList] at hnew
      obtain ⟨w, hw, rfl⟩ := hnew
      exact hown w hw
  · intro t ht c hc hlive
    have hlive' := not_ended_of_set hth hm hlive
    have hstay : t ∈ threads → (g.closeAndDelete sink).2.wrapper t.sink.key =
        some ⟨c, t.sink⟩ := by
      intro hold
      have hw := hi.stays t hold c hc hlive'
      rw [g.closeAndDelete_wrapper, if_neg, hw]
      intro hk
      -- the call is for this very sink, so it has ended it
      rw [hk] at hw
      have heq : t.sink = sink := hown _ hw
      have hlt := (List.getElem?_eq_some_iff.mp hth).1
      exact hlive th' (List.mem_set hlt th') (hm.sink.trans heq.symm) (hm.ended trivial)
    rcases List.mem_or_eq_of_mem_set ht with hold | rfl
    · exact hstay hold
    · exact absurd (hm.inputChan c hc) nofun

/-- A registration that succeeds, while every call on its way is for this sink. -/
theorem Inv.register {sink : Sink} (hfree : g.Free sink)
    (hok : ∀ th ∈ threads, th.Pending → th.sink.key = sink.key → th.sink = sink) :
    Inv (g.registerAppSink nextChan sink).2 (nextChan + 1)
      (threads ++ [.inc sink nextChan]) removals := by
  have hnew : ∀ k w, (g.registerAppSink nextChan sink).2.wrapper k = some w →
      (k = sink.key ∧ w = ⟨nextChan, sink⟩) ∨ (k ≠ sink.key ∧ g.wrapper k = some w) := by
    intro k w hw
    rw [g.registerAppSink_wrapper] at hw
    split at hw
    · next hk =>
      left
      exact ⟨hk.2, (Option.some.inj hw).symm⟩
    · next hk =>
      right
      exact ⟨fun h => hk ⟨hfree, h⟩, hw⟩
  have hself : (g.registerAppSink nextChan sink).2.wrapper sink.key =
      some ⟨nextChan, sink⟩ := by
    rw [g.registerAppSink_wrapper, if_pos ⟨hfree, rfl⟩]
  refine ⟨?_, ?_, ?_, ?_, ?_, hi.own, ?_⟩
  · intro k w hw
    rcases hnew k w hw with ⟨rfl, rfl⟩ | ⟨-, hw⟩
    · rfl
    · exact hi.keyed k w hw
  · intro k w hw
    rw [g.registerAppSink_closed]
    rcases hnew k w hw with ⟨rfl, rfl⟩ | ⟨-, hw⟩
    · exact ⟨Nat.lt_succ_self _, fun hc => Nat.lt_irrefl _ (hi.closed_lt _ hc)⟩
    · obtain ⟨hlt, hopen⟩ := hi.isOpen k w hw
      exact ⟨Nat.lt_succ_of_lt hlt, hopen⟩
  · intro k w k' w' hw hw' hc
    rcases hnew k w hw with ⟨rfl, rfl⟩ | ⟨-, hw⟩ <;>
      rcases hnew k' w' hw' with ⟨rfl, rfl⟩ | ⟨-, hw'⟩
    · rfl
    · exact absurd (hi.isOpen k' w' hw').1 (by rw [← hc]; exact Nat.lt_irrefl _)
    · exact absurd (hi.isOpen k w hw).1 (by rw [hc]; exact Nat.lt_irrefl _)
    · exact hi.distinct k w k' w' hw hw' hc
  · intro c hc
    rw [g.registerAppSink_closed] at hc
    exact Nat.lt_succ_of_lt (hi.closed_lt c hc)
  · intro th hth hp w hw
    rcases List.mem_append.mp hth with hold | hlast
    · rcases hnew _ w hw with ⟨hk, rfl⟩ | ⟨-, hw⟩
      · exact (hok th hold hp hk).symm
      · exact hi.owner th hold hp w hw
    · rw [List.mem_singleton] at hlast
      subst hlast
      cases hself.symm.trans hw
      rfl
  · intro th hth c hc hlive
    rcases List.mem_append.mp hth with hold | hlast
    · have hw := hi.stays th hold c hc (fun th' h' => hlive th' (List.mem_append_left _ h'))
      rw [g.registerAppSink_wrapper, if_neg, hw]
      intro hk
      -- nothing was registered under the strings of the new sink
      have hnone := hfree.2.2
      rw [← hk.2, hw] at hnone
      cases hnone
    · rw [List.mem_singleton] at hlast
      subst hlast
      cases hc
      exact hself

/-- A registration that fails uses up a channel. -/
theorem Inv.reject {sink : Sink} (hfree : ¬ g.Free sink) :
    Inv (g.registerAppSink nextChan sink).2 (nextChan + 1) threads removals := by
  have hsame : ∀ k, (g.registerAppSink nextChan sink).2.wrapper k = g.wrapper k := by
    intro k
    rw [g.registerAppSink_wrapper, if_neg (fun h => hfree h.1)]
  refine ⟨?_, ?_, ?_, ?_, ?_, hi.own, ?_⟩ <;> simp only [hsame, g.registerAppSink_closed]
  · exact hi.keyed
  · intro k w hw
    obtain ⟨hlt, hopen⟩ := hi.isOpen k w hw
    exact ⟨Nat.lt_succ_of_lt hlt, hopen⟩
  · exact hi.distinct
  · intro c hc
    exact Nat.lt_succ_of_lt (hi.closed_lt c hc)
  · exact hi.owner
  · exact hi.stays

end Steps

/-- The invariant of a state. -/
def State.Inv (st : State) : Prop :=
  SinkManager.Inv st.sinks st.nextChan st.threads st.removals

theorem inv_stepThread (hi : st.Inv) (h : stepThread st i = some st') : st'.Inv := by
  obtain ⟨th, th', hth, hthreads, hnext, hm, heff⟩ := stepThread_spec h
  unfold State.Inv
  rw [hthreads, hnext]
  cases heff with
  | quiet hsinks hremovals =>
    rw [hsinks, hremovals]
    exact Inv.move hi hth hm
  | close hsinks hremovals hended =>
    rw [hsinks, hremovals]
    exact Inv.close hi hth hm hended

/-- Every action that meets the condition keeps the invariant. -/
theorem inv_step {a : Action} (hi : st.Inv) (hok : ok st a) (h : step st a = some st') :
    st'.Inv := by
  cases a with
  | register sink =>
    have hiff := st.sinks.registerAppSink_ok st.nextChan sink
    simp only [step, Option.some.injEq] at h
    subst h
    unfold State.Inv
    simp only
    by_cases hfree : st.sinks.Free sink
    · rw [if_pos (hiff.mpr hfree)]
      exact Inv.register hi hfree (hok hfree)
    · rw [if_neg (fun h => hfree (hiff.mp h)), List.append_nil]
      exact Inv.reject hi hfree
  | unregister sink =>
    cases h
    exact Inv.push hi hok
  | receive appId url =>
    simp only [step] at h
    split at h
    · cases h
      exact hi
    · cases h
  | drain =>
    simp only [step] at h
    split at h
    · next appId url hl =>
      cases hd : st.sinks.drainFor appId url with
      | none =>
        rw [hd] at h
        cases h
        exact hi
      | some sink =>
        rw [hd] at h
        cases h
        rw [GroupedSinks.drainFor_eq, Option.map_eq_some_iff] at hd
        obtain ⟨w, hw, rfl⟩ := hd
        apply Inv.push hi
        intro w' hw'
        rw [hi.keyed _ w hw, hw] at hw'
        rw [Option.some.inj hw']
    · cases h
  | resume =>
    simp only [step] at h
    split at h
    · split at h
      · cases h
        exact hi
      · cases h
    · cases h
  | thread i => exact inv_stepThread hi h

theorem State.Inv.safe (hi : st.Inv) : Safe st := by
  refine ⟨hi.own, ?_⟩
  intro th hth c hc hlive
  have hw := hi.stays th hth c hc hlive
  exact ⟨hw, (hi.isOpen _ _ hw).2⟩

/-! ## Leaving the condition -/

/-- `CloseAndDelete` for a sink whose strings belong to another. -/
theorem close_unsafe (st : State) {sink : Sink} {w : SinkWrapper}
    (hth : st.threads[i]? = some (.close sink)) (hw : st.sinks.wrapper sink.key = some w)
    (hne : w.sink ≠ sink) : ∃ st', step st (.thread i) = some st' ∧ ¬ Safe st' := by
  simp only [step, stepThread, hth, hw]
  refine ⟨_, rfl, ?_⟩
  intro hsafe
  exact hne (hsafe.own (sink, w) (by simp))

/-- A call that has yet to reach `CloseAndDelete` can do so at once. -/
theorem pending_unsafe {th : Thread} {w : SinkWrapper} (hth : st.threads[i]? = some th)
    (hp : th.Pending) (hw : st.sinks.wrapper th.sink.key = some w) (hne : w.sink ≠ th.sink) :
    ∃ as st', run step st as = some st' ∧ ¬ Safe st' := by
  have hlt := (List.getElem?_eq_some_iff.mp hth).1
  cases th with
  | close sink =>
    obtain ⟨st', hstep, hbad⟩ := close_unsafe st hth hw hne
    exact ⟨[.thread i], st', run_cons hstep, hbad⟩
  | run sink c =>
    have hrun : step st (.thread i) =
        some { st with threads := st.threads.set i (.close sink) } := by
      simp only [step, stepThread, hth]
    obtain ⟨st', hstep, hbad⟩ := close_unsafe
      { st with threads := st.threads.set i (.close sink) }
      (List.getElem?_set_self hlt) hw hne
    exact ⟨[.thread i, .thread i], st', by rw [run_cons hrun, run_cons hstep]; rfl, hbad⟩
  | inc sink c =>
    have hinc : step st (.thread i) = some { st with
        metrics := st.metrics.inc sink, threads := st.threads.set i (.run sink c) } := by
      simp only [step, stepThread, hth]
    have hrun : step { st with
        metrics := st.metrics.inc sink, threads := st.threads.set i (.run sink c) } (.thread i) =
        some { st with
          metrics := st.metrics.inc sink
          threads := (st.threads.set i (.run sink c)).set i (.close sink) } := by
      simp only [step, stepThread, List.getElem?_set_self hlt]
    obtain ⟨st', hstep, hbad⟩ := close_unsafe
      { st with
        metrics := st.metrics.inc sink
        threads := (st.threads.set i (.run sink c)).set i (.close sink) }
      (List.getElem?_set_self (by rwa [List.length_set])) hw hne
    exact ⟨[.thread i, .thread i, .thread i], st',
      by rw [run_cons hinc, run_cons hrun, run_cons hstep]; rfl, hbad⟩
  | dec sink | disconnect sink | done sink => cases hp

/-- An action that does not meet the condition can be followed by a wrong removal. -/
theorem not_ok_unsafe {a : Action} (h : step st a = some st') (hok : ¬ ok st a) :
    ∃ as st'', run step st' as = some st'' ∧ ¬ Safe st'' := by
  cases a with
  | register sink =>
    simp only [ok, Classical.not_imp, not_forall] at hok
    obtain ⟨hfree, th, hth, hp, hkey, hne⟩ := hok
    have hiff := st.sinks.registerAppSink_ok st.nextChan sink
    obtain ⟨i, hi⟩ := List.mem_iff_getElem?.mp hth
    simp only [step, Option.some.injEq] at h
    subst h
    have hi' : (st.threads ++
        (if (st.sinks.registerAppSink st.nextChan sink).1 = true then
          [Thread.inc sink st.nextChan] else []))[i]? = some th := by
      rw [List.getElem?_append_left (List.getElem?_eq_some_iff.mp hi).1, hi]
    apply pending_unsafe hi' hp (w := ⟨st.nextChan, sink⟩)
    · rw [hkey, st.sinks.registerAppSink_wrapper, if_pos ⟨hfree, rfl⟩]
    · exact fun heq => hne heq.symm
  | unregister sink =>
    simp only [ok, Classical.not_imp, not_forall] at hok
    obtain ⟨w, hw, hne⟩ := hok
    cases h
    have hth : (st.threads ++ [Thread.close sink])[st.threads.length]? = some (.close sink) := by
      simp
    exact pending_unsafe hth trivial hw hne
  | receive appId url => exact absurd trivial hok
  | drain | resume => exact absurd trivial hok
  | thread i => exact absurd trivial hok

/-- In a run whose actions all meet the condition every state is safe, and any action that does
not meet it can be followed by a wrong removal. -/
theorem unregister_own_sink (st : State) :
    (Reachable step ok {} st → Safe st) ∧
    (∀ a st', step st a = some st' → ¬ ok st a →
      ∃ as st'', run step st' as = some st'' ∧ ¬ Safe st'') := by
  constructor
  · intro hst
    have hinv : st.Inv := hst.invariant Inv.initial (fun _ _ _ => inv_step)
    exact hinv.safe
  · intro a st' h hok
    exact not_ok_unsafe h hok

/-- Two drains of one application to the same place. -/
def firstDrain : Sink := ⟨1, str "app", str "syslog://drain", .syslogSink⟩

def secondDrain : Sink := ⟨2, str "app", str "syslog://drain", .syslogSink⟩

/-- The first drain is deleted and has ended before the second is added. -/
def orderlyRun : List Action :=
  [.register firstDrain, .thread 0, .receive (str "app") (str "syslog://drain"), .drain,
   .thread 1, .thread 1, .thread 1, .resume, .thread 0, .thread 0, .register secondDrain,
   .thread 2]

theorem orderlyRun_safe :
    ∃ st, run (guarded step ok) {} orderlyRun = some st ∧
      st.threads[2]? = some (.run secondDrain 1) ∧ Safe st := by
  have hrun : (run (guarded step ok) {} orderlyRun).map (fun st => st.threads[2]?) =
      some (some (.run secondDrain 1)) := by decide
  obtain ⟨st, hst, hthread⟩ := Option.map_eq_some_iff.mp hrun
  exact ⟨st, hst, hthread, (unregister_own_sink st).1 (Reachable.refl.of_guarded hst)⟩

/-- The second drain is added while the goroutine of the first is still in `Run`. -/
def overtakenRun : List Action :=
  [.register firstDrain, .thread 0, .receive (str "app") (str "syslog://drain"), .drain,
   .thread 1, .thread 1, .thread 1, .resume, .register secondDrain, .thread 2, .thread 0,
   .thread 0]

/-- The goroutine of the first drain removes the second. -/
theorem late_unregister_removes_successor :
    ∃ st, Reachable step Always {} st ∧
      (firstDrain, ⟨1, secondDrain⟩) ∈ st.removals ∧
      st.threads[2]? = some (.run secondDrain 1) ∧
      (∀ th ∈ st.threads, th.sink = secondDrain → ¬ th.Ended) ∧
      st.sinks.wrapper secondDrain.key = none ∧ 1 ∈ st.sinks.closed ∧ ¬ Safe st := by
  have hrun : (run step {} overtakenRun).map (fun st =>
      (st.removals, st.threads, st.sinks.wrapper secondDrain.key, st.sinks.closed)) =
      some ([(firstDrain, ⟨0, firstDrain⟩), (firstDrain, ⟨1, secondDrain⟩)],
        [.dec firstDrain, .done firstDrain, .run secondDrain 1], none, [0, 1]) := by decide
  obtain ⟨st, hreach, hfinal⟩ := exists_reachable_of_run hrun
  simp only [Prod.mk.injEq] at hfinal
  obtain ⟨hremovals, hthreads, hwrapper, hclosed⟩ := hfinal
  have hmem : (firstDrain, ⟨1, secondDrain⟩) ∈ st.removals := by rw [hremovals]; decide
  refine ⟨st, hreach, hmem, by rw [hthreads]; rfl, ?_, hwrapper, by
    rw [hclosed]; decide, ?_⟩
  · rw [hthreads]
    decide
  · intro hsafe
    exact absurd (hsafe.own _ hmem) (by decide)

end Loggregator.Doppler.SinkManager
