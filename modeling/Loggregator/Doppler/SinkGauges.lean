import Loggregator.Doppler.SinkLifecycle
import Loggregator.Doppler.SinkManager

/-!
# The gauges of the sink manager

`sinkserver/sinkmanager/sink_manager.go` with `sinkserver/metrics/sink_manager_metrics.go`: the
four calls that register and unregister sinks of applications and of firehoses, the goroutines of
the sinks, and the gauges. `SinkManager` follows the sinks of applications and who removes them;
here the whole registry is there, and the question is what the gauges count.

A registration and its increment are two operations, as are a removal and its decrement, and other
calls may come between them. So the gauge is off by what is still owed. It counts in 32 bits.
-/

namespace Loggregator.Doppler.SinkGauges

open Lib
open SinkRegistry (Panic Kind Registration Registry Kept)

/-- `metrics.SinkManagerMetrics`. -/
structure Metrics extends SinkManager.Metrics where
  firehoseSinks : Int32 := 0

/-- The gauges. -/
inductive Gauge where
  | dumpSinks
  | websocketSinks
  | syslogSinks
  | containerMetrics
  | firehoseSinks
  deriving DecidableEq

/-- The gauge that counts a registration. A sink of an application that has none of the four types
is not counted. -/
def Gauge.of? (kind : Kind) (sink : Sink) : Option Gauge :=
  match kind, sink.type with
  | .firehose, _ => some .firehoseSinks
  | .app, .dumpSink => some .dumpSinks
  | .app, .websocketSink => some .websocketSinks
  | .app, .syslogSink => some .syslogSinks
  | .app, .containerMetricSink => some .containerMetrics
  | .app, .other => none

namespace Metrics

variable (m : Metrics)

/-- What a gauge shows. -/
def value : Gauge → Int32
  | .dumpSinks => m.dumpSinks
  | .websocketSinks => m.websocketSinks
  | .syslogSinks => m.syslogSinks
  | .containerMetrics => m.containerMetrics
  | .firehoseSinks => m.firehoseSinks

/-- Add to the gauge of a registration. -/
def add (sink : Sink) (n : Int32) : Kind → Metrics
  | .app => { m with toMetrics := m.toMetrics.add sink n }
  | .firehose => { m with firehoseSinks := m.firehoseSinks + n }

/-- `Inc` and `IncFirehose`. -/
def inc (sink : Sink) (kind : Kind) : Metrics := m.add sink 1 kind

/-- `Dec` and `DecFirehose`. -/
def dec (sink : Sink) (kind : Kind) : Metrics := m.add sink (-1) kind

theorem add_value (sink : Sink) (n : Int32) (kind : Kind) (g : Gauge) :
    (m.add sink n kind).value g = m.value g + if Gauge.of? kind sink = some g then n else 0 := by
  cases kind with
  | firehose => cases g <;> simp [add, value, Gauge.of?]
  | app =>
    cases htype : sink.type <;> cases g <;>
      simp [add, value, Gauge.of?, SinkManager.Metrics.add, htype]

theorem inc_value (sink : Sink) (kind : Kind) (g : Gauge) :
    (m.inc sink kind).value g =
      m.value g + Int32.ofInt (if Gauge.of? kind sink = some g then 1 else 0) := by
  rw [inc, add_value]
  split <;> rfl

theorem dec_value (sink : Sink) (kind : Kind) (g : Gauge) :
    (m.dec sink kind).value g =
      m.value g + Int32.ofInt (if Gauge.of? kind sink = some g then -1 else 0) := by
  rw [dec, add_value]
  split <;> rfl

end Metrics

/-- A call in progress, by the operation that comes next. -/
inductive Thread where
  /-- A registration that succeeded: the increment and the start of the goroutine are to come. -/
  | inc (kind : Kind) (sink : Sink)
  /-- The goroutine of a sink in `sink.Run`, which may return at any time. -/
  | run (kind : Kind) (sink : Sink)
  /-- Before `CloseAndDelete` or `CloseAndDeleteFirehose`. -/
  | close (kind : Kind) (sink : Sink)
  /-- After a removal, before the decrement. -/
  | dec (kind : Kind) (sink : Sink)
  /-- `UnregisterSink` of a syslog sink before `Disconnect`. -/
  | disconnect (sink : Sink)
  | done
  deriving DecidableEq

namespace Thread

/-- The call owes an increment of a gauge. -/
def owesInc (g : Gauge) : Thread → Bool
  | .inc kind sink => decide (Gauge.of? kind sink = some g)
  | .run _ _ | .close _ _ | .dec _ _ | .disconnect _ | .done => false

/-- The call owes a decrement of a gauge. -/
def owesDec (g : Gauge) : Thread → Bool
  | .dec kind sink => decide (Gauge.of? kind sink = some g)
  | .inc _ _ | .run _ _ | .close _ _ | .disconnect _ | .done => false

/-- No operation is in progress: the goroutine is in `sink.Run`, or the call has returned. -/
def idle : Thread → Bool
  | .run _ _ | .done => true
  | .inc _ _ | .close _ _ | .dec _ _ | .disconnect _ => false

end Thread

structure State where
  registry : Registry := {}
  metrics : Metrics := {}
  nextChan : Chan := 0
  threads : List Thread := []

/-- `RegisterAppSink` and `RegisterFirehoseSink`. -/
def registerOf (r : Registry) (c : Chan) (sink : Sink) : Kind → Bool × Registry
  | .app => r.registerAppSink c sink
  | .firehose => r.registerFirehoseSink c sink

/-- `CloseAndDelete` and `CloseAndDeleteFirehose`. -/
def closeAndDeleteOf (r : Registry) (sink : Sink) : Kind → Except Panic (Bool × Registry)
  | .app => r.closeAndDelete sink
  | .firehose => r.closeAndDeleteFirehose sink

/-- A call of `RegisterSink` or `RegisterFirehoseSink` up to its registration, a call of
`UnregisterSink` or `UnregisterFirehoseSink` from outside, and the next operation of a thread. -/
inductive Action where
  | register (kind : Kind) (sink : Sink)
  | unregister (kind : Kind) (sink : Sink)
  | thread (i : Nat)
  deriving DecidableEq

/-- The next operation of a thread. -/
def stepThread (st : State) (i : Nat) : Option (Except Panic State) :=
  match st.threads[i]? with
  | some (.inc kind sink) =>
    some (.ok { st with
      metrics := st.metrics.inc sink kind
      threads := st.threads.set i (.run kind sink) })
  | some (.run kind sink) =>
    some (.ok { st with threads := st.threads.set i (.close kind sink) })
  | some (.close kind sink) =>
    some ((closeAndDeleteOf st.registry sink kind).map (fun (removed, registry) =>
      { st with
        registry := registry
        threads := st.threads.set i (if removed then .dec kind sink else .done) }))
  | some (.dec kind sink) =>
    some (.ok { st with
      metrics := st.metrics.dec sink kind
      threads := st.threads.set i
        (if kind = .app ∧ sink.type = .syslogSink then .disconnect sink else .done) })
  | some (.disconnect _) => some (.ok { st with threads := st.threads.set i .done })
  | some .done => none
  | none => none

/-- One action; after a panic there is none. -/
def step : Except Panic State → Action → Option (Except Panic State)
  | .error _, _ => none
  | .ok st, .register kind sink =>
    let (ok, registry) := registerOf st.registry st.nextChan sink kind
    some (.ok { st with
      registry := registry
      nextChan := st.nextChan + 1
      threads := st.threads ++ (if ok then [.inc kind sink] else []) })
  | .ok st, .unregister kind sink =>
    some (.ok { st with threads := st.threads ++ [.close kind sink] })
  | .ok st, .thread i => stepThread st i

/-! ## What the gauges should show -/

/-- The sinks registered that a gauge counts. -/
def registered (r : Registry) (g : Gauge) : Nat :=
  r.registrations.countP (fun reg => decide (Gauge.of? reg.kind reg.wrapper.sink = some g))

namespace State

variable (st : State)

/-- The increments of a gauge still owed. -/
def incsOwed (g : Gauge) : Nat := st.threads.countP (Thread.owesInc g)

/-- The decrements of a gauge still owed. -/
def decsOwed (g : Gauge) : Nat := st.threads.countP (Thread.owesDec g)

/-- The number that a gauge stands for: what is registered, but for what is still owed. -/
def due (g : Gauge) : Int := registered st.registry g + st.decsOwed g - st.incsOwed g

/-- No operation is in progress. -/
def Idle : Prop := ∀ th ∈ st.threads, th.idle = true

end State

/-- A sink has the type that belongs to its strings; `types` says which. Firehose sinks may have
any. -/
def Typed (types : GoString × GoString → SinkType) (kind : Kind) (sink : Sink) : Prop :=
  kind = .app → sink.type = types sink.key

instance (types : GoString × GoString → SinkType) (kind : Kind) (sink : Sink) :
    Decidable (Typed types kind sink) :=
  inferInstanceAs (Decidable (_ → _))

/-- The calls are for sinks with the types that belong to their strings. -/
def ok (types : GoString × GoString → SinkType) (_ : Except Panic State) : Action → Prop
  | .register kind sink | .unregister kind sink => Typed types kind sink
  | .thread _ => True

instance (types : GoString × GoString → SinkType) (s : Except Panic State) :
    (a : Action) → Decidable (ok types s a)
  | .register kind sink => inferInstanceAs (Decidable (Typed types kind sink))
  | .unregister kind sink => inferInstanceAs (Decidable (Typed types kind sink))
  | .thread _ => isTrue trivial

/-! ## The registry -/

/-- The registry agrees with some ledger of calls, with channels below the next one. -/
def Held (r : Registry) (nextChan : Chan) : Prop :=
  ∃ ledger given, Kept ⟨r, ledger, given⟩ ∧ ∀ c ∈ given, c < nextChan

section Registry

variable {r r' : Registry} {c : Chan} {kind : Kind} {sink : Sink} {g : Gauge}
  {types : GoString × GoString → SinkType}

theorem held_initial : Held {} 0 :=
  ⟨{}, [], SinkRegistry.kept_initial, nofun⟩

/-- A registration adds its sink, or fails and changes nothing. -/
theorem Held.registerOf (h : Held r c) (sink : Sink) (kind : Kind) :
    Held (registerOf r c sink kind).2 (c + 1) ∧
      (registerOf r c sink kind).2.registrations.Perm
        ((if (registerOf r c sink kind).1 then [⟨kind, ⟨c, sink⟩⟩] else []) ++
          r.registrations) := by
  obtain ⟨ledger, given, hk, hlt⟩ := h
  have hfresh : c ∉ given := fun hmem => Nat.lt_irrefl c (hlt c hmem)
  have hk' : Kept ⟨(SinkGauges.registerOf r c sink kind).2,
      ledger.register kind ⟨c, sink⟩ (SinkGauges.registerOf r c sink kind).1, c :: given⟩ := by
    cases kind with
    | app => exact hk.registerAppSink hfresh sink
    | firehose => exact hk.registerFirehoseSink hfresh sink
  refine ⟨⟨_, _, hk', ?_⟩, hk'.held.trans ?_⟩
  · intro c' hc'
    rcases List.mem_cons.mp hc' with rfl | hmem
    · exact Nat.lt_succ_self _
    · exact Nat.lt_succ_of_lt (hlt c' hmem)
  · simp only [SinkRegistry.Ledger.register]
    split
    · exact (List.perm_append_singleton _ _).trans (hk.held.symm.cons _)
    · exact hk.held.symm

/-- What a removal from one of the maps of groups reports. -/
theorem removed_of_map_delete {groups : Dict GoString AppGroup} {cs : SinkRegistry.Channels}
    {removed : Bool} (put : Dict GoString AppGroup → SinkRegistry.Channels → Registry)
    (hwf : SinkRegistry.WellFormed groups)
    (h : (SinkRegistry.delete groups sink cs).map (fun (removed, groups, cs) =>
      (removed, put groups cs)) = .ok (removed, r')) :
    ((Dict.flatValues groups).filter (fun w => decide (w.sink.key = sink.key))).length =
      removed.toNat := by
  cases hdelete : SinkRegistry.delete groups sink cs with
  | error e =>
    rw [hdelete] at h
    cases h
  | ok result =>
    rw [hdelete] at h
    cases h
    exact SinkRegistry.delete_removed hwf (by simp) hdelete

theorem closeAndDeleteOf_removed (h : Held r c) {removed : Bool}
    (hcall : closeAndDeleteOf r sink kind = .ok (removed, r')) :
    (r.registrations.filter (Registration.Meant kind sink)).length = removed.toNat := by
  obtain ⟨ledger, given, hk, -⟩ := h
  cases kind with
  | app =>
    rw [(SinkRegistry.filter_meant_app r sink).1, List.length_map]
    exact removed_of_map_delete (fun apps cs => { r with apps := apps, channels := cs }) hk.apps
      hcall
  | firehose =>
    rw [(SinkRegistry.filter_meant_firehose r sink).1, List.length_map]
    exact removed_of_map_delete (fun firehoses cs =>
      { r with firehoses := firehoses, channels := cs }) hk.firehoses hcall

/-- A removal does not panic. It removes what is registered under the sink's strings and says
whether that was something. -/
theorem Held.closeAndDeleteOf (h : Held r c) (sink : Sink) (kind : Kind) :
    ∃ removed r', closeAndDeleteOf r sink kind = .ok (removed, r') ∧ Held r' c ∧
      r'.registrations.Perm (r.registrations.filter (fun reg => !reg.Meant kind sink)) ∧
      (r.registrations.filter (Registration.Meant kind sink)).length = removed.toNat := by
  obtain ⟨ledger, given, hk, hlt⟩ := h
  have hcall : ∃ removed r', SinkGauges.closeAndDeleteOf r sink kind = .ok (removed, r') ∧
      Kept ⟨r', ledger.remove (Registration.Meant kind sink), given⟩ := by
    cases kind with
    | app => exact hk.closeAndDelete sink
    | firehose => exact hk.closeAndDeleteFirehose sink
  obtain ⟨removed, r', hcall, hk'⟩ := hcall
  exact ⟨removed, r', hcall, ⟨_, _, hk', hlt⟩, hk'.held.trans (hk.held.symm.filter _),
    closeAndDeleteOf_removed ⟨ledger, given, hk, hlt⟩ hcall⟩

theorem registered_registerOf (h : Held r c) (sink : Sink) (kind : Kind) (g : Gauge) :
    registered (registerOf r c sink kind).2 g = registered r g +
      if (registerOf r c sink kind).1 = true ∧ Gauge.of? kind sink = some g then 1 else 0 := by
  unfold registered
  rw [(h.registerOf sink kind).2.countP_eq, List.countP_append, Nat.add_comm]
  by_cases hok : (registerOf r c sink kind).1 = true
  · simp [hok, List.countP_cons]
  · simp [hok]

/-- What a call removes is counted by the gauge of the sink of the call. -/
theorem of?_eq_of_meant {reg : Registration} (hmeant : reg.Meant kind sink = true)
    (hreg : Typed types reg.kind reg.wrapper.sink) (hsink : Typed types kind sink) :
    Gauge.of? reg.kind reg.wrapper.sink = Gauge.of? kind sink := by
  simp only [Registration.Meant, Bool.and_eq_true, decide_eq_true_eq] at hmeant
  obtain ⟨hkind, hkey⟩ := hmeant
  rw [hkind] at hreg ⊢
  cases kind with
  | firehose => rfl
  | app =>
    have htype : reg.wrapper.sink.type = sink.type := by rw [hreg rfl, hsink rfl, hkey]
    simp only [Gauge.of?, htype]

theorem registered_closeAndDeleteOf {removed : Bool} (g : Gauge)
    (hperm : r'.registrations.Perm
      (r.registrations.filter (fun reg => !reg.Meant kind sink)))
    (hremoved : (r.registrations.filter (Registration.Meant kind sink)).length = removed.toNat)
    (htyped : ∀ reg ∈ r.registrations, Typed types reg.kind reg.wrapper.sink)
    (hsink : Typed types kind sink) :
    registered r g = registered r' g +
      if removed = true ∧ Gauge.of? kind sink = some g then 1 else 0 := by
  unfold registered
  rw [hperm.countP_eq, List.countP_eq_countP_filter_add r.registrations _
    (Registration.Meant kind sink), Nat.add_comm]
  congr 1
  have hgauge : ∀ reg ∈ r.registrations.filter (Registration.Meant kind sink),
      Gauge.of? reg.kind reg.wrapper.sink = Gauge.of? kind sink := by
    intro reg hreg
    obtain ⟨hmem, hmeant⟩ := List.mem_filter.mp hreg
    exact of?_eq_of_meant hmeant (htyped reg hmem) hsink
  by_cases hg : Gauge.of? kind sink = some g
  · rw [List.countP_eq_length.mpr (fun reg hreg => by rw [hgauge reg hreg, decide_eq_true hg]),
      hremoved]
    cases removed <;> simp [hg]
  · rw [List.countP_eq_zero.mpr (fun reg hreg => by rw [hgauge reg hreg]; simpa using hg)]
    simp [hg]

end Registry

/-! ## The balance -/

/-- The sink of a call that may still remove something has the type of its strings. -/
def Thread.Typed (types : GoString × GoString → SinkType) : Thread → Prop
  | .inc kind sink | .run kind sink | .close kind sink => SinkGauges.Typed types kind sink
  | .dec _ _ | .disconnect _ | .done => True

structure Inv (types : GoString × GoString → SinkType) (st : State) : Prop where
  held : Held st.registry st.nextChan
  registrations : ∀ reg ∈ st.registry.registrations, Typed types reg.kind reg.wrapper.sink
  threads : ∀ th ∈ st.threads, th.Typed types
  /-- The gauge shows the number that it stands for, in 32 bits. -/
  balance : ∀ g, st.metrics.value g = Int32.ofInt (st.due g)

section Balance

variable {types : GoString × GoString → SinkType} {st : State} {kind : Kind} {sink : Sink}
  {i : Nat} {th th' : Thread}

theorem inv_initial : Inv types {} where
  held := held_initial
  registrations := nofun
  threads := nofun
  balance g := by cases g <;> rfl

theorem typed_set (h : ∀ th ∈ st.threads, th.Typed types) (hth' : th'.Typed types) :
    ∀ th ∈ st.threads.set i th', th.Typed types := by
  intro th hth
  rcases List.mem_or_eq_of_mem_set hth with hmem | rfl
  · exact h th hmem
  · exact hth'

/-- What the move of a thread does to the number that a gauge stands for. -/
theorem due_set (hi : st.threads[i]? = some th) (m : Metrics) (r : Registry) (g : Gauge) :
    { st with registry := r, metrics := m, threads := st.threads.set i th' : State }.due g =
      st.due g + (registered r g - registered st.registry g : Int) +
        ((th'.owesDec g).toNat - (th.owesDec g).toNat : Int) -
        ((th'.owesInc g).toNat - (th.owesInc g).toNat : Int) := by
  have hdec := countP_set_add (p := Thread.owesDec g) th' hi
  have hinc := countP_set_add (p := Thread.owesInc g) th' hi
  simp only [State.due, State.decsOwed, State.incsOwed]
  omega

variable (hinv : Inv types st)
include hinv

/-- A thread moves on and the registry stays as it is. -/
theorem Inv.move (hi : st.threads[i]? = some th) {m : Metrics} {n : Gauge → Int}
    (hth' : th'.Typed types) (hvalue : ∀ g, m.value g = st.metrics.value g + Int32.ofInt (n g))
    (hdue : ∀ g, ((th'.owesDec g).toNat - (th.owesDec g).toNat : Int) -
      ((th'.owesInc g).toNat - (th.owesInc g).toNat : Int) = n g) :
    Inv types { st with metrics := m, threads := st.threads.set i th' } where
  held := hinv.held
  registrations := hinv.registrations
  threads := typed_set hinv.threads hth'
  balance := by
    intro g
    have heq : { st with metrics := m, threads := st.threads.set i th' : State }.due g =
        st.due g + n g := by
      rw [due_set hi m st.registry g, ← hdue g]
      omega
    rw [heq, Int32.ofInt_add, hvalue g, hinv.balance g]

/-- A thread moves on and neither the gauges nor the registry change. -/
theorem Inv.move_silent (hi : st.threads[i]? = some th) (hth' : th'.Typed types)
    (hdec : ∀ g, th'.owesDec g = th.owesDec g) (hinc : ∀ g, th'.owesInc g = th.owesInc g) :
    Inv types { st with threads := st.threads.set i th' } := by
  refine hinv.move hi (n := fun _ => 0) hth' ?_ ?_
  · intro g
    exact (Int32.add_zero _).symm
  · intro g
    rw [hdec g, hinc g]
    omega

theorem Inv.inc (hi : st.threads[i]? = some (.inc kind sink)) :
    Inv types { st with
      metrics := st.metrics.inc sink kind
      threads := st.threads.set i (.run kind sink) } := by
  have hsink : Typed types kind sink := hinv.threads _ (List.mem_of_getElem? hi)
  refine hinv.move hi hsink (st.metrics.inc_value sink kind) ?_
  intro g
  simp only [Thread.owesInc, Thread.owesDec]
  by_cases hg : Gauge.of? kind sink = some g <;> simp [hg]

theorem Inv.dec (hi : st.threads[i]? = some (.dec kind sink)) :
    Inv types { st with
      metrics := st.metrics.dec sink kind
      threads := st.threads.set i
        (if kind = .app ∧ sink.type = .syslogSink then .disconnect sink else .done) } := by
  refine hinv.move hi ?_ (st.metrics.dec_value sink kind) ?_
  · split <;> exact trivial
  · intro g
    split <;> simp only [Thread.owesInc, Thread.owesDec] <;>
      by_cases hg : Gauge.of? kind sink = some g <;> simp [hg]

/-- The operation that removes a sink, of a call for it or for another sink with its strings. -/
theorem Inv.close (hi : st.threads[i]? = some (.close kind sink)) :
    ∃ removed r, closeAndDeleteOf st.registry sink kind = .ok (removed, r) ∧
      Inv types { st with
        registry := r
        threads := st.threads.set i (if removed then .dec kind sink else .done) } := by
  obtain ⟨removed, r, hcall, hheld, hperm, hremoved⟩ := hinv.held.closeAndDeleteOf sink kind
  have hsink : Typed types kind sink := hinv.threads _ (List.mem_of_getElem? hi)
  refine ⟨removed, r, hcall, hheld, ?_, ?_, ?_⟩
  · intro reg hreg
    exact hinv.registrations reg (List.mem_filter.mp (hperm.mem_iff.mp hreg)).1
  · refine typed_set hinv.threads ?_
    split <;> exact trivial
  · intro g
    have hcount := registered_closeAndDeleteOf g hperm hremoved hinv.registrations hsink
    refine (hinv.balance g).trans (congrArg Int32.ofInt ?_)
    rw [due_set hi st.metrics r g]
    by_cases hg : Gauge.of? kind sink = some g <;> cases removed <;>
      simp [Thread.owesInc, Thread.owesDec, hg] at hcount ⊢ <;> omega

theorem Inv.stepThread {s' : Except Panic State} (hstep : stepThread st i = some s') :
    ∃ st', s' = .ok st' ∧ Inv types st' := by
  unfold SinkGauges.stepThread at hstep
  split at hstep
  · next kind sink hi =>
    cases hstep
    exact ⟨_, rfl, hinv.inc hi⟩
  · next kind sink hi =>
    have hsink : Typed types kind sink := hinv.threads _ (List.mem_of_getElem? hi)
    cases hstep
    exact ⟨_, rfl, hinv.move_silent hi hsink (fun _ => rfl) (fun _ => rfl)⟩
  · next kind sink hi =>
    obtain ⟨removed, r, hcall, hinv'⟩ := hinv.close hi
    rw [hcall] at hstep
    cases hstep
    exact ⟨_, rfl, hinv'⟩
  · next kind sink hi =>
    cases hstep
    exact ⟨_, rfl, hinv.dec hi⟩
  · next sink hi =>
    cases hstep
    exact ⟨_, rfl, hinv.move_silent hi trivial (fun _ => rfl) (fun _ => rfl)⟩
  · cases hstep
  · cases hstep

/-- A registration that succeeds owes its increment from then on. -/
theorem Inv.register (hsink : Typed types kind sink) :
    Inv types { st with
      registry := (registerOf st.registry st.nextChan sink kind).2
      nextChan := st.nextChan + 1
      threads := st.threads ++
        (if (registerOf st.registry st.nextChan sink kind).1 then [.inc kind sink] else []) } := by
  obtain ⟨hheld, hperm⟩ := hinv.held.registerOf sink kind
  refine ⟨hheld, ?_, ?_, ?_⟩
  · intro reg hreg
    rcases List.mem_append.mp (hperm.mem_iff.mp hreg) with hnew | hold
    · split at hnew
      · rw [List.mem_singleton.mp hnew]
        exact hsink
      · cases hnew
    · exact hinv.registrations reg hold
  · intro th hth
    rcases List.mem_append.mp hth with hold | hnew
    · exact hinv.threads th hold
    · split at hnew
      · rw [List.mem_singleton.mp hnew]
        exact hsink
      · cases hnew
  · intro g
    have hcount := registered_registerOf hinv.held sink kind g
    refine (hinv.balance g).trans (congrArg Int32.ofInt ?_)
    simp only [State.due, State.decsOwed, State.incsOwed, List.countP_append, hcount]
    by_cases hok : (registerOf st.registry st.nextChan sink kind).1 = true
    · by_cases hg : Gauge.of? kind sink = some g
      · simp only [hok, hg, Thread.owesInc, Thread.owesDec, List.countP_singleton, and_self,
          if_true, decide_true, Bool.false_eq_true, if_false]
        omega
      · simp [hok, hg, Thread.owesInc, Thread.owesDec]
    · simp [hok]

theorem Inv.unregister (hsink : Typed types kind sink) :
    Inv types { st with threads := st.threads ++ [.close kind sink] } where
  held := hinv.held
  registrations := hinv.registrations
  threads := by
    intro th hth
    rcases List.mem_append.mp hth with hold | hnew
    · exact hinv.threads th hold
    · rw [List.mem_singleton.mp hnew]
      exact hsink
  balance := by
    intro g
    refine (hinv.balance g).trans (congrArg Int32.ofInt ?_)
    simp [State.due, State.decsOwed, State.incsOwed, List.countP_append, Thread.owesInc,
      Thread.owesDec]

end Balance

/-- No run panics, and the gauges stay in balance. -/
theorem inv_of_reachable {types : GoString × GoString → SinkType} {s : Except Panic State}
    (hs : Reachable step (ok types) (.ok {}) s) : ∃ st, s = .ok st ∧ Inv types st := by
  refine hs.invariant (P := fun s => ∃ st, s = .ok st ∧ Inv types st) ⟨{}, rfl, inv_initial⟩ ?_
  rintro _ a s' ⟨st, rfl, hinv⟩ hok hstep
  cases a with
  | register kind sink =>
    cases hstep
    exact ⟨_, rfl, hinv.register hok⟩
  | unregister kind sink =>
    cases hstep
    exact ⟨_, rfl, hinv.unregister hok⟩
  | thread i => exact hinv.stepThread hstep

theorem toInt_ofInt_iff (n : Int) : (Int32.ofInt n).toInt = n ↔ -2 ^ 31 ≤ n ∧ n < 2 ^ 31 := by
  constructor
  · intro h
    rw [← h]
    exact ⟨Int32.le_toInt _, Int32.toInt_lt _⟩
  · rintro ⟨hle, hlt⟩
    exact Int32.toInt_ofInt_of_le hle hlt

theorem Thread.not_owes_of_idle {th : Thread} (h : th.idle = true) (g : Gauge) :
    th.owesInc g = false ∧ th.owesDec g = false := by
  cases th with
  | run kind sink | done => exact ⟨rfl, rfl⟩
  | inc kind sink | close kind sink | dec kind sink | disconnect sink => cases h

theorem State.Idle.owed {st : State} (h : st.Idle) (g : Gauge) :
    st.incsOwed g = 0 ∧ st.decsOwed g = 0 := by
  constructor
  · refine List.countP_eq_zero.mpr (fun th hth => ?_)
    rw [(Thread.not_owes_of_idle (h th hth) g).1]
    exact Bool.false_ne_true
  · refine List.countP_eq_zero.mpr (fun th hth => ?_)
    rw [(Thread.not_owes_of_idle (h th hth) g).2]
    exact Bool.false_ne_true

/-- In every state of every run a gauge shows the sinks that are registered, but for what is still
owed, in 32 bits; as a number it is exact unless that leaves the range of the gauge. When no
operation is in progress it is the number of sinks, up to `2 ^ 31`. -/
theorem gauges_exact_iff (types : GoString × GoString → SinkType) (s : Except Panic State)
    (hs : Reachable step (ok types) (.ok {}) s) :
    ∃ st, s = .ok st ∧ ∀ g,
      st.metrics.value g =
        Int32.ofInt (registered st.registry g + st.decsOwed g - st.incsOwed g) ∧
      ((st.metrics.value g).toInt + st.incsOwed g - st.decsOwed g = registered st.registry g ↔
        -2 ^ 31 ≤ st.due g ∧ st.due g < 2 ^ 31) ∧
      (st.Idle → ((st.metrics.value g).toInt = registered st.registry g ↔
        registered st.registry g < 2 ^ 31)) := by
  obtain ⟨st, rfl, hinv⟩ := inv_of_reachable hs
  refine ⟨st, rfl, fun g => ?_⟩
  have hexact : (st.metrics.value g).toInt + st.incsOwed g - st.decsOwed g =
      registered st.registry g ↔ -2 ^ 31 ≤ st.due g ∧ st.due g < 2 ^ 31 := by
    rw [← toInt_ofInt_iff, ← hinv.balance g, State.due]
    omega
  refine ⟨hinv.balance g, hexact, ?_⟩
  intro hidle
  rw [State.due, (hidle.owed g).1, (hidle.owed g).2] at hexact
  omega

/-- A sink is removed by one of two calls from outside before its increment, and its gauge is
below zero by what is owed. -/
theorem gauges_exact_removed_early :
    ∃ st, run (guarded step (ok fun _ => .dumpSink)) (.ok {})
        [.register .app (⟨0, str "app", str "app", .dumpSink⟩),
         .unregister .app (⟨0, str "app", str "app", .dumpSink⟩),
         .unregister .app (⟨1, str "app", str "app", .dumpSink⟩),
         .thread 2, .thread 1, .thread 2] = some (.ok st) ∧
      st.metrics.value .dumpSinks = -1 ∧
      (st.metrics.value .dumpSinks).toInt + st.incsOwed .dumpSinks - st.decsOwed .dumpSinks =
        registered st.registry .dumpSinks := by
  have hrun : (run (guarded step (ok fun _ => .dumpSink)) (.ok {})
        [.register .app (⟨0, str "app", str "app", .dumpSink⟩),
         .unregister .app (⟨0, str "app", str "app", .dumpSink⟩),
         .unregister .app (⟨1, str "app", str "app", .dumpSink⟩),
         .thread 2, .thread 1, .thread 2]).map (fun s =>
      match s with
      | .ok st => some (st.metrics.value .dumpSinks, st.due .dumpSinks)
      | .error _ => none) = some (some (-1, -1)) := by decide
  obtain ⟨s, hs, hfinal⟩ := Option.map_eq_some_iff.mp hrun
  obtain ⟨st, rfl, hexact⟩ := gauges_exact_iff _ s (Reachable.refl.of_guarded hs)
  simp only [Option.some.injEq, Prod.mk.injEq] at hfinal
  refine ⟨st, hs, hfinal.1, (hexact .dumpSinks).2.1.mpr ?_⟩
  rw [hfinal.2]
  decide

/-! ## A gauge that wraps -/

/-- The dump sink of an application; its identifier is the application id. -/
def dumpSinkAt (k : Nat) : Sink :=
  ⟨k, List.replicate (k + 1) 97, List.replicate (k + 1) 97, .dumpSink⟩

theorem dumpSinkAt_key_ne {k l : Nat} (h : k ≠ l) : (dumpSinkAt k).key ≠ (dumpSinkAt l).key := by
  intro heq
  have hlength := congrArg (fun key => key.1.length) heq
  simp only [Sink.key, dumpSinkAt, List.length_replicate] at hlength
  omega

section Wrap

variable {st : State} {sink : Sink} {kind : Kind}

/-- A registration that succeeds, with its increment. -/
theorem reachable_register_inc {types : GoString × GoString → SinkType}
    (hs : Reachable step (ok types) (.ok {}) (.ok st)) (hsink : Typed types kind sink)
    (hok : (registerOf st.registry st.nextChan sink kind).1 = true) :
    Reachable step (ok types) (.ok {}) (.ok { st with
      registry := (registerOf st.registry st.nextChan sink kind).2
      metrics := st.metrics.inc sink kind
      nextChan := st.nextChan + 1
      threads := st.threads ++ [.run kind sink] }) := by
  have hregister : step (.ok st) (.register kind sink) = some (.ok { st with
      registry := (registerOf st.registry st.nextChan sink kind).2
      nextChan := st.nextChan + 1
      threads := st.threads ++ [.inc kind sink] }) := by
    simp only [step, hok, if_true]
  refine (hs.tail (a := Action.register kind sink) hsink hregister).tail
    (a := Action.thread st.threads.length) trivial ?_
  simp [step, stepThread]

/-- Any number of dump sinks can be registered and counted. -/
theorem exists_registered (n : Nat) :
    ∃ st, Reachable step (ok fun _ => .dumpSink) (.ok {}) (.ok st) ∧ st.Idle ∧
      registered st.registry .dumpSinks = n ∧
      ∀ k, n ≤ k → st.registry.toGroupedSinks.wrapper (dumpSinkAt k).key = none := by
  induction n with
  | zero =>
    refine ⟨{}, .refl, nofun, rfl, ?_⟩
    intro k _
    exact GroupedSinks.wrapper_empty _
  | succ n ih =>
    obtain ⟨st, hs, hidle, hcount, hfree⟩ := ih
    obtain ⟨_, heq, hinv⟩ := inv_of_reachable hs
    cases heq
    have hgrouped := st.registry.registerAppSink_toGroupedSinks st.nextChan (dumpSinkAt n)
    have hok : (registerOf st.registry st.nextChan (dumpSinkAt n) .app).1 = true := by
      have hfree' : st.registry.toGroupedSinks.Free (dumpSinkAt n) :=
        ⟨nofun, nofun, hfree n (Nat.le_refl n)⟩
      have hok := (GroupedSinks.registerAppSink_ok _ st.nextChan _).mpr hfree'
      rwa [hgrouped] at hok
    refine ⟨_, reachable_register_inc hs (fun _ => rfl) hok, ?_, ?_, ?_⟩
    · intro th hth
      rcases List.mem_append.mp hth with hold | hnew
      · exact hidle th hold
      · rw [List.mem_singleton.mp hnew]
        rfl
    · rw [registered_registerOf hinv.held, hcount, hok]
      rfl
    · intro k hk
      have hwrapper := GroupedSinks.registerAppSink_wrapper st.registry.toGroupedSinks st.nextChan
        (dumpSinkAt n) (dumpSinkAt k).key
      have hne : (dumpSinkAt k).key ≠ (dumpSinkAt n).key :=
        dumpSinkAt_key_ne (Nat.ne_of_gt (Nat.lt_of_succ_le hk))
      rw [hgrouped, if_neg (fun h => hne h.2), hfree k (Nat.le_of_succ_le hk)] at hwrapper
      exact hwrapper

/-- With `2 ^ 31` dump sinks registered and nothing in progress, their gauge shows `-2 ^ 31`. -/
theorem gauge_wraps :
    ∃ st, Reachable step (ok fun _ => .dumpSink) (.ok {}) (.ok st) ∧ st.Idle ∧
      registered st.registry .dumpSinks = 2 ^ 31 ∧
      (st.metrics.value .dumpSinks).toInt = -2 ^ 31 := by
  obtain ⟨st, hs, hidle, hcount, -⟩ := exists_registered (2 ^ 31)
  obtain ⟨_, heq, hinv⟩ := inv_of_reachable hs
  cases heq
  refine ⟨st, hs, hidle, hcount, ?_⟩
  rw [hinv.balance, State.due, (hidle.owed _).1, (hidle.owed _).2, hcount]
  decide

end Wrap

end Loggregator.Doppler.SinkGauges
