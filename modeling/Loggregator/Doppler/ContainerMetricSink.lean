import Loggregator.Lib.Dict
import Loggregator.Lib.Transition
import Loggregator.Plumbing.Envelope
import Mathlib.Data.List.Find
import Mathlib.Data.List.Induction

/-!
# The sink of container metrics

`sinks/containermetric/container_metric_sink.go`. The sink keeps one metric for each instance and
`GetLatest` forgets those that are too old. What it forgets was older than every later call
looks for, so the calls return the metrics that a sink without the deletions would return.

Times are nanoseconds since 1970. The time to live is a `time.Duration`, and its negation wraps.
-/

namespace Loggregator.Doppler

open Lib

/-- `ContainerMetricSink`. -/
structure ContainerMetricSink where
  ttl : Int64
  metrics : Dict Int32 Events.Envelope := ∅

namespace ContainerMetricSink

/-- `GetContainerMetric().GetInstanceIndex()`. -/
def instanceIndex (event : Events.Envelope) : Int32 :=
  match event.containerMetric with
  | none => 0
  | some metric => metric.instanceIndex

/-- `updateMetric`. -/
def updateMetric (sink : ContainerMetricSink) (event : Events.Envelope) : ContainerMetricSink :=
  match sink.metrics.lookup (instanceIndex event) with
  | none => { sink with metrics := sink.metrics.insert (instanceIndex event) event }
  | some oldMetric =>
    if oldMetric.timestamp < event.timestamp then
      { sink with metrics := sink.metrics.insert (instanceIndex event) event }
    else sink

/-- A turn of the loop of `Run` that receives an event. -/
def receive (sink : ContainerMetricSink) (event : Events.Envelope) : ContainerMetricSink :=
  if event.eventType ≠ .containerMetric then sink else sink.updateMetric event

/-- `time.Now().Add(-sink.ttl)`. -/
def earliestLiveTimestamp (ttl : Int64) (now : Int) : Int := now + (-ttl).toInt

/-- One turn of the loop of `GetLatest`. -/
def visit (earliest : Int) (s : List Events.Envelope × Dict Int32 Events.Envelope)
    (p : Sigma fun _ : Int32 => Events.Envelope) :
    List Events.Envelope × Dict Int32 Events.Envelope :=
  if p.2.timestamp.toInt < earliest then (s.1, s.2.erase p.1) else (s.1 ++ [p.2], s.2)

/-- `GetLatest`, and the sink after it. -/
def getLatest (sink : ContainerMetricSink) (now : Int) :
    List Events.Envelope × ContainerMetricSink :=
  let (envelopes, metrics) :=
    sink.metrics.entries.foldl (visit (earliestLiveTimestamp sink.ttl now)) ([], sink.metrics)
  (envelopes, { sink with metrics := metrics })

/-! ## The loop of `GetLatest` -/

theorem foldl_visit (earliest : Int) (l : List (Sigma fun _ : Int32 => Events.Envelope))
    (envelopes : List Events.Envelope) (metrics : Dict Int32 Events.Envelope) :
    l.foldl (visit earliest) (envelopes, metrics) =
      (envelopes ++ (l.filter (fun p => decide (earliest ≤ p.2.timestamp.toInt))).map (·.2),
        Dict.eraseAll ((l.filter (fun p => decide (p.2.timestamp.toInt < earliest))).map (·.1))
          metrics) := by
  induction l generalizing envelopes metrics with
  | nil => simp [Dict.eraseAll]
  | cons p l ih =>
    rw [List.foldl_cons, visit]
    by_cases hp : p.2.timestamp.toInt < earliest
    · rw [if_pos hp, ih, List.filter_cons_of_neg (by simpa using hp),
        List.filter_cons_of_pos (by simpa using hp)]
      rfl
    · rw [if_neg hp, ih, List.filter_cons_of_pos (by simpa using hp),
        List.filter_cons_of_neg (by simpa using hp)]
      simp

theorem getLatest_fst (sink : ContainerMetricSink) (now : Int) :
    (sink.getLatest now).1 = (sink.metrics.entries.filter (fun p =>
      decide (earliestLiveTimestamp sink.ttl now ≤ p.2.timestamp.toInt))).map (·.2) := by
  rw [getLatest, foldl_visit]
  rfl

theorem lookup_getLatest (sink : ContainerMetricSink) (now : Int) (i : Int32)
    (metric : Events.Envelope) : (sink.getLatest now).2.metrics.lookup i = some metric ↔
      sink.metrics.lookup i = some metric ∧
        earliestLiveTimestamp sink.ttl now ≤ metric.timestamp.toInt := by
  rw [getLatest, foldl_visit, Dict.lookup_eraseAll]
  have hkey : i ∈ (sink.metrics.entries.filter (fun p => decide (p.2.timestamp.toInt <
        earliestLiveTimestamp sink.ttl now))).map (·.1) ↔
      ∃ metric, sink.metrics.lookup i = some metric ∧
        metric.timestamp.toInt < earliestLiveTimestamp sink.ttl now := by
    simp only [List.mem_map, List.mem_filter, decide_eq_true_eq]
    constructor
    · rintro ⟨⟨i, m⟩, ⟨hmem, hm⟩, rfl⟩
      exact ⟨m, AList.mem_lookup_iff.mpr hmem, hm⟩
    · rintro ⟨m, hmem, hm⟩
      exact ⟨⟨i, m⟩, ⟨AList.mem_lookup_iff.mp hmem, hm⟩, rfl⟩
  simp only [hkey]
  split
  · next h =>
    obtain ⟨m, hm, hlt⟩ := h
    rw [hm]
    constructor
    · intro h
      cases h
    · rintro ⟨h, hle⟩
      cases h
      omega
  · next h =>
    constructor
    · intro hm
      exact ⟨hm, Int.not_lt.mp (fun hlt => h ⟨metric, hm, hlt⟩)⟩
    · exact fun hm => hm.1

theorem mem_getLatest (sink : ContainerMetricSink) (now : Int) (metric : Events.Envelope) :
    metric ∈ (sink.getLatest now).1 ↔ ∃ i, sink.metrics.lookup i = some metric ∧
      earliestLiveTimestamp sink.ttl now ≤ metric.timestamp.toInt := by
  rw [getLatest_fst]
  simp only [List.mem_map, List.mem_filter, decide_eq_true_eq]
  constructor
  · rintro ⟨⟨i, m⟩, ⟨hmem, hm⟩, rfl⟩
    exact ⟨i, AList.mem_lookup_iff.mpr hmem, hm⟩
  · rintro ⟨i, hmem, hm⟩
    exact ⟨⟨i, metric⟩, ⟨AList.mem_lookup_iff.mp hmem, hm⟩, rfl⟩

/-! ## The latest metrics -/

/-- What an update leaves in the place of an instance. -/
def newer (oldMetric : Option Events.Envelope) (event : Events.Envelope) :
    Option Events.Envelope :=
  match oldMetric with
  | none => some event
  | some oldMetric => if oldMetric.timestamp < event.timestamp then some event else some oldMetric

theorem lookup_updateMetric (sink : ContainerMetricSink) (event : Events.Envelope) (i : Int32) :
    (sink.updateMetric event).metrics.lookup i = if i = instanceIndex event then
      newer (sink.metrics.lookup i) event else sink.metrics.lookup i := by
  by_cases hi : i = instanceIndex event
  · subst hi
    rw [if_pos rfl, updateMetric]
    cases hold : sink.metrics.lookup (instanceIndex event) with
    | none => exact AList.lookup_insert _
    | some oldMetric =>
      simp only [newer]
      split
      · exact AList.lookup_insert _
      · exact hold
  · rw [if_neg hi, updateMetric]
    split
    · exact AList.lookup_insert_ne hi
    · split
      · exact AList.lookup_insert_ne hi
      · rfl

/-- No event is later. -/
def isLatest (events : List Events.Envelope) (event : Events.Envelope) : Bool :=
  events.all (fun other => decide (other.timestamp ≤ event.timestamp))

/-- The first of the events that have the largest timestamp. -/
def firstLatest (events : List Events.Envelope) : Option Events.Envelope :=
  events.find? (isLatest events)

theorem isLatest_iff {events : List Events.Envelope} {event : Events.Envelope} :
    isLatest events event = true ↔ ∀ other ∈ events, other.timestamp ≤ event.timestamp := by
  simp only [isLatest, List.all_eq_true, decide_eq_true_eq]

theorem isLatest_concat (events : List Events.Envelope) (event e : Events.Envelope) :
    isLatest (events ++ [event]) e =
      (isLatest events e && decide (event.timestamp ≤ e.timestamp)) := by
  simp only [isLatest, List.all_append, List.all_cons, List.all_nil, Bool.and_true]

/-- A new event takes the place of the first latest one if it is later. -/
theorem firstLatest_concat_some {events : List Events.Envelope} {m : Events.Envelope}
    (h : firstLatest events = some m) (event : Events.Envelope) :
    firstLatest (events ++ [event]) = newer (some m) event := by
  have hmax := isLatest_iff.mp (List.find?_some h)
  have hmem : m ∈ events := List.mem_of_find?_eq_some h
  rw [firstLatest, List.find?_append]
  by_cases hlt : m.timestamp < event.timestamp
  · have hbefore : events.find? (isLatest (events ++ [event])) = none := by
      rw [List.find?_eq_none]
      intro e he hlatest
      have hle := isLatest_iff.mp hlatest event (by simp)
      exact absurd (Int64.lt_of_lt_of_le hlt hle) (Int64.not_lt.mpr (hmax e he))
    have hself : isLatest (events ++ [event]) event = true := by
      rw [isLatest_concat, Bool.and_eq_true]
      refine ⟨isLatest_iff.mpr (fun other hother => ?_), decide_eq_true (Int64.le_refl _)⟩
      exact Int64.le_of_lt (Int64.lt_of_le_of_lt (hmax other hother) hlt)
    rw [hbefore, List.find?_cons_of_pos hself]
    exact (if_pos hlt).symm
  · -- who is as late as `m` is as late as the new event
    have hsame : events.find? (isLatest (events ++ [event])) = firstLatest events := by
      refine List.find?_congr (fun e _ => ?_)
      rw [isLatest_concat, Bool.and_eq_left_iff_imp]
      intro hlatest
      exact decide_eq_true
        (Int64.le_trans (Int64.not_lt.mp hlt) (isLatest_iff.mp hlatest m hmem))
    rw [hsame, h]
    exact (if_neg hlt).symm

theorem firstLatest_eq_none {events : List Events.Envelope} (h : firstLatest events = none) :
    events = [] := by
  induction events using List.reverseRecOn with
  | nil => rfl
  | append_singleton events event ih =>
    cases hm : firstLatest events with
    | none =>
      rw [ih hm, firstLatest, List.nil_append, List.find?_cons_of_pos] at h
      · cases h
      · exact isLatest_iff.mpr (by simp)
    | some m =>
      rw [firstLatest_concat_some hm, newer] at h
      split at h <;> cases h

theorem firstLatest_concat (events : List Events.Envelope) (event : Events.Envelope) :
    firstLatest (events ++ [event]) = newer (firstLatest events) event := by
  cases h : firstLatest events with
  | some m => exact firstLatest_concat_some h event
  | none =>
    rw [firstLatest_eq_none h]
    exact List.find?_cons_of_pos (isLatest_iff.mpr (by simp))

/-- The first of the metrics of an instance that have the largest timestamp. -/
def latest (received : List Events.Envelope) (i : Int32) : Option Events.Envelope :=
  firstLatest (received.filter (fun event => decide (instanceIndex event = i)))

theorem latest_concat (received : List Events.Envelope) (event : Events.Envelope) (i : Int32) :
    latest (received ++ [event]) i = if i = instanceIndex event then
      newer (latest received i) event else latest received i := by
  unfold latest
  rw [List.filter_append]
  by_cases hi : i = instanceIndex event
  · subst hi
    rw [if_pos rfl, List.filter_cons_of_pos (by simp), List.filter_nil, firstLatest_concat]
  · rw [if_neg hi, List.filter_cons_of_neg (by simpa using Ne.symm hi), List.filter_nil,
      List.append_nil]

/-- No metric, or one from before a time. -/
def Stale (earliest : Int) (metric : Option Events.Envelope) : Prop :=
  ∀ m ∈ metric, m.timestamp.toInt < earliest

/-- A sink that deletes and one that does not are the same for those who look for metrics from
this time on. -/
def Agree (earliest : Int) (a b : Option Events.Envelope) : Prop :=
  a = b ∨ Stale earliest a ∧ Stale earliest b

section Agree

variable {earliest : Int} {a b : Option Events.Envelope}

theorem Stale.mono (h : Stale earliest a) {later : Int} (hle : earliest ≤ later) :
    Stale later a :=
  fun m hm => lt_of_lt_of_le (h m hm) hle

/-- An update of a place that is out of date stores the event, or leaves it out of date. -/
theorem Stale.newer (h : Stale earliest a) (event : Events.Envelope) :
    newer a event = some event ∨
      Stale earliest (newer a event) ∧ event.timestamp.toInt < earliest := by
  unfold ContainerMetricSink.newer
  cases a with
  | none => exact Or.inl rfl
  | some old =>
    have hold := h old rfl
    by_cases hlt : old.timestamp < event.timestamp
    · exact Or.inl (if_pos hlt)
    · have hle := Int64.lt_iff_toInt_lt.not.mp hlt
      simp only [if_neg hlt]
      exact Or.inr ⟨h, by omega⟩

theorem Agree.newer (h : Agree earliest a b) (event : Events.Envelope) :
    Agree earliest (newer a event) (newer b event) := by
  rcases h with rfl | ⟨ha, hb⟩
  · exact Or.inl rfl
  rcases ha.newer event with ha' | ⟨ha', hevent⟩ <;> rcases hb.newer event with hb' | ⟨hb', hevent'⟩
  · exact Or.inl (ha'.trans hb'.symm)
  · refine Or.inr ⟨?_, hb'⟩
    rw [ha']
    rintro m ⟨⟩
    exact hevent'
  · refine Or.inr ⟨ha', ?_⟩
    rw [hb']
    rintro m ⟨⟩
    exact hevent
  · exact Or.inr ⟨ha', hb'⟩

theorem Agree.eq_some_iff (h : Agree earliest a b) {m : Events.Envelope}
    (hm : earliest ≤ m.timestamp.toInt) : a = some m ↔ b = some m := by
  rcases h with rfl | ⟨ha, hb⟩
  · exact Iff.rfl
  constructor
  · intro h
    have := ha m h
    omega
  · intro h
    have := hb m h
    omega

/-- The deletions of a call. -/
theorem Agree.delete (h : Agree earliest a b) {later : Int} (hle : earliest ≤ later)
    {b' : Option Events.Envelope}
    (hb' : ∀ m, b' = some m ↔ b = some m ∧ later ≤ m.timestamp.toInt) : Agree later a b' := by
  have hstale : Stale later b → Stale later b' := by
    intro hs m hm
    exact hs m ((hb' m).mp hm).1
  rcases h with rfl | ⟨ha, hb⟩
  · cases a with
    | none =>
      have hnone : Stale later none := by
        intro m hm
        cases hm
      exact Or.inr ⟨hnone, hstale hnone⟩
    | some m =>
      by_cases hlt : m.timestamp.toInt < later
      · have hm : Stale later (some m) := by
          rintro m ⟨⟩
          exact hlt
        exact Or.inr ⟨hm, hstale hm⟩
      · exact Or.inl ((hb' m).mpr ⟨rfl, Int.not_lt.mp hlt⟩).symm
  · exact Or.inr ⟨ha.mono hle, hstale (hb.mono hle)⟩

end Agree

/-! ## Runs -/

/-- The sink, the time of the last call of `GetLatest`, and whether `Run` has returned. -/
structure State where
  sink : ContainerMetricSink
  clock : Int
  returned : Bool := false

/-- What happens to a sink. -/
inductive Action where
  | receive (event : Events.Envelope)
  | closed
  | inactive
  | getLatest (now : Int)

/-- The effect of an action; the clock does not go backwards. -/
def step (st : State) : Action → Option State
  | .receive event =>
    if st.returned then none else some { st with sink := st.sink.receive event }
  | .closed | .inactive => if st.returned then none else some { st with returned := true }
  | .getLatest now =>
    if now < st.clock then none
    else some { st with sink := (st.sink.getLatest now).2, clock := now }

/-- The container metrics that `Run` received. -/
def containerMetrics (actions : List Action) : List Events.Envelope :=
  actions.filterMap (fun
    | .receive event => if event.eventType = .containerMetric then some event else none
    | _ => none)

/-- The sink after these metrics, for all that calls from now on look for. -/
structure Fresh (ttl : Int64) (received : List Events.Envelope) (st : State) : Prop where
  ttl_eq : st.sink.ttl = ttl
  agree : ∀ i, Agree (earliestLiveTimestamp ttl st.clock) (latest received i)
    (st.sink.metrics.lookup i)
  index : ∀ i metric, st.sink.metrics.lookup i = some metric → instanceIndex metric = i

theorem fresh_initial (ttl : Int64) (clock : Int) : Fresh ttl [] ⟨⟨ttl, ∅⟩, clock, false⟩ := by
  refine ⟨rfl, fun i => Or.inl rfl, ?_⟩
  intro i metric h
  rw [AList.lookup_empty] at h
  cases h

section Fresh

variable {ttl : Int64} {received : List Events.Envelope} {st st' : State}

theorem Fresh.updateMetric (h : Fresh ttl received st) (event : Events.Envelope) :
    Fresh ttl (received ++ [event]) { st with sink := st.sink.updateMetric event } := by
  refine ⟨?_, ?_, ?_⟩
  · rw [← h.ttl_eq, ContainerMetricSink.updateMetric]
    split
    · rfl
    · split <;> rfl
  · intro i
    rw [latest_concat, lookup_updateMetric]
    split
    · exact (h.agree i).newer event
    · exact h.agree i
  · intro i metric hmetric
    rw [lookup_updateMetric] at hmetric
    split at hmetric
    · next hi =>
      unfold newer at hmetric
      split at hmetric
      · cases hmetric
        exact hi.symm
      · next hold =>
        split at hmetric
        · cases hmetric
          exact hi.symm
        · cases hmetric
          exact h.index i _ hold
    · exact h.index i metric hmetric

theorem earliestLiveTimestamp_mono (ttl : Int64) {now now' : Int} (h : now ≤ now') :
    earliestLiveTimestamp ttl now ≤ earliestLiveTimestamp ttl now' := by
  unfold earliestLiveTimestamp
  omega

theorem Fresh.getLatest (h : Fresh ttl received st) {now : Int} (hnow : st.clock ≤ now) :
    Fresh ttl received { st with sink := (st.sink.getLatest now).2, clock := now } := by
  refine ⟨h.ttl_eq, ?_, ?_⟩
  · intro i
    refine (h.agree i).delete (earliestLiveTimestamp_mono ttl hnow) (fun m => ?_)
    rw [lookup_getLatest, h.ttl_eq]
  · intro i metric hmetric
    exact h.index i metric ((lookup_getLatest st.sink now i metric).mp hmetric).1

theorem Fresh.step {actions : List Action} {a : Action}
    (h : Fresh ttl (containerMetrics actions) st) (hstep : step st a = some st') :
    Fresh ttl (containerMetrics (actions ++ [a])) st' := by
  rw [containerMetrics, List.filterMap_append]
  change Fresh ttl (containerMetrics actions ++ _) st'
  cases a with
  | receive event =>
    simp only [ContainerMetricSink.step] at hstep
    split at hstep
    · cases hstep
    · cases hstep
      rw [receive]
      by_cases htype : event.eventType = .containerMetric
      · rw [if_neg (not_not_intro htype)]
        simpa [htype] using h.updateMetric event
      · rw [if_pos htype]
        simpa [htype] using h
  | closed | inactive =>
    simp only [ContainerMetricSink.step] at hstep
    split at hstep
    · cases hstep
    · cases hstep
      simpa using (⟨h.ttl_eq, h.agree, h.index⟩ : Fresh ttl _ { st with returned := true })
  | getLatest now =>
    simp only [ContainerMetricSink.step] at hstep
    split at hstep
    · cases hstep
    · next hnow =>
      cases hstep
      simpa using h.getLatest (Int.not_lt.mp hnow)

theorem fresh_of_run {clock : Int} {actions : List Action}
    (hrun : run ContainerMetricSink.step ⟨⟨ttl, ∅⟩, clock, false⟩ actions = some st) :
    Fresh ttl (containerMetrics actions) st := by
  refine run_invariant (P := fun actions st => Fresh ttl (containerMetrics actions) st) ?_ ?_ hrun
  · exact fresh_initial ttl clock
  · intro actions st a st' _ h hstep
    exact h.step hstep

/-- The metrics of a call are of different instances. -/
theorem Fresh.nodup (h : Fresh ttl received st) (now : Int) :
    ((st.sink.getLatest now).1.map instanceIndex).Nodup := by
  rw [getLatest_fst, List.map_map]
  have hkeys : ∀ p ∈ st.sink.metrics.entries, (instanceIndex ∘ Sigma.snd) p = p.1 := by
    rintro ⟨i, metric⟩ hp
    exact h.index i metric (AList.mem_lookup_iff.mpr hp)
  rw [List.map_congr_left (fun p hp => hkeys p (List.mem_filter.mp hp).1)]
  exact st.sink.metrics.nodupKeys.sublist List.filter_sublist

theorem Fresh.mem_getLatest (h : Fresh ttl received st) {now : Int} (hnow : st.clock ≤ now)
    (metric : Events.Envelope) : metric ∈ (st.sink.getLatest now).1 ↔
      ∃ i, latest received i = some metric ∧
        earliestLiveTimestamp ttl now ≤ metric.timestamp.toInt := by
  rw [ContainerMetricSink.mem_getLatest, h.ttl_eq]
  have hmono := earliestLiveTimestamp_mono ttl hnow
  constructor
  · rintro ⟨i, hi, hle⟩
    exact ⟨i, ((h.agree i).eq_some_iff (hmono.trans hle)).mpr hi, hle⟩
  · rintro ⟨i, hi, hle⟩
    exact ⟨i, ((h.agree i).eq_some_iff (hmono.trans hle)).mp hi, hle⟩

end Fresh

/-- A call at this time returns one metric for each instance that has one from the last `ttl`
nanoseconds, the first of its latest ones. -/
def ReturnsLatest (ttl : Int64) (received : List Events.Envelope) (now : Int)
    (envelopes : List Events.Envelope) : Prop :=
  (envelopes.map instanceIndex).Nodup ∧
  ∀ metric, metric ∈ envelopes ↔
    ∃ i, latest received i = some metric ∧ now - ttl.toInt ≤ metric.timestamp.toInt

/-- The negation of a duration is exact, except for the least one. -/
theorem earliestLiveTimestamp_eq {ttl : Int64} (h : ttl ≠ Int64.minValue) (now : Int) :
    earliestLiveTimestamp ttl now = now - ttl.toInt := by
  have hne : ttl.toInt ≠ -2 ^ 63 := by
    intro hmin
    apply h
    rw [← Int64.toInt_inj, hmin]
    rfl
  have hle := ttl.le_toInt
  have hlt := ttl.toInt_lt
  rw [earliestLiveTimestamp, Int64.toInt_neg, Int.bmod_eq_of_le (by omega) (by omega)]
  omega

/-- For the least time to live the code looks for metrics from the last 292 years instead of
those of a distant future. -/
theorem getLatest_minValue_returns_old :
    let metric : Events.Envelope := { eventType := .containerMetric }
    ∃ st, run step ⟨⟨Int64.minValue, ∅⟩, 0, false⟩ [.receive metric] = some st ∧
      (st.sink.getLatest 0).1 = [metric] ∧
      ¬ ReturnsLatest Int64.minValue (containerMetrics [.receive metric]) 0
        (st.sink.getLatest 0).1 := by
  intro metric
  have hresult : (((⟨Int64.minValue, ∅⟩ : ContainerMetricSink).receive metric).getLatest 0).1 =
    [metric] := by decide +kernel
  refine ⟨_, rfl, hresult, ?_⟩
  rintro ⟨-, h⟩
  obtain ⟨i, -, hle⟩ := (h metric).mp (by rw [hresult]; exact List.mem_singleton_self _)
  exact absurd hle (by decide)

/-- The sink returns the latest metrics in every run, whatever it has deleted, for the times to
live whose negation is a duration. -/
theorem getLatest_returnsLatest_iff (ttl : Int64) :
    (∀ (clock : Int) (actions : List Action) (st : State) (now : Int),
      run step ⟨⟨ttl, ∅⟩, clock, false⟩ actions = some st → st.clock ≤ now →
      ReturnsLatest ttl (containerMetrics actions) now (st.sink.getLatest now).1) ↔
    ttl ≠ Int64.minValue := by
  constructor
  · rintro h rfl
    have hreturns := h 0 [.receive { eventType := .containerMetric }] _ 0 rfl (by decide)
    obtain ⟨i, -, hle⟩ := (hreturns.2 { eventType := .containerMetric }).mp (by decide +kernel)
    exact absurd hle (by decide)
  · intro httl clock actions st now hrun hnow
    have hfresh := fresh_of_run hrun
    refine ⟨hfresh.nodup now, fun metric => ?_⟩
    rw [hfresh.mem_getLatest hnow, earliestLiveTimestamp_eq httl]

end ContainerMetricSink

end Loggregator.Doppler
