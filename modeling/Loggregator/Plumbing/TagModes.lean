import Loggregator.Plumbing.ToV2Spec

/-!
# The two tag modes of `ToV2`

Both modes store the same tags. `ToV1` reads them back the same way from either map, except
that with preferred tags it prunes the map it still has to read from: the marker of an error
is gone when `convertLog` looks for it, and for a gauge the base fields are gone when the
second pass reads them.
-/

namespace Loggregator.Conversion

open Lib

/-- The v2 envelope of `ToV2` without its maps. -/
def v2Core (x : Extern) (e : Events.Envelope) (t : GoString → Option GoString) :
    V2.Envelope where
  timestamp := e.timestamp
  sourceId := v2SourceId x e t
  instanceId := v2InstanceId e t
  message := v2Message x e

/-- The tags of a v1 envelope. -/
def v1Tags (e : Events.Envelope) (h : Heap) (k : GoString) : Option GoString :=
  (h.tagsOf e.tags).lookup k

theorem toV1Spec_core (x : Extern) (e : V2.Envelope) (rd : Reading) :
    toV1Spec x e rd = toV1Spec x { e with tags := none, deprecatedTags := none } rd := rfl

/-- The way through both conversions. -/
theorem toV1View_toV2 (x : Extern) (e : Events.Envelope) (b : Bool) (h : Heap) :
    toV1View x (toV2 x e b h).1 (toV2 x e b h).2 =
      toV1Spec x (v2Core x e (v1Tags e h)) (modeReading b (v2Tags x e (v1Tags e h))) := by
  have hs := toV2_spec x e b h
  have hcore : { (toV2 x e b h).1 with tags := none, deprecatedTags := none } =
      v2Core x e (v1Tags e h) := by
    generalize (toV2 x e b h).1 = v2e at hs
    obtain ⟨-, hts, hsid, hiid, hmsg⟩ := hs
    cases v2e
    simp only at hts hsid hiid hmsg
    subst hts hsid hiid hmsg
    rfl
  rw [toV1View_eq_spec, hs.holds.reading_eq, toV1Spec_core, hcore]
  rfl

/-! ## The tags between the conversions -/

theorem v2Tags_of_notMem {x : Extern} {e : Events.Envelope} {k : GoString}
    (hk : k ∉ (payloadTags x e).map Prod.fst) (t : GoString → Option GoString) :
    v2Tags x e t k = without [str "source_id", str "instance_id"] (overlay (baseTags x e) t) k :=
  overlay_of_notMem hk _

theorem baseKeys_notMem_payloadTags (x : Extern) (e : Events.Envelope) {k : GoString}
    (hk : k ∈ baseKeys) : k ∉ (payloadTags x e).map Prod.fst := by
  simp only [baseKeys, List.mem_cons, List.not_mem_nil, or_false] at hk
  unfold payloadTags
  rcases hk with rfl | rfl | rfl | rfl | rfl | rfl <;> split <;>
    simp [logTags, httpTags, errorTags]

/-- The base tags survive until `ToV1` reads them. -/
theorem v2Tags_base (x : Extern) (e : Events.Envelope) (t : GoString → Option GoString) :
    v2Tags x e t (str "__v1_type") = some (e.eventType.string x) ∧
    v2Tags x e t (str "origin") = some e.origin ∧
    v2Tags x e t (str "deployment") = some e.deployment ∧
    v2Tags x e t (str "job") = some e.job ∧
    v2Tags x e t (str "index") = some e.index ∧
    v2Tags x e t (str "ip") = some e.ip := by
  refine ⟨?_, ?_, ?_, ?_, ?_, ?_⟩ <;>
    rw [v2Tags_of_notMem (baseKeys_notMem_payloadTags x e (by simp [baseKeys]))] <;>
    simp [without, overlay, baseTags, Function.update]

section Modes

variable (x : Extern) (c : V2.Envelope) (t : GoString → Option GoString)

theorem modeReading_get (b : Bool) (k : GoString) : (modeReading b t).get k = (t k).getD [] := by
  cases b <;> simp [modeReading, Reading.get]

/-- The tags after the first pass do not depend on the mode. -/
theorem modeReading_base (b : Bool) : (modeReading b t).base c = (modeReading false t).base c := by
  funext k
  cases b <;> simp [modeReading, Reading.base]

theorem modeReading_after_false : (modeReading false t).after c = modeReading false t := rfl

/-- With deprecated tags the whole call reads the same tags. -/
theorem after_get_false (k : GoString) : ((modeReading false t).after c).get k = (t k).getD [] := by
  rw [modeReading_after_false, modeReading_get]

/-- With preferred tags the base tags are gone after the first pass. -/
theorem after_get_true_of_mem {k : GoString} (hk : k ∈ baseKeys) :
    ((modeReading true t).after c).get k = [] := by
  have hi : k ≠ str "instance_id" := by rintro rfl; simp [baseKeys] at hk
  have hs : k ≠ str "source_id" := by rintro rfl; simp [baseKeys] at hk
  simp [Reading.get, Reading.after, modeReading, Reading.base, hk, hi, hs]

/-- The tags of a payload are still there after the first pass. -/
theorem after_get_true_of_notMem {k : GoString} (hk : k ∉ baseKeys)
    (hi : k ≠ str "instance_id") (hs : k ≠ str "source_id") :
    ((modeReading true t).after c).get k = (t k).getD [] := by
  simp [Reading.get, Reading.after, modeReading, Reading.base, hk, hi, hs]

theorem baseEnvelope_mode (b : Bool) (et : Events.EventType) :
    baseEnvelope (modeReading b t) c et = baseEnvelope (modeReading false t) c et := by
  simp only [baseEnvelope, modeReading_get]

end Modes

theorem timerPayload_congr (x : Extern) (v2e : V2.Envelope) (timer : V2.Timer)
    {tag tag' : GoString → GoString} (h : ∀ k ∈ timerKeys, tag k = tag' k) :
    timerPayload x tag v2e timer = timerPayload x tag' v2e timer := by
  simp only [timerPayload, Events.HttpStartStop.mk.injEq, true_and]
  refine ⟨?_, ?_, ?_, ?_, ?_, ?_, ?_, ?_, ?_, ?_, ?_⟩ <;> rw [h _ (by simp [timerKeys])]

theorem containerMetrics_length (t : Events.ContainerMetric) :
    (containerMetrics t).entries.length = 6 := rfl

theorem isContainer_containerMetrics (t : Events.ContainerMetric) :
    IsContainer ⟨containerMetrics t⟩ := by
  refine ⟨by rw [containerMetrics_length]; decide, ?_⟩
  simp [required, metric, containerMetrics]

theorem not_isContainer_singleton (name : GoString) (v : Option V2.GaugeValue) :
    ¬ IsContainer ⟨AList.singleton name v⟩ := fun h => h.1 rfl

/-- The base fields that a second pass of the preferred mode loses. -/
def NoBaseFields (e : Events.Envelope) : Prop :=
  e.origin = [] ∧ e.deployment = [] ∧ e.job = [] ∧ e.index = [] ∧ e.ip = []

/-- The envelopes for which the mode does not matter. -/
def ModesAgree (e : Events.Envelope) : Prop :=
  match e.eventType with
  | .error => False
  | .valueMetric | .containerMetric => NoBaseFields e
  | _ => True

/-- The base fields of the second pass of a gauge agree when there is nothing to lose. -/
theorem baseEnvelope_after_iff (x : Extern) (e : Events.Envelope) (c : V2.Envelope)
    (t : GoString → Option GoString) (et : Events.EventType) :
    baseEnvelope ((modeReading true (v2Tags x e t)).after c) c et =
      baseEnvelope ((modeReading false (v2Tags x e t)).after c) c et ↔ NoBaseFields e := by
  obtain ⟨-, horigin, hdeployment, hjob, hindex, hip⟩ := v2Tags_base x e t
  have hpre : ∀ k ∈ baseKeys, ((modeReading true (v2Tags x e t)).after c).get k = [] :=
    fun k hk => after_get_true_of_mem c _ hk
  simp only [baseEnvelope, Events.Envelope.mk.injEq, after_get_false, horigin, hdeployment, hjob,
    hindex, hip, Option.getD_some, and_true, true_and, NoBaseFields, @eq_comm _ [],
    hpre (str "origin") (by simp [baseKeys]), hpre (str "deployment") (by simp [baseKeys]),
    hpre (str "job") (by simp [baseKeys]), hpre (str "index") (by simp [baseKeys]),
    hpre (str "ip") (by simp [baseKeys])]

/-! ## One event type at a time -/

section EventTypes

variable (x : Extern) (e : Events.Envelope) (c : V2.Envelope) (t : GoString → Option GoString)

/-- With preferred tags a log is never taken for an error. -/
theorem logSpec_true (l : V2.Log) :
    logSpec (modeReading true (v2Tags x e t)) c l =
      ({ baseEnvelope (modeReading false (v2Tags x e t)) c .logMessage with
          logMessage := some
            (logPayload ((modeReading false (v2Tags x e t)).after c).get c l) },
        without [str "source_type"] ((modeReading false (v2Tags x e t)).base c)) := by
  have hmark : ((modeReading true (v2Tags x e t)).after c).get (str "__v1_type") = [] :=
    after_get_true_of_mem c _ (by simp [baseKeys])
  have hsource : ((modeReading true (v2Tags x e t)).after c).get (str "source_type") =
      ((modeReading false (v2Tags x e t)).after c).get (str "source_type") := by
    rw [after_get_true_of_notMem c _ (by simp [baseKeys]) (by simp) (by simp), after_get_false]
  have hpay : logPayload ((modeReading true (v2Tags x e t)).after c).get c l =
      logPayload ((modeReading false (v2Tags x e t)).after c).get c l := by
    simp only [logPayload, hsource]
  rw [logSpec, if_neg (by rw [hmark]; decide), hpay, modeReading_base, baseEnvelope_mode]

/-- With deprecated tags the marker decides between a log and an error. -/
theorem logSpec_false (l : V2.Log) :
    logSpec (modeReading false (v2Tags x e t)) c l =
      if e.eventType.string x = str "Error" then
        ({ baseEnvelope (modeReading false (v2Tags x e t)) c .error with
            error := some (errorPayload ((modeReading false (v2Tags x e t)).after c).get l) },
          without [str "source", str "code"] ((modeReading false (v2Tags x e t)).base c))
      else
        ({ baseEnvelope (modeReading false (v2Tags x e t)) c .logMessage with
            logMessage := some
              (logPayload ((modeReading false (v2Tags x e t)).after c).get c l) },
          without [str "source_type"] ((modeReading false (v2Tags x e t)).base c)) := by
  rw [logSpec, after_get_false, (v2Tags_base x e t).1, Option.getD_some]

theorem timer_modes (timer : V2.Timer) :
    timerPayload x ((modeReading true (v2Tags x e t)).after c).get c timer =
      timerPayload x ((modeReading false (v2Tags x e t)).after c).get c timer := by
  apply timerPayload_congr
  intro k hk
  have hbase : k ∉ baseKeys := by
    intro hb
    simp only [timerKeys, baseKeys, List.mem_cons, List.not_mem_nil, or_false] at hk hb
    rcases hb with rfl | rfl | rfl | rfl | rfl | rfl <;> simp at hk
  have hi : k ≠ str "instance_id" := by rintro rfl; simp [timerKeys] at hk
  have hs : k ≠ str "source_id" := by rintro rfl; simp [timerKeys] at hk
  rw [after_get_true_of_notMem c _ hbase hi hs, after_get_false]

/-- A payload of a gauge tells nothing of the base fields. -/
theorem singleton_baseEnvelope_iff {rd rd' : Reading} {et : Events.EventType}
    (value : Option Events.ValueMetric) (container : Option Events.ContainerMetric)
    (tags : GoString → Option GoString) :
    [({ baseEnvelope rd c et with valueMetric := value, containerMetric := container }, tags)] =
      [({ baseEnvelope rd' c et with valueMetric := value, containerMetric := container }, tags)] ↔
    baseEnvelope rd c et = baseEnvelope rd' c et := by
  constructor
  · intro heq
    have hfst := congrArg Prod.fst (List.cons.inj heq).1
    simp only [baseEnvelope, Events.Envelope.mk.injEq, and_true, true_and] at hfst ⊢
    exact hfst
  · intro heq
    rw [heq]

/-- A gauge that becomes a container metric. -/
theorem gaugeSpec_container_modes (m : Events.ContainerMetric) :
    gaugeSpec x (modeReading true (v2Tags x e t)) c ⟨containerMetrics m⟩ =
      gaugeSpec x (modeReading false (v2Tags x e t)) c ⟨containerMetrics m⟩ ↔
    NoBaseFields e := by
  simp only [gaugeSpec, if_pos (isContainer_containerMetrics m), modeReading_base c _ true]
  rw [← baseEnvelope_after_iff x e c t .containerMetric]
  exact singleton_baseEnvelope_iff c none (some _) _

/-- A gauge of one metric. -/
theorem gaugeSpec_singleton_modes (name : GoString) (m : V2.GaugeValue) :
    gaugeSpec x (modeReading true (v2Tags x e t)) c ⟨AList.singleton name (some m)⟩ =
      gaugeSpec x (modeReading false (v2Tags x e t)) c ⟨AList.singleton name (some m)⟩ ↔
    NoBaseFields e := by
  simp only [gaugeSpec, if_neg (not_isContainer_singleton name (some m)), AList.singleton_entries,
    List.all_cons, List.all_nil, Option.isSome_some, Bool.and_self, if_true,
    List.filterMap_cons, List.filterMap_nil, Option.map_some, modeReading_base c _ true]
  rw [← baseEnvelope_after_iff x e c t .valueMetric]
  exact singleton_baseEnvelope_iff c (some _) none _

end EventTypes

/-- The two modes give the same envelopes if and only if the envelope is not an error and, when
it becomes a gauge, has no base field to lose. -/
theorem toV1_toV2_modes_iff (x : Extern) (e : Events.Envelope) (h : Heap) :
    toV1View x (toV2 x e true h).1 (toV2 x e true h).2 =
      toV1View x (toV2 x e false h).1 (toV2 x e false h).2 ↔ ModesAgree e := by
  rw [toV1View_toV2, toV1View_toV2]
  generalize hc : v2Core x e (v1Tags e h) = c
  have hmsg : c.message = v2Message x e := by rw [← hc]; rfl
  generalize v1Tags e h = t at *
  unfold toV1Spec ModesAgree
  rw [hmsg]
  unfold v2Message
  cases ht : e.eventType with
  | logMessage =>
    simp only [iff_true]
    rw [logSpec_true, logSpec_false, if_neg (by rw [ht]; simp [Events.EventType.string])]
  | httpStartStop =>
    simp only [iff_true]
    rw [timer_modes x e c t, modeReading_base c _ true, baseEnvelope_mode c _ true]
  | valueMetric => exact gaugeSpec_singleton_modes x e c t _ _
  | counterEvent =>
    simp only [iff_true]
    rw [modeReading_base c _ true, baseEnvelope_mode c _ true]
  | error =>
    simp only [iff_false]
    rw [logSpec_true, logSpec_false, if_pos (by rw [ht]; rfl)]
    intro heq
    have htype := congrArg (fun p => p.1.eventType) (List.cons.inj heq).1
    cases htype
  | containerMetric => exact gaugeSpec_container_modes x e c t _
  | other n => simp

/-- An error without tags. -/
def sampleError : Events.Envelope where
  origin := str "origin"
  eventType := .error
  error := some ⟨str "source", 7, str "message"⟩

/-- With preferred tags an error comes back as a log message. -/
theorem toV1_toV2_modes_error :
    (toV1 sampleExtern (toV2 sampleExtern sampleError true {}).1
      (toV2 sampleExtern sampleError true {}).2).1.map Events.Envelope.eventType =
        [.logMessage] ∧
    (toV1 sampleExtern (toV2 sampleExtern sampleError false {}).1
      (toV2 sampleExtern sampleError false {}).2).1.map Events.Envelope.eventType = [.error] ∧
    toV1View sampleExtern (toV2 sampleExtern sampleError true {}).1
        (toV2 sampleExtern sampleError true {}).2 ≠
      toV1View sampleExtern (toV2 sampleExtern sampleError false {}).1
        (toV2 sampleExtern sampleError false {}).2 := by
  refine ⟨by decide, by decide, ?_⟩
  intro heq
  have htypes := congrArg (List.map (fun p => p.1.eventType)) heq
  revert htypes
  simp only [toV1View, List.map_map]
  decide

end Loggregator.Conversion
