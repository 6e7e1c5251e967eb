import Loggregator.Plumbing.Frame
import Loggregator.Plumbing.UuidText

/-!
# From v1 to v2 and back

With deprecated tags the v2 envelope of a v1 envelope has all its tags in one map, which `ToV1`
reads but does not change. What comes back is the v1 envelope up to the fields for which the
v2 envelope has one place only (`roundTrip`), as long as the payload survives its trip through
texts and floats (`Preserved`).
-/

namespace Loggregator.Conversion

open Lib

/-! ## Texts of a payload -/

theorem atoi_formatInt32 (z : Int32) : (atoi (formatInt z.toInt)).toInt32 = z := by
  have hlo := z.le_toInt
  have hhi := z.toInt_lt
  rw [atoi, parseInt_formatInt _ (by omega) (by omega), Option.getD_some, Int64.toInt32_ofInt,
    Int32.ofInt_toInt]

theorem atoi_formatInt64 (z : Int64) : atoi (formatInt z.toInt) = z := by
  rw [atoi, parseInt_formatInt _ z.le_toInt z.toInt_lt, Option.getD_some, Int64.ofInt_toInt]

/-- A list of texts survives being joined with newlines just when it is not empty and no text
has a newline. -/
theorem splitOn_intercalate_iff (l : List GoString) :
    ((str "\n").intercalate l).splitOn 10 = l ↔ l ≠ [] ∧ ∀ s ∈ l, 10 ∉ s := by
  have hsep : str "\n" = [10] := by decide
  rw [hsep, splitOn_eq_iff]
  simp only [and_true]

/-! ## What comes back -/

/-- The payloads that are present. -/
def presentPayloads (e : Events.Envelope) : List Events.EventType :=
  (if e.logMessage.isSome then [.logMessage] else []) ++
  (if e.httpStartStop.isSome then [.httpStartStop] else []) ++
  (if e.valueMetric.isSome then [.valueMetric] else []) ++
  (if e.counterEvent.isSome then [.counterEvent] else []) ++
  (if e.error.isSome then [.error] else []) ++
  (if e.containerMetric.isSome then [.containerMetric] else [])

/-- The v1 envelope after the round trip. The pointers to UUIDs are never nil in it. -/
def roundTrip (x : Extern) (e : Events.Envelope) (t : GoString → Option GoString) :
    Events.Envelope :=
  { e with
    tags := none
    logMessage := e.logMessage.map (fun l =>
      { l with timestamp := e.timestamp, appId := v2SourceId x e t })
    httpStartStop := e.httpStartStop.map (fun s =>
      { s with
        requestId := some (getUUID s.requestId)
        applicationId := some (getUUID s.applicationId) })
    counterEvent := e.counterEvent.map (fun c => { c with delta := 0 })
    containerMetric := e.containerMetric.map (fun c =>
      { c with applicationId := v2SourceId x e t }) }

/-- An id as a tag: the empty id is no tag. -/
def idTag (id : GoString) : Option GoString := if id = [] then none else some id

/-- The tags after the round trip. -/
def roundTripTags (x : Extern) (e : Events.Envelope) (t : GoString → Option GoString)
    (k : GoString) : Option GoString :=
  if k = str "source_id" then idTag (v2SourceId x e t)
  else if k = str "instance_id" then idTag (v2InstanceId e t)
  else t k

/-- The tags avoid the names that the conversion reserves for the event type. -/
def AvoidsReserved (e : Events.Envelope) (t : GoString → Option GoString) : Prop :=
  ∀ k ∈ baseKeys ++ payloadNames e.eventType, t k = none

/-- An HTTP event survives: its enumerations have names, its list of forwarding addresses can
be joined, and without an application id the source id does not read as one. -/
@[mk_iff]
structure HttpPreserved (x : Extern) (s : Events.HttpStartStop) (sourceId : GoString) : Prop where
  peerType : x.peerType.ofString (x.peerType.string s.peerType) = s.peerType
  method : x.method.ofString (x.method.string s.method) = s.method
  forwarded : s.forwarded ≠ [] ∧ ∀ f ∈ s.forwarded, 10 ∉ f
  applicationId : getUUID s.applicationId = ⟨0, 0⟩ →
    convertUUID (parseUUID sourceId) = ⟨0, 0⟩

/-- The byte counts survive as floats. -/
@[mk_iff]
structure ContainerPreserved (x : Extern) (c : Events.ContainerMetric) : Prop where
  memoryBytes : (Float64.ofNat c.memoryBytes.toNat).toUInt64 x.outUInt64 = c.memoryBytes
  diskBytes : (Float64.ofNat c.diskBytes.toNat).toUInt64 x.outUInt64 = c.diskBytes
  memoryBytesQuota :
    (Float64.ofNat c.memoryBytesQuota.toNat).toUInt64 x.outUInt64 = c.memoryBytesQuota
  diskBytesQuota :
    (Float64.ofNat c.diskBytesQuota.toNat).toUInt64 x.outUInt64 = c.diskBytesQuota

/-- The payload of the envelope survives its trip through texts and floats. -/
@[mk_iff]
structure Preserved (x : Extern) (e : Events.Envelope) (t : GoString → Option GoString) :
    Prop where
  messageType : ∀ l, e.logMessage = some l → l.messageType = .OUT ∨ l.messageType = .ERR
  http : ∀ s, e.httpStartStop = some s → HttpPreserved x s (tagSourceId e t)
  container : ∀ c, e.containerMetric = some c → ContainerPreserved x c

/-! ## The tags -/

theorem mem_payloadTags_keys (x : Extern) (e : Events.Envelope) (k : GoString) :
    k ∈ (payloadTags x e).map Prod.fst ↔ k ∈ payloadNames e.eventType := by
  unfold payloadTags payloadNames
  cases e.eventType with
  | httpStartStop =>
    simp only [httpTags, timerKeys, List.map_cons, List.map_nil]
    exact List.Perm.mem_iff (by decide)
  | _ => simp [logTags, errorTags]

theorem mem_baseTags_keys (x : Extern) (e : Events.Envelope) (k : GoString) :
    k ∈ (baseTags x e).map Prod.fst ↔ k ∈ baseKeys := by
  simp only [baseTags, baseKeys, List.map_cons, List.map_nil]
  exact List.Perm.mem_iff (by decide)

section Tags

variable (x : Extern) (e : Events.Envelope) (t : GoString → Option GoString)

theorem v2Tags_source_id : v2Tags x e t (str "source_id") = none ∧
    v2Tags x e t (str "instance_id") = none := by
  obtain ⟨hs, hi⟩ := source_id_notMem_payloadTags x e
  rw [v2Tags_of_notMem hs, v2Tags_of_notMem hi]
  simp [without]

/-- The tags of the payload survive until `ToV1` reads them. -/
theorem v2Tags_payload {kv : GoString × GoString} (hkv : kv ∈ payloadTags x e) :
    v2Tags x e t kv.1 = some kv.2 :=
  overlay_of_mem (payloadTags_keys_nodup x e) hkv _

theorem v2Tags_other {k : GoString} (hb : k ∉ baseKeys) (hp : k ∉ payloadNames e.eventType)
    (hs : k ≠ str "source_id") (hi : k ≠ str "instance_id") : v2Tags x e t k = t k := by
  have hpay : k ∉ (payloadTags x e).map Prod.fst := fun h => hp ((mem_payloadTags_keys x e k).mp h)
  have hbase : k ∉ (baseTags x e).map Prod.fst := fun h => hb ((mem_baseTags_keys x e k).mp h)
  rw [v2Tags_of_notMem hpay, without, if_neg (by simp [hs, hi]), overlay_of_notMem hbase]

/-- The tags of the result. -/
theorem base_roundTripTags (ha : AvoidsReserved e t) :
    without (payloadNames e.eventType)
      ((modeReading false (v2Tags x e t)).base (v2Core x e t)) = roundTripTags x e t := by
  have hnames : str "source_id" ∉ payloadNames e.eventType ∧
      str "instance_id" ∉ payloadNames e.eventType := by
    rw [← mem_payloadTags_keys x, ← mem_payloadTags_keys x]
    exact source_id_notMem_payloadTags x e
  obtain ⟨hsource, hinstance⟩ := v2Tags_source_id x e t
  have hdep : ∀ k, ((modeReading false (v2Tags x e t)).dep k).or
      ((modeReading false (v2Tags x e t)).tag k) = v2Tags x e t k := by
    intro k
    simp [modeReading]
  have hsid : (v2Core x e t).sourceId = v2SourceId x e t := rfl
  have hiid : (v2Core x e t).instanceId = v2InstanceId e t := rfl
  funext k
  simp only [without, Reading.base, hdep, hsid, hiid, roundTripTags, idTag]
  by_cases hs : k = str "source_id"
  · subst hs
    simp [hnames.1, hsource, baseKeys]
  by_cases hi : k = str "instance_id"
  · subst hi
    simp [hnames.2, hinstance, baseKeys]
  simp only [hs, hi, and_false, if_false]
  by_cases hp : k ∈ payloadNames e.eventType
  · rw [if_pos hp, ha k (List.mem_append_right _ hp)]
  by_cases hb : k ∈ baseKeys
  · rw [if_neg hp, if_pos hb, ha k (List.mem_append_left _ hb)]
  · rw [if_neg hp, if_neg hb, v2Tags_other x e t hb hp hs hi]

/-- The fields of the envelope itself. -/
theorem baseEnvelope_roundTrip (et : Events.EventType) :
    baseEnvelope (modeReading false (v2Tags x e t)) (v2Core x e t) et =
      { origin := e.origin, eventType := et, timestamp := e.timestamp
        deployment := e.deployment, job := e.job, index := e.index, ip := e.ip } := by
  obtain ⟨-, horigin, hdeployment, hjob, hindex, hip⟩ := v2Tags_base x e t
  simp only [baseEnvelope, modeReading_get, horigin, hdeployment, hjob, hindex, hip,
    Option.getD_some]
  rfl

theorem payload_get (kv : GoString × GoString) (hkv : kv ∈ payloadTags x e) :
    ((modeReading false (v2Tags x e t)).after (v2Core x e t)).get kv.1 = kv.2 := by
  rw [after_get_false, v2Tags_payload x e t hkv, Option.getD_some]

end Tags

/-! ## The payloads -/

/-- A payload is there exactly if it is that of the event type. -/
theorem presentPayloads_cases {e : Events.Envelope} (hp : presentPayloads e = [e.eventType]) :
    (if e.eventType = .logMessage then ∃ l, e.logMessage = some l else e.logMessage = none) ∧
    (if e.eventType = .httpStartStop then ∃ s, e.httpStartStop = some s
      else e.httpStartStop = none) ∧
    (if e.eventType = .valueMetric then ∃ v, e.valueMetric = some v else e.valueMetric = none) ∧
    (if e.eventType = .counterEvent then ∃ c, e.counterEvent = some c
      else e.counterEvent = none) ∧
    (if e.eventType = .error then ∃ r, e.error = some r else e.error = none) ∧
    (if e.eventType = .containerMetric then ∃ c, e.containerMetric = some c
      else e.containerMetric = none) := by
  have hmem : ∀ et, e.eventType = et ↔ et ∈ presentPayloads e := by
    intro et
    rw [hp, List.mem_singleton, eq_comm]
  have hcases : ∀ {α : Type} (o : Option α),
      if o.isSome then ∃ a, o = some a else o = none := by
    intro α o
    cases o <;> simp
  simp only [hmem]
  simp [presentPayloads, hcases]

theorem messageType_iff (t : Events.MessageType) (payload : GoString) :
    messageType { payload := payload, type := convertLogMessageType t } = t ↔
      t = .OUT ∨ t = .ERR := by
  cases t with
  | OUT | ERR => simp [messageType, convertLogMessageType, messageTypeName, logTypeValue]
  | other n =>
    have hout : convertLogMessageType (.other n) = .OUT := by
      rw [convertLogMessageType, messageTypeName, logTypeValue, if_neg (by decide)]
    simp [messageType, hout]

theorem applicationId_iff (u : Option Events.UUID) (sourceId : GoString) :
    convertUUID (parseUUID (convertAppUUID u sourceId)) = getUUID u ↔
      (getUUID u = ⟨0, 0⟩ → convertUUID (parseUUID sourceId) = ⟨0, 0⟩) := by
  unfold convertAppUUID
  by_cases hz : (getUUID u).low = 0 ∧ (getUUID u).high = 0
  · have hu : getUUID u = ⟨0, 0⟩ := by
      cases hg : getUUID u
      rw [hg] at hz
      simp only at hz
      rw [hz.1, hz.2]
    simp [hu]
  · have hu : getUUID u ≠ ⟨0, 0⟩ := by
      intro hu
      apply hz
      rw [hu]
      exact ⟨rfl, rfl⟩
    simp [hz, hu, convertUUID_uuidToString]

theorem timerPayload_iff (x : Extern) (e : Events.Envelope) (t : GoString → Option GoString)
    (ht : e.eventType = .httpStartStop) {s : Events.HttpStartStop} (hs : e.httpStartStop = some s) :
    timerPayload x ((modeReading false (v2Tags x e t)).after (v2Core x e t)).get (v2Core x e t)
        { name := str "http", start := s.startTimestamp, stop := s.stopTimestamp } =
      { s with
        requestId := some (getUUID s.requestId)
        applicationId := some (getUUID s.applicationId) } ↔
    HttpPreserved x s (tagSourceId e t) := by
  have hpay : payloadTags x e = httpTags x s := by simp [payloadTags, ht, getHttpStartStop, hs]
  have hget : ∀ kv ∈ httpTags x s,
      ((modeReading false (v2Tags x e t)).after (v2Core x e t)).get kv.1 = kv.2 := by
    intro kv hkv
    exact payload_get x e t kv (hpay ▸ hkv)
  simp only [httpTags, List.forall_mem_cons, List.not_mem_nil, false_imp_iff, implies_true,
    and_true] at hget
  obtain ⟨h1, h2, h3, h4, h5, h6, h7, h8, h9, h10, h11⟩ := hget
  have hsid : (v2Core x e t).sourceId = convertAppUUID s.applicationId (tagSourceId e t) := by
    simp [v2Core, v2SourceId, ht, getHttpStartStop, hs]
  rw [httpPreserved_iff, ← splitOn_intercalate_iff, ← applicationId_iff]
  simp only [timerPayload, h1, h2, h3, h4, h5, h6, h7, h8, h9, h10, h11, hsid,
    convertUUID_uuidToString, atoi_formatInt32, atoi_formatInt64, Events.HttpStartStop.mk.injEq,
    Option.some.injEq, true_and]
  tauto

theorem containerPayload_iff (x : Extern) (v2e : V2.Envelope) (c : Events.ContainerMetric) :
    containerPayload x v2e ⟨containerMetrics c⟩ = { c with applicationId := v2e.sourceId } ↔
      ContainerPreserved x c := by
  rw [containerPreserved_iff]
  simp [containerPayload, metricValue, metric, containerMetrics, Float64.toInt32_ofInt]

/-! ## One event type at a time -/

section EventTypes

variable {x : Extern} {e : Events.Envelope} {t : GoString → Option GoString}

/-- The result of one envelope, compared with the expected one. -/
theorem singleton_iff (ha : AvoidsReserved e t) {a : Events.Envelope}
    {u : GoString → Option GoString}
    (hu : u = without (payloadNames e.eventType)
      ((modeReading false (v2Tags x e t)).base (v2Core x e t))) :
    [(a, u)] = [(roundTrip x e t, roundTripTags x e t)] ↔ a = roundTrip x e t := by
  rw [hu, base_roundTripTags x e t ha]
  simp

variable (hp : presentPayloads e = [e.eventType])
include hp

variable (ha : AvoidsReserved e t)
include ha

theorem roundTrip_logMessage_iff (ht : e.eventType = .logMessage) :
    toV1Spec x (v2Core x e t) (modeReading false (v2Tags x e t)) =
      [(roundTrip x e t, roundTripTags x e t)] ↔ Preserved x e t := by
  have hpayloads := presentPayloads_cases hp
  simp only [ht, reduceCtorEq, if_true, if_false] at hpayloads
  obtain ⟨⟨l, hl⟩, hnone⟩ := hpayloads
  have hsource := payload_get x e t (str "source_type", l.sourceType)
    (by simp [payloadTags, ht, getLogMessage, hl, logTags])
  have hpres : Preserved x e t ↔ l.messageType = .OUT ∨ l.messageType = .ERR := by
    simp [preserved_iff, hl, hnone]
  have hmsg : (v2Core x e t).message = some (.log
      { payload := l.message, type := convertLogMessageType l.messageType }) := by
    simp [v2Core, v2Message, ht, getLogMessage, hl]
  have hiid : (v2Core x e t).instanceId = l.sourceInstance := by
    simp [v2Core, v2InstanceId, ht, getLogMessage, hl]
  have hsid : (v2Core x e t).sourceId = v2SourceId x e t := rfl
  have hts : (v2Core x e t).timestamp = e.timestamp := rfl
  rw [toV1Spec, hmsg]
  simp only
  rw [logSpec_false, if_neg (by rw [ht]; simp [Events.EventType.string]),
    singleton_iff ha (by rw [ht]; rfl), baseEnvelope_roundTrip, hpres,
    ← messageType_iff l.messageType l.message]
  simp only at hsource
  simp [roundTrip, hl, hnone, ht, logPayload, hsource, hiid, hsid, hts]

theorem roundTrip_httpStartStop_iff (ht : e.eventType = .httpStartStop) :
    toV1Spec x (v2Core x e t) (modeReading false (v2Tags x e t)) =
      [(roundTrip x e t, roundTripTags x e t)] ↔ Preserved x e t := by
  have hpayloads := presentPayloads_cases hp
  simp only [ht, reduceCtorEq, if_true, if_false] at hpayloads
  obtain ⟨hlog, ⟨s, hs⟩, hnone⟩ := hpayloads
  have hpres : Preserved x e t ↔ HttpPreserved x s (tagSourceId e t) := by
    simp [preserved_iff, hlog, hs, hnone]
  have hmsg : (v2Core x e t).message = some (.timer
      { name := str "http", start := s.startTimestamp, stop := s.stopTimestamp }) := by
    simp [v2Core, v2Message, ht, getHttpStartStop, hs]
  rw [toV1Spec, hmsg]
  simp only
  rw [singleton_iff ha (by rw [ht]; rfl), baseEnvelope_roundTrip, hpres,
    ← timerPayload_iff x e t ht hs]
  simp [roundTrip, hlog, hs, hnone, ht]

theorem roundTrip_valueMetric (ht : e.eventType = .valueMetric) :
    toV1Spec x (v2Core x e t) (modeReading false (v2Tags x e t)) =
      [(roundTrip x e t, roundTripTags x e t)] := by
  have hpayloads := presentPayloads_cases hp
  simp only [ht, reduceCtorEq, if_true, if_false] at hpayloads
  obtain ⟨hlog, hhttp, ⟨v, hv⟩, hnone⟩ := hpayloads
  have hmsg : (v2Core x e t).message = some (.gauge ⟨AList.singleton v.name
      (some { unit := v.unit, value := v.value })⟩) := by
    simp [v2Core, v2Message, ht, getValueMetric, hv]
  rw [toV1Spec, hmsg]
  simp only [gaugeSpec, if_neg (not_isContainer_singleton _ _), AList.singleton_entries,
    List.all_cons, List.all_nil, Option.isSome_some, Bool.and_self, if_true,
    List.filterMap_cons, List.filterMap_nil, Option.map_some, modeReading_after_false]
  rw [singleton_iff ha (by rw [ht]; exact (without_nil _).symm), baseEnvelope_roundTrip]
  simp [roundTrip, hlog, hhttp, hv, hnone, ht]

theorem roundTrip_counterEvent (ht : e.eventType = .counterEvent) :
    toV1Spec x (v2Core x e t) (modeReading false (v2Tags x e t)) =
      [(roundTrip x e t, roundTripTags x e t)] := by
  have hpayloads := presentPayloads_cases hp
  simp only [ht, reduceCtorEq, if_true, if_false] at hpayloads
  obtain ⟨hlog, hhttp, hvalue, ⟨c, hc⟩, hnone⟩ := hpayloads
  have hmsg : (v2Core x e t).message =
      some (.counter { name := c.name, value := some (.total c.total) }) := by
    simp [v2Core, v2Message, ht, getCounterEvent, hc]
  rw [toV1Spec, hmsg]
  simp only
  rw [singleton_iff ha (by rw [ht]; exact (without_nil _).symm), baseEnvelope_roundTrip]
  simp [roundTrip, hlog, hhttp, hvalue, hc, hnone, ht, counterPayload, V2.Counter.getTotal]

theorem roundTrip_error (ht : e.eventType = .error) :
    toV1Spec x (v2Core x e t) (modeReading false (v2Tags x e t)) =
      [(roundTrip x e t, roundTripTags x e t)] := by
  have hpayloads := presentPayloads_cases hp
  simp only [ht, reduceCtorEq, if_true, if_false] at hpayloads
  obtain ⟨hlog, hhttp, hvalue, hcounter, ⟨r, hr⟩, hcontainer⟩ := hpayloads
  have hsource := payload_get x e t (str "source", r.source)
    (by simp [payloadTags, ht, getError, hr, errorTags])
  have hcode := payload_get x e t (str "code", formatInt r.code.toInt)
    (by simp [payloadTags, ht, getError, hr, errorTags])
  have hmsg : (v2Core x e t).message = some (.log { payload := r.message, type := .OUT }) := by
    simp [v2Core, v2Message, ht, getError, hr]
  rw [toV1Spec, hmsg]
  simp only at hsource hcode ⊢
  rw [logSpec_false, if_pos (by rw [ht]; rfl), singleton_iff ha (by rw [ht]; rfl),
    baseEnvelope_roundTrip]
  simp [roundTrip, hlog, hhttp, hvalue, hcounter, hr, hcontainer, ht, errorPayload, hsource, hcode,
    atoi_formatInt32]

theorem roundTrip_containerMetric_iff (ht : e.eventType = .containerMetric) :
    toV1Spec x (v2Core x e t) (modeReading false (v2Tags x e t)) =
      [(roundTrip x e t, roundTripTags x e t)] ↔ Preserved x e t := by
  have hpayloads := presentPayloads_cases hp
  simp only [ht, reduceCtorEq, if_true, if_false] at hpayloads
  obtain ⟨hlog, hhttp, hvalue, hcounter, herror, ⟨c, hc⟩⟩ := hpayloads
  have hpres : Preserved x e t ↔ ContainerPreserved x c := by
    simp [preserved_iff, hlog, hhttp, hc]
  have hmsg : (v2Core x e t).message = some (.gauge ⟨containerMetrics c⟩) := by
    simp [v2Core, v2Message, ht, getContainerMetric, hc]
  have hsid : (v2Core x e t).sourceId = v2SourceId x e t := rfl
  rw [toV1Spec, hmsg]
  simp only [gaugeSpec, if_pos (isContainer_containerMetrics c), modeReading_after_false]
  rw [singleton_iff ha (by rw [ht]; exact (without_nil _).symm), baseEnvelope_roundTrip, hpres,
    ← containerPayload_iff x (v2Core x e t) c, hsid]
  simp [roundTrip, hlog, hhttp, hvalue, hcounter, herror, hc, ht]

end EventTypes

/-- The payloads that always survive. -/
theorem preserved_of_type {x : Extern} {e : Events.Envelope} {t : GoString → Option GoString}
    (hp : presentPayloads e = [e.eventType])
    (ht : e.eventType ∉ [.logMessage, .httpStartStop, .containerMetric]) : Preserved x e t := by
  simp only [List.mem_cons, List.not_mem_nil, or_false, not_or] at ht
  have hpayloads := presentPayloads_cases hp
  simp only [ht, if_false] at hpayloads
  simp [preserved_iff, hpayloads]

/-- The round trip with deprecated tags gives one envelope. It is the expected one just when
the payload survives. -/
theorem toV1View_toV2_false_iff (x : Extern) (e : Events.Envelope) (h : Heap)
    (hp : presentPayloads e = [e.eventType]) (ha : AvoidsReserved e (v1Tags e h)) :
    toV1View x (toV2 x e false h).1 (toV2 x e false h).2 =
        [(roundTrip x e (v1Tags e h), roundTripTags x e (v1Tags e h))] ↔
      Preserved x e (v1Tags e h) := by
  rw [toV1View_toV2]
  generalize v1Tags e h = t at *
  cases ht : e.eventType with
  | logMessage => exact roundTrip_logMessage_iff hp ha ht
  | httpStartStop => exact roundTrip_httpStartStop_iff hp ha ht
  | valueMetric =>
    exact iff_of_true (roundTrip_valueMetric hp ha ht) (preserved_of_type hp (by simp [ht]))
  | counterEvent =>
    exact iff_of_true (roundTrip_counterEvent hp ha ht) (preserved_of_type hp (by simp [ht]))
  | error => exact iff_of_true (roundTrip_error hp ha ht) (preserved_of_type hp (by simp [ht]))
  | containerMetric => exact roundTrip_containerMetric_iff hp ha ht
  | other n =>
    have hmem : Events.EventType.other n ∈ presentPayloads e := by
      rw [hp, ht]
      simp
    simp [presentPayloads] at hmem

/-- The fields hold values that a sender can expect to survive: declared values in the
enumerations, byte counts that a float can represent, forwarding addresses that can be joined
with newlines, and, without an application id, a source id that is not the text of one. -/
structure WellFormed (x : Extern) (e : Events.Envelope) (t : GoString → Option GoString) :
    Prop where
  messageType : ∀ l, e.logMessage = some l → l.messageType = .OUT ∨ l.messageType = .ERR
  declared : ∀ s, e.httpStartStop = some s →
    (x.peerType.name s.peerType).isSome ∧ (x.method.name s.method).isSome
  forwarded : ∀ s, e.httpStartStop = some s → s.forwarded ≠ [] ∧ ∀ f ∈ s.forwarded, 10 ∉ f
  applicationId : ∀ s, e.httpStartStop = some s → getUUID s.applicationId = ⟨0, 0⟩ →
    convertUUID (parseUUID (tagSourceId e t)) = ⟨0, 0⟩
  bytes : ∀ c, e.containerMetric = some c →
    ∀ n ∈ [c.memoryBytes, c.diskBytes, c.memoryBytesQuota, c.diskBytesQuota],
      Float64.Exact n.toNat

theorem WellFormed.preserved {x : Extern} {e : Events.Envelope} {t : GoString → Option GoString}
    (hw : WellFormed x e t) (hpeer : x.peerType.Lawful) (hmethod : x.method.Lawful) :
    Preserved x e t := by
  refine ⟨hw.messageType, ?_, ?_⟩
  · intro s hs
    obtain ⟨hp, hm⟩ := hw.declared s hs
    exact ⟨hpeer.ofString_string hp, hmethod.ofString_string hm, hw.forwarded s hs,
      hw.applicationId s hs⟩
  · intro c hc
    have hexact := hw.bytes c hc
    exact ⟨Float64.toUInt64_ofNat _ _ (hexact _ (by simp)),
      Float64.toUInt64_ofNat _ _ (hexact _ (by simp)),
      Float64.toUInt64_ofNat _ _ (hexact _ (by simp)),
      Float64.toUInt64_ofNat _ _ (hexact _ (by simp))⟩

/-- A request without an application id, seen by a router. -/
def sampleHttp : Events.Envelope where
  origin := str "router"
  eventType := .httpStartStop
  timestamp := 5
  tags := some 0
  httpStartStop := some
    { startTimestamp := 1, stopTimestamp := 4, requestId := some ⟨7, 9⟩, peerType := 2
      method := 1, uri := str "/", remoteAddress := str "10.0.0.1", userAgent := []
      statusCode := 200, contentLength := -1, applicationId := none, instanceIndex := 0
      instanceId := [], forwarded := [str "10.0.0.2"] }

/-- The tags of the request. -/
def sampleHttpHeap : Heap where
  tags _ := List.toAList [⟨str "source_id", str "gorouter"⟩, ⟨str "zone", str "z1"⟩]
  nextTags := 1

end Loggregator.Conversion
