import Loggregator.Plumbing.ToV2

/-!
# Conversion of v2 envelopes to v1 envelopes

`plumbing/conversion/tov1.go`. `convertTags` hands out the tag map of its argument when there
is one, so `createBaseV1` and the functions after it prune the map of the v2 envelope, and a
later `getV2Tag` of the same call reads the pruned map.
-/

namespace Loggregator.Conversion

open Lib

/-- The text of a tag value, as both `getV2Tag` and `convertTags` write it. -/
def dataText (x : Extern) : V2.ValueData → GoString
  | .text s => s
  | .integer i => formatInt i.toInt
  | .decimal d => x.formatDecimal d

/-- The text of a deprecated tag: neither the pointer nor its data may be nil. -/
def valueString (x : Extern) (v : Option V2.Value) : Option GoString :=
  (v.bind V2.Value.data).map (dataText x)

/-- `getV2Tag`. -/
def getV2Tag (x : Extern) (h : Heap) (e : V2.Envelope) (key : GoString) : GoString :=
  match (h.tagsOf e.tags).lookup key with
  | some value => value
  | none =>
    match (h.deprecatedTagsOf e.deprecatedTags).lookup key with
    | none => []
    | some d => (valueString x d).getD []

/-- `convertTags`: the map is the argument's own unless that is nil. -/
def convertTags (x : Extern) (e : V2.Envelope) (h : Heap) : TagsRef × Heap :=
  let (r, h) := match e.tags with
    | some r => (r, h)
    | none => h.makeTags
  (r, h.updateTags r
    (Dict.mergeWith (valueString x) (h.deprecatedTagsOf e.deprecatedTags)))

/-- The tags that `createBaseV1` deletes. -/
def baseKeys : List GoString :=
  [str "__v1_type", str "origin", str "deployment", str "job", str "index", str "ip"]

/-- `createBaseV1`. The event type is set by the caller. -/
def createBaseV1 (x : Extern) (e : V2.Envelope) (h : Heap) :
    (Events.EventType → Events.Envelope) × TagsRef × Heap :=
  let origin := getV2Tag x h e (str "origin")
  let deployment := getV2Tag x h e (str "deployment")
  let job := getV2Tag x h e (str "job")
  let index := getV2Tag x h e (str "index")
  let ip := getV2Tag x h e (str "ip")
  let (r, h) := convertTags x e h
  let h := h.updateTags r (Dict.eraseAll baseKeys)
  let h := if e.sourceId ≠ [] then
      h.updateTags r (fun m => m.insert (str "source_id") e.sourceId)
    else h
  let h := if e.instanceId ≠ [] then
      h.updateTags r (fun m => m.insert (str "instance_id") e.instanceId)
    else h
  (fun t =>
    { origin := origin, eventType := t, timestamp := e.timestamp, deployment := deployment
      job := job, index := index, ip := ip, tags := some r }, r, h)

/-- `atoi`. -/
def atoi (s : GoString) : Int64 := (parseInt s).getD 0

/-- `parseUUID`: 36 bytes, of which those at 8, 13, 18 and 23 are skipped. -/
def parseUUID (id : GoString) : Option (List UInt8) :=
  if id.length ≠ 36 then none
  else hexDecode (id.take 8 ++ (id.drop 9).take 4 ++ (id.drop 14).take 4 ++
    (id.drop 19).take 4 ++ id.drop 24)

/-- `convertUUID`; a nil slice has length zero. -/
def convertUUID (id : Option (List UInt8)) : Events.UUID :=
  match id with
  | none => ⟨0, 0⟩
  | some bs =>
    if bs.length ≠ 16 then ⟨0, 0⟩
    else ⟨uint64LE (bs.take 8), uint64LE (bs.drop 8)⟩

/-- The tags that `convertTimer` deletes. -/
def timerKeys : List GoString :=
  [str "peer_type", str "method", str "request_id", str "uri", str "remote_address",
   str "user_agent", str "status_code", str "content_length", str "instance_index",
   str "routing_instance_id", str "forwarded"]

/-- The payload that `convertTimer` makes, where `tag` is `getV2Tag(v2e, _)`. -/
def timerPayload (x : Extern) (tag : GoString → GoString) (v2e : V2.Envelope)
    (timer : V2.Timer) : Events.HttpStartStop where
  startTimestamp := timer.start
  stopTimestamp := timer.stop
  requestId := some (convertUUID (parseUUID (tag (str "request_id"))))
  applicationId := some (convertUUID (parseUUID v2e.sourceId))
  peerType := x.peerType.ofString (tag (str "peer_type"))
  method := x.method.ofString (tag (str "method"))
  uri := tag (str "uri")
  remoteAddress := tag (str "remote_address")
  userAgent := tag (str "user_agent")
  statusCode := (atoi (tag (str "status_code"))).toInt32
  contentLength := atoi (tag (str "content_length"))
  instanceIndex := (atoi (tag (str "instance_index"))).toInt32
  instanceId := tag (str "routing_instance_id")
  forwarded := (tag (str "forwarded")).splitOn 10

/-- `messageType`. -/
def messageType (log : V2.Log) : Events.MessageType :=
  if log.type = .OUT then .OUT else .ERR

/-- The payload that `convertLog` makes. -/
def logPayload (tag : GoString → GoString) (v2e : V2.Envelope) (log : V2.Log) :
    Events.LogMessage where
  message := log.payload
  messageType := messageType log
  timestamp := v2e.timestamp
  appId := v2e.sourceId
  sourceType := tag (str "source_type")
  sourceInstance := v2e.instanceId

/-- The payload that `recoverError` makes. -/
def errorPayload (tag : GoString → GoString) (log : V2.Log) : Events.Error where
  source := tag (str "source")
  code := (atoi (tag (str "code"))).toInt32
  message := log.payload

/-- The payload that `convertCounter` makes. -/
def counterPayload (c : V2.Counter) : Events.CounterEvent where
  name := c.name
  delta := 0
  total := c.getTotal

/-- The metrics that a gauge must have to be a container metric. -/
def required : List GoString :=
  [str "instance_index", str "cpu", str "memory", str "disk", str "memory_quota",
   str "disk_quota"]

/-- `gaugeEvent.Metrics[name]`, where a missing key reads as the nil pointer. -/
def metric (g : V2.Gauge) (name : GoString) : Option V2.GaugeValue :=
  (g.metrics.lookup name).join

/-- `gaugeEvent.Metrics[name].Value`, read only where the pointer is not nil. -/
def metricValue (g : V2.Gauge) (name : GoString) : Float64 :=
  ((metric g name).map V2.GaugeValue.value).getD ⟨0⟩

/-- The payload that `tryConvertContainerMetric` makes. -/
def containerPayload (x : Extern) (v2e : V2.Envelope) (g : V2.Gauge) :
    Events.ContainerMetric where
  applicationId := v2e.sourceId
  instanceIndex := (metricValue g (str "instance_index")).toInt32 x.outInt32
  cpuPercentage := metricValue g (str "cpu")
  memoryBytes := (metricValue g (str "memory")).toUInt64 x.outUInt64
  diskBytes := (metricValue g (str "disk")).toUInt64 x.outUInt64
  memoryBytesQuota := (metricValue g (str "memory_quota")).toUInt64 x.outUInt64
  diskBytesQuota := (metricValue g (str "disk_quota")).toUInt64 x.outUInt64

/-- `convertLog`, with `recoverError`. -/
def convertLog (x : Extern) (base : Events.EventType → Events.Envelope) (r : TagsRef)
    (v2e : V2.Envelope) (log : V2.Log) (h : Heap) : Events.Envelope × Heap :=
  if getV2Tag x h v2e (str "__v1_type") = str "Error" then
    ({ base .error with error := some (errorPayload (getV2Tag x h v2e) log) },
      h.updateTags r (Dict.eraseAll [str "source", str "code"]))
  else
    ({ base .logMessage with logMessage := some (logPayload (getV2Tag x h v2e) v2e log) },
      h.updateTags r (Dict.eraseAll [str "source_type"]))

/-- `convertTimer`. -/
def convertTimer (x : Extern) (base : Events.EventType → Events.Envelope) (r : TagsRef)
    (v2e : V2.Envelope) (timer : V2.Timer) (h : Heap) : Events.Envelope × Heap :=
  ({ base .httpStartStop with
      httpStartStop := some (timerPayload x (getV2Tag x h v2e) v2e timer) },
    h.updateTags r (Dict.eraseAll timerKeys))

/-- `convertCounter`. -/
def convertCounter (base : Events.EventType → Events.Envelope) (c : V2.Counter) :
    Events.Envelope :=
  { base .counterEvent with counterEvent := some (counterPayload c) }

/-- `tryConvertContainerMetric`, with `none` for nil. -/
def tryConvertContainerMetric (x : Extern) (v2e : V2.Envelope) (g : V2.Gauge) (h : Heap) :
    Option Events.Envelope × Heap :=
  let (base, _, h) := createBaseV1 x v2e h
  if g.metrics.entries.length = 1 then (none, h)
  else if required.all (fun req => (metric g req).isSome) then
    (some { base .containerMetric with containerMetric := some (containerPayload x v2e g) }, h)
  else (none, h)

/-- The loop of `convertGauge` over the metrics; a nil metric makes it return nil. -/
def convertMetrics (x : Extern) (v2e : V2.Envelope) :
    List (Sigma fun _ : GoString => Option V2.GaugeValue) → Heap → List Events.Envelope →
    List Events.Envelope × Heap
  | [], h, results => (results, h)
  | ⟨key, m⟩ :: rest, h, results =>
    let (base, _, h) := createBaseV1 x v2e h
    match m with
    | none => ([], h)
    | some m => convertMetrics x v2e rest h (results ++
        [{ base .valueMetric with
            valueMetric := some { name := key, unit := m.unit, value := m.value } }])

/-- `convertGauge`. -/
def convertGauge (x : Extern) (v2e : V2.Envelope) (g : V2.Gauge) (h : Heap) :
    List Events.Envelope × Heap :=
  match tryConvertContainerMetric x v2e g h with
  | (some v1e, h) => ([v1e], h)
  | (none, h) => convertMetrics x v2e g.metrics.entries h []

/-- `ToV1`. -/
def toV1 (x : Extern) (e : V2.Envelope) (h : Heap) : List Events.Envelope × Heap :=
  let (base, r, h) := createBaseV1 x e h
  match e.message with
  | some (.log l) =>
    let (v1e, h) := convertLog x base r e l h
    ([v1e], h)
  | some (.counter c) => ([convertCounter base c], h)
  | some (.gauge g) => convertGauge x e g h
  | some (.timer t) =>
    let (v1e, h) := convertTimer x base r e t h
    ([v1e], h)
  | none => ([], h)

/-- The envelopes of `ToV1` as they are when it returns. -/
def toV1View (x : Extern) (e : V2.Envelope) (h : Heap) :
    List (Events.Envelope × (GoString → Option GoString)) :=
  (toV1 x e h).1.map (Events.Envelope.view (toV1 x e h).2)

end Loggregator.Conversion
