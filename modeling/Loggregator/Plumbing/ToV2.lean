import Loggregator.Plumbing.Envelope

/-!
# Conversion of v1 envelopes to v2 envelopes

`plumbing/conversion/tov2.go`. The caller chooses between the preferred tags, where the v2
envelope takes over the tag map of the v1 envelope, and the deprecated tags, where it gets a
map of its own.

Every value that the source hands to `setV2Tag` is a string or an integer, and both branches
of `setV2Tag` store its `%v` text; the definitions below pass that text.
-/

namespace Loggregator.Conversion

open Lib

/-- `valueText`. -/
def valueText (s : GoString) : V2.Value := ⟨some (.text s)⟩

/-- `setV2Tag`, for the text of the value. -/
def setV2Tag (e : V2.Envelope) (key value : GoString) (usePreferredTags : Bool) (h : Heap) :
    Heap :=
  if usePreferredTags then
    match e.tags with
    | some r => h.updateTags r (fun m => m.insert key value)
    | none => h
  else
    match e.deprecatedTags with
    | some r => h.updateDeprecatedTags r (fun m => m.insert key (some (valueText value)))
    | none => h

/-- A sequence of `setV2Tag` calls. -/
def setV2Tags (e : V2.Envelope) (kvs : List (GoString × GoString)) (usePreferredTags : Bool)
    (h : Heap) : Heap :=
  kvs.foldl (fun h kv => setV2Tag e kv.1 kv.2 usePreferredTags h) h

/-- `unsetV2Tag`; deleting from a nil map does nothing. -/
def unsetV2Tag (e : V2.Envelope) (key : GoString) (h : Heap) : Heap :=
  let h := match e.deprecatedTags with
    | some r => h.updateDeprecatedTags r (fun m => m.erase key)
    | none => h
  match e.tags with
  | some r => h.updateTags r (fun m => m.erase key)
  | none => h

/-- `initTags`: the v2 envelope with its tag map. -/
def initTags (v1e : Events.Envelope) (v2e : V2.Envelope) (usePreferredTags : Bool) (h : Heap) :
    V2.Envelope × Heap :=
  if usePreferredTags then
    match v1e.tags with
    | some r => ({ v2e with tags := some r }, h)
    | none =>
      let (r, h) := h.makeTags
      ({ v2e with tags := some r }, h)
  else
    let (r, h) := h.makeDeprecatedTags
    ({ v2e with deprecatedTags := some r },
      h.updateDeprecatedTags r
        (Dict.mergeWith (fun v => some (some (valueText v))) (h.tagsOf v1e.tags)))

/-- `GetLow` and `GetHigh` of a UUID that may be nil. -/
def getUUID (u : Option Events.UUID) : Events.UUID := u.getD ⟨0, 0⟩

/-- `uuidToString`. -/
def uuidToString (uuid : Option Events.UUID) : GoString :=
  let low := putUint64 (getUUID uuid).low
  let high := putUint64 (getUUID uuid).high
  hexEncode (low.take 4) ++ str "-" ++ hexEncode ((low.drop 4).take 2) ++ str "-" ++
    hexEncode (low.drop 6) ++ str "-" ++ hexEncode (high.take 2) ++ str "-" ++
    hexEncode (high.drop 2)

/-- `convertAppUUID`. -/
def convertAppUUID (appID : Option Events.UUID) (sourceID : GoString) : GoString :=
  if (getUUID appID).low = 0 ∧ (getUUID appID).high = 0 then sourceID else uuidToString appID

/-- `convertAppID`. -/
def convertAppID (appID sourceID : GoString) : GoString :=
  if appID = [] then sourceID else appID

/-- `LogMessage_MessageType_name`, where a missing key reads as the empty string. -/
def messageTypeName : Events.MessageType → GoString
  | .OUT => str "OUT"
  | .ERR => str "ERR"
  | .other _ => []

/-- `Log_Type_value`, where a missing key reads as zero. -/
def logTypeValue (name : GoString) : V2.LogType :=
  if name = str "ERR" then .ERR else .OUT

/-- `convertLogMessageType`. -/
def convertLogMessageType (t : Events.MessageType) : V2.LogType :=
  logTypeValue (messageTypeName t)

/-- `GetError`, read through the getters of a pointer that may be nil. -/
def getError (e : Events.Envelope) : Events.Error := e.error.getD ⟨[], 0, []⟩

/-- `GetLogMessage`. -/
def getLogMessage (e : Events.Envelope) : Events.LogMessage :=
  e.logMessage.getD ⟨[], .OUT, 0, [], [], []⟩

/-- `GetHttpStartStop`. -/
def getHttpStartStop (x : Extern) (e : Events.Envelope) : Events.HttpStartStop :=
  e.httpStartStop.getD
    { startTimestamp := 0, stopTimestamp := 0, requestId := none
      peerType := x.peerType.default, method := x.method.default, uri := [], remoteAddress := []
      userAgent := [], statusCode := 0, contentLength := 0, applicationId := none
      instanceIndex := 0, instanceId := [], forwarded := [] }

/-- `GetValueMetric`. -/
def getValueMetric (e : Events.Envelope) : Events.ValueMetric :=
  e.valueMetric.getD ⟨[], ⟨0⟩, []⟩

/-- `GetCounterEvent`. -/
def getCounterEvent (e : Events.Envelope) : Events.CounterEvent :=
  e.counterEvent.getD ⟨[], 0, 0⟩

/-- `GetContainerMetric`. -/
def getContainerMetric (e : Events.Envelope) : Events.ContainerMetric :=
  e.containerMetric.getD ⟨[], 0, ⟨0⟩, 0, 0, 0, 0⟩

/-- The tags that `convertError` sets. -/
def errorTags (t : Events.Error) : List (GoString × GoString) :=
  [(str "source", t.source), (str "code", formatInt t.code.toInt)]

/-- `convertError`. -/
def convertError (v2e : V2.Envelope) (v1e : Events.Envelope) (usePreferredTags : Bool)
    (h : Heap) : V2.Envelope × Heap :=
  let t := getError v1e
  let h := setV2Tags v2e (errorTags t) usePreferredTags h
  ({ v2e with message := some (.log { payload := t.message, type := .OUT }) }, h)

/-- The tags that `convertHTTPStartStop` sets. -/
def httpTags (x : Extern) (t : Events.HttpStartStop) : List (GoString × GoString) :=
  [(str "request_id", uuidToString t.requestId),
   (str "peer_type", x.peerType.string t.peerType),
   (str "method", x.method.string t.method),
   (str "uri", t.uri),
   (str "remote_address", t.remoteAddress),
   (str "user_agent", t.userAgent),
   (str "status_code", formatInt t.statusCode.toInt),
   (str "content_length", formatInt t.contentLength.toInt),
   (str "instance_index", formatInt t.instanceIndex.toInt),
   (str "routing_instance_id", t.instanceId),
   (str "forwarded", (str "\n").intercalate t.forwarded)]

/-- `convertHTTPStartStop`. -/
def convertHTTPStartStop (x : Extern) (v2e : V2.Envelope) (v1e : Events.Envelope)
    (usePreferredTags : Bool) (h : Heap) : V2.Envelope × Heap :=
  let t := getHttpStartStop x v1e
  let v2e := { v2e with
    sourceId := convertAppUUID t.applicationId v2e.sourceId
    message := some (.timer
      { name := str "http", start := t.startTimestamp, stop := t.stopTimestamp }) }
  (v2e, setV2Tags v2e (httpTags x t) usePreferredTags h)

/-- The tags that `convertLogMessage` sets. -/
def logTags (t : Events.LogMessage) : List (GoString × GoString) :=
  [(str "source_type", t.sourceType)]

/-- `convertLogMessage`. -/
def convertLogMessage (v2e : V2.Envelope) (e : Events.Envelope) (usePreferredTags : Bool)
    (h : Heap) : V2.Envelope × Heap :=
  let t := getLogMessage e
  let h := setV2Tags v2e (logTags t) usePreferredTags h
  ({ v2e with
      instanceId := t.sourceInstance
      sourceId := convertAppID t.appId v2e.sourceId
      message := some (.log
        { payload := t.message, type := convertLogMessageType t.messageType }) }, h)

/-- `convertValueMetric`. -/
def convertValueMetric (v2e : V2.Envelope) (e : Events.Envelope) : V2.Envelope :=
  let t := getValueMetric e
  { v2e with message := some (.gauge
      ⟨AList.singleton t.name (some { unit := t.unit, value := t.value })⟩) }

/-- `convertCounterEvent`. -/
def convertCounterEvent (v2e : V2.Envelope) (e : Events.Envelope) : V2.Envelope :=
  let t := getCounterEvent e
  { v2e with message := some (.counter { name := t.name, value := some (.total t.total) }) }

/-- The metrics that `convertContainerMetric` makes. -/
def containerMetrics (t : Events.ContainerMetric) : Dict GoString (Option V2.GaugeValue) :=
  List.toAList
    [⟨str "instance_index", some { unit := str "index", value := .ofInt t.instanceIndex.toInt }⟩,
     ⟨str "cpu", some { unit := str "percentage", value := t.cpuPercentage }⟩,
     ⟨str "memory", some { unit := str "bytes", value := .ofNat t.memoryBytes.toNat }⟩,
     ⟨str "disk", some { unit := str "bytes", value := .ofNat t.diskBytes.toNat }⟩,
     ⟨str "memory_quota", some { unit := str "bytes", value := .ofNat t.memoryBytesQuota.toNat }⟩,
     ⟨str "disk_quota", some { unit := str "bytes", value := .ofNat t.diskBytesQuota.toNat }⟩]

/-- `convertContainerMetric`. -/
def convertContainerMetric (v2e : V2.Envelope) (e : Events.Envelope) : V2.Envelope :=
  let t := getContainerMetric e
  { v2e with
    sourceId := convertAppID t.applicationId v2e.sourceId
    message := some (.gauge ⟨containerMetrics t⟩) }

/-- The tags that `ToV2` sets for every event type. -/
def baseTags (x : Extern) (e : Events.Envelope) : List (GoString × GoString) :=
  [(str "origin", e.origin), (str "deployment", e.deployment), (str "job", e.job),
   (str "index", e.index), (str "ip", e.ip), (str "__v1_type", e.eventType.string x)]

/-- `ToV2`. -/
def toV2 (x : Extern) (e : Events.Envelope) (usePreferredTags : Bool) (h : Heap) :
    V2.Envelope × Heap :=
  let (v2e, h) := initTags e { timestamp := e.timestamp } usePreferredTags h
  let h := setV2Tags v2e (baseTags x e) usePreferredTags h
  let sourceId := ((h.tagsOf e.tags).lookup (str "source_id")).getD
    (e.deployment ++ str "/" ++ e.job)
  let h := unsetV2Tag v2e (str "source_id") h
  let instanceId := ((h.tagsOf e.tags).lookup (str "instance_id")).getD []
  let h := unsetV2Tag v2e (str "instance_id") h
  let v2e := { v2e with sourceId := sourceId, instanceId := instanceId }
  match e.eventType with
  | .logMessage => convertLogMessage v2e e usePreferredTags h
  | .httpStartStop => convertHTTPStartStop x v2e e usePreferredTags h
  | .valueMetric => (convertValueMetric v2e e, h)
  | .counterEvent => (convertCounterEvent v2e e, h)
  | .error => convertError v2e e usePreferredTags h
  | .containerMetric => (convertContainerMetric v2e e, h)
  | .other _ => (v2e, h)

end Loggregator.Conversion
