import Loggregator.Lib.Bytes
import Loggregator.Lib.Dict
import Loggregator.Lib.Float64

/-!
# Envelopes of both versions

The v1 envelope of the package `events` and the v2 envelope of `plumbing/v2`.

The conversion reads a v1 envelope through its getters only, so a field holds what its getter
returns; the payloads and the UUIDs are pointers and may be absent. A tag map is a reference:
two envelopes may hold the same map and a write through one is seen through the other. The
maps live in a `Heap` that the modelled functions pass along.

The package `events` is not part of the repository. Its enumerations appear as tables
(`EnumTable`) and its event types by the names the repository uses.
-/

namespace Loggregator

open Lib

/-- A reference to a map of tags. -/
abbrev TagsRef := Nat

/-- A reference to a map of deprecated tags. -/
abbrev DeprecatedTagsRef := Nat

namespace Events

/-- `events.Envelope_EventType`. -/
inductive EventType where
  | logMessage
  | httpStartStop
  | valueMetric
  | counterEvent
  | error
  | containerMetric
  | other (n : Int32)
  deriving DecidableEq

/-- `events.LogMessage_MessageType`. -/
inductive MessageType where
  | OUT
  | ERR
  | other (n : Int32)
  deriving DecidableEq

/-- `events.UUID`, through its getters. -/
structure UUID where
  low : UInt64
  high : UInt64
  deriving DecidableEq

/-- `events.HttpStartStop`. -/
structure HttpStartStop where
  startTimestamp : Int64
  stopTimestamp : Int64
  requestId : Option UUID
  peerType : Int32
  method : Int32
  uri : GoString
  remoteAddress : GoString
  userAgent : GoString
  statusCode : Int32
  contentLength : Int64
  applicationId : Option UUID
  instanceIndex : Int32
  instanceId : GoString
  forwarded : List GoString
  deriving DecidableEq

/-- `events.LogMessage`. -/
structure LogMessage where
  message : GoString
  messageType : MessageType
  timestamp : Int64
  appId : GoString
  sourceType : GoString
  sourceInstance : GoString
  deriving DecidableEq

/-- `events.ValueMetric`. -/
structure ValueMetric where
  name : GoString
  value : Float64
  unit : GoString
  deriving DecidableEq

/-- `events.CounterEvent`. -/
structure CounterEvent where
  name : GoString
  delta : UInt64
  total : UInt64
  deriving DecidableEq

/-- `events.Error`. -/
structure Error where
  source : GoString
  code : Int32
  message : GoString
  deriving DecidableEq

/-- `events.ContainerMetric`. -/
structure ContainerMetric where
  applicationId : GoString
  instanceIndex : Int32
  cpuPercentage : Float64
  memoryBytes : UInt64
  diskBytes : UInt64
  memoryBytesQuota : UInt64
  diskBytesQuota : UInt64
  deriving DecidableEq

/-- `events.Envelope`. -/
structure Envelope where
  origin : GoString := []
  eventType : EventType
  timestamp : Int64 := 0
  deployment : GoString := []
  job : GoString := []
  index : GoString := []
  ip : GoString := []
  tags : Option TagsRef := none
  httpStartStop : Option HttpStartStop := none
  logMessage : Option LogMessage := none
  valueMetric : Option ValueMetric := none
  counterEvent : Option CounterEvent := none
  error : Option Error := none
  containerMetric : Option ContainerMetric := none
  deriving DecidableEq

/-- The generated tables of an enumeration, and what its getter returns for an absent field. -/
structure EnumTable where
  name : Int32 → Option GoString
  value : GoString → Option Int32
  default : Int32

/-- `String()` of an enumeration: its name, or the number when it has none. -/
def EnumTable.string (t : EnumTable) (v : Int32) : GoString :=
  (t.name v).getD (formatInt v.toInt)

/-- A lookup in the generated value table; a missing key gives zero. -/
def EnumTable.ofString (t : EnumTable) (s : GoString) : Int32 := (t.value s).getD 0

/-- The generated tables are inverse to each other. -/
structure EnumTable.Lawful (t : EnumTable) : Prop where
  value_name : ∀ v s, t.name v = some s → t.value s = some v

theorem EnumTable.Lawful.ofString_string {t : EnumTable} (ht : t.Lawful) {v : Int32}
    (h : (t.name v).isSome) : t.ofString (t.string v) = v := by
  obtain ⟨s, hs⟩ := Option.isSome_iff_exists.mp h
  rw [EnumTable.string, EnumTable.ofString, hs, Option.getD_some, ht.value_name v s hs,
    Option.getD_some]

end Events

namespace V2

/-- The `Data` of a deprecated tag value. -/
inductive ValueData where
  | text (s : GoString)
  | integer (i : Int64)
  | decimal (d : Float64)
  deriving DecidableEq

/-- `v2.Value`. -/
structure Value where
  data : Option ValueData
  deriving DecidableEq

/-- `v2.Log_Type`. -/
inductive LogType where
  | OUT
  | ERR
  | other (n : Int32)
  deriving DecidableEq

/-- `v2.Log`. -/
structure Log where
  payload : GoString
  type : LogType
  deriving DecidableEq

/-- The `Value` of a counter. -/
inductive CounterValue where
  | delta (n : UInt64)
  | total (n : UInt64)
  deriving DecidableEq

/-- `v2.Counter`. -/
structure Counter where
  name : GoString
  value : Option CounterValue
  deriving DecidableEq

/-- `Counter.GetTotal`. -/
def Counter.getTotal (c : Counter) : UInt64 :=
  match c.value with
  | some (.total n) => n
  | _ => 0

/-- `Counter.GetDelta`. -/
def Counter.getDelta (c : Counter) : UInt64 :=
  match c.value with
  | some (.delta n) => n
  | _ => 0

/-- `v2.GaugeValue`. -/
structure GaugeValue where
  unit : GoString
  value : Float64
  deriving DecidableEq

/-- `v2.Gauge`; a metric may be a nil pointer. -/
structure Gauge where
  metrics : Dict GoString (Option GaugeValue)
  deriving DecidableEq

/-- `v2.Timer`. -/
structure Timer where
  name : GoString
  start : Int64
  stop : Int64
  deriving DecidableEq

/-- The message of a v2 envelope. -/
inductive Message where
  | log (l : Log)
  | counter (c : Counter)
  | gauge (g : Gauge)
  | timer (t : Timer)
  deriving DecidableEq

/-- `v2.Envelope`. -/
structure Envelope where
  timestamp : Int64 := 0
  sourceId : GoString := []
  instanceId : GoString := []
  deprecatedTags : Option DeprecatedTagsRef := none
  tags : Option TagsRef := none
  message : Option Message := none
  deriving DecidableEq

/-- `Envelope.GetCounter`. -/
def Envelope.getCounter (e : Envelope) : Option Counter :=
  match e.message with
  | some (.counter c) => some c
  | _ => none

end V2

/-- The contents of a map of tags. -/
abbrev Tags := Dict GoString GoString

/-- The contents of a map of deprecated tags; a value may be a nil pointer. -/
abbrev DeprecatedTags := Dict GoString (Option V2.Value)

/-- The maps that envelopes refer to. A new map is made at the counter's reference. -/
structure Heap where
  tags : TagsRef → Tags := fun _ => ∅
  deprecatedTags : DeprecatedTagsRef → DeprecatedTags := fun _ => ∅
  nextTags : TagsRef := 0
  nextDeprecatedTags : DeprecatedTagsRef := 0

namespace Heap

/-- A map of tags, where nil reads as the empty map. -/
def tagsOf (h : Heap) (r : Option TagsRef) : Tags :=
  match r with
  | some r => h.tags r
  | none => ∅

/-- A map of deprecated tags, where nil reads as the empty map. -/
def deprecatedTagsOf (h : Heap) (r : Option DeprecatedTagsRef) : DeprecatedTags :=
  match r with
  | some r => h.deprecatedTags r
  | none => ∅

/-- `make(map[string]string)`. -/
def makeTags (h : Heap) : TagsRef × Heap :=
  (h.nextTags, { h with
    tags := fun r => if r = h.nextTags then ∅ else h.tags r
    nextTags := h.nextTags + 1 })

/-- `make(map[string]*v2.Value)`. -/
def makeDeprecatedTags (h : Heap) : DeprecatedTagsRef × Heap :=
  (h.nextDeprecatedTags, { h with
    deprecatedTags := fun r => if r = h.nextDeprecatedTags then ∅ else h.deprecatedTags r
    nextDeprecatedTags := h.nextDeprecatedTags + 1 })

/-- Update the map of tags at a reference. -/
def updateTags (h : Heap) (r : TagsRef) (f : Tags → Tags) : Heap :=
  { h with tags := fun r' => if r' = r then f (h.tags r) else h.tags r' }

/-- Update the map of deprecated tags at a reference. -/
def updateDeprecatedTags (h : Heap) (r : DeprecatedTagsRef)
    (f : DeprecatedTags → DeprecatedTags) : Heap :=
  { h with deprecatedTags := fun r' =>
      if r' = r then f (h.deprecatedTags r) else h.deprecatedTags r' }

@[simp] theorem tagsOf_some (h : Heap) (r : TagsRef) : h.tagsOf (some r) = h.tags r := rfl

@[simp] theorem tagsOf_none (h : Heap) : h.tagsOf none = ∅ := rfl

@[simp] theorem deprecatedTagsOf_some (h : Heap) (r : DeprecatedTagsRef) :
    h.deprecatedTagsOf (some r) = h.deprecatedTags r := rfl

@[simp] theorem deprecatedTagsOf_none (h : Heap) : h.deprecatedTagsOf none = ∅ := rfl

@[simp] theorem updateTags_same (h : Heap) (r : TagsRef) (f : Tags → Tags) :
    (h.updateTags r f).tags r = f (h.tags r) := by simp [updateTags]

@[simp] theorem updateTags_deprecatedTags (h : Heap) (r : TagsRef) (f : Tags → Tags) :
    (h.updateTags r f).deprecatedTags = h.deprecatedTags := rfl

@[simp] theorem updateDeprecatedTags_same (h : Heap) (r : DeprecatedTagsRef)
    (f : DeprecatedTags → DeprecatedTags) :
    (h.updateDeprecatedTags r f).deprecatedTags r = f (h.deprecatedTags r) := by
  simp [updateDeprecatedTags]

@[simp] theorem updateDeprecatedTags_tags (h : Heap) (r : DeprecatedTagsRef)
    (f : DeprecatedTags → DeprecatedTags) :
    (h.updateDeprecatedTags r f).tags = h.tags := rfl

end Heap

/-- What an observer of a v1 envelope sees: the fields, and the tags as they are in the heap. -/
def Events.Envelope.view (h : Heap) (e : Events.Envelope) :
    Events.Envelope × (GoString → Option GoString) :=
  ({ e with tags := none }, fun k => (h.tagsOf e.tags).lookup k)

/-- What the conversion takes from outside the repository: the tables of the package
`events`, the text of `%f` and the platform's conversion of a float that does not fit. -/
structure Extern where
  eventTypeName : Int32 → GoString
  peerType : Events.EnumTable
  method : Events.EnumTable
  formatDecimal : Float64 → GoString
  outUInt64 : Float64 → UInt64
  outInt32 : Float64 → Int32

/-- A concrete choice of these parts, for statements about fixed envelopes. -/
def sampleExtern : Extern where
  eventTypeName n := formatInt n.toInt
  peerType :=
    { name := fun v => if v = 1 then some (str "Client") else if v = 2 then some (str "Server")
        else none
      value := fun s => if s = str "Client" then some 1 else if s = str "Server" then some 2
        else none
      default := 1 }
  method :=
    { name := fun v => if v = 1 then some (str "GET") else if v = 2 then some (str "POST")
        else none
      value := fun s => if s = str "GET" then some 1 else if s = str "POST" then some 2
        else none
      default := 1 }
  formatDecimal _ := str "0.000000"
  outUInt64 _ := 9223372036854775808
  outInt32 _ := -2147483648

theorem sampleExtern_lawful : sampleExtern.peerType.Lawful ∧ sampleExtern.method.Lawful := by
  refine ⟨⟨?_⟩, ⟨?_⟩⟩
  all_goals
    intro v s hs
    simp only [sampleExtern] at hs ⊢
    split at hs
    · next hv =>
      cases hs
      simp [hv]
    · split at hs
      · next hv =>
        cases hs
        simp [hv]
      · cases hs

/-- `EventType.String`. -/
def Events.EventType.string (x : Extern) : Events.EventType → GoString
  | .logMessage => str "LogMessage"
  | .httpStartStop => str "HttpStartStop"
  | .valueMetric => str "ValueMetric"
  | .counterEvent => str "CounterEvent"
  | .error => str "Error"
  | .containerMetric => str "ContainerMetric"
  | .other n => x.eventTypeName n

end Loggregator
