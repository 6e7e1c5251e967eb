import Loggregator.Lib.JsonWrite
import Loggregator.SyslogDrainBinder.DrainStore

/-!
# Announcing dopplers

`Announce` of `dopplerservice/announcer.go`: the node in which a doppler says where it can be
reached. Its value is the only thing that a doppler and those that look for it agree on.
-/

namespace Loggregator.DopplerService

open Lib Json SyslogDrainBinder

/-- `META_ROOT`. -/
def metaRoot : GoString := str "/doppler/meta"

/-- `LEGACY_ROOT`. -/
def legacyRoot : GoString := str "/healthstatus/doppler"

/-- `dopplerMetaVersion`. -/
def dopplerMetaVersion : UInt32 := 1

/-- The fields of `app.Config` that are announced. -/
structure Config where
  zone : GoString
  jobName : GoString
  index : GoString
  incomingUDPPort : UInt32
  outgoingPort : UInt32
  deriving DecidableEq

/-- `DopplerMeta`. -/
structure DopplerMeta where
  version : UInt32
  endpoints : List GoString

/-- The names of its fields. -/
def versionField : GoString := str "version"
def endpointsField : GoString := str "endpoints"

/-- `json.Marshal`. -/
def DopplerMeta.marshal (m : DopplerMeta) : GoString :=
  writeObject [writeMember versionField (formatNat m.version.toNat),
    writeMember endpointsField (writeArray (m.endpoints.map encodeString))]

def udpAddr (ip : GoString) (config : Config) : GoString :=
  str "udp://" ++ ip ++ str ":" ++ formatNat config.incomingUDPPort.toNat

def wsAddr (ip : GoString) (config : Config) : GoString :=
  str "ws://" ++ ip ++ str ":" ++ formatNat config.outgoingPort.toNat

/-- `buildDopplerMeta`. -/
def buildDopplerMeta (ip : GoString) (config : Config) : GoString :=
  DopplerMeta.marshal ⟨dopplerMetaVersion, [udpAddr ip config, wsAddr ip config]⟩

/-- The part of the key after the root and a slash. -/
def dopplerName (config : Config) : GoString :=
  config.zone ++ str "/" ++ config.jobName ++ str "/" ++ config.index

/-- The node of `Announce`, for a time to live in seconds. -/
def announceNode (ip : GoString) (ttl : UInt64) (config : Config) : StoreNode where
  key := metaRoot ++ str "/" ++ dopplerName config
  value := buildDopplerMeta ip config
  ttl := ttl

/-- The value that a marshalled `DopplerMeta` is read as. -/
def DopplerMeta.json (m : DopplerMeta) : Json :=
  .object [(versionField, .number (formatNat m.version.toNat)),
    (endpointsField, .array (m.endpoints.map .string))]

theorem DopplerMeta.parse_marshal {m : DopplerMeta}
    (h : ∀ addr ∈ m.endpoints, addr.all htmlSafe = true) : parse m.marshal = some m.json := by
  have hendpoints : ∀ n, List.Forall₂ (ReadsAs (parseValue (n + 1)))
      (m.endpoints.map encodeString) (m.endpoints.map .string) := by
    intro n
    rw [List.forall₂_map_left_iff, List.forall₂_map_right_iff, List.forall₂_same]
    exact fun addr haddr => readsAs_string (h addr haddr) n
  have hread : ∀ n, ReadsAs (parseValue (n + 3)) m.marshal m.json := fun n =>
    .object (.cons (.member (by decide) (readsAs_formatNat _ _))
      (.cons (.member (by decide) (.array (hendpoints n))) .nil))
  exact (hread m.marshal.length).parse (by omega)

/-- What a doppler announces. Its address can stand in a JSON string as it is, which is so for the
text of an IP address of either version. -/
structure Announcement where
  ip : GoString
  ttl : UInt64
  config : Config
  safe : ip.all htmlSafe = true

namespace Announcement

variable (a : Announcement)

def node : StoreNode := announceNode a.ip a.ttl a.config

def name : GoString := dopplerName a.config

def endpoints : List GoString := [udpAddr a.ip a.config, wsAddr a.ip a.config]

theorem node_key : a.node.key = metaRoot ++ (str "/" ++ a.name) :=
  List.append_assoc metaRoot (str "/") a.name

theorem htmlSafe_endpoints : ∀ addr ∈ a.endpoints, addr.all htmlSafe = true := by
  have hudp : (str "udp://").all htmlSafe = true := by decide
  have hws : (str "ws://").all htmlSafe = true := by decide
  have hcolon : (str ":").all htmlSafe = true := by decide
  intro addr haddr
  simp only [endpoints, List.mem_cons, List.not_mem_nil, or_false] at haddr
  rcases haddr with rfl | rfl
  · simp only [udpAddr, List.all_append, hudp, hcolon, a.safe, htmlSafe_formatNat, Bool.and_self]
  · simp only [wsAddr, List.all_append, hws, hcolon, a.safe, htmlSafe_formatNat, Bool.and_self]

/-- The value of the node is read as what was marshalled. -/
theorem parse_node :
    parse a.node.value = some (DopplerMeta.json ⟨dopplerMetaVersion, a.endpoints⟩) :=
  DopplerMeta.parse_marshal a.htmlSafe_endpoints

end Announcement

end Loggregator.DopplerService
