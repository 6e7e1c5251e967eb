import Loggregator.Lib.Dict
import Loggregator.Lib.Sha1
import Loggregator.Lib.Url
import Loggregator.Lib.Utf8

/-!
# The nodes of syslog drains

`syslog_drain_binder`: `Filter` takes the drain URLs out that do not parse or are for another
version, and `EtcdSyslogDrainStore` writes a node for each of the others. The value of a node is
JSON, put together by formatting, and its key has the hash of the value.
-/

namespace Loggregator.SyslogDrainBinder

open Lib

/-- `shared_types.SyslogDrainBinding`. -/
structure SyslogDrainBinding where
  hostname : GoString
  drainURLs : List GoString
  deriving DecidableEq

/-- `shared_types.AllSyslogDrainBindings`. -/
abbrev AllSyslogDrainBindings := Dict GoString SyslogDrainBinding

/-- The loop of `Filter` keeps a drain URL. -/
def keepsDrain (d : GoString) : Bool :=
  match Url.parse d with
  | .error _ => false
  | .ok url => url.queryGet (str "drain-version") ≠ str "2.0"

/-- The binding that `Filter` makes of a binding, if it makes one. -/
def filterBinding (b : SyslogDrainBinding) : Option SyslogDrainBinding :=
  let drainUrls := b.drainURLs.filter keepsDrain
  if drainUrls = [] then none else some ⟨b.hostname, drainUrls⟩

/-- `Filter`. -/
def filter (bindings : AllSyslogDrainBindings) : AllSyslogDrainBindings :=
  Dict.mergeWith filterBinding bindings ∅

/-- `storeadapter.StoreNode`, without its children. -/
structure StoreNode where
  key : GoString
  value : GoString
  dir : Bool := false
  ttl : UInt64 := 0
  deriving DecidableEq

/-- The value of a node. -/
def drainData (hostname drainURL : GoString) : GoString :=
  str "\x7b\"hostname\":\"" ++ hostname ++ str "\",\"drainURL\":\"" ++ drainURL ++ str "\"\x7d"

/-- `drainKey`. -/
def drainKey (appId drainData : GoString) : GoString :=
  str "/loggregator/v2/services/" ++ appId ++ str "/" ++ hexEncode (Sha1.sum drainData)

/-- The hash at the end of a key has a fixed length. -/
theorem drainKey_inj {appId appId' data data' : GoString}
    (h : drainKey appId data = drainKey appId' data') :
    appId = appId' ∧ Sha1.sum data = Sha1.sum data' := by
  have hlength : (hexEncode (Sha1.sum data)).length = (hexEncode (Sha1.sum data')).length := by
    rw [hexEncode_length, hexEncode_length, Sha1.sum_length, Sha1.sum_length]
  obtain ⟨hfront, hhex⟩ := List.append_inj' h hlength
  obtain ⟨happ, -⟩ := List.append_inj' hfront rfl
  exact ⟨List.append_cancel_left happ, hexEncode_inj hhex⟩

/-- The node that `updateAppDrains` makes for a drain URL. -/
def drainNode (ttl : UInt64) (appId hostname drainURL : GoString) : StoreNode where
  key := drainKey appId (drainData hostname drainURL)
  value := drainData hostname drainURL
  ttl := ttl

/-- `updateAppDrains`: the nodes that it sets. -/
def updateAppDrains (ttl : UInt64) (appId : GoString) (drainBinding : SyslogDrainBinding) :
    List StoreNode :=
  drainBinding.drainURLs.filterMap (fun drainURL =>
    if Utf8.trimSpace drainURL = [] then none
    else some (drainNode ttl appId drainBinding.hostname drainURL))

/-- Every URL that is left by `Filter` was there and is kept. -/
theorem lookup_filter {bindings : AllSyslogDrainBindings} {appId : GoString}
    {binding : SyslogDrainBinding} (h : (filter bindings).lookup appId = some binding) :
    ∃ b, bindings.lookup appId = some b ∧ binding.hostname = b.hostname ∧
      binding.drainURLs = b.drainURLs.filter keepsDrain := by
  rw [filter, Dict.lookup_mergeWith, AList.lookup_empty, Option.or_none] at h
  obtain ⟨b, hb, hf⟩ := Option.bind_eq_some_iff.mp h
  simp only [filterBinding] at hf
  split at hf
  · cases hf
  · cases hf
    exact ⟨b, hb, rfl, rfl⟩

theorem mem_updateAppDrains {ttl : UInt64} {appId : GoString} {binding : SyslogDrainBinding}
    {drainURL : GoString} (hurl : drainURL ∈ binding.drainURLs)
    (hblank : Utf8.trimSpace drainURL ≠ []) :
    drainNode ttl appId binding.hostname drainURL ∈ updateAppDrains ttl appId binding :=
  List.mem_filterMap.mpr ⟨drainURL, hurl, if_neg hblank⟩

end Loggregator.SyslogDrainBinder
