import Loggregator.Doppler.RouterDelivery
import Loggregator.Plumbing.AppId
import Loggregator.Plumbing.ToV2Spec

/-!
# Filtering by source id in the reverse log proxy

`rlp/internal/ingress/request_converter.go`. The proxy turns an egress request into a doppler
subscription, with the source id as the application id. Doppler routes an envelope by
`GetAppId`; the proxy then converts it with `ToV2`, which finds the source id by rules of its
own. A client that filters gets the envelopes of its source id exactly when the two agree
(`SourceKnown`).
-/

namespace Loggregator.Rlp

open Lib Doppler.GrpcManager Conversion

/-- The message of a `v2.Filter`. -/
inductive EgressFilterMessage where
  | log
  deriving DecidableEq

/-- `v2.Filter`. -/
structure EgressFilter where
  sourceId : GoString
  message : Option EgressFilterMessage
  deriving DecidableEq

/-- `v2.EgressRequest`. -/
structure EgressRequest where
  shardId : GoString
  filter : Option EgressFilter
  usePreferredTags : Bool
  deriving DecidableEq

/-- `requestConverter.convertFilter`. -/
def convertEgressFilter (v2filter : Option EgressFilter) : Option RequestFilter :=
  v2filter.map (fun f => ⟨f.sourceId, f.message.map (fun .log => .log)⟩)

/-- `requestConverter.Convert`. -/
def convert (v2req : EgressRequest) : SubscriptionRequest :=
  ⟨v2req.shardId, convertEgressFilter v2req.filter⟩

/-- A request for a source id without a type filter. -/
def EgressRequest.ForSource (req : EgressRequest) (s : GoString) : Prop :=
  req.filter = some ⟨s, none⟩

variable {σ D : Type}

/-- The envelope gets to the subscription: its setter is called, or for a shard one of the
setters that share it. -/
def Served (live : List (Registration σ)) (calls : List (σ × D)) (req : SubscriptionRequest)
    (setter : σ) : Prop :=
  (req.shardID = [] ∧ setter ∈ calls.map Prod.fst) ∨
  (req.shardID ≠ [] ∧
    ∃ s ∈ registered live (convertFilter req) req.shardID, s ∈ calls.map Prod.fst)

/-- The application id of the payload or the source id tag makes `GetAppId` and `ToV2` agree. -/
def SourceKnown (e : Events.Envelope) (tags : GoString → Option GoString) : Prop :=
  match e.eventType with
  | .logMessage => (getLogMessage e).appId ≠ [] ∨ tags (str "source_id") = some []
  | .containerMetric =>
    (getContainerMetric e).applicationId ≠ [] ∨ tags (str "source_id") = some []
  | .httpStartStop =>
    match e.httpStartStop.bind Events.HttpStartStop.applicationId with
    | some uuid => uuid ≠ ⟨0, 0⟩ ∨ tags (str "source_id") = some (uuidToString (some uuid))
    | none => tags (str "source_id") = some systemAppId
  | _ => tags (str "source_id") = some systemAppId

/-! ## The two source ids -/

section SourceId

variable (e : Events.Envelope) (tags : GoString → Option GoString)

/-- Without the tag, the source id of the tags has a slash. -/
theorem tagSourceId_eq_iff {s : GoString} (hs : 47 ∉ s) :
    s = tagSourceId e tags ↔ tags (str "source_id") = some s := by
  unfold tagSourceId
  cases htag : tags (str "source_id") with
  | some v =>
    simp only [Option.getD_some, Option.some.injEq]
    exact eq_comm
  | none =>
    simp only [Option.getD_none, reduceCtorEq, iff_false]
    rintro rfl
    exact hs (List.mem_append_left _ (List.mem_append_right _ (by decide)))

theorem convertAppID_eq_iff (appId : GoString) :
    appId = convertAppID appId (tagSourceId e tags) ↔
      appId ≠ [] ∨ tags (str "source_id") = some [] := by
  unfold convertAppID
  by_cases h : appId = []
  · subst h
    simp only [if_true, ne_eq, not_true_eq_false, false_or]
    exact tagSourceId_eq_iff e tags (by decide)
  · simp [h]

theorem convertAppUUID_eq_iff (uuid : Events.UUID) :
    uuidToString (some uuid) = convertAppUUID (some uuid) (tagSourceId e tags) ↔
      uuid ≠ ⟨0, 0⟩ ∨ tags (str "source_id") = some (uuidToString (some uuid)) := by
  by_cases h : uuid = ⟨0, 0⟩
  · subst h
    rw [convertAppUUID, if_pos ⟨rfl, rfl⟩, tagSourceId_eq_iff e tags (by decide)]
    simp
  · have hne : ¬ ((getUUID (some uuid)).low = 0 ∧ (getUUID (some uuid)).high = 0) := by
      rintro ⟨hlow, hhigh⟩
      apply h
      obtain ⟨low, high⟩ := uuid
      exact congrArg₂ Events.UUID.mk hlow hhigh
    rw [convertAppUUID, if_neg hne]
    simp [h]

theorem applicationId_getHttpStartStop (x : Extern) :
    (getHttpStartStop x e).applicationId =
      e.httpStartStop.bind Events.HttpStartStop.applicationId := by
  unfold getHttpStartStop
  cases e.httpStartStop <;> rfl

/-- `GetAppId` and `ToV2` agree exactly for a known source. -/
theorem sourceKnown_iff (x : Extern) : SourceKnown e tags ↔ getAppId e = v2SourceId x e tags := by
  have hsystem := (tagSourceId_eq_iff e tags (s := systemAppId) (by decide)).symm
  unfold SourceKnown getAppId v2SourceId
  cases e.eventType with
  | logMessage | containerMetric => exact (convertAppID_eq_iff e tags _).symm
  | httpStartStop =>
    simp only [applicationId_getHttpStartStop]
    cases e.httpStartStop.bind Events.HttpStartStop.applicationId with
    | some uuid => exact (convertAppUUID_eq_iff e tags uuid).symm
    | none => exact hsystem
  | valueMetric | counterEvent | error | other _ => exact hsystem

end SourceId

/-! ## The router -/

variable {req : EgressRequest} {s : GoString}

theorem convertFilter_convert (hreq : req.ForSource s) :
    convertFilter (convert req) = { appID := s } := by
  rw [convertFilter, convert, convertEgressFilter, hreq]
  rfl

theorem matches_convert_iff (hreq : req.ForSource s) (hs : s ≠ []) (appID : GoString)
    (e : Events.Envelope) :
    Matches (convertFilter (convert req)) appID e ↔ appID = s := by
  rw [convertFilter_convert hreq, Matches]
  simp only [hs, false_or, true_or, and_true]
  exact eq_comm

/-- The router serves a subscription for a source id with the envelopes of that application. -/
theorem served_iff [DecidableEq σ] {r : Router σ} {all live : List (Registration σ)}
    (hr : Reachable r all live) {marshal : Events.Envelope → Option D} (draw : Nat → GoString → Nat)
    (appID : GoString) {e : Events.Envelope} {data : D} (hm : marshal e = some data) {setter : σ}
    (hreq : req.ForSource s) (hs : s ≠ []) (hmem : (convert req, setter) ∈ live) :
    ∃ calls, r.sendTo marshal draw appID e = some calls ∧
      (Served live calls (convert req) setter ↔ appID = s) := by
  have hi := inv_of_reachable hr
  refine ⟨_, sendTo_eq hi draw appID hm, ?_, ?_⟩
  · intro hserved
    -- whoever is called has a matching registration, and it has this filter
    have hcalled : ∃ s' ∈ registered live (convertFilter (convert req)) (convert req).shardID,
        s' ∈ ((createTypedFilters appID e).zipIdx.flatMap
          (fun p => passCalls (draw p.2) (r.shards p.1) data)).map Prod.fst := by
      rcases hserved with ⟨-, hcall⟩ | ⟨-, hcall⟩
      · exact ⟨setter, mem_registered.mpr ⟨_, hmem, rfl, rfl⟩, hcall⟩
      · exact hcall
    obtain ⟨s', hs', hcall⟩ := hcalled
    obtain ⟨c, hc, rfl⟩ := List.mem_map.mp hcall
    obtain ⟨-, req', hreq', hmatch⟩ := hi.mem_calls hc
    have hsame := (hi.registered_unique hs' (mem_registered.mpr ⟨req', hreq', rfl, rfl⟩)).1
    rw [← hsame] at hmatch
    exact (matches_convert_iff hreq hs appID e).mp hmatch
  · rintro rfl
    have hmatch := (matches_convert_iff hreq hs appID e).mpr rfl
    have honce := exactlyOnce_of_ne hi draw e data hs
    by_cases hshard : (convert req).shardID = []
    · have hcount := honce.unsharded _ _ hmem hmatch hshard
      exact Or.inl ⟨hshard, List.count_pos_iff.mp (by rw [setCount] at hcount; omega)⟩
    · have hne : registered live (convertFilter (convert req)) (convert req).shardID ≠ [] :=
        List.ne_nil_of_mem (mem_registered.mpr ⟨_, hmem, rfl, rfl⟩)
      obtain ⟨s', hs', hcount, -⟩ := honce.sharded _ _ hmatch hshard hne
      exact Or.inr ⟨hshard, s', hs', List.count_pos_iff.mp (by rw [setCount] at hcount; omega)⟩

/-- Delivery to a subscription for `s` agrees with the source id of the converted envelope. -/
def Agrees (x : Extern) (h : Heap) (b : Bool) (marshal : Events.Envelope → Option D)
    (draw : Nat → GoString → Nat) (r : Router σ) (live : List (Registration σ))
    (e : Events.Envelope) (req : EgressRequest) (setter : σ) (s : GoString) : Prop :=
  ∃ calls, r.sendTo marshal draw (getAppId e) e = some calls ∧
    (Served live calls (convert req) setter ↔ (toV2 x e b h).1.sourceId = s)

/-- For an envelope with a known source every subscription for a source id is served by the
source id of the converted envelope. For any other envelope there is a source id with which no
subscription is. -/
theorem source_filter [DecidableEq σ] (x : Extern) (h : Heap) (b : Bool)
    (marshal : Events.Envelope → Option D) (e : Events.Envelope) (data : D)
    (hm : marshal e = some data) :
    (SourceKnown e (fun k => (h.tagsOf e.tags).lookup k) →
      ∀ s ≠ [], ∀ (r : Router σ) (all live : List (Registration σ)), Reachable r all live →
        ∀ (req : EgressRequest) (setter : σ), req.ForSource s → (convert req, setter) ∈ live →
        ∀ draw, Agrees x h b marshal draw r live e req setter s) ∧
    (¬ SourceKnown e (fun k => (h.tagsOf e.tags).lookup k) →
      ∃ s ≠ [], ∀ (r : Router σ) (all live : List (Registration σ)), Reachable r all live →
        ∀ (req : EgressRequest) (setter : σ), req.ForSource s → (convert req, setter) ∈ live →
        ∀ draw, ¬ Agrees x h b marshal draw r live e req setter s) := by
  have hsource : (toV2 x e b h).1.sourceId =
      v2SourceId x e (fun k => (h.tagsOf e.tags).lookup k) := (toV2_spec x e b h).sourceId
  rw [sourceKnown_iff _ _ x, ← hsource]
  constructor
  · intro hknown s hs r all live hr req setter hreq hmem draw
    obtain ⟨calls, hcalls, hserved⟩ := served_iff hr draw (getAppId e) hm hreq hs hmem
    exact ⟨calls, hcalls, by rw [hserved, hknown]⟩
  · intro hunknown
    -- one of the two ids is not empty, and a filter for it tells them apart
    obtain ⟨s, hs, hone⟩ : ∃ s ≠ [], ¬ (getAppId e = s ↔ (toV2 x e b h).1.sourceId = s) := by
      by_cases happ : getAppId e = []
      · refine ⟨(toV2 x e b h).1.sourceId, ?_, by simp [hunknown]⟩
        rw [happ] at hunknown
        exact Ne.symm hunknown
      · exact ⟨getAppId e, happ, by simpa using Ne.symm hunknown⟩
    refine ⟨s, hs, ?_⟩
    intro r all live hr req setter hreq hmem draw
    obtain ⟨calls, hcalls, hserved⟩ := served_iff hr draw (getAppId e) hm hreq hs hmem
    rintro ⟨calls', hcalls', hagrees⟩
    cases hcalls.symm.trans hcalls'
    exact hone (hserved.symm.trans hagrees)

/-- An egress request for a source id. -/
def sourceRequest (s : GoString) : EgressRequest := ⟨[], some ⟨s, none⟩, false⟩

/-- A router with one subscription for a source id. -/
def sourceRouter (s : GoString) : Router Nat :=
  ({} : Router Nat).registerSetter (convert (sourceRequest s)) 0

theorem reachable_sourceRouter (s : GoString) :
    Reachable (sourceRouter s) [(convert (sourceRequest s), 0)]
      [(convert (sourceRequest s), 0)] :=
  Reachable.register _ 0 Reachable.init (by simp)

/-- A log message of an application. -/
def appLog : Events.Envelope :=
  { eventType := .logMessage, logMessage := some ⟨[], .OUT, 0, str "app", [], []⟩ }

theorem appLog_agrees :
    SourceKnown appLog (fun k => (Heap.tagsOf {} appLog.tags).lookup k) ∧
      Agrees sampleExtern {} true (fun _ => some (str "data")) (fun _ _ => 0)
        (sourceRouter (str "app")) [(convert (sourceRequest (str "app")), 0)] appLog
        (sourceRequest (str "app")) 0 (str "app") := by
  have hknown : SourceKnown appLog (fun k => (Heap.tagsOf {} appLog.tags).lookup k) :=
    Or.inl (by decide)
  exact ⟨hknown, (source_filter sampleExtern {} true (fun _ => some (str "data")) appLog
    (str "data") rfl).1 hknown (str "app") (by decide) _ _ _ (reachable_sourceRouter (str "app"))
    (sourceRequest (str "app")) 0 rfl (by simp) _⟩

/-- A metric of a job, without tags. -/
def jobMetric : Events.Envelope :=
  { eventType := .valueMetric, deployment := str "cf", job := str "router" }

/-- Its source id is `cf/router`, and it is not delivered to a subscription for it. It is
delivered to a subscription for `system`, which is not its source id. -/
theorem jobMetric_not_agrees :
    (toV2 sampleExtern jobMetric true {}).1.sourceId = str "cf/router" ∧
    (sourceRouter (str "cf/router")).sendTo (fun _ => some (str "data")) (fun _ _ => 0)
      (getAppId jobMetric) jobMetric = some [] ∧
    (sourceRouter (str "system")).sendTo (fun _ => some (str "data")) (fun _ _ => 0)
      (getAppId jobMetric) jobMetric = some [(0, str "data")] ∧
    (∀ s ∈ [str "cf/router", str "system"],
      ¬ Agrees sampleExtern {} true (fun _ => some (str "data")) (fun _ _ => 0) (sourceRouter s)
        [(convert (sourceRequest s), 0)] jobMetric (sourceRequest s) 0 s) := by
  have hsource : (toV2 sampleExtern jobMetric true {}).1.sourceId = str "cf/router" := by decide
  have hnot : (sourceRouter (str "cf/router")).sendTo (fun _ => some (str "data")) (fun _ _ => 0)
      (getAppId jobMetric) jobMetric = some [] := by decide
  have hsystem : (sourceRouter (str "system")).sendTo (fun _ => some (str "data")) (fun _ _ => 0)
      (getAppId jobMetric) jobMetric = some [(0, str "data")] := by decide
  refine ⟨hsource, hnot, hsystem, ?_⟩
  simp only [List.mem_cons, List.not_mem_nil, or_false, forall_eq_or_imp, forall_eq]
  constructor
  · rintro ⟨calls, hcalls, hagrees⟩
    cases hnot.symm.trans hcalls
    rcases hagrees.mpr hsource with ⟨-, hcall⟩ | ⟨hne, -⟩
    · simp at hcall
    · exact hne rfl
  · rintro ⟨calls, hcalls, hagrees⟩
    cases hsystem.symm.trans hcalls
    have := hagrees.mp (Or.inl ⟨rfl, by simp⟩)
    rw [hsource] at this
    exact absurd this (by decide)

end Loggregator.Rlp
