import Loggregator.Plumbing.ToV1Spec

/-!
# What `ToV2` computes

The v2 envelope without the heap: its ids, its message, and its tags as an overlay of the tags
of the v1 envelope. Both tag modes store the same texts, one in the tag map and the other in
the deprecated tags (`toV2_reading`). With preferred tags the map is the one of the v1 envelope
(`toV2_tags`).
-/

namespace Loggregator.Conversion

open Lib

/-- Tags after a sequence of `setV2Tag` calls. -/
def overlay (kvs : List (GoString × GoString)) (t : GoString → Option GoString) :
    GoString → Option GoString :=
  kvs.foldl (fun t kv => Function.update t kv.1 (some kv.2)) t

/-- The tags that the conversion of the payload sets. -/
def payloadTags (x : Extern) (e : Events.Envelope) : List (GoString × GoString) :=
  match e.eventType with
  | .logMessage => logTags (getLogMessage e)
  | .httpStartStop => httpTags x (getHttpStartStop x e)
  | .error => errorTags (getError e)
  | _ => []

/-- The tags that `ToV2` makes of the tags `t`. -/
def v2Tags (x : Extern) (e : Events.Envelope) (t : GoString → Option GoString) :
    GoString → Option GoString :=
  overlay (payloadTags x e)
    (without [str "source_id", str "instance_id"] (overlay (baseTags x e) t))

/-- The source id before the payload is looked at. -/
def tagSourceId (e : Events.Envelope) (t : GoString → Option GoString) : GoString :=
  (t (str "source_id")).getD (e.deployment ++ str "/" ++ e.job)

/-- The source id of the v2 envelope. -/
def v2SourceId (x : Extern) (e : Events.Envelope) (t : GoString → Option GoString) : GoString :=
  match e.eventType with
  | .logMessage => convertAppID (getLogMessage e).appId (tagSourceId e t)
  | .httpStartStop => convertAppUUID (getHttpStartStop x e).applicationId (tagSourceId e t)
  | .containerMetric => convertAppID (getContainerMetric e).applicationId (tagSourceId e t)
  | _ => tagSourceId e t

/-- The instance id of the v2 envelope. -/
def v2InstanceId (e : Events.Envelope) (t : GoString → Option GoString) : GoString :=
  match e.eventType with
  | .logMessage => (getLogMessage e).sourceInstance
  | _ => (t (str "instance_id")).getD []

/-- The message of the v2 envelope. -/
def v2Message (x : Extern) (e : Events.Envelope) : Option V2.Message :=
  match e.eventType with
  | .logMessage => some (.log
      { payload := (getLogMessage e).message
        type := convertLogMessageType (getLogMessage e).messageType })
  | .httpStartStop => some (.timer
      { name := str "http", start := (getHttpStartStop x e).startTimestamp
        stop := (getHttpStartStop x e).stopTimestamp })
  | .valueMetric => some (.gauge ⟨AList.singleton (getValueMetric e).name
      (some { unit := (getValueMetric e).unit, value := (getValueMetric e).value })⟩)
  | .counterEvent => some (.counter
      { name := (getCounterEvent e).name, value := some (.total (getCounterEvent e).total) })
  | .error => some (.log { payload := (getError e).message, type := .OUT })
  | .containerMetric => some (.gauge ⟨containerMetrics (getContainerMetric e)⟩)
  | .other _ => none

/-- The reading of a v2 envelope that holds the tags `t` in one of its two maps. -/
def modeReading (usePreferredTags : Bool) (t : GoString → Option GoString) : Reading :=
  if usePreferredTags then ⟨false, t, fun _ => none⟩ else ⟨true, fun _ => none, t⟩

/-- A v2 envelope that holds the tags `t` in the map of its mode, next to the v1 envelope `e`
that it is made from and the tags `t₀` that `e` had. With preferred tags the two share a map;
with deprecated tags every value is a text. -/
structure Holds (b : Bool) (e : Events.Envelope) (t₀ : GoString → Option GoString)
    (v2e : V2.Envelope) (h : Heap) (t : GoString → Option GoString) : Prop where
  preferred : b = true → v2e.deprecatedTags = none ∧ (∀ r, e.tags = some r → v2e.tags = some r) ∧
    ∃ r, v2e.tags = some r ∧ ∀ k, (h.tags r).lookup k = t k
  deprecated : b = false → v2e.tags = none ∧ ∃ r, v2e.deprecatedTags = some r ∧
    ∀ k, (h.deprecatedTags r).lookup k = (t k).map (fun s => some (valueText s))
  v1 : ∀ k, (h.tagsOf e.tags).lookup k = if b = true ∧ e.tags.isSome then t k else t₀ k

section Steps

variable {x : Extern} {b : Bool} {e : Events.Envelope} {t₀ t : GoString → Option GoString}
  {v2e : V2.Envelope} {h : Heap}

theorem Holds.reading_eq (hh : Holds b e t₀ v2e h t) : reading x v2e h = modeReading b t := by
  cases b with
  | true =>
    obtain ⟨hdep, -, r, hr, hlook⟩ := hh.preferred rfl
    simp only [reading, modeReading, hdep, hr, if_true, Option.isNone_some, Heap.tagsOf_some,
      hlook, Heap.deprecatedTagsOf_none, Reading.mk.injEq, true_and]
    funext k
    rfl
  | false =>
    obtain ⟨htags, r, hr, hlook⟩ := hh.deprecated rfl
    simp only [reading, modeReading, htags, hr, Bool.false_eq_true, if_false, Option.isNone_none,
      Heap.tagsOf_none, Heap.deprecatedTagsOf_some, Reading.mk.injEq, true_and]
    refine ⟨by funext k; rfl, ?_⟩
    funext k
    rw [deprecatedText, hlook]
    cases t k <;> rfl

theorem initTags_holds (b : Bool) (e : Events.Envelope) (h : Heap) (ts : Int64) :
    Holds b e (fun k => (h.tagsOf e.tags).lookup k) (initTags e { timestamp := ts } b h).1
      (initTags e { timestamp := ts } b h).2 (fun k => (h.tagsOf e.tags).lookup k) := by
  cases b with
  | true =>
    refine ⟨fun _ => ?_, by simp, ?_⟩
    · cases he : e.tags with
      | some r => exact ⟨by simp [initTags, he], by simp [initTags, he], r, by
          simp [initTags, he], by simp [initTags, he]⟩
      | none => exact ⟨by simp [initTags, he], by simp, h.nextTags, by
          simp [initTags, he, Heap.makeTags], by simp [initTags, he, Heap.makeTags]⟩
    · intro k
      cases he : e.tags <;> simp [initTags, he]
  | false =>
    refine ⟨by simp, fun _ => ?_, ?_⟩
    · refine ⟨by simp [initTags], h.nextDeprecatedTags, by
        simp [initTags, Heap.makeDeprecatedTags], ?_⟩
      intro k
      have htagsOf : (h.makeDeprecatedTags.2).tagsOf e.tags = h.tagsOf e.tags := by
        cases e.tags <;> rfl
      have hsame : (h.makeDeprecatedTags).1 = h.nextDeprecatedTags := rfl
      simp only [initTags, Bool.false_eq_true, if_false]
      rw [← hsame, Heap.updateDeprecatedTags_same, Dict.lookup_mergeWith, htagsOf]
      simp only [Heap.makeDeprecatedTags, if_true, AList.lookup_empty, Option.or_none]
      cases (h.tagsOf e.tags).lookup k <;> rfl
    · intro k
      cases he : e.tags <;>
        simp [initTags, Heap.tagsOf, Heap.updateDeprecatedTags, Heap.makeDeprecatedTags]

/-- A write to the map of the mode changes the v1 envelope's tags when the map is shared. -/
theorem Holds.updateTags (hh : Holds true e t₀ v2e h t) {r : TagsRef} (hr : v2e.tags = some r)
    (f : Tags → Tags) {t' : GoString → Option GoString}
    (hf : ∀ m : Tags, (∀ k, m.lookup k = t k) → ∀ k, (f m).lookup k = t' k) :
    Holds true e t₀ v2e (h.updateTags r f) t' := by
  obtain ⟨hdep, hown, r', hr', hlook⟩ := hh.preferred rfl
  obtain rfl : r = r' := Option.some.inj (hr.symm.trans hr')
  have hnew : ∀ k, ((h.updateTags r f).tags r).lookup k = t' k := by
    intro k
    rw [Heap.updateTags_same]
    exact hf _ hlook k
  refine ⟨fun _ => ⟨hdep, hown, r, hr, hnew⟩, nofun, ?_⟩
  intro k
  cases he : e.tags with
  | none =>
    have := hh.v1 k
    simpa [he] using this
  | some r' =>
    obtain rfl : r = r' := Option.some.inj (hr.symm.trans (hown r' he))
    simpa using hnew k

theorem Holds.updateDeprecatedTags (hh : Holds false e t₀ v2e h t) {r : DeprecatedTagsRef}
    (hr : v2e.deprecatedTags = some r) (f : DeprecatedTags → DeprecatedTags)
    {t' : GoString → Option GoString}
    (hf : ∀ m : DeprecatedTags, (∀ k, m.lookup k = (t k).map (fun s => some (valueText s))) →
      ∀ k, (f m).lookup k = (t' k).map (fun s => some (valueText s))) :
    Holds false e t₀ v2e (h.updateDeprecatedTags r f) t' := by
  obtain ⟨htags, r', hr', hlook⟩ := hh.deprecated rfl
  obtain rfl : r = r' := Option.some.inj (hr.symm.trans hr')
  refine ⟨nofun, fun _ => ⟨htags, r, hr, ?_⟩, ?_⟩
  · intro k
    rw [Heap.updateDeprecatedTags_same]
    exact hf _ hlook k
  · intro k
    have hv1 := hh.v1 k
    cases he : e.tags <;> simpa [Heap.tagsOf, he] using hv1

theorem setV2Tag_holds (hh : Holds b e t₀ v2e h t) (key value : GoString) :
    Holds b e t₀ v2e (setV2Tag v2e key value b h) (Function.update t key (some value)) := by
  cases b with
  | true =>
    obtain ⟨-, -, r, hr, -⟩ := hh.preferred rfl
    simp only [setV2Tag, if_true, hr]
    apply hh.updateTags hr
    intro m hm k
    rw [Dict.lookup_insert_ite, hm, Function.update_apply]
  | false =>
    obtain ⟨-, r, hr, -⟩ := hh.deprecated rfl
    simp only [setV2Tag, Bool.false_eq_true, if_false, hr]
    apply hh.updateDeprecatedTags hr
    intro m hm k
    rw [Dict.lookup_insert_ite, hm, Function.update_apply]
    split <;> rfl

theorem setV2Tags_holds (kvs : List (GoString × GoString)) :
    ∀ {h : Heap} {t : GoString → Option GoString}, Holds b e t₀ v2e h t →
      Holds b e t₀ v2e (setV2Tags v2e kvs b h) (overlay kvs t) := by
  induction kvs with
  | nil => intro h t hh; exact hh
  | cons kv kvs ih => intro h t hh; exact ih (setV2Tag_holds hh kv.1 kv.2)

theorem unsetV2Tag_holds (hh : Holds b e t₀ v2e h t) (key : GoString) :
    Holds b e t₀ v2e (unsetV2Tag v2e key h) (without [key] t) := by
  cases b with
  | true =>
    obtain ⟨hdep, -, r, hr, -⟩ := hh.preferred rfl
    simp only [unsetV2Tag, hdep, hr]
    apply hh.updateTags hr
    intro m hm k
    rw [Dict.lookup_erase_ite, hm, without]
    simp only [List.mem_singleton]
  | false =>
    obtain ⟨htags, r, hr, -⟩ := hh.deprecated rfl
    simp only [unsetV2Tag, htags, hr]
    apply hh.updateDeprecatedTags hr
    intro m hm k
    rw [Dict.lookup_erase_ite, hm, without]
    simp only [List.mem_singleton]
    split <;> rfl

/-- The other fields of the v2 envelope do not matter for the tags. -/
theorem Holds.congr (hh : Holds b e t₀ v2e h t) {v2e' : V2.Envelope}
    (htags : v2e'.tags = v2e.tags) (hdep : v2e'.deprecatedTags = v2e.deprecatedTags) :
    Holds b e t₀ v2e' h t := by
  refine ⟨?_, ?_, hh.v1⟩
  · rw [htags, hdep]
    exact hh.preferred
  · rw [htags, hdep]
    exact hh.deprecated

/-- A tag of the v1 envelope that the conversion has not touched yet. -/
theorem Holds.v1_eq (hh : Holds b e t₀ v2e h t) {k : GoString} (hk : t k = t₀ k) :
    (h.tagsOf e.tags).lookup k = t₀ k := by
  rw [hh.v1]
  split
  · exact hk
  · rfl

end Steps

theorem overlay_of_notMem {kvs : List (GoString × GoString)} {k : GoString}
    (hk : k ∉ kvs.map Prod.fst) (t : GoString → Option GoString) : overlay kvs t k = t k := by
  induction kvs generalizing t with
  | nil => rfl
  | cons kv kvs ih =>
    rw [List.map_cons, List.mem_cons, not_or] at hk
    have hstep : overlay (kv :: kvs) t = overlay kvs (Function.update t kv.1 (some kv.2)) := rfl
    rw [hstep, ih hk.2, Function.update_of_ne hk.1]

theorem without_without (t : GoString → Option GoString) :
    without [str "instance_id"] (without [str "source_id"] t) =
      without [str "source_id", str "instance_id"] t := by
  funext k
  by_cases hs : k = str "source_id" <;> by_cases hi : k = str "instance_id" <;>
    simp [without, hs, hi]

/-- The envelope that `ToV2` makes, with its tags in the map of the chosen mode. -/
structure V2Spec (x : Extern) (e : Events.Envelope) (b : Bool)
    (t₀ : GoString → Option GoString) (v2e : V2.Envelope) (h : Heap) : Prop where
  holds : Holds b e t₀ v2e h (v2Tags x e t₀)
  timestamp : v2e.timestamp = e.timestamp
  sourceId : v2e.sourceId = v2SourceId x e t₀
  instanceId : v2e.instanceId = v2InstanceId e t₀
  message : v2e.message = v2Message x e

theorem initTags_fields (e : Events.Envelope) (b : Bool) (h : Heap) :
    (initTags e { timestamp := e.timestamp } b h).1.timestamp = e.timestamp ∧
    (initTags e { timestamp := e.timestamp } b h).1.message = none := by
  cases b with
  | true => cases he : e.tags <;> simp [initTags, he]
  | false => simp [initTags]

theorem toV2_spec (x : Extern) (e : Events.Envelope) (b : Bool) (h : Heap) :
    V2Spec x e b (fun k => (h.tagsOf e.tags).lookup k) (toV2 x e b h).1 (toV2 x e b h).2 := by
  have hinit := initTags_holds b e h e.timestamp
  obtain ⟨hts, hmsg⟩ := initTags_fields e b h
  unfold toV2
  generalize initTags e { timestamp := e.timestamp } b h = p at hinit hts hmsg
  obtain ⟨v2e, h1⟩ := p
  generalize (fun k => (h.tagsOf e.tags).lookup k) = t₀ at hinit
  simp only at hinit hts hmsg ⊢
  -- the base tags are set and the two ids are taken out of the tags
  have hbase := setV2Tags_holds (baseTags x e) hinit
  have hsource := hbase.v1_eq (k := str "source_id")
    (overlay_of_notMem (by simp [baseTags]) t₀)
  have hunset := unsetV2Tag_holds hbase (str "source_id")
  have hinstance := hunset.v1_eq (k := str "instance_id") (by
    have hk : overlay (baseTags x e) t₀ (str "instance_id") = t₀ (str "instance_id") :=
      overlay_of_notMem (by simp [baseTags]) t₀
    simp [without, hk])
  have hboth := unsetV2Tag_holds hunset (str "instance_id")
  rw [without_without] at hboth
  have hsid : (t₀ (str "source_id")).getD (e.deployment ++ str "/" ++ e.job) =
      tagSourceId e t₀ := rfl
  rw [hsource, hinstance, hsid]
  -- what is set of the payload depends on the event type
  cases ht : e.eventType with
  | logMessage =>
    refine ⟨?_, hts, ?_, ?_, ?_⟩ <;>
      simp only [v2Tags, payloadTags, convertLogMessage, v2SourceId, v2InstanceId, v2Message, ht]
    exact (setV2Tags_holds _ hboth).congr rfl rfl
  | httpStartStop =>
    refine ⟨?_, hts, ?_, ?_, ?_⟩ <;>
      simp only [v2Tags, payloadTags, convertHTTPStartStop, v2SourceId, v2InstanceId, v2Message, ht]
    exact setV2Tags_holds _ (hboth.congr rfl rfl)
  | error =>
    refine ⟨?_, hts, ?_, ?_, ?_⟩ <;>
      simp only [v2Tags, payloadTags, convertError, v2SourceId, v2InstanceId, v2Message, ht]
    exact (setV2Tags_holds _ (hboth.congr rfl rfl)).congr rfl rfl
  | valueMetric | counterEvent | containerMetric | other =>
    refine ⟨?_, hts, ?_, ?_, ?_⟩ <;>
      simp only [v2Tags, payloadTags, convertValueMetric, convertCounterEvent,
        convertContainerMetric, v2SourceId, v2InstanceId, v2Message, ht, hmsg]
    exact hboth.congr rfl rfl

end Loggregator.Conversion
