import Loggregator.Plumbing.TagModes

/-!
# What the conversions do to their argument

A conversion that works on the argument's own map changes it. `ToV1` does so whenever the v2
envelope has a tag map, `ToV2` when it uses preferred tags and the v1 envelope has one. The
argument survives just when its map already is what the conversion leaves there.
-/

namespace Loggregator.Conversion

open Lib

/-! ## `ToV1` -/

/-- `ToV1` leaves both tag maps of its argument, and a second call returns the same. -/
def ToV1Keeps (x : Extern) (e : V2.Envelope) (h : Heap) : Prop :=
  (∀ k, ((toV1 x e h).2.tagsOf e.tags).lookup k = (h.tagsOf e.tags).lookup k) ∧
  (toV1 x e h).2.deprecatedTagsOf e.deprecatedTags = h.deprecatedTagsOf e.deprecatedTags ∧
  toV1View x e (toV1 x e h).2 = toV1View x e h

/-- The tags are what `ToV1` would leave: no base tag and no tag of the payload, the ids under
their names unless they are empty, and every deprecated tag that the result keeps. -/
structure TagsSettled (rd : Reading) (e : V2.Envelope) : Prop where
  base : ∀ k ∈ baseKeys, rd.tag k = none
  moved : ∀ k ∈ movedKeys rd e, rd.tag k = none
  sourceId : e.sourceId ≠ [] → rd.tag (str "source_id") = some e.sourceId
  instanceId : e.instanceId ≠ [] → rd.tag (str "instance_id") = some e.instanceId
  deprecated : ∀ k v, rd.dep k = some v → k ∉ baseKeys → k ∉ movedKeys rd e →
    (k = str "source_id" → e.sourceId = []) → (k = str "instance_id" → e.instanceId = []) →
    rd.tag k = some v

namespace Reading

variable (rd : Reading) (e : V2.Envelope)

theorem base_source_id (hs : e.sourceId ≠ []) :
    rd.base e (str "source_id") = some e.sourceId := by
  simp [base, hs]

theorem base_instance_id (hi : e.instanceId ≠ []) :
    rd.base e (str "instance_id") = some e.instanceId := by
  simp [base, hi]

/-- A key that no rule of `createBaseV1` is about. -/
theorem base_other {k : GoString} (hk : k ∉ baseKeys)
    (hs : k = str "source_id" → e.sourceId = []) (hi : k = str "instance_id" → e.instanceId = []) :
    rd.base e k = (rd.dep k).or (rd.tag k) := by
  have hi' : ¬ (e.instanceId ≠ [] ∧ k = str "instance_id") := fun h => h.1 (hi h.2)
  have hs' : ¬ (e.sourceId ≠ [] ∧ k = str "source_id") := fun h => h.1 (hs h.2)
  rw [base, if_neg hi', if_neg hs', if_neg hk]

end Reading

theorem source_id_notMem_movedKeys (rd : Reading) (e : V2.Envelope) :
    str "source_id" ∉ movedKeys rd e ∧ str "instance_id" ∉ movedKeys rd e := by
  unfold movedKeys
  split
  · split <;> simp
  · simp [timerKeys]
  · simp

theorem tags_kept_iff (rd : Reading) (e : V2.Envelope) :
    (∀ k, without (movedKeys rd e) (rd.base e) k = rd.tag k) ↔ TagsSettled rd e := by
  obtain ⟨hsource, hinstance⟩ := source_id_notMem_movedKeys rd e
  constructor
  · intro heq
    refine ⟨?_, ?_, ?_, ?_, ?_⟩
    · intro k hk
      rw [← heq, without, rd.base_of_mem_baseKeys e hk]
      split <;> rfl
    · intro k hk
      rw [← heq, without, if_pos hk]
    · intro hs
      rw [← heq, without, if_neg hsource, rd.base_source_id e hs]
    · intro hi
      rw [← heq, without, if_neg hinstance, rd.base_instance_id e hi]
    · intro k v hv hbase hmoved hs hi
      rw [← heq, without, if_neg hmoved, rd.base_other e hbase hs hi, hv, Option.some_or]
  · intro hk k
    rw [without]
    by_cases hmoved : k ∈ movedKeys rd e
    · rw [if_pos hmoved, hk.moved k hmoved]
    rw [if_neg hmoved]
    by_cases hbase : k ∈ baseKeys
    · rw [rd.base_of_mem_baseKeys e hbase, hk.base k hbase]
    by_cases hs : k = str "source_id" → e.sourceId = []
    · by_cases hi : k = str "instance_id" → e.instanceId = []
      · rw [rd.base_other e hbase hs hi]
        cases hv : rd.dep k with
        | none => rfl
        | some v => rw [hk.deprecated k v hv hbase hmoved hs hi]; rfl
      · rw [Classical.not_imp] at hi
        rw [hi.1, rd.base_instance_id e hi.2, hk.instanceId hi.2]
    · rw [Classical.not_imp] at hs
      rw [hs.1, rd.base_source_id e hs.2, hk.sourceId hs.2]

theorem toV1_deprecatedTagsOf (x : Extern) (e : V2.Envelope) (h : Heap) :
    (toV1 x e h).2.deprecatedTagsOf e.deprecatedTags = h.deprecatedTagsOf e.deprecatedTags := by
  cases hd : e.deprecatedTags with
  | none => rfl
  | some d => simp only [Heap.deprecatedTagsOf_some, (toV1_heap x e h).1]

/-- A call that keeps the tag map has the same result when it is repeated. -/
theorem toV1View_again {x : Extern} {e : V2.Envelope} {h : Heap}
    (hk : ∀ k, ((toV1 x e h).2.tagsOf e.tags).lookup k = (h.tagsOf e.tags).lookup k) :
    toV1View x e (toV1 x e h).2 = toV1View x e h := by
  have hrd : reading x e (toV1 x e h).2 = reading x e h := by
    simp only [reading, hk, toV1_deprecatedTagsOf]
  rw [toV1View_eq_spec, hrd, ← toV1View_eq_spec]

theorem toV1Keeps_iff (x : Extern) (e : V2.Envelope) (h : Heap) :
    ToV1Keeps x e h ↔ e.tags = none ∨ TagsSettled (reading x e h) e := by
  have hkeeps : ToV1Keeps x e h ↔
      ∀ k, ((toV1 x e h).2.tagsOf e.tags).lookup k = (h.tagsOf e.tags).lookup k := by
    constructor
    · intro hk
      exact hk.1
    · intro hk
      exact ⟨hk, toV1_deprecatedTagsOf x e h, toV1View_again hk⟩
  rw [hkeeps]
  cases ht : e.tags with
  | none => simp
  | some r =>
    have hn : (reading x e h).nilTags = false := by simp [reading, ht]
    have htag : ∀ k, (h.tags r).lookup k = (reading x e h).tag k := by
      intro k
      simp [reading, ht]
    simp only [Heap.tagsOf_some, (toV1_heap x e h).2 r ht, htag, tags_kept_iff, reduceCtorEq,
      false_or]

/-! ## `ToV2` -/

/-- `ToV2` leaves the tags of its argument. -/
def ToV2Keeps (x : Extern) (e : Events.Envelope) (usePreferredTags : Bool) (h : Heap) : Prop :=
  ∀ k, v1Tags e (toV2 x e usePreferredTags h).2 k = v1Tags e h k

/-- The tags hold all that the conversion sets, and neither of the ids that it takes out. -/
structure TagsPresent (x : Extern) (e : Events.Envelope) (t : GoString → Option GoString) :
    Prop where
  source_id : t (str "source_id") = none
  instance_id : t (str "instance_id") = none
  set : ∀ kv ∈ baseTags x e ++ payloadTags x e, t kv.1 = some kv.2

theorem overlay_of_mem {kvs : List (GoString × GoString)} (hn : (kvs.map Prod.fst).Nodup)
    {kv : GoString × GoString} (hkv : kv ∈ kvs) (t : GoString → Option GoString) :
    overlay kvs t kv.1 = some kv.2 := by
  induction kvs generalizing t with
  | nil => cases hkv
  | cons a kvs ih =>
    rw [List.map_cons, List.nodup_cons] at hn
    have hstep : overlay (a :: kvs) t = overlay kvs (Function.update t a.1 (some a.2)) := rfl
    rw [hstep]
    rcases List.mem_cons.mp hkv with rfl | hmem
    · rw [overlay_of_notMem hn.1, Function.update_self]
    · exact ih hn.2 hmem _

theorem mem_baseKeys_of_mem_baseTags {x : Extern} {e : Events.Envelope}
    {kv : GoString × GoString} (hkv : kv ∈ baseTags x e) : kv.1 ∈ baseKeys := by
  simp only [baseTags, List.mem_cons, List.not_mem_nil, or_false] at hkv
  rcases hkv with rfl | rfl | rfl | rfl | rfl | rfl <;> simp [baseKeys]

theorem baseTags_keys_nodup (x : Extern) (e : Events.Envelope) :
    ((baseTags x e).map Prod.fst).Nodup := by
  simp [baseTags]

theorem payloadTags_keys_nodup (x : Extern) (e : Events.Envelope) :
    ((payloadTags x e).map Prod.fst).Nodup := by
  unfold payloadTags
  split <;> simp [logTags, httpTags, errorTags]

theorem source_id_notMem_payloadTags (x : Extern) (e : Events.Envelope) :
    str "source_id" ∉ (payloadTags x e).map Prod.fst ∧
    str "instance_id" ∉ (payloadTags x e).map Prod.fst := by
  unfold payloadTags
  split <;> simp [logTags, httpTags, errorTags]

theorem v2Tags_eq_iff (x : Extern) (e : Events.Envelope) (t : GoString → Option GoString) :
    (∀ k, v2Tags x e t k = t k) ↔ TagsPresent x e t := by
  obtain ⟨hsource, hinstance⟩ := source_id_notMem_payloadTags x e
  constructor
  · intro heq
    refine ⟨?_, ?_, ?_⟩
    · rw [← heq, v2Tags_of_notMem hsource, without, if_pos (by simp)]
    · rw [← heq, v2Tags_of_notMem hinstance, without, if_pos (by simp)]
    · intro kv hkv
      rw [← heq]
      rcases List.mem_append.mp hkv with hbase | hpay
      · have hk := mem_baseKeys_of_mem_baseTags hbase
        have hids : kv.1 ∉ [str "source_id", str "instance_id"] := by
          intro hids
          rcases (by simpa using hids : kv.1 = str "source_id" ∨ kv.1 = str "instance_id") with
            hs | hi
          · rw [hs] at hk; simp [baseKeys] at hk
          · rw [hi] at hk; simp [baseKeys] at hk
        rw [v2Tags_of_notMem (baseKeys_notMem_payloadTags x e hk), without, if_neg hids,
          overlay_of_mem (baseTags_keys_nodup x e) hbase]
      · exact overlay_of_mem (payloadTags_keys_nodup x e) hpay _
  · intro hp k
    by_cases hpay : k ∈ (payloadTags x e).map Prod.fst
    · obtain ⟨kv, hkv, rfl⟩ := List.mem_map.mp hpay
      rw [hp.set kv (List.mem_append_right _ hkv)]
      exact overlay_of_mem (payloadTags_keys_nodup x e) hkv _
    rw [v2Tags_of_notMem hpay, without]
    split
    · next hids =>
      rcases (by simpa using hids : k = str "source_id" ∨ k = str "instance_id") with rfl | rfl
      · rw [hp.source_id]
      · rw [hp.instance_id]
    · by_cases hbase : k ∈ (baseTags x e).map Prod.fst
      · obtain ⟨kv, hkv, rfl⟩ := List.mem_map.mp hbase
        rw [overlay_of_mem (baseTags_keys_nodup x e) hkv,
          hp.set kv (List.mem_append_left _ hkv)]
      · rw [overlay_of_notMem hbase]

theorem toV2Keeps_iff (x : Extern) (e : Events.Envelope) (b : Bool) (h : Heap) :
    ToV2Keeps x e b h ↔ b = false ∨ e.tags = none ∨ TagsPresent x e (v1Tags e h) := by
  have hv1 : ∀ k, v1Tags e (toV2 x e b h).2 k =
      if b = true ∧ e.tags.isSome then v2Tags x e (v1Tags e h) k else v1Tags e h k :=
    (toV2_spec x e b h).holds.v1
  unfold ToV2Keeps
  cases b with
  | false => simp [hv1]
  | true =>
    cases ht : e.tags with
    | none => simp [hv1, ht]
    | some r => simp [hv1, ht, v2Tags_eq_iff]

/-! ## Both conversions -/

/-- When the conversions leave their argument as it was. -/
theorem conversions_keep_argument_iff (x : Extern) :
    (∀ (e : V2.Envelope) (h : Heap),
      ToV1Keeps x e h ↔ e.tags = none ∨ TagsSettled (reading x e h) e) ∧
    (∀ (e : Events.Envelope) (usePreferredTags : Bool) (h : Heap),
      ToV2Keeps x e usePreferredTags h ↔
        usePreferredTags = false ∨ e.tags = none ∨ TagsPresent x e (v1Tags e h)) :=
  ⟨toV1Keeps_iff x, toV2Keeps_iff x⟩

/-- A heap with one tag map, that of an envelope with an origin. -/
def sampleHeap : Heap where
  tags _ := AList.singleton (str "origin") (str "origin")
  nextTags := 1

/-- A counter with that map. -/
def sampleCounter : V2.Envelope where
  tags := some 0
  message := some (.counter { name := str "requests", value := some (.total 1) })

/-- The origin of a counter is gone after the first conversion. -/
theorem toV1_consumes_origin :
    (sampleHeap.tagsOf sampleCounter.tags).lookup (str "origin") = some (str "origin") ∧
    ((toV1 sampleExtern sampleCounter sampleHeap).2.tagsOf sampleCounter.tags).lookup
      (str "origin") = none ∧
    (toV1 sampleExtern sampleCounter sampleHeap).1.map Events.Envelope.origin =
      [str "origin"] ∧
    (toV1 sampleExtern sampleCounter (toV1 sampleExtern sampleCounter sampleHeap).2).1.map
      Events.Envelope.origin = [[]] := by
  refine ⟨?_, ?_, ?_, ?_⟩ <;> decide

end Loggregator.Conversion
