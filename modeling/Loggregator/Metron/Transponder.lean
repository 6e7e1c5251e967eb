import Loggregator.Plumbing.Frame

/-!
# Tags on the way from metron to doppler

Metron's v2 `Transponder` adds its own tags to every envelope before it is sent, and doppler
converts what it receives with `ToV1`. `addTags` copies the tags of the envelope into its
deprecated tags first. That copy is what a later pass of `createBaseV1` still reads when an
earlier pass has pruned the tag map, so that the two together show every envelope of the result
one and the same map, `effectiveTag`.
-/

namespace Loggregator.Metron

open Lib Conversion

/-- The `Transponder` as far as tagging goes: the tags of this metron. -/
structure Transponder where
  tags : Tags

/-- `Transponder.addTags`. -/
def Transponder.addTags (t : Transponder) (e : V2.Envelope) (h : Heap) : V2.Envelope × Heap :=
  let (r, h) := match e.deprecatedTags with
    | some r => (r, h)
    | none => h.makeDeprecatedTags
  let e := { e with deprecatedTags := some r }
  let h := h.updateDeprecatedTags r
    (Dict.mergeWith (fun v => some (some (valueText v))) (h.tagsOf e.tags))
  let h := h.updateDeprecatedTags r (Dict.mergeAbsent (fun v => some (valueText v)) t.tags)
  (e, h)

/-- The text that a key stands for: the envelope's tag, else the text of its deprecated tag,
else metron's tag when there is no deprecated tag of that name. -/
def effectiveTag (x : Extern) (t : Transponder) (e : V2.Envelope) (h : Heap) (k : GoString) :
    Option GoString :=
  match (h.tagsOf e.tags).lookup k with
  | some v => some v
  | none =>
    match (h.deprecatedTagsOf e.deprecatedTags).lookup k with
    | some d => valueString x d
    | none => t.tags.lookup k

/-- The tags of a v1 envelope of the given type. -/
def effectiveTags (e : V2.Envelope) (eff : GoString → Option GoString) (et : Events.EventType)
    (k : GoString) : Option GoString :=
  if e.instanceId ≠ [] ∧ k = str "instance_id" then some e.instanceId
  else if e.sourceId ≠ [] ∧ k = str "source_id" then some e.sourceId
  else if k ∈ baseKeys ∨ k ∈ payloadNames et then none
  else eff k

/-! ## What `addTags` leaves -/

theorem Transponder.addTags_tagsOf (t : Transponder) (e : V2.Envelope) (h : Heap) :
    (t.addTags e h).2.tagsOf e.tags = h.tagsOf e.tags := by
  cases ht : e.tags with
  | none => rfl
  | some r => cases hd : e.deprecatedTags <;> simp [addTags, hd, Heap.updateDeprecatedTags,
      Heap.makeDeprecatedTags]

/-- The deprecated tags after `addTags`. -/
theorem Transponder.addTags_lookup (t : Transponder) (e : V2.Envelope) (h : Heap) (k : GoString) :
    ((t.addTags e h).2.deprecatedTagsOf (t.addTags e h).1.deprecatedTags).lookup k =
      ((((h.tagsOf e.tags).lookup k).map (fun v => some (valueText v))).or
        ((h.deprecatedTagsOf e.deprecatedTags).lookup k)).or
      ((t.tags.lookup k).map (fun v => some (valueText v))) := by
  have hbind : ∀ o : Option GoString,
      (o.bind fun v => some (some (valueText v))) = o.map (fun v => some (valueText v)) := by
    intro o
    cases o <;> rfl
  cases hd : e.deprecatedTags with
  | some r =>
    simp only [addTags, hd, Heap.deprecatedTagsOf_some, Heap.updateDeprecatedTags_same,
      Dict.lookup_mergeAbsent, Dict.lookup_mergeWith, hbind]
  | none =>
    have htags : h.makeDeprecatedTags.2.tagsOf e.tags = h.tagsOf e.tags := by
      cases e.tags <;> rfl
    have hnew : h.makeDeprecatedTags.2.deprecatedTags h.makeDeprecatedTags.1 = ∅ := by
      simp [Heap.makeDeprecatedTags]
    simp only [addTags, hd, Heap.deprecatedTagsOf_some, Heap.updateDeprecatedTags_same,
      Dict.lookup_mergeAbsent, Dict.lookup_mergeWith, hbind, htags, hnew,
      Heap.deprecatedTagsOf_none]

/-- What `ToV1` reads after `addTags`: the deprecated tags say the effective text of every key,
and the tag map agrees with them. -/
theorem Transponder.addTags_reading (x : Extern) (t : Transponder) (e : V2.Envelope) (h : Heap) :
    reading x (t.addTags e h).1 (t.addTags e h).2 =
      ⟨e.tags.isNone, fun k => (h.tagsOf e.tags).lookup k, effectiveTag x t e h⟩ := by
  have htags : (t.addTags e h).1.tags = e.tags := rfl
  simp only [reading, htags, t.addTags_tagsOf, Reading.mk.injEq, true_and]
  funext k
  rw [deprecatedText, t.addTags_lookup, effectiveTag]
  cases (h.tagsOf e.tags).lookup k with
  | some v => rfl
  | none =>
    cases (h.deprecatedTagsOf e.deprecatedTags).lookup k with
    | some d => rfl
    | none => cases t.tags.lookup k <;> rfl

/-! ## What `ToV1` makes of such tags -/

/-- A reading whose deprecated tags cover its tag map. -/
structure Covered (rd : Reading) : Prop where
  cover : ∀ k v, rd.tag k = some v → rd.dep k = some v

theorem Transponder.addTags_covered (x : Extern) (t : Transponder) (e : V2.Envelope) (h : Heap) :
    Covered (reading x (t.addTags e h).1 (t.addTags e h).2) := by
  rw [t.addTags_reading]
  refine ⟨?_⟩
  intro k v hv
  simp only at hv ⊢
  rw [effectiveTag, hv]

namespace Covered

variable {rd : Reading} (hc : Covered rd) (e : V2.Envelope)
include hc

theorem tag_or_dep (k : GoString) : (rd.tag k).or (rd.dep k) = rd.dep k := by
  cases hv : rd.tag k with
  | none => rfl
  | some v => rw [hc.cover k v hv]; rfl

theorem dep_or_tag (k : GoString) : (rd.dep k).or (rd.tag k) = rd.dep k := by
  cases hd : rd.dep k with
  | some v => rfl
  | none =>
    cases hv : rd.tag k with
    | none => rfl
    | some v => rw [hc.cover k v hv] at hd; cases hd

theorem get_eq (k : GoString) : rd.get k = (rd.dep k).getD [] := by
  rw [Reading.get, hc.tag_or_dep]

/-- The base fields are the same in every pass: they are in the deprecated tags. -/
theorem after_get_base {k : GoString} (hk : k ∈ baseKeys) :
    (rd.after e).get k = (rd.dep k).getD [] := by
  cases hn : rd.nilTags with
  | true =>
    have hafter : rd.after e = rd := by simp [Reading.after, hn]
    rw [hafter, hc.get_eq]
  | false =>
    rw [Reading.get, Reading.after_tag hn, Reading.after_dep, rd.base_of_mem_baseKeys e hk,
      Option.none_or]

theorem base_eq (et : Events.EventType) (k : GoString) :
    without (payloadNames et) (rd.base e) k = effectiveTags e rd.dep et k := by
  have hids : str "instance_id" ∉ payloadNames et ∧ str "source_id" ∉ payloadNames et := by
    cases et <;> simp [payloadNames, timerKeys]
  simp only [without, Reading.base, effectiveTags, hc.dep_or_tag]
  by_cases hi : e.instanceId ≠ [] ∧ k = str "instance_id"
  · rw [if_pos hi, if_pos hi, if_neg (hi.2 ▸ hids.1)]
  rw [if_neg hi, if_neg hi]
  by_cases hs : e.sourceId ≠ [] ∧ k = str "source_id"
  · rw [if_pos hs, if_pos hs, if_neg (hs.2 ▸ hids.2)]
  rw [if_neg hs, if_neg hs]
  by_cases hb : k ∈ baseKeys <;> by_cases hp : k ∈ payloadNames et <;> simp [hb, hp]

end Covered

/-- An envelope shows the base fields and the tags of `eff`. -/
structure Shows (e : V2.Envelope) (eff : GoString → Option GoString)
    (p : Events.Envelope × (GoString → Option GoString)) : Prop where
  origin : p.1.origin = (eff (str "origin")).getD []
  deployment : p.1.deployment = (eff (str "deployment")).getD []
  job : p.1.job = (eff (str "job")).getD []
  index : p.1.index = (eff (str "index")).getD []
  ip : p.1.ip = (eff (str "ip")).getD []
  tags : p.2 = effectiveTags e eff p.1.eventType

/-- Base fields and tags as a pass makes them, whatever the payload. -/
theorem Covered.shows {rd rd' : Reading} (hc : Covered rd) (e : V2.Envelope)
    (hget : ∀ k ∈ baseKeys, rd'.get k = (rd.dep k).getD [])
    {p : Events.Envelope × (GoString → Option GoString)}
    (hbase : (p.1.origin, p.1.deployment, p.1.job, p.1.index, p.1.ip) =
      (rd'.get (str "origin"), rd'.get (str "deployment"), rd'.get (str "job"),
        rd'.get (str "index"), rd'.get (str "ip")))
    (htags : p.2 = without (payloadNames p.1.eventType) (rd.base e)) : Shows e rd.dep p := by
  simp only [Prod.mk.injEq] at hbase
  obtain ⟨ho, hd, hj, hi, hp⟩ := hbase
  refine ⟨?_, ?_, ?_, ?_, ?_, ?_⟩
  · rw [ho, hget _ (by simp [baseKeys])]
  · rw [hd, hget _ (by simp [baseKeys])]
  · rw [hj, hget _ (by simp [baseKeys])]
  · rw [hi, hget _ (by simp [baseKeys])]
  · rw [hp, hget _ (by simp [baseKeys])]
  · rw [htags]
    funext k
    exact hc.base_eq e _ k

theorem toV1Spec_shows (x : Extern) (e : V2.Envelope) {rd : Reading} (hc : Covered rd) :
    ∀ p ∈ toV1Spec x e rd, Shows e rd.dep p := by
  have hfirst : ∀ k ∈ baseKeys, rd.get k = (rd.dep k).getD [] := fun k _ => hc.get_eq k
  have hlater : ∀ k ∈ baseKeys, (rd.after e).get k = (rd.dep k).getD [] :=
    fun k hk => hc.after_get_base e hk
  intro p hp
  unfold toV1Spec at hp
  cases hm : e.message with
  | none => simp [hm] at hp
  | some m =>
    rw [hm] at hp
    cases m with
    | log l =>
      simp only [List.mem_singleton] at hp
      subst hp
      unfold logSpec
      split
      · exact hc.shows e hfirst rfl rfl
      · exact hc.shows e hfirst rfl rfl
    | counter c =>
      simp only [List.mem_singleton] at hp
      subst hp
      exact hc.shows e hfirst rfl (without_nil _).symm
    | timer t =>
      simp only [List.mem_singleton] at hp
      subst hp
      exact hc.shows e hfirst rfl rfl
    | gauge g =>
      -- a gauge is read in a later pass, from the map that the first has pruned
      simp only [gaugeSpec] at hp
      split at hp
      · simp only [List.mem_singleton] at hp
        subst hp
        exact hc.shows e hlater rfl (without_nil _).symm
      · split at hp
        · obtain ⟨⟨name, m⟩, -, hm⟩ := List.mem_filterMap.mp hp
          cases m with
          | none => cases hm
          | some m =>
            simp only [Option.map_some, Option.some.injEq] at hm
            subst hm
            exact hc.shows e hlater rfl (without_nil _).symm
        · cases hp

/-- Every v1 envelope that doppler makes of an envelope sent by metron has the effective texts
in its base fields and its tags. -/
theorem toV1_addTags_shows (x : Extern) (t : Transponder) (e : V2.Envelope) (h : Heap) :
    ∀ p ∈ toV1View x (t.addTags e h).1 (t.addTags e h).2,
      Shows e (effectiveTag x t e h) p := by
  intro p hp
  rw [toV1View_eq_spec] at hp
  have hshows := toV1Spec_shows x _ (t.addTags_covered x e h) p hp
  rw [t.addTags_reading] at hshows
  exact ⟨hshows.origin, hshows.deployment, hshows.job, hshows.index, hshows.ip, hshows.tags⟩

/-- A metron with one tag. -/
def sampleTransponder : Transponder where
  tags := AList.singleton (str "deployment") (str "cf")

/-- Doppler sees the origin of the envelope and the deployment of metron. -/
theorem toV1_addTags_shows_counter :
    ∃ p ∈ toV1View sampleExtern (sampleTransponder.addTags sampleCounter sampleHeap).1
        (sampleTransponder.addTags sampleCounter sampleHeap).2,
      p.1.origin = str "origin" ∧ p.1.deployment = str "cf" ∧
      Shows sampleCounter (effectiveTag sampleExtern sampleTransponder sampleCounter sampleHeap)
        p := by
  have hview : (str "origin", str "cf") ∈
      (toV1View sampleExtern (sampleTransponder.addTags sampleCounter sampleHeap).1
        (sampleTransponder.addTags sampleCounter sampleHeap).2).map
        (fun p => (p.1.origin, p.1.deployment)) := by decide
  obtain ⟨p, hp, hbase⟩ := List.mem_map.mp hview
  rw [Prod.mk.injEq] at hbase
  exact ⟨p, hp, hbase.1, hbase.2, toV1_addTags_shows _ _ _ _ p hp⟩

end Loggregator.Metron
