import Loggregator.Plumbing.ToV1

/-!
# What `ToV1` computes

`ToV1` works on references to maps. Here its result is described without a heap: an envelope's
tags are a `Reading`, two partial functions from keys to texts, and `toV1Spec` is the list of
the envelopes with their tags. `toV1View_eq_spec` says that the source computes just that,
whatever the sharing of the maps.

A call passes through `createBaseV1` once, or for a gauge several times. The first pass merges
the deprecated tags into the map and prunes it; when the envelope has a tag map of its own,
everything the call reads later is read from the pruned map (`Reading.after`).
-/

namespace Loggregator.Conversion

open Lib

/-- The text of the deprecated tag at a key. -/
def deprecatedText (x : Extern) (d : DeprecatedTags) (k : GoString) : Option GoString :=
  (d.lookup k).bind (valueString x)

/-- The tags of a v2 envelope as `ToV1` reads them: whether its tag map is nil, the map, and
the texts of the deprecated tags. -/
structure Reading where
  nilTags : Bool
  tag : GoString → Option GoString
  dep : GoString → Option GoString

/-- The tags of an envelope in a heap. -/
def reading (x : Extern) (e : V2.Envelope) (h : Heap) : Reading where
  nilTags := e.tags.isNone
  tag k := (h.tagsOf e.tags).lookup k
  dep := deprecatedText x (h.deprecatedTagsOf e.deprecatedTags)

namespace Reading

/-- `getV2Tag`. -/
def get (rd : Reading) (k : GoString) : GoString := ((rd.tag k).or (rd.dep k)).getD []

/-- The tags after `createBaseV1`: the deprecated tags win over the others, the base tags are
gone, and the source and the instance id are set unless they are empty. -/
def base (rd : Reading) (e : V2.Envelope) (k : GoString) : Option GoString :=
  if e.instanceId ≠ [] ∧ k = str "instance_id" then some e.instanceId
  else if e.sourceId ≠ [] ∧ k = str "source_id" then some e.sourceId
  else if k ∈ baseKeys then none
  else (rd.dep k).or (rd.tag k)

/-- What the rest of the call reads. -/
def after (rd : Reading) (e : V2.Envelope) : Reading :=
  if rd.nilTags then rd else { rd with tag := rd.base e }

end Reading

/-- The fields that `createBaseV1` fills. -/
def baseEnvelope (rd : Reading) (e : V2.Envelope) (t : Events.EventType) : Events.Envelope where
  origin := rd.get (str "origin")
  eventType := t
  timestamp := e.timestamp
  deployment := rd.get (str "deployment")
  job := rd.get (str "job")
  index := rd.get (str "index")
  ip := rd.get (str "ip")

/-- The tags without some of the keys. -/
def without (ks : List GoString) (t : GoString → Option GoString) (k : GoString) :
    Option GoString := if k ∈ ks then none else t k

/-- The payload and the removed keys of a log message or a recovered error. -/
def logSpec (rd : Reading) (e : V2.Envelope) (l : V2.Log) :
    Events.Envelope × (GoString → Option GoString) :=
  if (rd.after e).get (str "__v1_type") = str "Error" then
    ({ baseEnvelope rd e .error with error := some (errorPayload (rd.after e).get l) },
      without [str "source", str "code"] (rd.base e))
  else
    ({ baseEnvelope rd e .logMessage with
        logMessage := some (logPayload (rd.after e).get e l) },
      without [str "source_type"] (rd.base e))

/-- A gauge with all the required metrics is a container metric. -/
def IsContainer (g : V2.Gauge) : Prop :=
  g.metrics.entries.length ≠ 1 ∧ required.all (fun req => (metric g req).isSome) = true

instance (g : V2.Gauge) : Decidable (IsContainer g) :=
  inferInstanceAs (Decidable (_ ∧ _))

/-- The envelopes of a gauge. The base fields are those of a later pass. -/
def gaugeSpec (x : Extern) (rd : Reading) (e : V2.Envelope) (g : V2.Gauge) :
    List (Events.Envelope × (GoString → Option GoString)) :=
  if IsContainer g then
    [({ baseEnvelope (rd.after e) e .containerMetric with
        containerMetric := some (containerPayload x e g) }, rd.base e)]
  else if g.metrics.entries.all (fun p => p.2.isSome) then
    g.metrics.entries.filterMap (fun p => p.2.map (fun m =>
      ({ baseEnvelope (rd.after e) e .valueMetric with
          valueMetric := some { name := p.1, unit := m.unit, value := m.value } }, rd.base e)))
  else []

/-- The envelopes of `ToV1` with their tags. -/
def toV1Spec (x : Extern) (e : V2.Envelope) (rd : Reading) :
    List (Events.Envelope × (GoString → Option GoString)) :=
  match e.message with
  | some (.log l) => [logSpec rd e l]
  | some (.counter c) =>
    [({ baseEnvelope rd e .counterEvent with counterEvent := some (counterPayload c) },
      rd.base e)]
  | some (.gauge g) => gaugeSpec x rd e g
  | some (.timer t) =>
    [({ baseEnvelope rd e .httpStartStop with
        httpStartStop := some (timerPayload x (rd.after e).get e t) },
      without timerKeys (rd.base e))]
  | none => []

/-! ## One pass of `createBaseV1` -/

theorem getV2Tag_eq (x : Extern) (h : Heap) (e : V2.Envelope) :
    getV2Tag x h e = (reading x e h).get := by
  funext k
  simp only [getV2Tag, Reading.get, reading, deprecatedText]
  cases (h.tagsOf e.tags).lookup k with
  | some v => rfl
  | none =>
    cases (h.deprecatedTagsOf e.deprecatedTags).lookup k with
    | none => rfl
    | some d => rfl

/-- What `createBaseV1` returns and what it leaves in the heap. -/
structure BaseSpec (x : Extern) (e : V2.Envelope) (h : Heap)
    (base : Events.EventType → Events.Envelope) (r : TagsRef) (h' : Heap) : Prop where
  base_eq : ∀ t, base t = { baseEnvelope (reading x e h) e t with tags := some r }
  ref : r = e.tags.getD h.nextTags
  lookup : ∀ k, (h'.tags r).lookup k = (reading x e h).base e k
  frame : ∀ r', r' ≠ r → h'.tags r' = h.tags r'
  deprecated : h'.deprecatedTags = h.deprecatedTags
  next : h'.nextTags = if e.tags.isNone then h.nextTags + 1 else h.nextTags

theorem convertTags_spec (x : Extern) (e : V2.Envelope) (h : Heap) :
    (convertTags x e h).1 = e.tags.getD h.nextTags ∧
    (∀ k, ((convertTags x e h).2.tags (convertTags x e h).1).lookup k =
      ((reading x e h).dep k).or ((reading x e h).tag k)) ∧
    (∀ r', r' ≠ (convertTags x e h).1 → (convertTags x e h).2.tags r' = h.tags r') ∧
    (convertTags x e h).2.deprecatedTags = h.deprecatedTags ∧
    (convertTags x e h).2.nextTags = if e.tags.isNone then h.nextTags + 1 else h.nextTags := by
  cases ht : e.tags with
  | some r =>
    refine ⟨by simp [convertTags, ht], ?_, ?_, by simp [convertTags, ht], by
      simp [convertTags, ht, Heap.updateTags]⟩
    · intro k
      simp [convertTags, ht, Dict.lookup_mergeWith, reading, deprecatedText]
    · intro r' hr
      simp only [convertTags, ht] at hr ⊢
      simp [Heap.updateTags, hr]
  | none =>
    refine ⟨by simp [convertTags, ht, Heap.makeTags], ?_, ?_, by
      simp [convertTags, ht, Heap.makeTags], by simp [convertTags, ht, Heap.updateTags,
        Heap.makeTags]⟩
    · intro k
      have hdep : (h.makeTags.2).deprecatedTagsOf e.deprecatedTags =
          h.deprecatedTagsOf e.deprecatedTags := by
        cases e.deprecatedTags <;> rfl
      simp only [convertTags, ht, Heap.updateTags_same, Dict.lookup_mergeWith, hdep]
      simp [reading, deprecatedText, ht, Heap.makeTags]
    · intro r' hr
      simp only [convertTags, ht] at hr ⊢
      have hr' : r' ≠ h.nextTags := hr
      simp [Heap.updateTags, Heap.makeTags, hr']

theorem createBaseV1_spec (x : Extern) (e : V2.Envelope) (h : Heap) :
    BaseSpec x e h (createBaseV1 x e h).1 (createBaseV1 x e h).2.1 (createBaseV1 x e h).2.2 := by
  obtain ⟨href, hlook, hframe, hdep, hnext⟩ := convertTags_spec x e h
  generalize hc : convertTags x e h = c at href hlook hframe hdep hnext
  obtain ⟨r, h1⟩ := c
  simp only at href hlook hframe hdep hnext
  have hres : createBaseV1 x e h = ((createBaseV1 x e h).1, r, (createBaseV1 x e h).2.2) := by
    simp only [createBaseV1, hc]
  refine ⟨?_, ?_, ?_, ?_, ?_, ?_⟩
  · intro t
    simp only [createBaseV1, hc, getV2Tag_eq, baseEnvelope]
  · rw [hres]
    exact href
  · intro k
    simp only [createBaseV1, hc, Reading.base]
    have hnodup : str "instance_id" ≠ str "source_id" := by simp
    have hi : str "instance_id" ∉ baseKeys := by simp [baseKeys]
    have hs : str "source_id" ∉ baseKeys := by simp [baseKeys]
    by_cases hin : e.instanceId = [] <;> by_cases hso : e.sourceId = [] <;>
      simp only [hin, hso, ne_eq, not_true_eq_false, not_false_eq_true, if_true, if_false,
        false_and, true_and, Heap.updateTags_same, Dict.lookup_insert_ite, Dict.lookup_eraseAll,
        hlook]
  · intro r' hr
    rw [hres] at hr
    have hr' : r' ≠ r := hr
    rw [← hframe r' hr']
    simp only [createBaseV1, hc]
    split <;> split <;> simp [Heap.updateTags, hr']
  · rw [← hdep]
    simp only [createBaseV1, hc]
    split <;> split <;> rfl
  · rw [← hnext]
    simp only [createBaseV1, hc]
    split <;> split <;> rfl

variable {e : V2.Envelope} {h : Heap} {r : TagsRef} {x : Extern} {v1e : Events.Envelope}

/-- The reading after a pass is the pruned one. -/
theorem BaseSpec.reading_eq {h' : Heap} {base : Events.EventType → Events.Envelope}
    (hb : BaseSpec x e h base r h') :
    reading x e h' = (reading x e h).after e := by
  have hdep : h'.deprecatedTagsOf e.deprecatedTags = h.deprecatedTagsOf e.deprecatedTags := by
    cases hd : e.deprecatedTags with
    | none => rfl
    | some d => simp only [Heap.deprecatedTagsOf_some, hb.deprecated]
  have href := hb.ref
  cases ht : e.tags with
  | none =>
    simp only [Reading.after, reading, ht, hdep]
    rfl
  | some r' =>
    rw [ht, Option.getD_some] at href
    subst href
    have hread : reading x e h =
        ⟨false, fun k => (h.tags r).lookup k,
          deprecatedText x (h.deprecatedTagsOf e.deprecatedTags)⟩ := by
      simp only [reading, ht, Option.isNone_some, Heap.tagsOf_some]
    have hread' : reading x e h' =
        ⟨false, (reading x e h).base e,
          deprecatedText x (h.deprecatedTagsOf e.deprecatedTags)⟩ := by
      simp only [reading, ht, hdep, Option.isNone_some, Heap.tagsOf_some, Reading.mk.injEq,
        true_and, and_true]
      funext k
      rw [hb.lookup]
      simp only [reading, ht, Option.isNone_some, Heap.tagsOf_some]
    rw [hread', Reading.after, hread]
    rfl

namespace Reading

theorem after_tag {rd : Reading} {e : V2.Envelope} (hn : rd.nilTags = false) :
    (rd.after e).tag = rd.base e := by
  simp [after, hn]

theorem after_dep (rd : Reading) (e : V2.Envelope) : (rd.after e).dep = rd.dep := by
  unfold after
  split <;> rfl

/-- A second pass leaves the tags of the first. -/
theorem after_base (rd : Reading) (e : V2.Envelope) : (rd.after e).base e = rd.base e := by
  funext k
  unfold after
  split
  · rfl
  · simp only [base]
    split
    · rfl
    · split
      · rfl
      · split
        · rfl
        · cases rd.dep k <;> rfl

theorem after_after (rd : Reading) (e : V2.Envelope) : (rd.after e).after e = rd.after e := by
  cases hn : rd.nilTags with
  | true => simp [after, hn]
  | false =>
    have hafter : rd.after e = ⟨false, rd.base e, rd.dep⟩ := by simp [after, hn]
    have hbase := after_base rd e
    rw [hafter] at hbase ⊢
    rw [after, hbase]
    rfl

end Reading

/-! ## A run of passes -/

/-- An envelope of an earlier pass, and its tags: its map is the argument's own, or one that a
later pass does not make again. -/
structure Settled (e : V2.Envelope) (h : Heap) (t : GoString → Option GoString)
    (v1e : Events.Envelope) : Prop where
  ref : ∃ r, v1e.tags = some r ∧ (e.tags = some r ∨ (e.tags = none ∧ r < h.nextTags)) ∧
    ∀ k, (h.tags r).lookup k = t k

theorem BaseSpec.settled {h' : Heap} {base : Events.EventType → Events.Envelope}
    (hb : BaseSpec x e h base r h') (hv : v1e.tags = some r) :
    Settled e h' ((reading x e h).base e) v1e := by
  refine ⟨r, hv, ?_, hb.lookup⟩
  have href := hb.ref
  have hnext := hb.next
  cases ht : e.tags with
  | none =>
    rw [ht] at href hnext
    simp only [Option.getD_none, Option.isNone_none, if_true] at href hnext
    right
    refine ⟨rfl, ?_⟩
    rw [href, hnext]
    exact Nat.lt_succ_self _
  | some r' =>
    rw [ht, Option.getD_some] at href
    left
    rw [href]

/-- A pass keeps the tags of the envelopes made before it. -/
theorem Settled.pass {h' : Heap} {base : Events.EventType → Events.Envelope}
    (hb : BaseSpec x e h base r h') {t : GoString → Option GoString} (hs : Settled e h t v1e)
    (ht : (reading x e h).base e = t) : Settled e h' t v1e := by
  obtain ⟨r', hr', hcase, hlook⟩ := hs.ref
  have href := hb.ref
  rcases hcase with hown | ⟨hnil, hlt⟩
  · rw [hown, Option.getD_some] at href
    subst href
    refine ⟨r, hr', Or.inl hown, ?_⟩
    intro k
    rw [hb.lookup, ht]
  · rw [hnil, Option.getD_none] at href
    have hne : r' ≠ r := href ▸ Nat.ne_of_lt hlt
    have hnext := hb.next
    rw [hnil] at hnext
    simp only [Option.isNone_none, if_true] at hnext
    refine ⟨r', hr', Or.inr ⟨hnil, hnext ▸ Nat.lt_succ_of_lt hlt⟩, ?_⟩
    intro k
    rw [hb.frame r' hne, hlook]

theorem Settled.view {t : GoString → Option GoString} (hs : Settled e h t v1e) :
    v1e.view h = ({ v1e with tags := none }, t) := by
  obtain ⟨r, hr, -, hlook⟩ := hs.ref
  simp only [Events.Envelope.view, hr, Heap.tagsOf_some]
  congr 1
  funext k
  exact hlook k

theorem base_view {h' : Heap} {base : Events.EventType → Events.Envelope}
    (hb : BaseSpec x e h base r h') (t : Events.EventType) :
    { base t with tags := none } = baseEnvelope (reading x e h) e t := by
  rw [hb.base_eq]
  rfl

/-- The loop over the metrics, from a heap that a first pass has left. -/
theorem convertMetrics_spec (x : Extern) (e : V2.Envelope) (rd : Reading) :
    ∀ (l : List (Sigma fun _ : GoString => Option V2.GaugeValue)) (h : Heap)
      (results : List Events.Envelope), reading x e h = rd.after e →
      (∀ v1e ∈ results, Settled e h (rd.base e) v1e) →
      (convertMetrics x e l h results).1.map
          (Events.Envelope.view (convertMetrics x e l h results).2) =
        if l.all (fun p => p.2.isSome) then
          results.map (fun v1e => ({ v1e with tags := none }, rd.base e)) ++
          l.filterMap (fun p => p.2.map (fun m =>
            ({ baseEnvelope (rd.after e) e .valueMetric with
                valueMetric := some { name := p.1, unit := m.unit, value := m.value } },
              rd.base e)))
        else [] := by
  intro l
  induction l with
  | nil =>
    intro h results _ hs
    simp only [convertMetrics, List.all_nil, if_true, List.filterMap_nil, List.append_nil]
    apply List.map_congr_left
    intro v1e hv
    exact (hs v1e hv).view
  | cons p l ih =>
    obtain ⟨key, m⟩ := p
    intro h results hrd hs
    have hb := createBaseV1_spec x e h
    have hrd' := hb.reading_eq
    rw [hrd, Reading.after_after] at hrd'
    have hbase : (reading x e h).base e = rd.base e := by rw [hrd, Reading.after_base]
    cases m with
    | none => simp [convertMetrics]
    | some m =>
      simp only [convertMetrics]
      rw [ih _ _ hrd']
      · simp only [List.all_cons, Option.isSome_some, Bool.true_and, List.map_append,
          List.map_cons, List.map_nil, List.filterMap_cons, Option.map_some, List.append_assoc,
          List.cons_append, List.nil_append]
        have hview := base_view hb .valueMetric
        rw [hrd] at hview
        rw [← hview]
      · intro v1e hv
        rcases List.mem_append.mp hv with hold | hnew
        · exact (hs v1e hold).pass hb hbase
        · rw [List.mem_singleton] at hnew
          rw [← hbase]
          apply hb.settled
          rw [hnew, hb.base_eq]

theorem convertMetrics_heap (x : Extern) (e : V2.Envelope) (rd : Reading) :
    ∀ (l : List (Sigma fun _ : GoString => Option V2.GaugeValue)) (h : Heap)
      (results : List Events.Envelope), reading x e h = rd.after e →
      reading x e (convertMetrics x e l h results).2 = rd.after e ∧
        (convertMetrics x e l h results).2.deprecatedTags = h.deprecatedTags := by
  intro l
  induction l with
  | nil => intro h results hrd; exact ⟨hrd, rfl⟩
  | cons p l ih =>
    obtain ⟨key, m⟩ := p
    intro h results hrd
    have hb := createBaseV1_spec x e h
    have hrd' := hb.reading_eq
    rw [hrd, Reading.after_after] at hrd'
    cases m with
    | none => exact ⟨hrd', hb.deprecated⟩
    | some m =>
      obtain ⟨h1, h2⟩ := ih _ (results ++ _) hrd'
      exact ⟨h1, h2.trans hb.deprecated⟩

/-! ## The whole call -/

theorem lookup_eraseAll_without (ks : List GoString) (m : Tags) (k : GoString) :
    (Dict.eraseAll ks m).lookup k = without ks (fun k => m.lookup k) k := by
  rw [Dict.lookup_eraseAll, without]
  congr

theorem without_nil (t : GoString → Option GoString) : without [] t = t := by
  funext k
  simp [without]

theorem convertGauge_container (x : Extern) (e : V2.Envelope) {g : V2.Gauge} (h : Heap)
    (hg : IsContainer g) :
    convertGauge x e g h =
      ([{ (createBaseV1 x e h).1 .containerMetric with
          containerMetric := some (containerPayload x e g) }], (createBaseV1 x e h).2.2) := by
  unfold convertGauge tryConvertContainerMetric
  simp only [if_neg hg.1, if_pos hg.2]

theorem convertGauge_metrics (x : Extern) (e : V2.Envelope) {g : V2.Gauge} (h : Heap)
    (hg : ¬ IsContainer g) :
    convertGauge x e g h = convertMetrics x e g.metrics.entries (createBaseV1 x e h).2.2 [] := by
  unfold convertGauge tryConvertContainerMetric
  simp only
  by_cases hlen : g.metrics.entries.length = 1
  · rw [if_pos hlen]
  · rw [if_neg hlen, if_neg (fun hreq => hg ⟨hlen, hreq⟩)]

/-- An envelope whose keys are deleted after its pass. -/
theorem view_eraseAll {h' : Heap} {base : Events.EventType → Events.Envelope}
    (hb : BaseSpec x e h base r h') (ks : List GoString) (hv : v1e.tags = some r) :
    v1e.view (h'.updateTags r (Dict.eraseAll ks)) =
      ({ v1e with tags := none }, without ks ((reading x e h).base e)) := by
  simp only [Events.Envelope.view, hv, Heap.tagsOf_some, Heap.updateTags_same]
  congr 1
  funext k
  rw [lookup_eraseAll_without, without, without, hb.lookup]

/-- The gauge branch, from the heap that the pass of `ToV1` left. -/
theorem convertGauge_spec (x : Extern) (e : V2.Envelope) (rd : Reading) (g : V2.Gauge)
    (h : Heap) (hrd : reading x e h = rd.after e) :
    (convertGauge x e g h).1.map (Events.Envelope.view (convertGauge x e g h).2) =
      gaugeSpec x rd e g := by
  have hb := createBaseV1_spec x e h
  have hrd' := hb.reading_eq
  rw [hrd, Reading.after_after] at hrd'
  have hbase : (reading x e h).base e = rd.base e := by rw [hrd, Reading.after_base]
  unfold gaugeSpec
  by_cases hg : IsContainer g
  · rw [convertGauge_container x e h hg, if_pos hg]
    simp only [List.map_cons, List.map_nil]
    rw [(hb.settled (by rw [hb.base_eq])).view, hbase]
    have hview := base_view hb .containerMetric
    rw [hrd] at hview
    rw [← hview]
  · rw [convertGauge_metrics x e h hg, if_neg hg, convertMetrics_spec x e rd _ _ _ hrd' (by simp)]
    rfl

/-- `ToV1` returns the envelopes of the specification with the tags of the specification. -/
theorem toV1View_eq_spec (x : Extern) (e : V2.Envelope) (h : Heap) :
    toV1View x e h = toV1Spec x e (reading x e h) := by
  have hb := createBaseV1_spec x e h
  unfold toV1View toV1 toV1Spec
  simp only
  cases e.message with
  | none => rfl
  | some m =>
    cases m with
    | log l =>
      simp only [convertLog, logSpec, getV2Tag_eq, hb.reading_eq]
      split
      · simp only [List.map_cons, List.map_nil]
        rw [view_eraseAll hb _ (by rw [hb.base_eq]), ← base_view hb]
      · simp only [List.map_cons, List.map_nil]
        rw [view_eraseAll hb _ (by rw [hb.base_eq]), ← base_view hb]
    | counter c =>
      simp only [convertCounter, List.map_cons, List.map_nil]
      rw [(hb.settled (by rw [hb.base_eq])).view, ← base_view hb]
    | gauge g => exact convertGauge_spec x e _ g _ hb.reading_eq
    | timer t =>
      simp only [convertTimer, List.map_cons, List.map_nil, getV2Tag_eq, hb.reading_eq]
      rw [view_eraseAll hb _ (by rw [hb.base_eq]), ← base_view hb]

/-- The tag names that move into the payload of an event. -/
def payloadNames : Events.EventType → List GoString
  | .logMessage => [str "source_type"]
  | .error => [str "source", str "code"]
  | .httpStartStop => timerKeys
  | _ => []

/-- The tag names that move into the payload of a message. A log is an error if its deprecated tags
say so: the marker of the other map is gone when it is read. -/
def movedKeys (rd : Reading) (e : V2.Envelope) : List GoString :=
  match e.message with
  | some (.log _) =>
    if rd.dep (str "__v1_type") = some (str "Error") then [str "source", str "code"]
    else [str "source_type"]
  | some (.timer _) => timerKeys
  | _ => []

theorem Reading.base_of_mem_baseKeys (rd : Reading) (e : V2.Envelope) {k : GoString}
    (hk : k ∈ baseKeys) : rd.base e k = none := by
  have hi : k ≠ str "instance_id" := by rintro rfl; simp [baseKeys] at hk
  have hs : k ≠ str "source_id" := by rintro rfl; simp [baseKeys] at hk
  simp [base, hk, hi, hs]

/-- The marker that tells an error from a log is read when the tag map, if there is one, has been
pruned of it. -/
theorem marker_iff (x : Extern) (e : V2.Envelope) (h : Heap) :
    ((reading x e h).after e).get (str "__v1_type") = str "Error" ↔
      (reading x e h).dep (str "__v1_type") = some (str "Error") := by
  have htag : ((reading x e h).after e).tag (str "__v1_type") = none := by
    cases ht : e.tags with
    | none => simp [Reading.after, reading, ht]
    | some r =>
      rw [Reading.after_tag (by simp [reading, ht]),
        Reading.base_of_mem_baseKeys _ e (by simp [baseKeys])]
  rw [Reading.get, htag, Reading.after_dep, Option.none_or]
  cases (reading x e h).dep (str "__v1_type") with
  | none => exact iff_of_false (by decide) (by simp)
  | some v => simp

/-- `ToV1` leaves the deprecated tags alone, and in the argument's own tag map it leaves the
tags that its result has. -/
theorem toV1_heap (x : Extern) (e : V2.Envelope) (h : Heap) :
    (toV1 x e h).2.deprecatedTags = h.deprecatedTags ∧
    ∀ r, e.tags = some r → ∀ k, ((toV1 x e h).2.tags r).lookup k =
      without (movedKeys (reading x e h) e) ((reading x e h).base e) k := by
  have hb := createBaseV1_spec x e h
  have hr : ∀ r, e.tags = some r → (createBaseV1 x e h).2.1 = r := by
    intro r hr
    rw [hb.ref, hr, Option.getD_some]
  unfold toV1 movedKeys
  simp only
  cases e.message with
  | none =>
    refine ⟨hb.deprecated, ?_⟩
    intro r he k
    rw [← hr r he, hb.lookup, without_nil]
  | some m =>
    cases m with
    | log l =>
      simp only [convertLog, getV2Tag_eq, hb.reading_eq, marker_iff]
      split
      · refine ⟨hb.deprecated, ?_⟩
        intro r he k
        rw [← hr r he, Heap.updateTags_same, lookup_eraseAll_without, without, without, hb.lookup]
      · refine ⟨hb.deprecated, ?_⟩
        intro r he k
        rw [← hr r he, Heap.updateTags_same, lookup_eraseAll_without, without, without, hb.lookup]
    | counter c =>
      refine ⟨hb.deprecated, ?_⟩
      intro r he k
      rw [← hr r he, without_nil]
      exact hb.lookup k
    | gauge g =>
      have hb2 := createBaseV1_spec x e (createBaseV1 x e h).2.2
      have hrd2 := hb2.reading_eq
      rw [hb.reading_eq, Reading.after_after] at hrd2
      have hown : ∀ (h' : Heap), reading x e h' = (reading x e h).after e →
          ∀ r, e.tags = some r → ∀ k, (h'.tags r).lookup k = (reading x e h).base e k := by
        intro h' hrd r he k
        have hlook : (h'.tags r).lookup k = (reading x e h').tag k := by simp [reading, he]
        rw [hlook, hrd, Reading.after_tag (by simp [reading, he])]
      by_cases hg : IsContainer g
      · simp only [convertGauge_container x e _ hg]
        refine ⟨hb2.deprecated.trans hb.deprecated, ?_⟩
        intro r he k
        rw [hown _ hrd2 r he k, without_nil]
      · simp only [convertGauge_metrics x e _ hg]
        obtain ⟨hm1, hm2⟩ := convertMetrics_heap x e (reading x e h) g.metrics.entries
          (createBaseV1 x e (createBaseV1 x e h).2.2).2.2 [] hrd2
        refine ⟨hm2.trans (hb2.deprecated.trans hb.deprecated), ?_⟩
        intro r he k
        rw [hown _ hm1 r he k, without_nil]
    | timer t =>
      simp only [convertTimer]
      refine ⟨hb.deprecated, ?_⟩
      intro r he k
      rw [← hr r he, Heap.updateTags_same, lookup_eraseAll_without, without, without, hb.lookup]

end Loggregator.Conversion
