import Loggregator.Plumbing.ToV1Spec

/-!
# A tag in both maps

A v2 envelope has two maps of tags. `getV2Tag` of `plumbing/conversion/tov1.go` prefers `Tags`;
`convertTags` merges the deprecated tags into that very map and lets them win. What `ToV1` reads
before the merge is then the one text, and the tag map and all that it reads after the merge is
the other: the payloads, whether a log is an error, and for a gauge also the fields of the
envelope.
-/

namespace Loggregator.Conversion

open Lib

/-- A field of a v1 envelope that is read from a tag. -/
inductive TagField where
  | text (s : GoString)
  | uuid (u : Events.UUID)
  | int32 (n : Int32)
  | int64 (n : Int64)
  | list (l : List GoString)
  | flag (b : Bool)
  deriving DecidableEq

/-- What `ToV1` makes of the text of a tag for a field. -/
def readField (x : Extern) (k s : GoString) : TagField :=
  if k = str "peer_type" then .int32 (x.peerType.ofString s)
  else if k = str "method" then .int32 (x.method.ofString s)
  else if k = str "request_id" then .uuid (convertUUID (parseUUID s))
  else if k = str "status_code" ∨ k = str "instance_index" ∨ k = str "code" then
    .int32 (atoi s).toInt32
  else if k = str "content_length" then .int64 (atoi s)
  else if k = str "forwarded" then .list (s.splitOn 10)
  else if k = str "__v1_type" then .flag (decide (s = str "Error"))
  else .text s

/-- The fields of the envelope itself that are read from tags. -/
def envelopeFields (out : Events.Envelope) : List (GoString × TagField) :=
  [(str "origin", .text out.origin), (str "deployment", .text out.deployment),
   (str "job", .text out.job), (str "index", .text out.index), (str "ip", .text out.ip)]

/-- The fields of an HTTP event that are read from tags. -/
def httpFields (s : Events.HttpStartStop) : List (GoString × TagField) :=
  [(str "peer_type", .int32 s.peerType), (str "method", .int32 s.method),
   (str "request_id", .uuid (s.requestId.getD ⟨0, 0⟩)), (str "uri", .text s.uri),
   (str "remote_address", .text s.remoteAddress), (str "user_agent", .text s.userAgent),
   (str "status_code", .int32 s.statusCode), (str "content_length", .int64 s.contentLength),
   (str "instance_index", .int32 s.instanceIndex),
   (str "routing_instance_id", .text s.instanceId), (str "forwarded", .list s.forwarded)]

/-- The fields that are read from tags; a log says by its type whether it was an error. -/
def tagFields (out : Events.Envelope) : List (GoString × TagField) :=
  envelopeFields out ++
  (out.httpStartStop.elim [] httpFields ++
  (out.logMessage.elim []
    (fun l => [(str "source_type", .text l.sourceType), (str "__v1_type", .flag false)]) ++
  out.error.elim [] (fun err => [(str "source", .text err.source), (str "code", .int32 err.code),
    (str "__v1_type", .flag true)])))

/-- The names that `ToV1` removes from the tag map, and those of the ids. -/
def removedNames (rd : Reading) (e : V2.Envelope) : List GoString :=
  baseKeys ++ movedKeys rd e ++ [str "source_id", str "instance_id"]

/-- The tag map and the fields use the text that `getV2Tag` finds in the envelope before the
call. -/
structure OneRule (x : Extern) (e : V2.Envelope) (h : Heap) : Prop where
  tags : ∀ out ∈ toV1View x e h, ∀ k ∉ removedNames (reading x e h) e,
    ((reading x e h).tag k).isSome = true ∨ ((reading x e h).dep k).isSome = true →
    out.2 k = some (getV2Tag x h e k)
  fields : ∀ out ∈ toV1View x e h, ∀ p ∈ tagFields out.1,
    ((reading x e h).tag p.1).isSome = true → ((reading x e h).dep p.1).isSome = true →
    p.2 = readField x p.1 (getV2Tag x h e p.1)

/-- The names of the tags that the conversion of the message reads for a field after the maps are
merged. -/
def lateNames (rd : Reading) (e : V2.Envelope) : List GoString :=
  match e.message with
  | some (.log _) =>
    if rd.dep (str "__v1_type") = some (str "Error") then
      [str "source", str "code", str "__v1_type"]
    else [str "source_type", str "__v1_type"]
  | some (.gauge _) => [str "origin", str "deployment", str "job", str "index", str "ip"]
  | some (.timer _) => timerKeys
  | _ => []

/-- The names that it reads before. -/
def earlyNames (e : V2.Envelope) : List GoString :=
  match e.message with
  | some (.gauge _) => []
  | _ => [str "origin", str "deployment", str "job", str "index", str "ip"]

/-- There is something to convert: a message, and for a gauge that is no container metric at least
one metric and none that is nil. -/
def Yields (e : V2.Envelope) : Prop :=
  match e.message with
  | none => False
  | some (.gauge g) =>
    IsContainer g ∨ (g.metrics.entries ≠ [] ∧ ∀ p ∈ g.metrics.entries, p.2.isSome = true)
  | some _ => True

/-! ## What is read when -/

section

variable {x : Extern} {e : V2.Envelope} {rd : Reading}

/-- The fields as they are read. -/
def readFields (x : Extern) (tag : GoString → GoString) (ks : List GoString) :
    List (GoString × TagField) := ks.map (fun k => (k, readField x k (tag k)))

/-- An envelope of the result: its tags, and its fields by when they are read. -/
structure Shape (x : Extern) (e : V2.Envelope) (rd : Reading)
    (out : Events.Envelope × (GoString → Option GoString)) : Prop where
  tags : out.2 = without (movedKeys rd e) (rd.base e)
  fields : tagFields out.1 =
    readFields x rd.get (earlyNames e) ++ readFields x (rd.after e).get (lateNames rd e)

theorem shape_log {h : Heap} {l : V2.Log} (he : e.message = some (.log l)) :
    Shape x e (reading x e h) (logSpec (reading x e h) e l) := by
  unfold logSpec
  split
  · next herror =>
    have hdep := (marker_iff x e h).mp herror
    refine ⟨by simp [movedKeys, he, hdep], ?_⟩
    simp [tagFields, envelopeFields, baseEnvelope, errorPayload, readFields, earlyNames, lateNames,
      readField, he, hdep, herror]
  · next herror =>
    have hdep := mt (marker_iff x e h).mpr herror
    refine ⟨by simp [movedKeys, he, hdep], ?_⟩
    simp [tagFields, envelopeFields, baseEnvelope, logPayload, readFields, earlyNames, lateNames,
      readField, he, hdep, herror]

theorem shape_gauge {g : V2.Gauge} {out : Events.Envelope × (GoString → Option GoString)}
    (he : e.message = some (.gauge g)) (hout : out ∈ gaugeSpec x rd e g) : Shape x e rd out := by
  have htags : rd.base e = without (movedKeys rd e) (rd.base e) := by
    simp only [movedKeys, he]
    exact (without_nil _).symm
  unfold gaugeSpec at hout
  split at hout
  · cases List.mem_singleton.mp hout
    refine ⟨htags, ?_⟩
    simp [tagFields, envelopeFields, baseEnvelope, readFields, earlyNames, lateNames, readField, he]
  · split at hout
    · obtain ⟨p, _, hp⟩ := List.mem_filterMap.mp hout
      obtain ⟨m, _, rfl⟩ := Option.map_eq_some_iff.mp hp
      refine ⟨htags, ?_⟩
      simp [tagFields, envelopeFields, baseEnvelope, readFields, earlyNames, lateNames, readField,
        he]
    · cases hout

theorem shape_of_mem {h : Heap} {out : Events.Envelope × (GoString → Option GoString)}
    (hout : out ∈ toV1Spec x e (reading x e h)) : Shape x e (reading x e h) out := by
  unfold toV1Spec at hout
  split at hout
  · next he =>
    cases List.mem_singleton.mp hout
    exact shape_log he
  · next he =>
    cases List.mem_singleton.mp hout
    refine ⟨by simp only [movedKeys, he]; exact (without_nil _).symm, ?_⟩
    simp [tagFields, envelopeFields, baseEnvelope, readFields, earlyNames, lateNames, readField, he]
  · next he => exact shape_gauge he hout
  · next he =>
    cases List.mem_singleton.mp hout
    refine ⟨by simp only [movedKeys, he], ?_⟩
    simp [tagFields, envelopeFields, baseEnvelope, httpFields, timerPayload, readFields, earlyNames,
      lateNames, timerKeys, readField, he]
  · cases hout

theorem gaugeSpec_ne_nil_iff (g : V2.Gauge) :
    gaugeSpec x rd e g ≠ [] ↔
      IsContainer g ∨ (g.metrics.entries ≠ [] ∧ ∀ p ∈ g.metrics.entries, p.2.isSome = true) := by
  unfold gaugeSpec
  split
  · next hcontainer => simp [hcontainer]
  · next hcontainer =>
    split
    · next hall =>
      have hsome := List.all_eq_true.mp hall
      simp only [hcontainer, false_or, ne_eq, List.filterMap_eq_nil_iff, Option.map_eq_none_iff]
      refine ⟨fun hne => ⟨?_, hsome⟩, ?_⟩
      · intro hnil
        rw [hnil] at hne
        exact hne nofun
      · rintro ⟨hne, _⟩ hnone
        obtain ⟨p, hp⟩ := List.exists_mem_of_ne_nil _ hne
        have hp' := hsome p hp
        rw [hnone p hp] at hp'
        cases hp'
    · next hall =>
      simp only [hcontainer, ne_eq, not_true_eq_false, false_or, false_iff, not_and]
      intro _ hsome
      exact hall (List.all_eq_true.mpr hsome)

/-- The conversion returns an envelope. -/
theorem yields_iff : Yields e ↔ toV1Spec x e rd ≠ [] := by
  unfold Yields toV1Spec
  split
  · next he => simp [he]
  · next he =>
    rw [he]
    exact (gaugeSpec_ne_nil_iff _).symm
  · next m hgauge he =>
    rw [he]
    cases m with
    | gauge g => exact absurd rfl (hgauge g)
    | _ => simp

/-! ## Keys in both maps -/

theorem get_of_tag {k v : GoString} (htag : rd.tag k = some v) : rd.get k = v := by
  rw [Reading.get, htag]
  rfl

/-- An envelope with a tag has a tag map. -/
theorem nilTags_of_tag {h : Heap} {k v : GoString} (htag : (reading x e h).tag k = some v) :
    (reading x e h).nilTags = false := by
  cases ht : e.tags with
  | some r => simp [reading, ht]
  | none => simp [reading, ht] at htag

theorem base_of_ne {k : GoString} (hk : k ∉ [str "source_id", str "instance_id"]) :
    rd.base e k = if k ∈ baseKeys then none else (rd.dep k).or (rd.tag k) := by
  simp only [List.mem_cons, List.not_mem_nil, or_false, not_or] at hk
  simp [Reading.base, hk.1, hk.2]

/-- After the merge a deprecated tag is read, whether its name has been removed or not. -/
theorem after_get_of_dep {k w : GoString} (hnil : rd.nilTags = false)
    (hk : k ∉ [str "source_id", str "instance_id"]) (hdep : rd.dep k = some w) :
    (rd.after e).get k = w := by
  rw [Reading.get, Reading.after_tag hnil, Reading.after_dep, base_of_ne hk, hdep]
  split <;> rfl

theorem lateNames_ne_ids {k : GoString} (hk : k ∈ lateNames rd e) :
    k ∉ [str "source_id", str "instance_id"] := by
  unfold lateNames at hk
  split at hk
  · split at hk <;> revert k <;> decide
  · revert k
    decide
  · revert k
    decide
  · cases hk

theorem mem_readFields {tag : GoString → GoString} {ks : List GoString} {p : GoString × TagField} :
    p ∈ readFields x tag ks ↔ p.1 ∈ ks ∧ p.2 = readField x p.1 (tag p.1) := by
  rw [readFields, List.mem_map]
  constructor
  · rintro ⟨k, hk, rfl⟩
    exact ⟨hk, rfl⟩
  · rintro ⟨hk, hp⟩
    exact ⟨p.1, hk, by rw [← hp]⟩

variable {h : Heap} {out : Events.Envelope × (GoString → Option GoString)}

/-- The tag at a name that is not removed is the one that `getV2Tag` finds, unless both maps have
the name and the texts differ. -/
theorem tags_iff (hshape : Shape x e (reading x e h) out) {k : GoString}
    (hk : k ∉ removedNames (reading x e h) e) :
    (((reading x e h).tag k).isSome = true ∨ ((reading x e h).dep k).isSome = true →
      out.2 k = some ((reading x e h).get k)) ↔
    ∀ v w, (reading x e h).tag k = some v → (reading x e h).dep k = some w → v = w := by
  simp only [removedNames, List.mem_append, not_or] at hk
  obtain ⟨⟨hbase, hpayload⟩, hids⟩ := hk
  have htags : out.2 k = ((reading x e h).dep k).or ((reading x e h).tag k) := by
    rw [hshape.tags, without, if_neg hpayload, base_of_ne hids, if_neg hbase]
  rw [htags, Reading.get]
  cases (reading x e h).tag k with
  | none => cases (reading x e h).dep k <;> simp
  | some v =>
    cases (reading x e h).dep k with
    | none => simp
    | some w => simp [eq_comm]

/-- The fields that are read late are those that `getV2Tag` would give, unless both maps have the
name and the texts read differently. -/
theorem fields_iff (hshape : Shape x e (reading x e h) out) :
    (∀ p ∈ tagFields out.1, ((reading x e h).tag p.1).isSome = true →
      ((reading x e h).dep p.1).isSome = true →
      p.2 = readField x p.1 ((reading x e h).get p.1)) ↔
    ∀ k ∈ lateNames (reading x e h) e, ∀ v w, (reading x e h).tag k = some v →
      (reading x e h).dep k = some w → readField x k v = readField x k w := by
  rw [hshape.fields]
  constructor
  · intro hfields k hk v w htag hdep
    have hlate : (k, readField x k (((reading x e h).after e).get k)) ∈
        readFields x ((reading x e h).after e).get (lateNames (reading x e h) e) :=
      mem_readFields.mpr ⟨hk, rfl⟩
    have hfield := hfields _ (List.mem_append_right _ hlate) (by rw [htag]; rfl)
      (by rw [hdep]; rfl)
    simp only at hfield
    rw [get_of_tag htag, after_get_of_dep (nilTags_of_tag htag) (lateNames_ne_ids hk) hdep]
      at hfield
    exact hfield.symm
  · intro hlate p hp htag hdep
    obtain ⟨v, htag⟩ := Option.isSome_iff_exists.mp htag
    obtain ⟨w, hdep⟩ := Option.isSome_iff_exists.mp hdep
    obtain hp | hp := List.mem_append.mp hp
    · exact (mem_readFields.mp hp).2
    · obtain ⟨hk, hread⟩ := mem_readFields.mp hp
      rw [hread, after_get_of_dep (nilTags_of_tag htag) (lateNames_ne_ids hk) hdep,
        get_of_tag htag]
      exact (hlate p.1 hk v w htag hdep).symm

end

/-- For every v2 envelope: the tag map of each v1 envelope and its fields use the text that
`getV2Tag` finds before the call exactly if there is nothing to convert, or no tag that stays in the
map is in both maps with different texts, and no tag that is read after the merge is in both with
texts that give different fields. -/
theorem one_rule_iff (x : Extern) (e : V2.Envelope) (h : Heap) :
    OneRule x e h ↔
      (Yields e → ∀ k v w, (reading x e h).tag k = some v → (reading x e h).dep k = some w →
        (k ∉ removedNames (reading x e h) e → v = w) ∧
        (k ∈ lateNames (reading x e h) e → readField x k v = readField x k w)) := by
  have hshape : ∀ out ∈ toV1View x e h, Shape x e (reading x e h) out := by
    intro out hout
    rw [toV1View_eq_spec] at hout
    exact shape_of_mem hout
  have hyields : Yields e ↔ toV1View x e h ≠ [] := by
    rw [toV1View_eq_spec]
    exact yields_iff
  constructor
  · rintro ⟨htags, hfields⟩ hyield k v w htag hdep
    obtain ⟨out, hout⟩ := List.exists_mem_of_ne_nil _ (hyields.mp hyield)
    rw [getV2Tag_eq] at htags hfields
    refine ⟨fun hk => ?_, fun hk => ?_⟩
    · exact (tags_iff (hshape out hout) hk).mp (htags out hout k hk) v w htag hdep
    · exact (fields_iff (hshape out hout)).mp (hfields out hout) k hk v w htag hdep
  · intro hagree
    have hagree : ∀ out ∈ toV1View x e h, _ := fun out hout =>
      hagree (hyields.mpr (List.ne_nil_of_mem hout))
    refine ⟨?_, ?_⟩
    · intro out hout k hk
      rw [getV2Tag_eq]
      exact (tags_iff (hshape out hout) hk).mpr (fun v w htag hdep =>
        (hagree out hout k v w htag hdep).1 hk)
    · intro out hout
      rw [getV2Tag_eq]
      exact (fields_iff (hshape out hout)).mpr (fun k hk v w htag hdep =>
        (hagree out hout k v w htag hdep).2 hk)

/-- A timer with three tags in both maps. -/
def timerInBoth : V2.Envelope where
  tags := some 0
  deprecatedTags := some 0
  message := some (.timer { name := str "http", start := 1, stop := 2 })

def timerHeap : Heap where
  tags _ := List.toAList [⟨str "zone", str "z1"⟩, ⟨str "status_code", str "200"⟩,
    ⟨str "origin", str "router"⟩]
  deprecatedTags _ := List.toAList [⟨str "zone", some ⟨some (.text (str "z2"))⟩⟩,
    ⟨str "status_code", some ⟨some (.text (str "404"))⟩⟩,
    ⟨str "origin", some ⟨some (.text (str "old"))⟩⟩]

/-- The origin is that of `Tags`, the zone in the tag map and the status code are those of
`DeprecatedTags`. -/
theorem two_rules :
    (toV1View sampleExtern timerInBoth timerHeap).map (fun out => (out.1.origin,
        out.1.httpStartStop.map Events.HttpStartStop.statusCode, out.2 (str "zone"))) =
      [(str "router", some 404, some (str "z2"))] ∧
    [str "origin", str "status_code", str "zone"].map
        (getV2Tag sampleExtern timerHeap timerInBoth) =
      [str "router", str "200", str "z1"] := by
  decide +kernel

end Loggregator.Conversion
