import Loggregator.Plumbing.ToV1Spec

/-!
# The metrics of a gauge

`convertGauge` of `plumbing/conversion/tov1.go` makes one value metric of each metric of a gauge,
or one container metric of the whole gauge. It does the latter for every gauge that has the six
metrics of a container, also when it has more; the others are then lost. Five of the six fields
are integers, and a value that is not one is cut.
-/

namespace Loggregator.Conversion

open Lib

/-- A field of a container metric. -/
inductive Field where
  | int32 (v : Int32)
  | float64 (v : Float64)
  | uint64 (v : UInt64)
  deriving DecidableEq

/-- The six fields of a container metric, by the metric of the gauge that each is for. -/
def containerFields (cm : Events.ContainerMetric) : List (GoString × Field) :=
  [(str "instance_index", .int32 cm.instanceIndex), (str "cpu", .float64 cm.cpuPercentage),
   (str "memory", .uint64 cm.memoryBytes), (str "disk", .uint64 cm.diskBytes),
   (str "memory_quota", .uint64 cm.memoryBytesQuota),
   (str "disk_quota", .uint64 cm.diskBytesQuota)]

/-- The field is what the conversion of Go makes of the value. -/
def Field.Converted (x : Extern) : Field → Float64 → Prop
  | .int32 z, v => z = v.toInt32 x.outInt32
  | .float64 w, v => w = v
  | .uint64 n, v => n = v.toUInt64 x.outUInt64

/-- The field is the number that the value is. -/
def Field.Equals : Field → Float64 → Prop
  | .int32 z, v => v.Represents z.toInt
  | .float64 w, v => w = v
  | .uint64 n, v => v.Represents n.toNat

/-- An envelope shows a metric of a gauge, as a value metric or as a field of a container metric
that is the same as its value. -/
def Shows (same : Field → Float64 → Prop) (out : Events.Envelope) (name : GoString)
    (m : V2.GaugeValue) : Prop :=
  out.valueMetric = some { name := name, unit := m.unit, value := m.value } ∨
  ∃ cm field, out.containerMetric = some cm ∧ (name, field) ∈ containerFields cm ∧
    same field m.value

/-- The envelopes show every metric of the gauge and no other. -/
structure NoneLost (same : Field → Float64 → Prop) (g : V2.Gauge)
    (outs : List Events.Envelope) : Prop where
  shown : ∀ name m, metric g name = some m → ∃ out ∈ outs, Shows same out name m
  values : ∀ out ∈ outs, ∀ vm, out.valueMetric = some vm →
    ∃ m, metric g vm.name = some m ∧ vm.unit = m.unit ∧ vm.value = m.value
  fields : ∀ out ∈ outs, ∀ cm, out.containerMetric = some cm →
    ∀ p ∈ containerFields cm, ∃ m, metric g p.1 = some m ∧ same p.2 m.value

/-- The envelopes that `ToV1` returns. -/
def converted (x : Extern) (e : V2.Envelope) (h : Heap) : List Events.Envelope :=
  (toV1View x e h).map Prod.fst

section

variable {x : Extern} {e : V2.Envelope} {g : V2.Gauge} {same : Field → Float64 → Prop}

theorem metric_eq_some_iff {name : GoString} {m : V2.GaugeValue} :
    metric g name = some m ↔ ⟨name, some m⟩ ∈ g.metrics.entries := by
  rw [metric, Option.join_eq_some_iff]
  exact AList.mem_lookup_iff

theorem metricValue_of_metric {name : GoString} {m : V2.GaugeValue}
    (h : metric g name = some m) : metricValue g name = m.value := by
  rw [metricValue, h]
  rfl

/-- The fields are for the required metrics. -/
theorem containerFields_names (cm : Events.ContainerMetric) :
    (containerFields cm).map Prod.fst = required := rfl

theorem exists_metric_of_required (hg : IsContainer g) {name : GoString}
    (hname : name ∈ required) : ∃ m, metric g name = some m :=
  Option.isSome_iff_exists.mp (List.all_eq_true.mp hg.2 name hname)

/-- What was made of the metric is in its field. -/
theorem containerFields_converted {p : GoString × Field}
    (hp : p ∈ containerFields (containerPayload x e g)) :
    p.2.Converted x (metricValue g p.1) := by
  simp only [containerFields, containerPayload, List.mem_cons, List.not_mem_nil, or_false] at hp
  obtain rfl | rfl | rfl | rfl | rfl | rfl := hp <;> rfl

section Container

variable {out : Events.Envelope} (hvalue : out.valueMetric = none)
  (hcontainer : out.containerMetric = some (containerPayload x e g))

include hvalue hcontainer

/-- A container metric that shows the gauge shows no other metric than the required ones, and has
their values. -/
theorem NoneLost.of_container (hsome : ∀ p ∈ g.metrics.entries, p.2.isSome = true)
    (h : NoneLost same g [out]) :
    (∀ name ∈ g.metrics, name ∈ required) ∧
      ∀ p ∈ containerFields (containerPayload x e g), same p.2 (metricValue g p.1) := by
  constructor
  · intro name hname
    obtain ⟨m, hm⟩ := AList.lookup_isSome.mpr hname |> Option.isSome_iff_exists.mp
    obtain ⟨v, rfl⟩ := Option.isSome_iff_exists.mp (hsome _ (AList.mem_lookup_iff.mp hm))
    obtain ⟨out', hout', hshows⟩ := h.shown name v (by rw [metric, hm]; rfl)
    cases List.mem_singleton.mp hout'
    obtain hvm | ⟨cm, field, _, hfield, _⟩ := hshows
    · rw [hvalue] at hvm
      cases hvm
    · rw [← containerFields_names cm]
      exact List.mem_map_of_mem hfield
  · intro p hp
    obtain ⟨m, hm, hsame⟩ := h.fields out (List.mem_singleton_self out) _ hcontainer p hp
    rw [metricValue_of_metric hm]
    exact hsame

theorem noneLost_of_container (hg : IsContainer g) (honly : ∀ name ∈ g.metrics, name ∈ required)
    (hsame : ∀ p ∈ containerFields (containerPayload x e g), same p.2 (metricValue g p.1)) :
    NoneLost same g [out] := by
  refine ⟨?_, ?_, ?_⟩
  · intro name m hm
    have hname : name ∈ required :=
      honly name (AList.mem_keys.mpr (List.mem_map_of_mem (metric_eq_some_iff.mp hm)))
    rw [← containerFields_names (containerPayload x e g)] at hname
    obtain ⟨p, hp, rfl⟩ := List.mem_map.mp hname
    refine ⟨out, List.mem_singleton_self out, Or.inr ⟨_, p.2, hcontainer, hp, ?_⟩⟩
    rw [← metricValue_of_metric hm]
    exact hsame p hp
  · intro out' hout' vm hvm
    cases List.mem_singleton.mp hout'
    rw [hvalue] at hvm
    cases hvm
  · intro out' hout' cm hcm p hp
    cases List.mem_singleton.mp hout'
    rw [hcontainer] at hcm
    cases hcm
    have hname : p.1 ∈ required := by
      rw [← containerFields_names (containerPayload x e g)]
      exact List.mem_map_of_mem hp
    obtain ⟨m, hm⟩ := exists_metric_of_required hg hname
    refine ⟨m, hm, ?_⟩
    rw [← metricValue_of_metric hm]
    exact hsame p hp

/-- A container metric shows the gauge if it has only the required metrics and the fields are the
same as their values. -/
theorem noneLost_container (hg : IsContainer g)
    (hsome : ∀ p ∈ g.metrics.entries, p.2.isSome = true) :
    NoneLost same g [out] ↔
      (∀ name ∈ g.metrics, name ∈ required) ∧
      ∀ p ∈ containerFields (containerPayload x e g), same p.2 (metricValue g p.1) := by
  constructor
  · exact NoneLost.of_container hvalue hcontainer hsome
  · rintro ⟨honly, hsame⟩
    exact noneLost_of_container hvalue hcontainer hg honly hsame

end Container

/-- Value metrics show the metrics as they are. -/
theorem noneLost_values {outs : List Events.Envelope}
    (hshown : ∀ name m, metric g name = some m → ∃ out ∈ outs,
      out.valueMetric = some { name := name, unit := m.unit, value := m.value })
    (honly : ∀ out ∈ outs, out.containerMetric = none ∧ ∃ name m, metric g name = some m ∧
      out.valueMetric = some { name := name, unit := m.unit, value := m.value }) :
    NoneLost same g outs := by
  refine ⟨?_, ?_, ?_⟩
  · intro name m hm
    obtain ⟨out, hout, hvalue⟩ := hshown name m hm
    exact ⟨out, hout, Or.inl hvalue⟩
  · intro out hout vm hvm
    obtain ⟨_, name, m, hm, hvalue⟩ := honly out hout
    rw [hvalue] at hvm
    cases hvm
    exact ⟨m, hm, rfl, rfl⟩
  · intro out hout cm hcm
    rw [(honly out hout).1] at hcm
    cases hcm

/-- What is shown of a gauge depends on whether it is taken for a container metric. -/
theorem noneLost_iff {h : Heap} (hmessage : e.message = some (.gauge g))
    (hsome : ∀ p ∈ g.metrics.entries, p.2.isSome = true) :
    NoneLost same g (converted x e h) ↔
      (IsContainer g → (∀ name ∈ g.metrics, name ∈ required) ∧
        ∀ p ∈ containerFields (containerPayload x e g), same p.2 (metricValue g p.1)) := by
  have hspec : converted x e h = (gaugeSpec x (reading x e h) e g).map Prod.fst := by
    rw [converted, toV1View_eq_spec, toV1Spec, hmessage]
  rw [hspec, gaugeSpec]
  by_cases hg : IsContainer g
  · rw [if_pos hg, List.map_cons, List.map_nil, noneLost_container rfl rfl hg hsome]
    exact (imp_iff_right hg).symm
  · rw [if_neg hg, if_pos (List.all_eq_true.mpr hsome)]
    refine iff_of_true (noneLost_values ?_ ?_) (fun hcontainer => absurd hcontainer hg)
    · intro name m hm
      refine ⟨_, List.mem_map.mpr ⟨_, List.mem_filterMap.mpr
        ⟨⟨name, some m⟩, metric_eq_some_iff.mp hm, rfl⟩, rfl⟩, rfl⟩
    · intro out hout
      obtain ⟨q, hq, rfl⟩ := List.mem_map.mp hout
      obtain ⟨⟨name, v⟩, hp, hv⟩ := List.mem_filterMap.mp hq
      cases v with
      | none => cases hv
      | some m =>
        cases hv
        exact ⟨rfl, name, m, metric_eq_some_iff.mpr hp, rfl⟩

/-- The fields are the numbers that the metrics are if these are integers that fit. -/
theorem containerFields_equals_iff :
    (∀ p ∈ containerFields (containerPayload x e g), p.2.Equals (metricValue g p.1)) ↔
      (∃ z : Int32, (metricValue g (str "instance_index")).Represents z.toInt) ∧
      ∀ name ∈ [str "memory", str "disk", str "memory_quota", str "disk_quota"],
        ∃ n : UInt64, (metricValue g name).Represents n.toNat := by
  have huint : ∀ v : Float64, v.Represents (v.toUInt64 x.outUInt64).toNat ↔
      ∃ n : UInt64, v.Represents n.toNat := by
    intro v
    refine ⟨fun h => ⟨_, h⟩, ?_⟩
    rintro ⟨n, hn⟩
    rwa [hn.toUInt64]
  have hint : ∀ v : Float64, v.Represents (v.toInt32 x.outInt32).toInt ↔
      ∃ z : Int32, v.Represents z.toInt := by
    intro v
    refine ⟨fun h => ⟨_, h⟩, ?_⟩
    rintro ⟨z, hz⟩
    rwa [hz.toInt32]
  simp only [containerFields, containerPayload, List.forall_mem_cons, List.not_mem_nil,
    false_imp_iff, implies_true, and_true, Field.Equals, huint, hint, true_and]

end

/-- For every gauge without nil metrics, `ToV1` keeps every metric, with its value converted to
the type of the field, exactly if the gauge is not taken for a container metric or has no metric
besides the six of one; and it keeps the values as numbers exactly if moreover the five metrics
that become integers are integers of the range of their field. -/
theorem gauge_metrics_kept_iff (x : Extern) (e : V2.Envelope) (h : Heap) (g : V2.Gauge)
    (hmessage : e.message = some (.gauge g)) (hsome : ∀ p ∈ g.metrics.entries, p.2.isSome = true) :
    (NoneLost (Field.Converted x) g (converted x e h) ↔
      (IsContainer g → ∀ name ∈ g.metrics, name ∈ required)) ∧
    (NoneLost Field.Equals g (converted x e h) ↔
      (IsContainer g → (∀ name ∈ g.metrics, name ∈ required) ∧
        (∃ z : Int32, (metricValue g (str "instance_index")).Represents z.toInt) ∧
        ∀ name ∈ [str "memory", str "disk", str "memory_quota", str "disk_quota"],
          ∃ n : UInt64, (metricValue g name).Represents n.toNat)) := by
  rw [noneLost_iff hmessage hsome, noneLost_iff hmessage hsome, containerFields_equals_iff]
  refine ⟨?_, Iff.rfl⟩
  constructor
  · intro hkept hg
    exact (hkept hg).1
  · intro honly hg
    exact ⟨honly hg, fun p hp => containerFields_converted hp⟩

/-- The gauge of a container, with more metrics. -/
def containerGauge (memory : Float64) (more : List (GoString × Option V2.GaugeValue)) :
    V2.Gauge where
  metrics := more.foldl (fun d p => d.insert p.1 p.2)
    ((((((AList.singleton (str "instance_index") (some ⟨str "index", .ofNat 3⟩)).insert
      (str "cpu") (some ⟨str "percentage", .ofNat 10⟩)).insert
      (str "memory") (some ⟨str "bytes", memory⟩)).insert
      (str "disk") (some ⟨str "bytes", .ofNat 2048⟩)).insert
      (str "memory_quota") (some ⟨str "bytes", .ofNat 4096⟩)).insert
      (str "disk_quota") (some ⟨str "bytes", .ofNat 8192⟩))

/-- A gauge with just the metrics of a container, all of them integers, is kept as it is. -/
theorem gauge_metrics_kept_container :
    NoneLost Field.Equals (containerGauge (.ofNat 1024) [])
      (converted sampleExtern { message := some (.gauge (containerGauge (.ofNat 1024) [])) }
        {}) := by
  refine (gauge_metrics_kept_iff sampleExtern _ {} _ rfl (by decide +kernel)).2.mpr ?_
  intro _
  refine ⟨by decide +kernel, ⟨3, by decide +kernel⟩, ?_⟩
  simp only [List.forall_mem_cons, List.not_mem_nil, false_imp_iff, implies_true, and_true]
  exact ⟨⟨1024, by decide +kernel⟩, ⟨2048, by decide +kernel⟩, ⟨4096, by decide +kernel⟩,
    ⟨8192, by decide +kernel⟩⟩

/-- A seventh metric is lost, and a memory of one and a half bytes becomes one byte. -/
theorem gauge_loses_metric :
    let seven := containerGauge (.ofNat 1024) [(str "fd_count", some ⟨str "count", .ofNat 7⟩)]
    let half := containerGauge ⟨0x3FF8000000000000⟩ []
    (converted sampleExtern { message := some (.gauge seven) } {}).map
        (fun out => (out.valueMetric, out.containerMetric.map containerFields)) =
      [(none, some [(str "instance_index", .int32 3), (str "cpu", .float64 (.ofNat 10)),
        (str "memory", .uint64 1024), (str "disk", .uint64 2048),
        (str "memory_quota", .uint64 4096), (str "disk_quota", .uint64 8192)])] ∧
    ¬ NoneLost (Field.Converted sampleExtern) seven
      (converted sampleExtern { message := some (.gauge seven) } {}) ∧
    ¬ NoneLost Field.Equals half
      (converted sampleExtern { message := some (.gauge half) } {}) := by
  refine ⟨by decide +kernel, ?_, ?_⟩
  · rw [noneLost_iff rfl (by decide +kernel)]
    intro hkept
    have hname := (hkept (by decide +kernel)).1 (str "fd_count") (by decide +kernel)
    exact absurd hname (by decide)
  · rw [noneLost_iff rfl (by decide +kernel)]
    intro hkept
    have hequals := (hkept (by decide +kernel)).2 (str "memory", .uint64 1) (by decide +kernel)
    exact absurd hequals (by unfold Field.Equals; decide +kernel)

end Loggregator.Conversion
