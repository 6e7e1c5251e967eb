import Loggregator.Doppler.ContainerMetricSink
import Loggregator.Lib.KeyMax

/-!
# Container metrics from several dopplers

`proxy/container_metrics_handler.go`: `deDupe` collects the answers of the dopplers in a map by
instance index and keeps the envelope with the largest timestamp. The map is ranged over, so the
result has no order. It is one of the selections of the latest envelope of each instance, and the
laws of those hold for it: it does not depend on the order of the answers, nothing changes when it
is applied to its own result, and it can be applied to parts first.
-/

namespace Loggregator.TrafficController.ContainerMetrics

open Lib Doppler Doppler.ContainerMetricSink

section Model

-- `proto.Marshal`, and what `proto.Unmarshal` leaves in the envelope
variable (marshal : Events.Envelope → GoString) (unmarshal : GoString → Events.Envelope)

/-- A turn of the first loop of `deDupe`. -/
def collect (messages : Dict Int32 Events.Envelope) (message : GoString) :
    Dict Int32 Events.Envelope :=
  let envelope := unmarshal message
  match messages.lookup (instanceIndex envelope) with
  | none => messages.insert (instanceIndex envelope) envelope
  | some oldEnvelope =>
    if oldEnvelope.timestamp < envelope.timestamp then
      messages.insert (instanceIndex envelope) envelope
    else messages

/-- The map after the first loop of `deDupe`. -/
def messages (input : List GoString) : Dict Int32 Events.Envelope :=
  input.foldl (collect unmarshal) ∅

/-- `deDupe`, when the map is ranged over in the order of its entries. -/
def deDupe (input : List GoString) : List GoString :=
  (messages unmarshal input).entries.map (fun p => marshal p.2)

/-- What `deDupe` can return, with the map ranged over in any order. -/
def DeDupes (input output : List GoString) : Prop :=
  output.Perm (deDupe marshal unmarshal input)

instance (input output : List GoString) : Decidable (DeDupes marshal unmarshal input output) :=
  inferInstanceAs (Decidable (List.Perm _ _))

end Model

/-! ## The map -/

variable {marshal : Events.Envelope → GoString} {unmarshal : GoString → Events.Envelope}

/-- The sink of a doppler keeps its metrics in the same way. -/
theorem collect_eq (m : Dict Int32 Events.Envelope) (message : GoString) :
    collect unmarshal m message =
      (updateMetric { ttl := 0, metrics := m } (unmarshal message)).metrics := by
  unfold collect updateMetric
  cases hold : m.lookup (instanceIndex (unmarshal message)) with
  | none => simp only [hold]
  | some oldEnvelope =>
    simp only [hold]
    split <;> rfl

theorem lookup_collect (m : Dict Int32 Events.Envelope) (message : GoString) (i : Int32) :
    (collect unmarshal m message).lookup i =
      if i = instanceIndex (unmarshal message) then newer (m.lookup i) (unmarshal message)
      else m.lookup i := by
  rw [collect_eq]
  exact lookup_updateMetric _ _ i

theorem lookup_messages (input : List GoString) (i : Int32) :
    (messages unmarshal input).lookup i = latest (input.map unmarshal) i := by
  induction input using List.reverseRecOn with
  | nil => rfl
  | append_singleton input message ih =>
    rw [messages, List.foldl_append, List.foldl_cons, List.foldl_nil, lookup_collect,
      List.map_append, List.map_cons, List.map_nil, latest_concat]
    rw [messages] at ih
    rw [ih]

/-! ## The selection -/

/-- The time of an envelope, for comparing. -/
def timestamp (e : Events.Envelope) : Int := e.timestamp.toInt

theorem isLatest_of_latest {es : List Events.Envelope} {i : Int32} {e : Events.Envelope}
    (h : latest es i = some e) :
    instanceIndex e = i ∧ IsLatest instanceIndex timestamp es e := by
  have hmem := List.mem_filter.mp (List.mem_of_find?_eq_some h)
  have hindex : instanceIndex e = i := of_decide_eq_true hmem.2
  refine ⟨hindex, hmem.1, ?_⟩
  intro other hother hsame
  have hle := isLatest_iff.mp (List.find?_some h) other
    (List.mem_filter.mpr ⟨hother, decide_eq_true (hsame.trans hindex)⟩)
  exact Int64.le_iff_toInt_le.mp hle

theorem exists_latest {es : List Events.Envelope} {e : Events.Envelope} (he : e ∈ es) :
    ∃ e', latest es (instanceIndex e) = some e' := by
  cases h : latest es (instanceIndex e) with
  | some e' => exact ⟨e', rfl⟩
  | none =>
    have hmem : e ∈ es.filter (fun event => decide (instanceIndex event = instanceIndex e)) :=
      List.mem_filter.mpr ⟨he, decide_eq_true rfl⟩
    rw [firstLatest_eq_none h] at hmem
    cases hmem

/-- The envelopes of the map, in some order. -/
structure Result (es result : List Events.Envelope) : Prop where
  first : ∀ e ∈ result, latest es (instanceIndex e) = some e
  covers : ∀ e ∈ es, instanceIndex e ∈ result.map instanceIndex
  once : (result.map instanceIndex).Nodup

theorem Result.selects {es result : List Events.Envelope} (h : Result es result) :
    Selects instanceIndex timestamp es result :=
  ⟨fun e he => (isLatest_of_latest (h.first e he)).2, h.covers, h.once⟩

theorem Result.perm {es result result' : List Events.Envelope} (h : Result es result)
    (hperm : result'.Perm result) : Result es result' := by
  refine ⟨fun e he => h.first e (hperm.mem_iff.mp he), ?_, ?_⟩
  · intro e he
    exact (hperm.map instanceIndex).mem_iff.mpr (h.covers e he)
  · exact (hperm.map instanceIndex).nodup_iff.mpr h.once

theorem result_entries {es : List Events.Envelope} {input : List GoString}
    (hinput : input.map unmarshal = es) :
    Result es ((messages unmarshal input).entries.map (·.2)) := by
  have hmem : ∀ p ∈ (messages unmarshal input).entries, latest es p.1 = some p.2 := by
    intro p hp
    rw [← hinput, ← lookup_messages]
    exact AList.mem_lookup_iff.mpr hp
  have hkeys : ((messages unmarshal input).entries.map (·.2)).map instanceIndex =
      (messages unmarshal input).keys := by
    rw [List.map_map, AList.keys, List.keys]
    apply List.map_congr_left
    intro p hp
    exact (isLatest_of_latest (hmem p hp)).1
  refine ⟨?_, ?_, ?_⟩
  · intro e he
    obtain ⟨p, hp, rfl⟩ := List.mem_map.mp he
    rw [(isLatest_of_latest (hmem p hp)).1]
    exact hmem p hp
  · intro e he
    obtain ⟨e', he'⟩ := exists_latest he
    rw [← hinput, ← lookup_messages] at he'
    rw [hkeys]
    exact AList.mem_keys.mp (AList.lookup_isSome.mp (Option.isSome_iff_exists.mpr ⟨e', he'⟩))
  · rw [hkeys]
    exact (messages unmarshal input).nodupKeys

/-- The envelopes that unmarshalling gets back from what was marshalled. -/
def Inverts (marshal : Events.Envelope → GoString) (unmarshal : GoString → Events.Envelope)
    (es : List Events.Envelope) : Prop :=
  ∀ e ∈ es, unmarshal (marshal e) = e

theorem Inverts.map {es : List Events.Envelope} (h : Inverts marshal unmarshal es) :
    (es.map marshal).map unmarshal = es := by
  rw [List.map_map]
  exact (List.map_congr_left (g := id) h).trans (List.map_id es)

theorem Inverts.mono {es es' : List Events.Envelope} (h : Inverts marshal unmarshal es)
    (hsub : ∀ e ∈ es', e ∈ es) : Inverts marshal unmarshal es' :=
  fun e he => h e (hsub e he)

/-- What `deDupe` returns are the marshalled envelopes of a result. -/
theorem result_of_deDupes {es : List Events.Envelope} (h : Inverts marshal unmarshal es)
    {output : List GoString} (hout : DeDupes marshal unmarshal (es.map marshal) output) :
    ∃ result, output = result.map marshal ∧ Result es result := by
  have hentries : Result es ((messages unmarshal (es.map marshal)).entries.map (·.2)) :=
    result_entries h.map
  -- unmarshalled, the output is a permutation of the envelopes of the map
  refine ⟨output.map unmarshal, ?_, hentries.perm ?_⟩
  · rw [List.map_map]
    refine ((List.map_congr_left (g := id) ?_).trans (List.map_id output)).symm
    intro message hmessage
    obtain ⟨p, hp, rfl⟩ := List.mem_map.mp (hout.mem_iff.mp hmessage)
    have hmem := (hentries.selects.latest p.2 (List.mem_map_of_mem hp)).1
    exact congrArg marshal (h p.2 hmem)
  · refine (hout.map unmarshal).trans (List.Perm.of_eq ?_)
    rw [deDupe, List.map_map]
    apply List.map_congr_left
    intro p hp
    exact h p.2 (hentries.selects.latest p.2 (List.mem_map_of_mem hp)).1

theorem Result.mem {es result : List Events.Envelope} (h : Result es result) :
    ∀ e ∈ result, e ∈ es :=
  fun e he => (h.selects.latest e he).1

/-- A result has the instances of the envelopes. -/
theorem Result.mem_index_iff {es result : List Events.Envelope} (h : Result es result)
    (i : Int32) : i ∈ result.map instanceIndex ↔ i ∈ es.map instanceIndex := by
  constructor
  · intro hi
    obtain ⟨e, he, rfl⟩ := List.mem_map.mp hi
    exact List.mem_map_of_mem (h.mem e he)
  · intro hi
    obtain ⟨e, he, rfl⟩ := List.mem_map.mp hi
    exact h.covers e he

section Results

variable {es result : List Events.Envelope}

/-- `deDupe` of its own result. -/
theorem perm_of_deDupes_again (hinv : Inverts marshal unmarshal es) (hresult : Result es result)
    {again : List GoString} (hagain : DeDupes marshal unmarshal (result.map marshal) again) :
    again.Perm (result.map marshal) := by
  obtain ⟨result', rfl, hresult'⟩ := result_of_deDupes (hinv.mono hresult.mem) hagain
  have hselects := hresult.selects
  exact (hselects.self.perm hresult'.selects hselects.stampsDiffer (fun _ => Iff.rfl)).map _

/-- `deDupe` of the same envelopes in another order. -/
theorem perm_of_deDupes_perm (hinv : Inverts marshal unmarshal es) (hresult : Result es result)
    (hstamps : StampsDiffer instanceIndex timestamp es) {es' : List Events.Envelope}
    (hperm : es'.Perm es) {output : List GoString}
    (hout : DeDupes marshal unmarshal (es'.map marshal) output) :
    output.Perm (result.map marshal) := by
  have hmem : ∀ e, e ∈ es ↔ e ∈ es' := fun e => hperm.symm.mem_iff
  obtain ⟨result', rfl, hresult'⟩ := result_of_deDupes (hinv.mono (fun e => (hmem e).mpr)) hout
  exact (hresult.selects.perm hresult'.selects hstamps hmem).map _

/-- `deDupe` of the results for two parts. -/
theorem perm_of_deDupes_append {xs ys : List Events.Envelope}
    (hinv : Inverts marshal unmarshal (xs ++ ys)) (hresult : Result (xs ++ ys) result)
    (hstamps : StampsDiffer instanceIndex timestamp (xs ++ ys))
    {outX outY merged : List GoString} (hX : DeDupes marshal unmarshal (xs.map marshal) outX)
    (hY : DeDupes marshal unmarshal (ys.map marshal) outY)
    (hmerged : DeDupes marshal unmarshal (outX ++ outY) merged) :
    merged.Perm (result.map marshal) := by
  obtain ⟨resultX, rfl, hresultX⟩ :=
    result_of_deDupes (hinv.mono (fun e => List.mem_append_left ys)) hX
  obtain ⟨resultY, rfl, hresultY⟩ :=
    result_of_deDupes (hinv.mono (fun e => List.mem_append_right xs)) hY
  rw [← List.map_append] at hmerged
  have hsub : ∀ e ∈ resultX ++ resultY, e ∈ xs ++ ys := by
    intro e he
    obtain he | he := List.mem_append.mp he
    · exact List.mem_append_left ys (hresultX.mem e he)
    · exact List.mem_append_right xs (hresultY.mem e he)
  obtain ⟨result', rfl, hresult'⟩ := result_of_deDupes (hinv.mono hsub) hmerged
  have happend := hresultX.selects.append hresultY.selects hresult'.selects
  exact (hresult.selects.perm happend hstamps (fun _ => Iff.rfl)).map _

end Results

/-- `deDupe` returns the first of the latest envelopes of each instance, applied to its own result
it returns the same envelopes, and without two envelopes of an instance at the same time it does
not depend on the order of the messages and can be applied to parts of them first. -/
theorem deDupe_selects (marshal : Events.Envelope → GoString)
    (unmarshal : GoString → Events.Envelope) (es : List Events.Envelope)
    (hinverts : ∀ e ∈ es, unmarshal (marshal e) = e) (output : List GoString)
    (hout : DeDupes marshal unmarshal (es.map marshal) output) :
    (∃ result : List Events.Envelope, output = result.map marshal ∧
      (result.map instanceIndex).Nodup ∧
      (∀ i, i ∈ result.map instanceIndex ↔ i ∈ es.map instanceIndex) ∧
      ∀ e ∈ result, latest es (instanceIndex e) = some e) ∧
    (∀ again, DeDupes marshal unmarshal output again → again.Perm output) ∧
    (StampsDiffer instanceIndex Events.Envelope.timestamp es →
      (∀ es' output', List.Perm es' es → DeDupes marshal unmarshal (es'.map marshal) output' →
        output'.Perm output) ∧
      ∀ xs ys outX outY merged, es = xs ++ ys →
        DeDupes marshal unmarshal (xs.map marshal) outX →
        DeDupes marshal unmarshal (ys.map marshal) outY →
        DeDupes marshal unmarshal (outX ++ outY) merged → merged.Perm output) := by
  have hinv : Inverts marshal unmarshal es := hinverts
  obtain ⟨result, rfl, hresult⟩ := result_of_deDupes hinv hout
  refine ⟨⟨result, rfl, hresult.once, hresult.mem_index_iff, hresult.first⟩, ?_, ?_⟩
  · intro again hagain
    exact perm_of_deDupes_again hinv hresult hagain
  · intro hdiffer
    have hstamps : StampsDiffer instanceIndex timestamp es :=
      fun x hx y hy hi ht => hdiffer x hx y hy hi (Int64.toInt_inj.mp ht)
    constructor
    · intro es' output' hperm hout'
      exact perm_of_deDupes_perm hinv hresult hstamps hperm hout'
    · rintro xs ys outX outY merged rfl hX hY hmerged
      exact perm_of_deDupes_append hinv hresult hstamps hX hY hmerged

/-- A metric of an instance at a time. -/
def metricAt (instanceIndex : Int32) (timestamp : Int64) : Events.Envelope where
  eventType := .containerMetric
  timestamp := timestamp
  containerMetric := some
    { applicationId := str "app", instanceIndex := instanceIndex, cpuPercentage := ⟨0⟩,
      memoryBytes := 0, diskBytes := 0, memoryBytesQuota := 0, diskBytesQuota := 0 }

/-- One byte for the instance and one for the time. -/
def marshalAt (e : Events.Envelope) : GoString :=
  [(instanceIndex e).toUInt32.toUInt8, e.timestamp.toUInt64.toUInt8]

def unmarshalAt : GoString → Events.Envelope
  | [i, t] => metricAt i.toUInt32.toInt32 t.toUInt64.toInt64
  | _ => { eventType := .containerMetric }

/-- The third of four answers is the latest one of instance 1, in whatever order they come. -/
theorem deDupe_selects_metricAt :
    (∃ result : List Events.Envelope, [[1, 7], [2, 5]] = result.map marshalAt ∧
      ∀ e ∈ result, latest [metricAt 1 5, metricAt 2 5, metricAt 1 7, metricAt 1 6]
        (instanceIndex e) = some e) ∧
    List.Perm (deDupe marshalAt unmarshalAt [[1, 7], [1, 6], [1, 5], [2, 5]])
      [[1, 7], [2, 5]] := by
  have hlaws := deDupe_selects marshalAt unmarshalAt
    [metricAt 1 5, metricAt 2 5, metricAt 1 7, metricAt 1 6] (by decide) [[1, 7], [2, 5]]
    (by decide)
  obtain ⟨⟨result, hout, _, _, hfirst⟩, _, hdiffer⟩ := hlaws
  refine ⟨⟨result, hout, hfirst⟩, ?_⟩
  exact (hdiffer (by unfold StampsDiffer; decide)).1
    [metricAt 1 7, metricAt 1 6, metricAt 1 5, metricAt 2 5] _ (by decide) (List.Perm.refl _)

end Loggregator.TrafficController.ContainerMetrics
