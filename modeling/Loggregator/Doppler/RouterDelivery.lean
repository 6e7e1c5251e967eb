import Loggregator.Doppler.Router

/-!
# What the router delivers

`SendTo` looks up four filters. Each matching filter is meant to be among them once. When the
application id is empty the four keys coincide in pairs, and every matching subscription is
served twice; for every other application id delivery is exactly once.
-/

namespace Loggregator.Doppler.GrpcManager

open Lib

variable {σ D : Type}

/-- A filter matches an envelope that is routed for an application id. -/
def Matches (f : Filter) (appID : GoString) (envelope : Events.Envelope) : Prop :=
  (f.appID = [] ∨ f.appID = appID) ∧
    (f.envelopeType = .noType ∨ f.envelopeType = filterTypeFromEnvelope envelope)

/-- What a request asks for: the envelopes of its application, if it names one, and only the log
messages, or only the others, if it names a kind. -/
theorem matches_convertFilter_iff (req : SubscriptionRequest) (appID : GoString)
    (envelope : Events.Envelope) :
    Matches (convertFilter req) appID envelope ↔
      ∀ f ∈ req.filter, (f.appID = [] ∨ f.appID = appID) ∧
        (f.message = some .log → envelope.eventType = .logMessage) ∧
        (f.message = some .metric → envelope.eventType ≠ .logMessage) := by
  obtain ⟨shardID, filter⟩ := req
  cases filter with
  | none => simp [Matches, convertFilter]
  | some f =>
    obtain ⟨fAppID, message⟩ := f
    have hkind : filterTypeFromEnvelope envelope =
        if envelope.eventType = .logMessage then .logType else .metricType := by
      unfold filterTypeFromEnvelope
      cases envelope.eventType <;> rfl
    cases message with
    | none => simp [Matches, convertFilter]
    | some kind =>
      cases kind <;> by_cases hlog : envelope.eventType = .logMessage <;>
        simp [Matches, convertFilter, hkind, hlog]

/-- How often `Set` is called on a setter. -/
def setCount [DecidableEq σ] (calls : List (σ × D)) (s : σ) : Nat :=
  (calls.map Prod.fst).count s

/-- The delivery that the live registrations ask for. -/
structure ExactlyOnce [DecidableEq σ] (live : List (Registration σ)) (appID : GoString)
    (envelope : Events.Envelope) (data : D) (calls : List (σ × D)) : Prop where
  unsharded : ∀ req s, (req, s) ∈ live → Matches (convertFilter req) appID envelope →
    req.shardID = [] → setCount calls s = 1
  sharded : ∀ f id, Matches f appID envelope → id ≠ [] → registered live f id ≠ [] →
    ∃ s ∈ registered live f id, setCount calls s = 1 ∧
      ∀ s' ∈ registered live f id, s' ≠ s → setCount calls s' = 0
  others : ∀ c ∈ calls, c.2 = data ∧
    ∃ req, (req, c.1) ∈ live ∧ Matches (convertFilter req) appID envelope

/-! ## The calls of one pass -/

/-- The calls of `writeToShard` when it does not panic. -/
def shardCalls (draw : Nat) (id : GoString) (setters : List σ) (data : D) : List (σ × D) :=
  if id = [] then setters.map (fun s => (s, data))
  else (setters[draw % setters.length]?).toList.map (fun s => (s, data))

/-- The calls of one pass of the outer loop. -/
def passCalls (draw : GoString → Nat) (m : Shards σ) (data : D) : List (σ × D) :=
  m.entries.flatMap (fun p => shardCalls (draw p.1) p.1 p.2 data)

theorem writeToShard_eq (draw : Nat) (id : GoString) {setters : List σ} (data : D)
    (h : setters ≠ []) :
    writeToShard draw id setters data = some (shardCalls draw id setters data) := by
  unfold writeToShard shardCalls
  split
  · rfl
  · have hlt : draw % setters.length < setters.length :=
      Nat.mod_lt _ (List.length_pos_of_ne_nil h)
    rw [List.getElem?_eq_getElem hlt]
    rfl

private theorem mapM_eq_some {α β : Type} {f : α → Option β} {g : α → β} :
    ∀ l : List α, (∀ a ∈ l, f a = some (g a)) → l.mapM f = some (l.map g)
  | [], _ => rfl
  | a :: l, h => by
    rw [List.mapM_cons, h a List.mem_cons_self,
      mapM_eq_some l (fun b hb => h b (List.mem_cons_of_mem _ hb))]
    rfl

theorem writeToShards_eq (draw : GoString → Nat) (m : Shards σ) (data : D)
    (h : ∀ id l, m.lookup id = some l → l ≠ []) :
    writeToShards draw m data = some (passCalls draw m data) := by
  unfold writeToShards
  rw [mapM_eq_some (g := fun p => shardCalls (draw p.1) p.1 p.2 data)]
  · simp only [passCalls, Option.map_some, List.flatMap_def]
  · rintro ⟨id, l⟩ hp
    exact writeToShard_eq _ _ _ (h id l (AList.mem_lookup_iff.mpr hp))

variable {all live : List (Registration σ)} {data : D} {r : Router σ} {appID : GoString}
  {f : Filter}

theorem sendTo_eq (hi : Inv r all live)
    {marshal : Events.Envelope → Option D} (draw : Nat → GoString → Nat) (appID : GoString)
    {envelope : Events.Envelope} (hm : marshal envelope = some data) :
    r.sendTo marshal draw appID envelope =
      some ((createTypedFilters appID envelope).zipIdx.flatMap
        (fun p => passCalls (draw p.2) (r.shards p.1) data)) := by
  unfold Router.sendTo
  rw [hm]
  simp only
  rw [mapM_eq_some (g := fun p => passCalls (draw p.2) (r.shards p.1) data)]
  · simp only [Option.map_some, List.flatMap_def]
  · intro p _
    exact writeToShards_eq _ _ _ (hi.setters_ne p.1)

theorem mem_shardCalls {draw : Nat} {id : GoString} {setters : List σ} {c : σ × D}
    (h : c ∈ shardCalls draw id setters data) : c.1 ∈ setters ∧ c.2 = data := by
  unfold shardCalls at h
  split at h
  · obtain ⟨s, hs, rfl⟩ := List.mem_map.mp h
    exact ⟨hs, rfl⟩
  · obtain ⟨s, hs, rfl⟩ := List.mem_map.mp h
    rw [Option.mem_toList] at hs
    exact ⟨List.mem_of_getElem? hs, rfl⟩

theorem mem_passCalls {draw : GoString → Nat} {m : Shards σ} {c : σ × D}
    (h : c ∈ passCalls draw m data) :
    c.2 = data ∧ ∃ id l, m.lookup id = some l ∧ c.1 ∈ l := by
  obtain ⟨⟨id, l⟩, hp, hc⟩ := List.mem_flatMap.mp h
  obtain ⟨hmem, hdata⟩ := mem_shardCalls hc
  exact ⟨hdata, id, l, AList.mem_lookup_iff.mpr hp, hmem⟩

section Counting

variable [DecidableEq σ]

theorem setCount_flatMap {α : Type} (l : List α) (g : α → List (σ × D)) (s : σ) :
    setCount (l.flatMap g) s = (l.map (fun a => setCount (g a) s)).sum := by
  induction l with
  | nil => rfl
  | cons a l ih =>
    have hsplit : setCount ((a :: l).flatMap g) s =
        setCount (g a) s + setCount (l.flatMap g) s := by
      simp only [setCount, List.flatMap_cons, List.map_append, List.count_append]
    rw [hsplit, ih, List.map_cons, List.sum_cons]

theorem setCount_eq_zero {calls : List (σ × D)} {s : σ} (h : ∀ c ∈ calls, c.1 ≠ s) :
    setCount calls s = 0 := by
  rw [setCount, List.count_eq_zero]
  intro hmem
  obtain ⟨c, hc, rfl⟩ := List.mem_map.mp hmem
  exact h c hc rfl

/-- A setter of one shard only is called by the write to that shard. -/
theorem setCount_passCalls {draw : GoString → Nat} {m : Shards σ} {data : D} {s : σ}
    {id : GoString} {l : List σ} (hl : m.lookup id = some l)
    (honly : ∀ id' l', m.lookup id' = some l' → s ∈ l' → id' = id) :
    setCount (passCalls draw m data) s = setCount (shardCalls (draw id) id l data) s := by
  have hmem : (⟨id, l⟩ : Sigma fun _ : GoString => List σ) ∈ m.entries :=
    AList.mem_lookup_iff.mp hl
  rw [passCalls, setCount_flatMap, List.sum_map_eq_nsmul_single (⟨id, l⟩ : Sigma _)]
  · rw [List.count_eq_one_of_mem m.nodupKeys.nodup hmem, one_nsmul]
  · rintro ⟨id', l'⟩ hne hp
    have hl' : m.lookup id' = some l' := AList.mem_lookup_iff.mpr hp
    apply setCount_eq_zero
    rintro c hc rfl
    obtain rfl := honly id' l' hl' (mem_shardCalls hc).1
    rw [hl] at hl'
    obtain rfl := Option.some.inj hl'
    exact hne rfl

theorem setCount_shardCalls_nil (draw : Nat) {setters : List σ} (data : D) {s : σ}
    (hnd : setters.Nodup) (hs : s ∈ setters) :
    setCount (shardCalls draw [] setters data) s = 1 := by
  rw [setCount, shardCalls, if_pos rfl, List.map_map]
  show (setters.map id).count s = 1
  rw [List.map_id, List.count_eq_one_of_mem hnd hs]

/-- A write to a proper shard calls one of its setters, once. -/
theorem setCount_shardCalls_of_ne (draw : Nat) {id : GoString} (hid : id ≠ [])
    {setters : List σ} (data : D) (hne : setters ≠ []) :
    ∃ chosen ∈ setters, ∀ s, setCount (shardCalls draw id setters data) s =
      if s = chosen then 1 else 0 := by
  have hlt : draw % setters.length < setters.length :=
    Nat.mod_lt _ (List.length_pos_of_ne_nil hne)
  refine ⟨setters[draw % setters.length], List.getElem_mem hlt, ?_⟩
  intro s
  rw [setCount, shardCalls, if_neg hid, List.getElem?_eq_getElem hlt]
  simp only [Option.toList_some, List.map_cons, List.map_nil, List.count_singleton, beq_iff_eq]
  by_cases h : s = setters[draw % setters.length]
  · rw [if_pos h, if_pos h.symm]
  · rw [if_neg h, if_neg (fun h' => h h'.symm)]

end Counting

/-! ## All four passes -/

/-- The passes of the outer loop that look up a filter. -/
def passes (appID : GoString) (envelope : Events.Envelope) (f : Filter) : List Nat :=
  ((createTypedFilters appID envelope).zipIdx.filter (fun q => q.1 = f)).map Prod.snd

theorem filterTypeFromEnvelope_ne (envelope : Events.Envelope) :
    filterTypeFromEnvelope envelope ≠ .noType := by
  unfold filterTypeFromEnvelope
  split <;> simp

theorem matches_of_mem_createTypedFilters {envelope : Events.Envelope}
    (h : f ∈ createTypedFilters appID envelope) : Matches f appID envelope := by
  simp only [createTypedFilters, List.mem_cons, List.not_mem_nil, or_false] at h
  rcases h with rfl | rfl | rfl | rfl <;> simp [Matches]

/-- A matching filter is looked up once for a proper application id. -/
theorem passes_of_ne {envelope : Events.Envelope} (hid : appID ≠ [])
    (h : Matches f appID envelope) : ∃ i, passes appID envelope f = [i] := by
  have hkind := filterTypeFromEnvelope_ne envelope
  obtain ⟨a, t⟩ := f
  obtain ⟨ha, ht⟩ := h
  simp only at ha ht
  rcases ha with rfl | rfl <;> rcases ht with rfl | rfl <;>
    simp [passes, createTypedFilters, List.zipIdx, hid, hid.symm, hkind,
      hkind.symm]

/-- A matching filter is looked up twice for the empty application id. -/
theorem passes_nil {envelope : Events.Envelope} (h : Matches f [] envelope) :
    ∃ i j, passes [] envelope f = [i, j] := by
  have hkind := filterTypeFromEnvelope_ne envelope
  obtain ⟨a, t⟩ := f
  obtain ⟨ha, ht⟩ := h
  simp only [or_self] at ha ht
  subst ha
  rcases ht with rfl | rfl <;>
    simp [passes, createTypedFilters, List.zipIdx, hkind, hkind.symm]

section

variable (hi : Inv r all live)
include hi

theorem Inv.eq_registered {id : GoString} {l : List σ} (h : (r.shards f).lookup id = some l) :
    l = registered live f id := by
  rw [← hi.setters f id, Router.setters, h, Option.getD_some]

theorem Inv.lookup_registered {id : GoString} (h : registered live f id ≠ []) :
    (r.shards f).lookup id = some (registered live f id) := by
  cases hl : (r.shards f).lookup id with
  | some l => rw [hi.eq_registered hl]
  | none =>
    refine absurd ?_ h
    rw [← hi.setters f id, Router.setters, hl, Option.getD_none]

theorem Inv.registered_nodup (f : Filter) (id : GoString) : (registered live f id).Nodup :=
  hi.nodup.sublist ((List.filter_sublist.trans hi.sublist).map _)

/-- A setter sits in one shard of one filter. -/
theorem Inv.registered_unique {f' : Filter} {id id' : GoString} {s : σ}
    (h : s ∈ registered live f id) (h' : s ∈ registered live f' id') :
    f = f' ∧ id = id' := by
  obtain ⟨req, hreq, rfl, rfl⟩ := mem_registered.mp h
  obtain ⟨req', hreq', rfl, rfl⟩ := mem_registered.mp h'
  obtain rfl := hi.unique (hi.sublist.subset hreq) (hi.sublist.subset hreq')
  exact ⟨rfl, rfl⟩

/-- Only setters of matching registrations are called. -/
theorem Inv.mem_calls {draw : Nat → GoString → Nat} {envelope : Events.Envelope} {c : σ × D}
    (hc : c ∈ (createTypedFilters appID envelope).zipIdx.flatMap
      (fun p => passCalls (draw p.2) (r.shards p.1) data)) :
    c.2 = data ∧ ∃ req, (req, c.1) ∈ live ∧ Matches (convertFilter req) appID envelope := by
  obtain ⟨⟨f, i⟩, hf, hcall⟩ := List.mem_flatMap.mp hc
  obtain ⟨hdata, id, l, hl, hmem⟩ := mem_passCalls hcall
  rw [hi.eq_registered hl] at hmem
  obtain ⟨req, hreq, hconv, -⟩ := mem_registered.mp hmem
  refine ⟨hdata, req, hreq, ?_⟩
  rw [hconv]
  exact matches_of_mem_createTypedFilters (List.fst_mem_of_mem_zipIdx hf)

end

private theorem sum_map_ite {α : Type} (l : List α) (p : α → Prop) [DecidablePred p] (g : α → Nat) :
    (l.map (fun a => if p a then g a else 0)).sum = ((l.filter (fun a => p a)).map g).sum := by
  induction l with
  | nil => rfl
  | cons a l ih => by_cases h : p a <;> simp [h, ih]

section Counting

variable [DecidableEq σ]

section

variable (hi : Inv r all live)
include hi

/-- The calls on a registered setter come from the passes that look up its filter. -/
theorem setCount_sendTo (draw : Nat → GoString → Nat) (appID : GoString)
    (envelope : Events.Envelope) (data : D) {f : Filter} {id : GoString} {s : σ}
    (hs : s ∈ registered live f id) :
    setCount ((createTypedFilters appID envelope).zipIdx.flatMap
        (fun p => passCalls (draw p.2) (r.shards p.1) data)) s =
      ((passes appID envelope f).map
        (fun i => setCount (shardCalls (draw i id) id (registered live f id) data) s)).sum := by
  have hpass : ∀ q : Filter × Nat, setCount (passCalls (draw q.2) (r.shards q.1) data) s =
      if q.1 = f then
        setCount (shardCalls (draw q.2 id) id (registered live f id) data) s
      else 0 := by
    rintro ⟨f', i⟩
    by_cases hf : f' = f
    · subst hf
      rw [if_pos rfl]
      apply setCount_passCalls (hi.lookup_registered (List.ne_nil_of_mem hs))
      intro id' l' hl' hs'
      rw [hi.eq_registered hl'] at hs'
      exact (hi.registered_unique hs' hs).2
    · rw [if_neg hf]
      apply setCount_eq_zero
      rintro c hc rfl
      obtain ⟨-, id', l', hl', hs'⟩ := mem_passCalls hc
      rw [hi.eq_registered hl'] at hs'
      exact hf (hi.registered_unique hs' hs).1
  rw [setCount_flatMap]
  simp only [hpass]
  rw [sum_map_ite, passes, List.map_map]
  rfl

/-- For a proper application id delivery is exactly once. -/
theorem exactlyOnce_of_ne (draw : Nat → GoString → Nat) {appID : GoString}
    (envelope : Events.Envelope) (data : D) (hid : appID ≠ []) :
    ExactlyOnce live appID envelope data ((createTypedFilters appID envelope).zipIdx.flatMap
      (fun p => passCalls (draw p.2) (r.shards p.1) data)) where
  unsharded := by
    intro req s hmem hmatch hshard
    have hs : s ∈ registered live (convertFilter req) [] :=
      mem_registered.mpr ⟨req, hmem, rfl, hshard⟩
    obtain ⟨i, hi'⟩ := passes_of_ne hid hmatch
    rw [setCount_sendTo hi draw appID envelope data hs, hi']
    simpa using setCount_shardCalls_nil (draw i []) data (hi.registered_nodup _ _) hs
  sharded := by
    intro f id hmatch hshard hne
    obtain ⟨i, hi'⟩ := passes_of_ne hid hmatch
    obtain ⟨s, hs, hcount⟩ := setCount_shardCalls_of_ne (draw i id) hshard data hne
    refine ⟨s, hs, ?_, ?_⟩
    · rw [setCount_sendTo hi draw appID envelope data hs, hi']
      simp [hcount]
    · intro s' hs' hother
      rw [setCount_sendTo hi draw appID envelope data hs', hi']
      simp [hcount, hother]
  others := fun _ hc => hi.mem_calls hc

/-- Without a matching registration nothing is called. -/
theorem exactlyOnce_of_no_match (draw : Nat → GoString → Nat) {appID : GoString}
    (envelope : Events.Envelope) (data : D)
    (hno : ∀ req s, (req, s) ∈ live → ¬ Matches (convertFilter req) appID envelope) :
    ExactlyOnce live appID envelope data ((createTypedFilters appID envelope).zipIdx.flatMap
      (fun p => passCalls (draw p.2) (r.shards p.1) data)) where
  unsharded := by
    intro req s hmem hmatch
    exact absurd hmatch (hno req s hmem)
  sharded := by
    intro f id hmatch _ hne
    obtain ⟨s, hs⟩ := List.exists_mem_of_ne_nil _ hne
    obtain ⟨req, hreq, rfl, -⟩ := mem_registered.mp hs
    exact absurd hmatch (hno req s hreq)
  others := fun _ hc => hi.mem_calls hc

/-- For the empty application id every matching registration is served twice. -/
theorem not_exactlyOnce_nil (draw : Nat → GoString → Nat) (envelope : Events.Envelope) (data : D)
    {req : SubscriptionRequest} {s : σ} (hmem : (req, s) ∈ live)
    (hmatch : Matches (convertFilter req) [] envelope) :
    ¬ ExactlyOnce live [] envelope data ((createTypedFilters [] envelope).zipIdx.flatMap
      (fun p => passCalls (draw p.2) (r.shards p.1) data)) := by
  intro honce
  have hs : s ∈ registered live (convertFilter req) req.shardID :=
    mem_registered.mpr ⟨req, hmem, rfl, rfl⟩
  obtain ⟨i, j, hij⟩ := passes_nil hmatch
  by_cases hshard : req.shardID = []
  · have hcount := honce.unsharded req s hmem hmatch hshard
    rw [setCount_sendTo hi draw [] envelope data hs, hij] at hcount
    rw [hshard] at hs hcount
    simp [setCount_shardCalls_nil _ data (hi.registered_nodup _ _) hs] at hcount
  · have hne := List.ne_nil_of_mem hs
    obtain ⟨t, ht, hone, hzero⟩ := honce.sharded _ _ hmatch hshard hne
    obtain ⟨c, hc, hci⟩ := setCount_shardCalls_of_ne (draw i req.shardID) hshard data hne
    obtain ⟨d, hd, hdj⟩ := setCount_shardCalls_of_ne (draw j req.shardID) hshard data hne
    -- the two draws hit one setter twice, or two setters
    have htotal : ∀ u ∈ registered live (convertFilter req) req.shardID,
        setCount ((createTypedFilters [] envelope).zipIdx.flatMap
          (fun p => passCalls (draw p.2) (r.shards p.1) data)) u =
        (if u = c then 1 else 0) + (if u = d then 1 else 0) := by
      intro u hu
      rw [setCount_sendTo hi draw [] envelope data hu, hij]
      simp [hci, hdj]
    rw [htotal t ht] at hone
    have hcz : c ≠ t → (if c = c then 1 else 0) + (if c = d then 1 else 0) = 0 := by
      intro h
      rw [← htotal c hc]
      exact hzero c hc h
    have hdz : d ≠ t → (if d = c then 1 else 0) + (if d = d then 1 else 0) = 0 := by
      intro h
      rw [← htotal d hd]
      exact hzero d hd h
    by_cases htc : c = t
    · subst htc
      by_cases htd : d = c
      · subst htd
        simp at hone
      · have := hdz htd
        simp at this
    · have := hcz htc
      simp at this

end

/-- Delivery is exactly once if and only if the application id is not empty, or nothing that
is registered matches. -/
theorem sendTo_exactlyOnce_iff {r : Router σ} {all live : List (Registration σ)}
    (h : Reachable r all live) (marshal : Events.Envelope → Option D) (draw : Nat → GoString → Nat)
    (appID : GoString) (envelope : Events.Envelope) (data : D) (hm : marshal envelope = some data) :
    (∃ calls, r.sendTo marshal draw appID envelope = some calls ∧
      ExactlyOnce live appID envelope data calls) ↔
    appID ≠ [] ∨
      ∀ req s, (req, s) ∈ live → ¬ Matches (convertFilter req) appID envelope := by
  have hi := inv_of_reachable h
  rw [sendTo_eq hi draw appID hm]
  constructor
  · rintro ⟨calls, hcalls, honce⟩
    obtain rfl := Option.some.inj hcalls
    by_cases hid : appID = []
    · subst hid
      right
      intro req s hmem hmatch
      exact not_exactlyOnce_nil hi draw envelope data hmem hmatch honce
    · exact Or.inl hid
  · rintro (hid | hno)
    · exact ⟨_, rfl, exactlyOnce_of_ne hi draw envelope data hid⟩
    · exact ⟨_, rfl, exactlyOnce_of_no_match hi draw envelope data hno⟩

/-- A router with one subscription that has neither a filter nor a shard. -/
private def oneSubscription : Router Nat := ({} : Router Nat).registerSetter ⟨[], none⟩ 7

private theorem reachable_oneSubscription :
    Reachable oneSubscription [(⟨[], none⟩, 7)] [(⟨[], none⟩, 7)] :=
  Reachable.register ⟨[], none⟩ 7 Reachable.init (by decide)

/-- The subscription, another one to the logs of an application, and one to its metrics. -/
private def threeSubscriptions : Router Nat :=
  (oneSubscription.registerSetter ⟨[], some ⟨str "app", some .log⟩⟩ 8).registerSetter
    ⟨[], some ⟨str "app", some .metric⟩⟩ 9

theorem sendTo_exactlyOnce_app :
    let live := [(⟨[], none⟩, 7), (⟨[], some ⟨str "app", some .log⟩⟩, 8),
      (⟨[], some ⟨str "app", some .metric⟩⟩, 9)]
    threeSubscriptions.sendTo (fun _ => some (str "data")) (fun _ _ => 0) (str "app")
        { eventType := .logMessage } = some [(8, str "data"), (7, str "data")] ∧
      ExactlyOnce live (str "app") { eventType := .logMessage } (str "data")
        [(8, str "data"), (7, str "data")] := by
  intro live
  have hreachable : Reachable threeSubscriptions live live :=
    .register _ 9 (.register _ 8 reachable_oneSubscription (by decide)) (by decide)
  have hcalls : threeSubscriptions.sendTo (fun _ => some (str "data")) (fun _ _ => 0) (str "app")
      { eventType := .logMessage } = some [(8, str "data"), (7, str "data")] := by decide
  obtain ⟨calls, hsend, honce⟩ :=
    (sendTo_exactlyOnce_iff hreachable (fun _ => some (str "data")) (fun _ _ => 0) (str "app")
      { eventType := .logMessage } (str "data") rfl).mpr (Or.inl (by decide))
  cases hsend.symm.trans hcalls
  exact ⟨hcalls, honce⟩

/-- A log message without an application id reaches the one subscription twice. -/
theorem sendTo_twice_without_appID :
    Reachable oneSubscription [(⟨[], none⟩, 7)] [(⟨[], none⟩, 7)] ∧
    oneSubscription.sendTo (fun _ => some (str "data")) (fun _ _ => 0) []
      { eventType := .logMessage } = some [(7, str "data"), (7, str "data")] ∧
    ¬ ExactlyOnce [(⟨[], none⟩, 7)] [] { eventType := .logMessage } (str "data")
      [(7, str "data"), (7, str "data")] := by
  refine ⟨reachable_oneSubscription, by decide, ?_⟩
  intro honce
  have hcount := honce.unsharded ⟨[], none⟩ 7 (by simp)
    ((matches_convertFilter_iff _ _ _).mpr nofun) rfl
  revert hcount
  decide

end Counting

end Loggregator.Doppler.GrpcManager
