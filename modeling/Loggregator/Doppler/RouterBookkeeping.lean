import Loggregator.Doppler.RouterDelivery

/-!
# The bookkeeping of the router

A history is the list of the calls of `Register` and of the functions that it returned. Cleanup
functions are called in any order and any number of times. The nested maps hold just the setters
whose cleanup has not been called, each of them in one place, and nothing that is empty.
-/

namespace Loggregator.Doppler.GrpcManager

open Lib

variable {σ D : Type}

/-- A call of `Register`, or of the cleanup function that it returned. -/
inductive Call (σ : Type) where
  | register (req : SubscriptionRequest) (dataSetter : σ)
  | cleanup (req : SubscriptionRequest) (dataSetter : σ)
  deriving DecidableEq

/-- The registrations of a history. -/
def registrations (calls : List (Call σ)) : List (Registration σ) :=
  calls.filterMap (fun
    | .register req s => some (req, s)
    | .cleanup _ _ => none)

/-- Setters are pairwise distinct, and a cleanup function is called after it was returned. -/
structure Valid (calls : List (Call σ)) : Prop where
  distinct : ((registrations calls).map Prod.snd).Nodup
  returned : ∀ before req s after, calls = before ++ .cleanup req s :: after →
    (req, s) ∈ registrations before

variable {calls : List (Call σ)} {req : SubscriptionRequest} {s : σ}

theorem mem_registrations :
    (req, s) ∈ registrations calls ↔ .register req s ∈ calls := by
  simp only [registrations, List.mem_filterMap]
  constructor
  · rintro ⟨call, hcall, heq⟩
    cases call with
    | register req' s' =>
      cases heq
      exact hcall
    | cleanup => cases heq
  · intro h
    exact ⟨.register req s, h, rfl⟩

theorem registrations_concat (calls : List (Call σ)) (call : Call σ) :
    registrations (calls ++ [call]) = registrations calls ++ registrations [call] :=
  List.filterMap_append

theorem Valid.init {call : Call σ} (h : Valid (calls ++ [call])) :
    Valid calls := by
  refine ⟨?_, ?_⟩
  · have hdistinct := h.distinct
    rw [registrations_concat, List.map_append] at hdistinct
    exact hdistinct.of_append_left
  · intro before req s after hcalls
    refine h.returned before req s (after ++ [call]) ?_
    rw [hcalls, List.append_assoc, List.cons_append]

/-- The setter of a cleanup function was registered. -/
theorem Valid.register_of_cleanup (h : Valid calls) (hmem : .cleanup req s ∈ calls) :
    .register req s ∈ calls := by
  obtain ⟨before, after, hcalls⟩ := List.append_of_mem hmem
  have hreg := mem_registrations.mp (h.returned before req s after hcalls)
  rw [hcalls]
  exact List.mem_append_left _ hreg

variable [DecidableEq σ]

/-- The router after a call. -/
def Router.call (r : Router σ) : Call σ → Router σ
  | .register req s => r.registerSetter req s
  | .cleanup req s => r.cleanup req s

/-- A new router after the calls of a history. -/
def routerAfter (calls : List (Call σ)) : Router σ := calls.foldl Router.call {}

theorem routerAfter_concat (calls : List (Call σ)) (call : Call σ) :
    routerAfter (calls ++ [call]) = (routerAfter calls).call call := by
  rw [routerAfter, List.foldl_concat]
  rfl

/-- The registrations whose cleanup has not been called. -/
def liveAfter (calls : List (Call σ)) : List (Registration σ) :=
  (registrations calls).filter (fun p => decide (.cleanup p.1 p.2 ∉ calls))

theorem liveAfter_register (h : Valid (calls ++ [.register req s])) :
    liveAfter (calls ++ [.register req s]) = liveAfter calls ++ [(req, s)] := by
  have hfresh : .cleanup req s ∉ calls := by
    intro hmem
    have hreg := mem_registrations.mpr (h.init.register_of_cleanup hmem)
    have hdistinct := h.distinct
    rw [registrations_concat, List.map_append, List.nodup_append'] at hdistinct
    exact hdistinct.2.2 (List.mem_map_of_mem hreg) (List.mem_singleton_self s)
  have hcalls : ∀ p : Registration σ,
      decide (.cleanup p.1 p.2 ∉ calls ++ [.register req s]) =
        decide (.cleanup p.1 p.2 ∉ calls) := by
    intro p
    simp
  have hreg : registrations [.register req s] = [(req, s)] := rfl
  simp only [liveAfter, hcalls, registrations_concat, hreg, List.filter_append]
  simp [hfresh]

theorem liveAfter_cleanup (h : Valid (calls ++ [.cleanup req s])) :
    liveAfter (calls ++ [.cleanup req s]) = (liveAfter calls).filter (fun p => p.2 ≠ s) := by
  have hreg : (req, s) ∈ registrations calls := h.returned calls req s [] rfl
  have hall : registrations (calls ++ [.cleanup req s]) = registrations calls := by
    rw [registrations_concat]
    exact List.append_nil _
  rw [liveAfter, hall, liveAfter, List.filter_filter]
  refine List.filter_congr (fun p hp => ?_)
  -- the setters are distinct, so the setter stands for its registration
  have hsame : p.2 = s ↔ p.1 = req ∧ p.2 = s := by
    constructor
    · intro hs
      have heq : p = (req, s) := List.inj_on_of_nodup_map h.init.distinct hp hreg hs
      rw [heq]
      exact ⟨rfl, rfl⟩
    · exact fun hp => hp.2
  rw [← Bool.decide_and, decide_eq_decide, List.mem_append, List.mem_singleton, Call.cleanup.injEq,
    not_or, ← hsame]
  exact And.comm

theorem reachable_routerAfter (h : Valid calls) :
    Reachable (routerAfter calls) (registrations calls) (liveAfter calls) := by
  induction calls using List.reverseRecOn with
  | nil => exact Reachable.init
  | append_singleton calls call ih =>
    have hr := ih h.init
    rw [routerAfter_concat]
    cases call with
    | register req s =>
      rw [liveAfter_register h, registrations_concat]
      refine Reachable.register req s hr ?_
      have hdistinct := h.distinct
      rw [registrations_concat, List.map_append, List.nodup_append'] at hdistinct
      exact fun hmem => hdistinct.2.2 hmem (List.mem_singleton_self s)
    | cleanup req s =>
      have hall : registrations (calls ++ [.cleanup req s]) = registrations calls := by
        rw [registrations_concat]
        exact List.append_nil _
      rw [liveAfter_cleanup h, hall]
      exact Reachable.cleanup req s hr (h.returned calls req s [] rfl)

/-! ## What the maps hold -/

/-- Two routers hold the same lists under the same keys. -/
structure Router.Same (r r' : Router σ) : Prop where
  filters : ∀ f, (r.subscriptions.lookup f).isSome = (r'.subscriptions.lookup f).isSome
  shards : ∀ f id, (r.shards f).lookup id = (r'.shards f).lookup id

section Inv

variable {r : Router σ} {all live : List (Registration σ)}

omit [DecidableEq σ] in
/-- A list is in the map just when it is not empty. -/
theorem Inv.lookup_shards (hi : Inv r all live) (f : Filter) (id : GoString) :
    (r.shards f).lookup id = if r.setters f id = [] then none else some (r.setters f id) := by
  cases hl : (r.shards f).lookup id with
  | none =>
    have hnil : r.setters f id = [] := by rw [Router.setters, hl, Option.getD_none]
    rw [if_pos hnil]
  | some l =>
    have hsetters : r.setters f id = l := by rw [Router.setters, hl, Option.getD_some]
    rw [hsetters, if_neg (hi.setters_ne f id l hl)]

omit [DecidableEq σ] in
/-- A filter is in the map just when it has a setter. -/
theorem Inv.lookup_filter (hi : Inv r all live) (f : Filter) :
    (r.subscriptions.lookup f).isSome = true ↔ ∃ id, r.setters f id ≠ [] := by
  constructor
  · intro hsome
    obtain ⟨m, hm⟩ := Option.isSome_iff_exists.mp hsome
    obtain ⟨⟨id, l⟩, hmem⟩ := List.exists_mem_of_ne_nil _ (hi.shards_ne f m hm)
    have hshards : r.shards f = m := by rw [Router.shards, hm, Option.getD_some]
    have hl : (r.shards f).lookup id = some l := by
      rw [hshards]
      exact AList.mem_lookup_iff.mpr hmem
    refine ⟨id, ?_⟩
    rw [Router.setters, hl, Option.getD_some]
    exact hi.setters_ne f id l hl
  · rintro ⟨id, hne⟩
    cases hm : r.subscriptions.lookup f with
    | some m => rfl
    | none =>
      refine absurd ?_ hne
      rw [Router.setters, Router.shards, hm]
      rfl

omit [DecidableEq σ] in
/-- The setters of all filters and shards say what the maps hold. -/
theorem Inv.same {r' : Router σ} {all' live' : List (Registration σ)} (hi : Inv r all live)
    (hi' : Inv r' all' live') (h : ∀ f id, r.setters f id = r'.setters f id) : r.Same r' := by
  refine ⟨fun f => ?_, fun f id => ?_⟩
  · rw [Bool.eq_iff_iff, hi.lookup_filter, hi'.lookup_filter]
    simp only [h]
  · rw [hi.lookup_shards, hi'.lookup_shards, h]

omit [DecidableEq σ] in
theorem Inv.subscriptions_eq_empty (hi : Inv r all []) : r.subscriptions = ∅ := by
  have hnone : ∀ f, r.subscriptions.lookup f = none := by
    intro f
    rw [← Option.not_isSome_iff_eq_none, hi.lookup_filter]
    rintro ⟨id, hne⟩
    exact hne (hi.setters f id)
  apply AList.ext
  refine List.eq_nil_iff_forall_not_mem.mpr ?_
  rintro ⟨f, m⟩ hmem
  have hm := AList.mem_lookup_iff.mpr hmem
  rw [Option.mem_def, hnone f] at hm
  cases hm

/-- A registered setter is in one place while it is live, and nowhere else. -/
theorem Inv.count_setters (hi : Inv r all live) {req : SubscriptionRequest} {s : σ}
    (hmem : (req, s) ∈ all) (f : Filter) (id : GoString) :
    (r.setters f id).count s =
      if (req, s) ∈ live ∧ convertFilter req = f ∧ req.shardID = id then 1 else 0 := by
  rw [hi.setters]
  split
  · next h =>
    exact List.count_eq_one_of_mem (hi.registered_nodup f id)
      (mem_registered.mpr ⟨req, h.1, h.2⟩)
  · next h =>
    rw [List.count_eq_zero]
    intro hs
    obtain ⟨req', hlive, hplace⟩ := mem_registered.mp hs
    obtain rfl := hi.unique hmem (hi.sublist.subset hlive)
    exact h ⟨hlive, hplace⟩

/-- A cleanup function takes its setter out and leaves the others in their order. -/
theorem Inv.setters_cleanup_eq (hi : Inv r all live) {req : SubscriptionRequest} {s : σ}
    (hmem : (req, s) ∈ all) (f : Filter) (id : GoString) :
    (r.cleanup req s).setters f id = (r.setters f id).filter (fun s' => s' ≠ s) := by
  rw [(hi.cleanup req s hmem).setters, registered_filter_ne, hi.setters]

end Inv

/-- What holds of a router after the calls of a history. -/
structure Bookkeeping (calls : List (Call σ)) (r : Router σ) : Prop where
  /-- There is no empty map and no empty list. -/
  nonempty : ∀ f m, r.subscriptions.lookup f = some m →
    m.entries ≠ [] ∧ ∀ id l, m.lookup id = some l → l ≠ []
  /-- `SendTo` does not panic. -/
  sends : ∀ (D : Type) (marshal : Events.Envelope → Option D) (draw : Nat → GoString → Nat)
    (appID : GoString) (envelope : Events.Envelope),
    (r.sendTo marshal draw appID envelope).isSome = true
  /-- A setter is in its place from its `Register` until its first cleanup. -/
  stored : ∀ req s, .register req s ∈ calls → ∀ f id, (r.setters f id).count s =
    if .cleanup req s ∉ calls ∧ convertFilter req = f ∧ req.shardID = id then 1 else 0
  /-- No other setter is stored. -/
  known : ∀ f id, ∀ s ∈ r.setters f id, ∃ req, .register req s ∈ calls
  /-- A cleanup function takes out its own setter. -/
  cleanup : ∀ req s, .register req s ∈ calls → ∀ f id,
    (r.cleanup req s).setters f id = (r.setters f id).filter (fun s' => s' ≠ s)
  /-- A second call of a cleanup function changes nothing. -/
  idempotent : ∀ req s, .cleanup req s ∈ calls → (r.cleanup req s).Same r
  /-- Nothing is left after all cleanups. -/
  empty : (∀ req s, .register req s ∈ calls → .cleanup req s ∈ calls) → r.subscriptions = ∅

theorem mem_liveAfter (hreg : .register req s ∈ calls) :
    (req, s) ∈ liveAfter calls ↔ .cleanup req s ∉ calls := by
  rw [liveAfter, List.mem_filter, mem_registrations, decide_eq_true_eq]
  exact and_iff_right hreg

end Loggregator.Doppler.GrpcManager
