import Loggregator.Plumbing.Envelope
import Mathlib.Algebra.BigOperators.Group.List.Basic

/-!
# The subscription router

`doppler/internal/grpcmanager/v1/router.go`. Subscriptions are kept by filter and, below it,
by shard. A setter without a shard gets every matching envelope, the setters of a shard share
them. A setter is an interface value that is compared by identity, so its type is arbitrary
here.

`Reachable` runs the router next to the list of the live registrations, which is all that the
router is for; `Inv` says that the nested maps hold exactly that list.
-/

namespace Loggregator.Doppler.GrpcManager

open Lib

/-- `filterType`. -/
inductive FilterType where
  | noType
  | logType
  | metricType
  deriving DecidableEq

/-- `filter`. -/
structure Filter where
  appID : GoString := []
  envelopeType : FilterType := .noType
  deriving DecidableEq

/-- The message of a `plumbing.Filter`. -/
inductive FilterMessage where
  | log
  | metric
  deriving DecidableEq

/-- `plumbing.Filter`. -/
structure RequestFilter where
  appID : GoString
  message : Option FilterMessage
  deriving DecidableEq

/-- `plumbing.SubscriptionRequest`. -/
structure SubscriptionRequest where
  shardID : GoString
  filter : Option RequestFilter
  deriving DecidableEq

variable {σ D : Type}

/-- The setters below one filter, by shard. -/
abbrev Shards (σ : Type) := Dict GoString (List σ)

/-- `Router`. -/
structure Router (σ : Type) where
  subscriptions : Dict Filter (Shards σ) := ∅

/-- `r.subscriptions[f]`, where a missing key reads as the nil map. -/
def Router.shards (r : Router σ) (f : Filter) : Shards σ := (r.subscriptions.lookup f).getD ∅

/-- `r.subscriptions[f][id]`. -/
def Router.setters (r : Router σ) (f : Filter) (id : GoString) : List σ :=
  ((r.shards f).lookup id).getD []

/-- `convertFilter`. -/
def convertFilter (req : SubscriptionRequest) : Filter :=
  match req.filter with
  | none => {}
  | some f =>
    match f.message with
    | none => { appID := f.appID }
    | some .log => { appID := f.appID, envelopeType := .logType }
    | some .metric => { appID := f.appID, envelopeType := .metricType }

/-- `registerSetter`. -/
def Router.registerSetter (r : Router σ) (req : SubscriptionRequest) (dataSetter : σ) : Router σ :=
  let f := convertFilter req
  let m := r.shards f
  ⟨r.subscriptions.insert f (m.insert req.shardID (r.setters f req.shardID ++ [dataSetter]))⟩

/-- The function that `buildCleanup` returns. -/
def Router.cleanup [DecidableEq σ] (r : Router σ) (req : SubscriptionRequest)
    (dataSetter : σ) : Router σ :=
  let f := convertFilter req
  let setters := (r.setters f req.shardID).filter (fun s => s ≠ dataSetter)
  if setters ≠ [] then
    ⟨r.subscriptions.insert f ((r.shards f).insert req.shardID setters)⟩
  else
    let m := (r.shards f).erase req.shardID
    -- `len` of a missing map is zero, and deleting a missing key does nothing
    if m.entries = [] then ⟨r.subscriptions.erase f⟩
    else ⟨r.subscriptions.insert f m⟩

/-- `filterTypeFromEnvelope`. -/
def filterTypeFromEnvelope (envelope : Events.Envelope) : FilterType :=
  match envelope.eventType with
  | .logMessage => .logType
  | _ => .metricType

/-- `createTypedFilters`. -/
def createTypedFilters (appID : GoString) (envelope : Events.Envelope) : List Filter :=
  [{ appID := appID, envelopeType := .noType },
   { appID := appID, envelopeType := filterTypeFromEnvelope envelope },
   { appID := [], envelopeType := filterTypeFromEnvelope envelope },
   {}]

/-- `writeToShard`: the `Set` calls it makes. `rand.Intn(n)` is any number below `n`, here
`draw % n`, and panics for `n = 0`. -/
def writeToShard (draw : Nat) (id : GoString) (setters : List σ) (data : D) :
    Option (List (σ × D)) :=
  if id = [] then some (setters.map (fun s => (s, data)))
  else (setters[draw % setters.length]?).map (fun s => [(s, data)])

/-- The loop of `SendTo` over the shards of one filter. -/
def writeToShards (draw : GoString → Nat) (m : Shards σ) (data : D) : Option (List (σ × D)) :=
  (m.entries.mapM (fun p => writeToShard (draw p.1) p.1 p.2 data)).map List.flatten

/-- `SendTo`: the `Set` calls in their order, or `none` when a draw panics. `draw i id` is the
random number of the `i`-th pass of the outer loop for the shard `id`. -/
def Router.sendTo (marshal : Events.Envelope → Option D) (draw : Nat → GoString → Nat)
    (r : Router σ) (appID : GoString) (envelope : Events.Envelope) : Option (List (σ × D)) :=
  match marshal envelope with
  | none => some []
  | some data =>
    ((createTypedFilters appID envelope).zipIdx.mapM
      (fun p => writeToShards (draw p.2) (r.shards p.1) data)).map List.flatten

/-! ## Runs -/

/-- A registration: the request and the setter it was made with. -/
abbrev Registration (σ : Type) := SubscriptionRequest × σ

/-- `Reachable r all live`: a run of `Register` and cleanup calls, with pairwise distinct
setters, made the registrations `all` and left `live` of them in place. -/
inductive Reachable [DecidableEq σ] :
    Router σ → List (Registration σ) → List (Registration σ) → Prop
  | init : Reachable {} [] []
  | register {r : Router σ} {all live : List (Registration σ)} (req : SubscriptionRequest)
      (s : σ) : Reachable r all live → s ∉ all.map Prod.snd →
      Reachable (r.registerSetter req s) (all ++ [(req, s)]) (live ++ [(req, s)])
  | cleanup {r : Router σ} {all live : List (Registration σ)} (req : SubscriptionRequest)
      (s : σ) : Reachable r all live → (req, s) ∈ all →
      Reachable (r.cleanup req s) all (live.filter (fun p => p.2 ≠ s))

/-- The setters that are registered for a filter and a shard. -/
def registered (live : List (Registration σ)) (f : Filter) (id : GoString) : List σ :=
  (live.filter (fun p => convertFilter p.1 = f ∧ p.1.shardID = id)).map Prod.snd

/-- The nested maps hold the live registrations, and no empty list and no empty map. -/
structure Inv (r : Router σ) (all live : List (Registration σ)) : Prop where
  setters : ∀ f id, r.setters f id = registered live f id
  shards_ne : ∀ f m, r.subscriptions.lookup f = some m → m.entries ≠ []
  setters_ne : ∀ f id l, (r.shards f).lookup id = some l → l ≠ []
  nodup : (all.map Prod.snd).Nodup
  sublist : live.Sublist all

theorem mem_registered {live : List (Registration σ)} {f : Filter} {id : GoString} {s : σ} :
    s ∈ registered live f id ↔ ∃ req, (req, s) ∈ live ∧ convertFilter req = f ∧
      req.shardID = id := by
  simp only [registered, List.mem_map, List.mem_filter, decide_eq_true_eq]
  constructor
  · rintro ⟨⟨req, s'⟩, ⟨hmem, hf, hid⟩, rfl⟩
    exact ⟨req, hmem, hf, hid⟩
  · rintro ⟨req, hmem, hf, hid⟩
    exact ⟨(req, s), ⟨hmem, hf, hid⟩, rfl⟩

theorem registered_append (live : List (Registration σ)) (req : SubscriptionRequest) (s : σ)
    (f : Filter) (id : GoString) :
    registered (live ++ [(req, s)]) f id =
      registered live f id ++ if convertFilter req = f ∧ req.shardID = id then [s] else [] := by
  by_cases h : convertFilter req = f ∧ req.shardID = id <;> simp [registered, h]

/-- The setters of a run are pairwise distinct, so a setter names its registration. -/
theorem Inv.unique {r : Router σ} {all live : List (Registration σ)} (hi : Inv r all live)
    {req req' : SubscriptionRequest} {s : σ} (h : (req, s) ∈ all) (h' : (req', s) ∈ all) :
    req = req' := by
  have := List.inj_on_of_nodup_map hi.nodup h h' rfl
  exact congrArg Prod.fst this

theorem registered_filter_ne [DecidableEq σ] (live : List (Registration σ)) (s : σ) (f : Filter)
    (id : GoString) :
    registered (live.filter (fun p => p.2 ≠ s)) f id =
      (registered live f id).filter (fun s' => s' ≠ s) := by
  simp only [registered, List.filter_map, List.filter_filter]
  congr 1
  apply List.filter_congr
  intro p _
  simp only [Function.comp, Bool.and_comm]

theorem Inv.empty : Inv ({} : Router σ) [] [] where
  setters := by intro f id; rfl
  shards_ne := by intro f m h; simp at h
  setters_ne := by intro f id l h; simp [Router.shards] at h
  nodup := List.nodup_nil
  sublist := List.Sublist.refl _

/-- `registerSetter` appends to one list of setters and leaves every other as it was. -/
theorem setters_registerSetter (r : Router σ) (req : SubscriptionRequest) (s : σ) (f : Filter)
    (id : GoString) :
    (r.registerSetter req s).setters f id =
      r.setters f id ++ if convertFilter req = f ∧ req.shardID = id then [s] else [] := by
  by_cases hf : f = convertFilter req
  · subst hf
    by_cases hid : id = req.shardID
    · subst hid
      simp [Router.registerSetter, Router.setters, Router.shards]
    · have hid' : ¬ req.shardID = id := fun h => hid h.symm
      simp [Router.registerSetter, Router.setters, Router.shards, hid, hid']
  · have hf' : ¬ convertFilter req = f := fun h => hf h.symm
    simp [Router.registerSetter, Router.setters, Router.shards, hf, hf']

theorem Inv.register {r : Router σ} {all live : List (Registration σ)} (hi : Inv r all live)
    (req : SubscriptionRequest) (s : σ) (hs : s ∉ all.map Prod.snd) :
    Inv (r.registerSetter req s) (all ++ [(req, s)]) (live ++ [(req, s)]) where
  setters := by
    intro f id
    rw [setters_registerSetter, registered_append, hi.setters]
  shards_ne := by
    intro f m hm
    simp only [Router.registerSetter, Dict.lookup_insert_ite] at hm
    split at hm
    · obtain rfl := Option.some.inj hm
      simp
    · exact hi.shards_ne f m hm
  setters_ne := by
    intro f id l hl
    by_cases hf : f = convertFilter req
    · subst hf
      simp only [Router.registerSetter, Router.shards, Dict.lookup_insert_ite, if_pos,
        Option.getD_some] at hl
      split at hl
      · obtain rfl := Option.some.inj hl
        simp
      · exact hi.setters_ne _ id l hl
    · simp only [Router.registerSetter, Router.shards, Dict.lookup_insert_ite, if_neg hf] at hl
      exact hi.setters_ne f id l hl
  nodup := by
    rw [List.map_append, List.nodup_append']
    exact ⟨hi.nodup, List.nodup_singleton _, by simpa using hs⟩
  sublist := hi.sublist.append (List.Sublist.refl _)

/-- `cleanup` filters one list of setters and leaves every other as it was. -/
theorem setters_cleanup [DecidableEq σ] (r : Router σ) (req : SubscriptionRequest) (s : σ)
    (f : Filter) (id : GoString) :
    (r.cleanup req s).setters f id =
      if convertFilter req = f ∧ req.shardID = id then
        (r.setters f id).filter (fun s' => s' ≠ s)
      else r.setters f id := by
  unfold Router.cleanup
  by_cases hf : f = convertFilter req
  · subst hf
    by_cases hid : id = req.shardID
    · subst hid
      simp only [and_self, if_true]
      split
      · simp [Router.setters, Router.shards]
      · rename_i hnil
        rw [not_not] at hnil
        rw [hnil]
        split <;> simp [Router.setters, Router.shards]
    · have hid' : ¬ req.shardID = id := fun h => hid h.symm
      simp only [hid', and_false, if_false]
      split
      · simp [Router.setters, Router.shards, hid]
      · split
        · -- the whole filter goes: no other shard was below it
          rename_i hm
          have hlook : ((r.shards (convertFilter req)).erase req.shardID).lookup id = none := by
            rw [AList.lookup_eq_none, AList.mem_keys, AList.keys, hm]
            simp
          rw [AList.lookup_erase_ne hid] at hlook
          simp [Router.setters, Router.shards] at hlook ⊢
          simp [hlook]
        · simp [Router.setters, Router.shards, AList.lookup_erase_ne hid]
  · have hf' : ¬ convertFilter req = f := fun h => hf h.symm
    simp only [hf', false_and, if_false]
    split
    · simp [Router.setters, Router.shards, hf]
    · split
      · simp [Router.setters, Router.shards, AList.lookup_erase_ne hf]
      · simp [Router.setters, Router.shards, hf]

/-- The shards below a filter after a cleanup: the same, or one entry less or shorter. -/
theorem lookup_shards_cleanup [DecidableEq σ] (r : Router σ) (req : SubscriptionRequest) (s : σ)
    (f : Filter) (id : GoString) (l : List σ)
    (h : ((r.cleanup req s).shards f).lookup id = some l) :
    l ≠ [] ∨ (r.shards f).lookup id = some l := by
  unfold Router.cleanup at h
  by_cases hf : f = convertFilter req
  · subst hf
    by_cases hid : id = req.shardID
    · subst hid
      simp only at h
      split at h
      · rename_i hne
        simp only [Router.shards, AList.lookup_insert, Option.getD_some, Option.some.injEq] at h
        exact Or.inl (h ▸ hne)
      · split at h <;> simp [Router.shards] at h
    · simp only at h
      split at h
      · exact Or.inr (by simpa [Router.shards, hid] using h)
      · split at h
        · simp [Router.shards] at h
        · exact Or.inr (by simpa [Router.shards, AList.lookup_erase_ne hid] using h)
  · simp only at h
    refine Or.inr ?_
    split at h
    · simpa [Router.shards, hf] using h
    · split at h
      · simpa [Router.shards, AList.lookup_erase_ne hf] using h
      · simpa [Router.shards, hf] using h

theorem Inv.cleanup [DecidableEq σ] {r : Router σ} {all live : List (Registration σ)}
    (hi : Inv r all live) (req : SubscriptionRequest) (s : σ) (hs : (req, s) ∈ all) :
    Inv (r.cleanup req s) all (live.filter (fun p => p.2 ≠ s)) where
  setters := by
    intro f id
    rw [setters_cleanup, registered_filter_ne, hi.setters]
    split
    · rfl
    · -- the setter is registered elsewhere, so the filter takes nothing away
      rename_i hother
      symm
      rw [List.filter_eq_self]
      intro s' hs'
      rw [decide_eq_true_eq]
      rintro rfl
      obtain ⟨req', hmem, hf, hid⟩ := mem_registered.mp hs'
      obtain rfl := hi.unique hs (hi.sublist.subset hmem)
      exact hother ⟨hf, hid⟩
  shards_ne := by
    intro f m hm
    unfold Router.cleanup at hm
    simp only at hm
    split at hm
    · simp only [Dict.lookup_insert_ite] at hm
      split at hm
      · obtain rfl := Option.some.inj hm
        simp
      · exact hi.shards_ne f m hm
    · split at hm
      · simp only [Dict.lookup_erase_ite] at hm
        split at hm
        · cases hm
        · exact hi.shards_ne f m hm
      · rename_i hne
        simp only [Dict.lookup_insert_ite] at hm
        split at hm
        · obtain rfl := Option.some.inj hm
          exact hne
        · exact hi.shards_ne f m hm
  setters_ne := by
    intro f id l hl
    rcases lookup_shards_cleanup r req s f id l hl with hne | hold
    · exact hne
    · exact hi.setters_ne f id l hold
  nodup := hi.nodup
  sublist := List.filter_sublist.trans hi.sublist

theorem inv_of_reachable [DecidableEq σ] {r : Router σ} {all live : List (Registration σ)}
    (h : Reachable r all live) : Inv r all live := by
  induction h with
  | init => exact Inv.empty
  | register req s _ hs ih => exact ih.register req s hs
  | cleanup req s _ hs ih => exact ih.cleanup req s hs

end Loggregator.Doppler.GrpcManager
