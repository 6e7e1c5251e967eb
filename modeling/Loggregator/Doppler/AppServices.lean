import Loggregator.Doppler.SyslogDrains
import Loggregator.Lib.Sha1

/-!
# The cache of application services and its watcher

`doppler/internal/store`: `appServiceCache` keeps services by application and, below it, by the
hash of their URL. `AppServiceStoreWatcher` is one goroutine that updates the cache and then
sends each change on an unbuffered channel; `Watcher` is what it still has to send.
-/

namespace Loggregator.Doppler

open Lib

/-- `ServiceInfo.Id`. -/
def AppService.id (s : AppService) : GoString := hexEncode (Sha1.sum s.url)

/-- `appServiceCache`. -/
structure AppServiceCache where
  appServicesByAppId : Dict GoString (Dict GoString AppService) := ∅

namespace AppServiceCache

/-- `appServiceCache.Add`. -/
def add (c : AppServiceCache) (s : AppService) : AppServiceCache :=
  ⟨c.appServicesByAppId.insert s.appId
    (((c.appServicesByAppId.lookup s.appId).getD ∅).insert s.id s)⟩

/-- `appServiceCache.Remove`. -/
def remove (c : AppServiceCache) (s : AppService) : AppServiceCache :=
  ⟨c.appServicesByAppId.putGroup s.appId
    (((c.appServicesByAppId.lookup s.appId).getD ∅).erase s.id)⟩

/-- `values`. -/
def values (group : Dict GoString AppService) : List AppService :=
  group.entries.map (fun p => p.2)

/-- `appServiceCache.RemoveApp`. -/
def removeApp (c : AppServiceCache) (appId : GoString) : List AppService × AppServiceCache :=
  (values ((c.appServicesByAppId.lookup appId).getD ∅), ⟨c.appServicesByAppId.erase appId⟩)

/-- The service under an application and a hash. -/
def find (c : AppServiceCache) (appId id : GoString) : Option AppService :=
  (c.appServicesByAppId.lookup appId).bind (fun group => group.lookup id)

/-- `appServiceCache.Exists`. -/
def serviceExists (c : AppServiceCache) (s : AppService) : Bool := (c.find s.appId s.id).isSome

theorem lookup_getD_empty (c : AppServiceCache) (appId id : GoString) :
    ((c.appServicesByAppId.lookup appId).getD ∅).lookup id = c.find appId id := by
  unfold find
  cases c.appServicesByAppId.lookup appId <;> rfl

theorem find_add (c : AppServiceCache) (s : AppService) (appId id : GoString) :
    (c.add s).find appId id =
      if appId = s.appId ∧ id = s.id then some s else c.find appId id := by
  rw [find, add, Dict.lookup_insert_ite]
  by_cases ha : appId = s.appId
  · subst ha
    simp only [if_true, Option.bind_some, Dict.lookup_insert_ite, lookup_getD_empty, true_and]
  · simp only [ha, if_false, false_and]
    rfl

theorem find_remove (c : AppServiceCache) (s : AppService) (appId id : GoString) :
    (c.remove s).find appId id =
      if appId = s.appId ∧ id = s.id then none else c.find appId id := by
  rw [find, remove, Dict.lookup_putGroup]
  by_cases ha : appId = s.appId
  · subst ha
    simp only [if_true, Dict.lookup_erase_ite, lookup_getD_empty, true_and]
  · simp only [ha, if_false, false_and]
    rfl

theorem find_removeApp (c : AppServiceCache) (a appId id : GoString) :
    (c.removeApp a).2.find appId id = if appId = a then none else c.find appId id := by
  rw [find, removeApp, Dict.lookup_erase_ite]
  split <;> rfl

theorem mem_removeApp (c : AppServiceCache) (a : GoString) (s : AppService) :
    s ∈ (c.removeApp a).1 ↔ ∃ id, c.find a id = some s := by
  simp only [removeApp, values, List.mem_map, ← lookup_getD_empty]
  constructor
  · rintro ⟨⟨id, s'⟩, hmem, rfl⟩
    exact ⟨id, AList.mem_lookup_iff.mpr hmem⟩
  · rintro ⟨id, hs⟩
    exact ⟨⟨id, s⟩, AList.mem_lookup_iff.mp hs, rfl⟩

section Entries

variable {c : AppServiceCache} {P : AppService → Prop}
  (hc : ∀ appId id s, c.find appId id = some s → P s)

include hc

theorem forall_find_add {s : AppService} (hs : P s) (appId id : GoString) (s' : AppService)
    (hs' : (c.add s).find appId id = some s') : P s' := by
  rw [find_add] at hs'
  split at hs'
  · cases hs'
    exact hs
  · exact hc appId id s' hs'

theorem forall_find_remove (s : AppService) (appId id : GoString) (s' : AppService)
    (hs' : (c.remove s).find appId id = some s') : P s' := by
  rw [find_remove] at hs'
  split at hs'
  · cases hs'
  · exact hc appId id s' hs'

theorem forall_find_removeApp (a appId id : GoString) (s' : AppService)
    (hs' : (c.removeApp a).2.find appId id = some s') : P s' := by
  rw [find_removeApp] at hs'
  split at hs'
  · cases hs'
  · exact hc appId id s' hs'

end Entries

/-- Entries stand under their application and their hash. -/
def WellPlaced (c : AppServiceCache) : Prop :=
  ∀ appId id s, c.find appId id = some s → s.appId = appId ∧ s.id = id

/-- The cache has a service with this application and URL. -/
def Contains (c : AppServiceCache) (k : GoString × GoString) : Prop :=
  ∃ appId id s, c.find appId id = some s ∧ s.key = k

/-- No other URL in the cache of the application has the hash of this service. -/
def NoCollision (c : AppServiceCache) (s : AppService) : Prop :=
  ∀ s' ∈ c.find s.appId s.id, s'.url = s.url

instance (c : AppServiceCache) (s : AppService) : Decidable (c.NoCollision s) :=
  inferInstanceAs (Decidable (∀ s' ∈ c.find s.appId s.id, s'.url = s.url))

variable {c : AppServiceCache}

theorem wellPlaced_empty : WellPlaced {} := by
  intro appId id s hs
  simp [find] at hs

theorem not_contains_empty (k : GoString × GoString) : ¬ Contains {} k := by
  rintro ⟨appId, id, s, hs, -⟩
  simp [find] at hs

theorem WellPlaced.add (hc : c.WellPlaced) (s : AppService) : (c.add s).WellPlaced := by
  intro appId id s' hs'
  rw [find_add] at hs'
  split at hs'
  · next h =>
    cases hs'
    exact ⟨h.1.symm, h.2.symm⟩
  · exact hc appId id s' hs'

theorem WellPlaced.remove (hc : c.WellPlaced) (s : AppService) : (c.remove s).WellPlaced := by
  intro appId id s' hs'
  rw [find_remove] at hs'
  split at hs'
  · cases hs'
  · exact hc appId id s' hs'

theorem WellPlaced.removeApp (hc : c.WellPlaced) (a : GoString) :
    (c.removeApp a).2.WellPlaced := by
  intro appId id s' hs'
  rw [find_removeApp] at hs'
  split at hs'
  · cases hs'
  · exact hc appId id s' hs'

theorem contains_add {s : AppService} (hs : c.serviceExists s = false) (k : GoString × GoString) :
    (c.add s).Contains k ↔ k = s.key ∨ c.Contains k := by
  constructor
  · rintro ⟨appId, id, s', hs', rfl⟩
    rw [find_add] at hs'
    split at hs'
    · cases hs'
      left
      rfl
    · right
      exact ⟨appId, id, s', hs', rfl⟩
  · rintro (rfl | ⟨appId, id, s', hs', rfl⟩)
    · exact ⟨s.appId, s.id, s, by rw [find_add, if_pos ⟨rfl, rfl⟩], rfl⟩
    · refine ⟨appId, id, s', ?_, rfl⟩
      rw [find_add, if_neg, hs']
      rintro ⟨rfl, rfl⟩
      rw [serviceExists, hs'] at hs
      cases hs

theorem contains_remove (hc : c.WellPlaced) {s : AppService} (hs : c.NoCollision s)
    (k : GoString × GoString) : (c.remove s).Contains k ↔ k ≠ s.key ∧ c.Contains k := by
  constructor
  · rintro ⟨appId, id, s', hs', rfl⟩
    rw [find_remove] at hs'
    split at hs'
    · cases hs'
    · next hne =>
      refine ⟨?_, appId, id, s', hs', rfl⟩
      intro hkey
      obtain ⟨ha, hi⟩ := hc appId id s' hs'
      simp only [AppService.key, Prod.mk.injEq] at hkey
      apply hne
      rw [← ha, ← hi, hkey.1, AppService.id, AppService.id, hkey.2]
      exact ⟨rfl, rfl⟩
  · rintro ⟨hne, appId, id, s', hs', rfl⟩
    refine ⟨appId, id, s', ?_, rfl⟩
    rw [find_remove, if_neg, hs']
    rintro ⟨rfl, rfl⟩
    apply hne
    rw [AppService.key, AppService.key, (hc _ _ s' hs').1, hs s' hs']

theorem contains_removeApp (hc : c.WellPlaced) (a : GoString) (k : GoString × GoString) :
    (c.removeApp a).2.Contains k ↔ k.1 ≠ a ∧ c.Contains k := by
  constructor
  · rintro ⟨appId, id, s, hs, rfl⟩
    rw [find_removeApp] at hs
    split at hs
    · cases hs
    · next hne =>
      refine ⟨?_, appId, id, s, hs, rfl⟩
      rw [AppService.key, (hc appId id s hs).1]
      exact hne
  · rintro ⟨hne, appId, id, s, hs, rfl⟩
    refine ⟨appId, id, s, ?_, rfl⟩
    rw [AppService.key, (hc appId id s hs).1] at hne
    rw [find_removeApp, if_neg hne, hs]

theorem mem_removeApp_key (hc : c.WellPlaced) (a : GoString) (k : GoString × GoString) :
    (∃ s ∈ (c.removeApp a).1, s.key = k) ↔ k.1 = a ∧ c.Contains k := by
  simp only [mem_removeApp]
  constructor
  · rintro ⟨s, ⟨id, hs⟩, rfl⟩
    exact ⟨(hc a id s hs).1, a, id, s, hs, rfl⟩
  · rintro ⟨rfl, appId, id, s, hs, hk⟩
    have ha := (hc appId id s hs).1
    refine ⟨s, ⟨id, ?_⟩, hk⟩
    rw [← hk, AppService.key, ha, hs]

end AppServiceCache

/-- What the watcher still has to send. -/
inductive Watcher where
  | idle
  | sendAdd (s : AppService)
  | sendRemove (s : AppService) (rest : List AppService)
  deriving DecidableEq

namespace Watcher

/-- The watcher with removals to send. -/
def removals : List AppService → Watcher
  | [] => .idle
  | s :: rest => .sendRemove s rest

/-- An add for this application and URL is to be sent. -/
def Adds (w : Watcher) (k : GoString × GoString) : Prop :=
  match w with
  | .sendAdd s => s.key = k
  | _ => False

/-- A remove for this application and URL is to be sent. -/
def Removes (w : Watcher) (k : GoString × GoString) : Prop :=
  match w with
  | .sendRemove s rest => ∃ s' ∈ s :: rest, s'.key = k
  | _ => False

/-- The services that are to be sent. -/
def services : Watcher → List AppService
  | .idle => []
  | .sendAdd s => [s]
  | .sendRemove s rest => s :: rest

theorem removals_adds (ss : List AppService) (k : GoString × GoString) :
    ¬ (removals ss).Adds k := by
  cases ss <;> exact id

theorem removals_removes (ss : List AppService) (k : GoString × GoString) :
    (removals ss).Removes k ↔ ∃ s ∈ ss, s.key = k := by
  cases ss with
  | nil => simp [removals, Removes]
  | cons s rest => rfl

theorem removals_services (ss : List AppService) : (removals ss).services = ss := by
  cases ss <;> rfl

end Watcher

/-- `AppServiceStoreWatcher.Add`, up to the send. -/
def watcherAdd (c : AppServiceCache) (s : AppService) : AppServiceCache × Watcher :=
  if c.serviceExists s then (c, .idle) else (c.add s, .sendAdd s)

/-- `AppServiceStoreWatcher.Remove`, up to the send. -/
def watcherRemove (c : AppServiceCache) (s : AppService) : AppServiceCache × Watcher :=
  if c.serviceExists s then (c.remove s, .sendRemove s []) else (c, .idle)

/-- `AppServiceStoreWatcher.RemoveApp`, up to the first send. -/
def watcherRemoveApp (c : AppServiceCache) (appId : GoString) : AppServiceCache × Watcher :=
  ((c.removeApp appId).2, .removals (c.removeApp appId).1)

end Loggregator.Doppler
