import Loggregator.Doppler.StoreWatcher
import Loggregator.Lib.ChangeLog
import Mathlib.Data.Finset.Card

/-!
# The notifications of the store watcher

What `AppServiceStoreWatcher` sends, for any nodes and events that it may be given. A service is
identified by its application and the hash of its URL. For each of these pairs the notifications
are a log of the cache: an add is sent when the pair comes into the cache and a remove when it
leaves. The cache itself is a finite set of pairs, whatever the order in which its maps are
visited.
-/

namespace Loggregator.Doppler

open Lib SyslogDrainBinder

/-- The application and the hash of a service. -/
def AppService.pair (s : AppService) : GoString × GoString := (s.appId, s.id)

namespace AppServiceCache

/-- `appServiceCache.Get`. -/
def get (c : AppServiceCache) (appId : GoString) : List AppService :=
  values ((c.appServicesByAppId.lookup appId).getD ∅)

/-- `appServiceCache.GetAll`. -/
def getAll (c : AppServiceCache) : List AppService :=
  c.appServicesByAppId.entries.flatMap (fun p => values p.2)

/-- `appServiceCache.Size`. An application without services would count as one. -/
def size (c : AppServiceCache) : Nat :=
  c.appServicesByAppId.entries.foldl (fun count p =>
    let serviceCountForApp := p.2.entries.length
    if 0 < serviceCountForApp then count + serviceCountForApp else count + 1) 0

/-- No application without services is kept. -/
def Pruned (c : AppServiceCache) : Prop :=
  ∀ appId group, c.appServicesByAppId.lookup appId = some group → group.entries ≠ []

/-- The cache is this set of pairs. -/
structure IsSet (c : AppServiceCache) (pairs : Finset (GoString × GoString)) : Prop where
  find : ∀ k, k ∈ pairs ↔ (c.find k.1 k.2).isSome = true
  serviceExists : ∀ s, c.serviceExists s = true ↔ s.pair ∈ pairs
  get : ∀ appId, ((c.get appId).map AppService.pair).Nodup ∧
    ∀ k, k ∈ (c.get appId).map AppService.pair ↔ k.1 = appId ∧ k ∈ pairs
  getAll : ∀ k, k ∈ c.getAll.map AppService.pair ↔ k ∈ pairs
  length : c.getAll.length = pairs.card
  size : c.size = pairs.card

theorem eq_pair_iff (k : GoString × GoString) (s : AppService) :
    k = s.pair ↔ k.1 = s.appId ∧ k.2 = s.id := Prod.ext_iff

/-- The cache as a map from pairs. -/
def findPair (c : AppServiceCache) (k : GoString × GoString) : Option AppService := c.find k.1 k.2

variable {c : AppServiceCache}

theorem wellPlaced_entry (hc : c.WellPlaced) {appId id : GoString}
    {group : Dict GoString AppService} (hgroup : c.appServicesByAppId.lookup appId = some group)
    {s : AppService} (hs : group.lookup id = some s) : s.pair = (appId, id) := by
  obtain ⟨happ, hid⟩ := hc appId id s (by rw [AppServiceCache.find, hgroup]; exact hs)
  rw [AppService.pair, happ, hid]

/-- The services of a group have the pairs of its keys. -/
theorem map_pair_values (hc : c.WellPlaced) {appId : GoString}
    {group : Dict GoString AppService} (hgroup : c.appServicesByAppId.lookup appId = some group) :
    (values group).map AppService.pair = group.keys.map (fun id => (appId, id)) := by
  rw [values, AList.keys, List.keys, List.map_map, List.map_map]
  refine List.map_congr_left (fun p hp => ?_)
  exact wellPlaced_entry hc hgroup (AList.mem_lookup_iff.mpr hp)

theorem map_pair_getAll (hc : c.WellPlaced) :
    c.getAll.map AppService.pair = Dict.flatKeys c.appServicesByAppId := by
  rw [getAll, Dict.flatKeys, List.map_flatMap]
  refine List.flatMap_congr (fun p hp => ?_)
  exact map_pair_values hc (AList.mem_lookup_iff.mpr hp)

/-- Without empty groups `Size` counts the services. -/
theorem size_eq_length (hp : c.Pruned) : c.size = c.getAll.length := by
  have hloop : ∀ (entries : List (Sigma fun _ : GoString => Dict GoString AppService))
      (count : Nat), (∀ p ∈ entries, p.2.entries ≠ []) →
      entries.foldl (fun count p => if 0 < p.2.entries.length then count + p.2.entries.length
        else count + 1) count = count + (entries.flatMap (fun p => values p.2)).length := by
    intro entries
    induction entries with
    | nil => intro count _; rfl
    | cons p entries ih =>
      intro count hne
      obtain ⟨hp, hne⟩ := List.forall_mem_cons.mp hne
      have hlength : (values p.2).length = p.2.entries.length := List.length_map _
      rw [List.foldl_cons, if_pos (List.length_pos_iff.mpr hp), ih _ hne, List.flatMap_cons,
        List.length_append, hlength, Nat.add_assoc]
  have hsize := hloop c.appServicesByAppId.entries 0
    (fun p hmem => hp p.1 p.2 (AList.mem_lookup_iff.mpr hmem))
  rw [Nat.zero_add] at hsize
  exact hsize

/-- The cache is a finite set of pairs. -/
theorem isSet (hc : c.WellPlaced) (hp : c.Pruned) :
    c.IsSet (Dict.flatKeys c.appServicesByAppId).toFinset := by
  have hfind : ∀ k : GoString × GoString,
      k ∈ (Dict.flatKeys c.appServicesByAppId).toFinset ↔ (c.find k.1 k.2).isSome = true := by
    intro k
    rw [List.mem_toFinset]
    exact Dict.mem_flatKeys
  have hlength : c.getAll.length = (Dict.flatKeys c.appServicesByAppId).toFinset.card := by
    rw [List.toFinset_card_of_nodup (Dict.nodup_flatKeys _), ← map_pair_getAll hc, List.length_map]
  refine ⟨hfind, fun s => (hfind s.pair).symm, ?_, ?_, hlength, (size_eq_length hp).trans hlength⟩
  · intro appId
    unfold get
    cases hgroup : c.appServicesByAppId.lookup appId with
    | none =>
      refine ⟨List.nodup_nil, fun k => ⟨nofun, ?_⟩⟩
      rintro ⟨rfl, hk⟩
      rw [hfind, AppServiceCache.find, hgroup] at hk
      cases hk
    | some group =>
      rw [Option.getD_some, map_pair_values hc hgroup]
      refine ⟨group.keys_nodup.map (fun id id' h => (Prod.mk.inj h).2), fun k => ?_⟩
      rw [hfind, AppServiceCache.find, List.mem_map]
      constructor
      · rintro ⟨id, hid, rfl⟩
        rw [hgroup]
        exact ⟨rfl, AList.lookup_isSome.mpr hid⟩
      · rintro ⟨rfl, hk⟩
        rw [hgroup] at hk
        exact ⟨k.2, AList.lookup_isSome.mp hk, rfl⟩
  · intro k
    rw [map_pair_getAll hc, List.mem_toFinset]

theorem pruned_empty : Pruned {} := nofun

theorem Pruned.add (hp : c.Pruned) (s : AppService) : (c.add s).Pruned := by
  intro appId group hgroup
  rw [AppServiceCache.add, Dict.lookup_insert_ite] at hgroup
  split at hgroup
  · cases hgroup
    exact List.cons_ne_nil _ _
  · exact hp appId group hgroup

theorem Pruned.remove (hp : c.Pruned) (s : AppService) : (c.remove s).Pruned := by
  intro appId group hgroup
  simp only [AppServiceCache.remove, Dict.putGroup] at hgroup
  split at hgroup
  · exact hp appId group (Dict.lookup_erase_eq_some.mp hgroup).2
  · next hne =>
    rw [Dict.lookup_insert_ite] at hgroup
    split at hgroup
    · cases hgroup
      exact fun hempty => hne (List.isEmpty_iff.mpr hempty)
    · exact hp appId group hgroup

theorem Pruned.removeApp (hp : c.Pruned) (a : GoString) : (c.removeApp a).2.Pruned := by
  intro appId group hgroup
  exact hp appId group (Dict.lookup_erase_eq_some.mp hgroup).2

end AppServiceCache

namespace WatcherLog

/-- A service that was sent on the add or on the remove channel. -/
inductive Notification where
  | add (s : AppService)
  | remove (s : AppService)
  deriving DecidableEq

/-- A notification as a change to a map from pairs to services. -/
def Notification.change : Notification → (GoString × GoString) × Option AppService
  | .add s => (s.pair, some s)
  | .remove s => (s.pair, none)

/-- What the watcher still has to send. -/
def pending : Watcher → List Notification
  | .idle => []
  | .sendAdd s => [.add s]
  | .sendRemove s rest => (s :: rest).map .remove

/-- The cache, what the watcher still has to send and what it has sent. -/
structure State where
  cache : AppServiceCache := {}
  watcher : Watcher := .idle
  log : List Notification := []

/-- The watcher takes a node of a listing or an event, or a notification is received. -/
inductive Action where
  | listed (node : StoreNode)
  | event (e : WatchEvent)
  | notify

/-- One action. -/
def step (st : State) : Action → Option State
  | .listed node =>
    match st.watcher with
    | .idle =>
      let (cache, watcher) := addNode st.cache node
      some { st with cache := cache, watcher := watcher }
    | _ => none
  | .event e =>
    match st.watcher with
    | .idle =>
      let (cache, watcher) := handleEvent st.cache e
      some { st with cache := cache, watcher := watcher }
    | _ => none
  | .notify =>
    match st.watcher with
    | .idle => none
    | .sendAdd s => some { st with watcher := .idle, log := st.log ++ [.add s] }
    | .sendRemove s rest =>
      some { st with watcher := .removals rest, log := st.log ++ [.remove s] }

/-- The notifications are a log of the cache. -/
structure Consistent (st : State) : Prop where
  /-- Adds and removes of a pair alternate, starting with an add. -/
  alternates : ∀ k, Alternates (changesOf k (st.log.map Notification.change))
  /-- The latest notification of a pair is an add of the service that the cache has for it, or
  the cache has none. -/
  latest : st.watcher = .idle → ∀ k : GoString × GoString,
    (changesOf k (st.log.map Notification.change)).getLast?.join = st.cache.find k.1 k.2
  /-- So it is while notifications are sent, with those that are still to come. -/
  sending : ∀ k : GoString × GoString,
    (changesOf k ((st.log ++ pending st.watcher).map Notification.change)).getLast?.join =
      st.cache.find k.1 k.2
  set : ∃ pairs, st.cache.IsSet pairs
  pruned : st.cache.Pruned

/-! ## What is done with a node or an event -/

/-- The cache keeps its form, and the notifications lead from the old one to the new one. -/
structure Tracks (c : AppServiceCache) (r : AppServiceCache × Watcher) : Prop where
  placed : r.1.WellPlaced
  pruned : r.1.Pruned
  replay : run change c.findPair ((pending r.2).map Notification.change) = some r.1.findPair

section Tracks

variable {c : AppServiceCache} (hc : c.WellPlaced) (hp : c.Pruned)

include hc hp

theorem tracks_idle : Tracks c (c, .idle) := ⟨hc, hp, rfl⟩

theorem tracks_watcherAdd (s : AppService) : Tracks c (watcherAdd c s) := by
  unfold watcherAdd
  split
  · exact tracks_idle hc hp
  · next hnew =>
    refine ⟨hc.add s, hp.add s, ?_⟩
    have hmap : (c.add s).findPair = Function.update c.findPair s.pair (some s) := by
      funext k
      rw [AppServiceCache.findPair, AppServiceCache.find_add, Function.update_apply]
      exact if_congr (AppServiceCache.eq_pair_iff k s).symm rfl rfl
    have hnone : (c.findPair s.pair).isSome = false := Bool.not_eq_true _ ▸ hnew
    simp [pending, Notification.change, run, change, hnone, hmap]

theorem tracks_watcherRemove (s : AppService) : Tracks c (watcherRemove c s) := by
  unfold watcherRemove
  split
  · next hold =>
    refine ⟨hc.remove s, hp.remove s, ?_⟩
    have hmap : (c.remove s).findPair = Function.update c.findPair s.pair none := by
      funext k
      rw [AppServiceCache.findPair, AppServiceCache.find_remove, Function.update_apply]
      exact if_congr (AppServiceCache.eq_pair_iff k s).symm rfl rfl
    have hsome : (c.findPair s.pair).isSome = true := hold
    simp [pending, Notification.change, run, change, hsome, hmap]
  · exact tracks_idle hc hp

omit hc hp in
theorem pending_removals (ss : List AppService) :
    pending (.removals ss) = ss.map Notification.remove := by
  cases ss <;> rfl

theorem tracks_watcherRemoveApp (appId : GoString) : Tracks c (watcherRemoveApp c appId) := by
  refine ⟨hc.removeApp appId, hp.removeApp appId, ?_⟩
  obtain ⟨hnodup, hmem⟩ := (c.isSet hc hp).get appId
  have hfind := (c.isSet hc hp).find
  have hlog : (pending (watcherRemoveApp c appId).2).map Notification.change =
      ((c.get appId).map AppService.pair).map (fun k => (k, none)) := by
    rw [watcherRemoveApp, pending_removals, List.map_map, List.map_map]
    rfl
  rw [hlog, run_change_removals hnodup]
  · congr 1
    funext k
    show _ = (c.removeApp appId).2.find k.1 k.2
    rw [AppServiceCache.find_removeApp]
    by_cases happ : k.1 = appId
    · rw [if_pos happ]
      split
      · rfl
      · next hnone =>
        rw [← Option.not_isSome_iff_eq_none]
        exact fun hsome => hnone ((hmem k).mpr ⟨happ, (hfind k).mpr hsome⟩)
    · rw [if_neg happ, if_neg (fun hk => happ ((hmem k).mp hk).1)]
      rfl
  · intro k hk
    exact (hfind k).mp ((hmem k).mp hk).2

theorem tracks_addNode (node : StoreNode) : Tracks c (addNode c node) := by
  unfold addNode
  split
  · exact tracks_idle hc hp
  · exact tracks_watcherAdd hc hp _

theorem tracks_deleteEvent (node : StoreNode) : Tracks c (deleteEvent c node) := by
  unfold deleteEvent
  split
  · exact tracks_watcherRemoveApp hc hp _
  · split
    · exact tracks_idle hc hp
    · exact tracks_watcherRemove hc hp _

theorem tracks_handleEvent (e : WatchEvent) : Tracks c (handleEvent c e) := by
  cases e with
  | create node | update node =>
    simp only [handleEvent]
    split
    · exact tracks_idle hc hp
    · exact tracks_addNode hc hp node
  | delete node | expire node => exact tracks_deleteEvent hc hp node

end Tracks

/-! ## Every run -/

/-- The notifications, sent and still to come, lead to the cache. -/
structure Inv (st : State) : Prop where
  placed : st.cache.WellPlaced
  pruned : st.cache.Pruned
  replay : run change (fun _ => none) ((st.log ++ pending st.watcher).map Notification.change) =
    some st.cache.findPair

section Inv

variable {st st' : State}

theorem inv_initial : Inv {} :=
  ⟨AppServiceCache.wellPlaced_empty, AppServiceCache.pruned_empty, rfl⟩

/-- The watcher was idle and has dealt with a node or an event. -/
theorem Inv.handle (hi : Inv st) (hidle : st.watcher = .idle) {r : AppServiceCache × Watcher}
    (h : Tracks st.cache r) : Inv { st with cache := r.1, watcher := r.2 } := by
  refine ⟨h.placed, h.pruned, ?_⟩
  have hreplay := hi.replay
  rw [hidle, pending, List.append_nil] at hreplay
  rw [List.map_append, run_append, hreplay, Option.bind_some]
  exact h.replay

/-- A notification is received. -/
theorem Inv.notify (hi : Inv st) {n : Notification} {w : Watcher}
    (h : pending st.watcher = n :: pending w) :
    Inv { st with watcher := w, log := st.log ++ [n] } := by
  refine ⟨hi.placed, hi.pruned, ?_⟩
  rw [List.append_assoc, List.singleton_append, ← h]
  exact hi.replay

theorem Inv.step (hi : Inv st) {a : Action} (h : step st a = some st') : Inv st' := by
  cases a with
  | listed node =>
    simp only [WatcherLog.step] at h
    split at h
    · next hidle =>
      cases h
      exact hi.handle hidle (tracks_addNode hi.placed hi.pruned node)
    · cases h
  | event e =>
    simp only [WatcherLog.step] at h
    split at h
    · next hidle =>
      cases h
      exact hi.handle hidle (tracks_handleEvent hi.placed hi.pruned e)
    · cases h
  | notify =>
    simp only [WatcherLog.step] at h
    split at h
    · cases h
    · next hsend =>
      cases h
      exact hi.notify (by rw [hsend]; rfl)
    · next s rest hsend =>
      cases h
      refine hi.notify ?_
      rw [hsend, pending_removals]
      rfl

/-- The notifications of every run are a log of the cache. -/
theorem notifications_consistent (st : State) (hst : Reachable step Always {} st) :
    Consistent st := by
  have hi : Inv st := hst.invariant inv_initial (fun _ _ _ hi _ h => hi.step h)
  have hlog := changesOf_of_run hi.replay
  refine ⟨?_, ?_, fun k => (hlog k).2, ⟨_, st.cache.isSet hi.placed hi.pruned⟩, hi.pruned⟩
  · intro k
    refine (hlog k).1.mono ?_
    rw [List.map_append, changesOf_append]
    exact List.prefix_append _ _
  · intro hidle k
    have hlast := (hlog k).2
    rwa [hidle, pending, List.append_nil] at hlast

end Inv

/-- A node for a drain of the application. -/
def sampleNode (drainURL : GoString) : StoreNode :=
  drainNode 0 (str "app") (str "host") drainURL

/-- A drain is created twice and deleted with its directory, and a node without JSON comes and
goes. -/
def sampleActions : List Action :=
  [.listed (sampleNode (str "one")), .notify, .event (.create (sampleNode (str "one"))),
    .event (.update (sampleNode (str "two"))), .notify,
    .event (.create
      { key := str "/loggregator/v2/services/app/x", value := str "x", dir := false }),
    .event (.delete { key := str "/loggregator/v2/services/app", value := [], dir := true }),
    .notify, .notify, .event (.expire (sampleNode (str "one")))]

theorem notifications_consistent_sample :
    ∃ st, Reachable step Always {} st ∧ st.watcher = .idle ∧ st.log.length = 4 ∧
      Consistent st := by
  have hrun : (run step {} sampleActions).map (fun st =>
      (st.watcher, st.log.length)) = some (.idle, 4) := by
    decide +kernel
  obtain ⟨st, hreach, hfinal⟩ := exists_reachable_of_run hrun
  simp only [Prod.mk.injEq] at hfinal
  exact ⟨st, hreach, hfinal.1, hfinal.2, notifications_consistent st hreach⟩

end WatcherLog

end Loggregator.Doppler
