import Loggregator.Doppler.AppServices
import Loggregator.Doppler.DrainNodes
import Loggregator.Lib.Transition

/-!
# The watcher of the store

`AppServiceStoreWatcher.Run` next to the store that it watches. The store changes at any time.
A watch that is up queues an event for each change, and delivers its events in order before the
error that ends it. `Run` starts a watch, lists the store once, and then takes events; after an
error it starts another watch and does not list again.
-/

namespace Loggregator.Doppler

open Lib SyslogDrainBinder

/-- `storeadapter.WatchEvent`, with the node that `Run` looks at for its type. -/
inductive WatchEvent where
  | create (node : StoreNode)
  | update (node : StoreNode)
  | delete (prevNode : StoreNode)
  | expire (prevNode : StoreNode)

/-- The node is decoded and its service added. -/
def addNode (c : AppServiceCache) (node : StoreNode) : AppServiceCache × Watcher :=
  match appServiceFromStoreNode node with
  | none => (c, .idle)
  | some appService => watcherAdd c appService

/-- `AppServiceStoreWatcher.deleteEvent`. -/
def deleteEvent (c : AppServiceCache) (node : StoreNode) : AppServiceCache × Watcher :=
  if node.dir then watcherRemoveApp c (Path.base node.key)
  else
    match appServiceFromStoreNode node with
    | none => (c, .idle)
    | some appService => watcherRemove c appService

/-- The switch on the type of an event in `Run`. -/
def handleEvent (c : AppServiceCache) : WatchEvent → AppServiceCache × Watcher
  | .create node | .update node =>
    if node.dir = true ∨ node.value = [] then (c, .idle) else addNode c node
  | .delete prevNode | .expire prevNode => deleteEvent c prevNode

/-- The node is for this drain URL of the application, as its value says. -/
def HasDrain (node : StoreNode) (appId drainURL : GoString) : Prop :=
  ∃ hostname, appServiceFromStoreNode node = some ⟨appId, drainURL, hostname⟩

/-- A node that is written for a plain hostname and a plain URL is for that URL. -/
theorem hasDrain_drainNode {appId hostname drainURL : GoString} (happ : Path.Element appId)
    (hhost : Json.Plain hostname) (hurl : Json.Plain drainURL) (ttl : UInt64)
    (appId' drainURL' : GoString) :
    HasDrain (drainNode ttl appId hostname drainURL) appId' drainURL' ↔
      appId' = appId ∧ drainURL' = drainURL := by
  rw [HasDrain, appServiceFromStoreNode_drainNode happ, unmarshal_plain hhost hurl]
  simp only [Option.map_some, Option.some.injEq, AppService.mk.injEq]
  constructor
  · rintro ⟨_, rfl, rfl, -⟩
    exact ⟨rfl, rfl⟩
  · rintro ⟨rfl, rfl⟩
    exact ⟨hostname, rfl, rfl, rfl⟩

/-- The services of the nodes in the store. -/
def services (nodes : Dict GoString StoreNode) : List AppService :=
  (Dict.values nodes).filterMap appServiceFromStoreNode

namespace StoreWatcher

/-- The watch of the store. The nodes at its failure are kept for the condition below. -/
inductive Watch where
  | off
  | up
  | failed (nodes : Dict GoString StoreNode)

def Watch.isUp : Watch → Bool
  | .up => true
  | _ => false

/-- The store, the watch with the events that are under way, and `Run`: the listed nodes that
are still to be added, once they are listed, and the notifications to send. -/
structure System where
  nodes : Dict GoString StoreNode := ∅
  watch : Watch := .off
  events : List WatchEvent := []
  listed : Option (List StoreNode) := none
  cache : AppServiceCache := {}
  watcher : Watcher := .idle

/-- The actions. `ListRecursively` returns the nodes by directory in an order of its own, or an
error that is dropped. -/
inductive Action where
  | set (ttl : UInt64) (appId hostname drainURL : GoString)
  | delete (key : GoString)
  | expire (key : GoString)
  | deleteApp (appId : GoString)
  | fail
  | watch
  | list (dirs : List (List StoreNode))
  | listError
  | load
  | event
  | notify
  | rewatch

/-- The store changes, and a watch that is up has an event for it. -/
def change (st : System) (nodes : Dict GoString StoreNode) (e : WatchEvent) : System :=
  { st with nodes := nodes, events := if st.watch.isUp then st.events ++ [e] else st.events }

/-- The nodes that are left when a directory is deleted. -/
def outside (dir : GoString) (nodes : Dict GoString StoreNode) : Dict GoString StoreNode :=
  Dict.mergeWith (fun node => if Path.dir node.key = dir then none else some node) nodes ∅

theorem lookup_outside {dir key : GoString} {nodes : Dict GoString StoreNode} {node : StoreNode} :
    (outside dir nodes).lookup key = some node ↔
      nodes.lookup key = some node ∧ Path.dir node.key ≠ dir := by
  rw [outside, Dict.lookup_mergeWith, AList.lookup_empty, Option.or_none,
    Option.bind_eq_some_iff]
  constructor
  · rintro ⟨node', hnode, hkept⟩
    split at hkept
    · cases hkept
    · next hdir =>
      cases hkept
      exact ⟨hnode, hdir⟩
  · rintro ⟨hnode, hdir⟩
    exact ⟨node, hnode, if_neg hdir⟩

/-- One action. -/
def step (st : System) : Action → Option System
  | .set ttl appId hostname drainURL =>
    let node := drainNode ttl appId hostname drainURL
    some (change st (st.nodes.insert node.key node)
      (if (st.nodes.lookup node.key).isSome then .update node else .create node))
  | .delete key =>
    (st.nodes.lookup key).map (fun node => change st (st.nodes.erase key) (.delete node))
  | .expire key =>
    (st.nodes.lookup key).map (fun node => change st (st.nodes.erase key) (.expire node))
  | .deleteApp appId =>
    -- one event for the directory and all that is in it
    some (change st (outside (appDir appId) st.nodes)
      (.delete { key := appDir appId, value := [], dir := true }))
  | .fail =>
    match st.watch with
    | .up => some { st with watch := .failed st.nodes }
    | _ => none
  | .watch =>
    match st.watch with
    | .off => some { st with watch := .up }
    | _ => none
  | .list dirs =>
    match st.watch, st.listed with
    | .off, _ | _, some _ => none
    | _, none =>
      if dirs.flatten.Perm (Dict.values st.nodes) then some { st with listed := some dirs.flatten }
      else none
  | .listError =>
    match st.watch, st.listed with
    | .off, _ | _, some _ => none
    | _, none => some { st with listed := some [] }
  | .load =>
    match st.watcher, st.listed with
    | .idle, some (node :: rest) =>
      let (cache, watcher) := addNode st.cache node
      some { st with listed := some rest, cache := cache, watcher := watcher }
    | _, _ => none
  | .event =>
    match st.watcher, st.listed, st.events with
    | .idle, some [], e :: events =>
      let (cache, watcher) := handleEvent st.cache e
      some { st with events := events, cache := cache, watcher := watcher }
    | _, _, _ => none
  | .notify =>
    match st.watcher with
    | .idle => none
    | .sendAdd _ => some { st with watcher := .idle }
    | .sendRemove _ rest => some { st with watcher := .removals rest }
  | .rewatch =>
    -- the error comes after the events of its watch
    match st.watcher, st.listed, st.events, st.watch with
    | .idle, some [], [], .failed _ => some { st with watch := .up }
    | _, _, _, _ => none

/-- What an action does. -/
inductive Turn (st : System) : Action → System → Prop where
  | set {ttl : UInt64} {appId hostname drainURL : GoString} {e : WatchEvent}
      (he : e = .update (drainNode ttl appId hostname drainURL) ∨
        e = .create (drainNode ttl appId hostname drainURL)) :
      Turn st (.set ttl appId hostname drainURL)
        (change st (st.nodes.insert (drainNode ttl appId hostname drainURL).key
          (drainNode ttl appId hostname drainURL)) e)
  | delete {key : GoString} {node : StoreNode} (hnode : st.nodes.lookup key = some node) :
      Turn st (.delete key) (change st (st.nodes.erase key) (.delete node))
  | expire {key : GoString} {node : StoreNode} (hnode : st.nodes.lookup key = some node) :
      Turn st (.expire key) (change st (st.nodes.erase key) (.expire node))
  | deleteApp {appId : GoString} : Turn st (.deleteApp appId)
      (change st (outside (appDir appId) st.nodes)
        (.delete { key := appDir appId, value := [], dir := true }))
  | fail (hwatch : st.watch = .up) : Turn st .fail { st with watch := .failed st.nodes }
  | watch (hwatch : st.watch = .off) : Turn st .watch { st with watch := .up }
  | list {dirs : List (List StoreNode)} (hwatch : st.watch ≠ .off) (hlisted : st.listed = none)
      (hperm : dirs.flatten.Perm (Dict.values st.nodes)) :
      Turn st (.list dirs) { st with listed := some dirs.flatten }
  | listError (hwatch : st.watch ≠ .off) (hlisted : st.listed = none) :
      Turn st .listError { st with listed := some [] }
  | load {node : StoreNode} {rest : List StoreNode} (hlisted : st.listed = some (node :: rest)) :
      Turn st .load { st with
        listed := some rest
        cache := (addNode st.cache node).1
        watcher := (addNode st.cache node).2 }
  | event {e : WatchEvent} {events : List WatchEvent} (hlisted : st.listed = some [])
      (hevents : st.events = e :: events) :
      Turn st .event { st with
        events := events
        cache := (handleEvent st.cache e).1
        watcher := (handleEvent st.cache e).2 }
  | notify {w : Watcher} : Turn st .notify { st with watcher := w }
  | rewatch {nodes : Dict GoString StoreNode} (hlisted : st.listed = some [])
      (hwatch : st.watch = .failed nodes) : Turn st .rewatch { st with watch := .up }

theorem step_cases {st st' : System} {a : Action} (hstep : step st a = some st') :
    Turn st a st' := by
  cases a with
  | set =>
    cases hstep
    refine .set ?_
    split
    · exact .inl rfl
    · exact .inr rfl
  | deleteApp =>
    cases hstep
    exact .deleteApp
  | delete =>
    obtain ⟨node, hnode, rfl⟩ := Option.map_eq_some_iff.mp hstep
    exact .delete hnode
  | expire =>
    obtain ⟨node, hnode, rfl⟩ := Option.map_eq_some_iff.mp hstep
    exact .expire hnode
  | fail =>
    simp only [step] at hstep
    split at hstep
    · next hwatch =>
      cases hstep
      exact .fail hwatch
    · cases hstep
  | watch =>
    simp only [step] at hstep
    split at hstep
    · next hwatch =>
      cases hstep
      exact .watch hwatch
    · cases hstep
  | list dirs =>
    simp only [step] at hstep
    split at hstep
    · cases hstep
    · cases hstep
    · next hlisted hwatch =>
      split at hstep
      · next hperm =>
        cases hstep
        exact .list hwatch hlisted hperm
      · cases hstep
  | listError =>
    simp only [step] at hstep
    split at hstep
    · cases hstep
    · cases hstep
    · next hlisted hwatch =>
      cases hstep
      exact .listError hwatch hlisted
  | load =>
    simp only [step] at hstep
    split at hstep
    · next hlisted =>
      cases hstep
      exact .load hlisted
    · cases hstep
  | event =>
    simp only [step] at hstep
    split at hstep
    · next hlisted hevents =>
      cases hstep
      exact .event hlisted hevents
    · cases hstep
  | notify =>
    simp only [step] at hstep
    split at hstep
    · cases hstep
    · cases hstep
      exact .notify
    · cases hstep
      exact .notify
  | rewatch =>
    simp only [step] at hstep
    split at hstep
    · next hlisted _ hwatch =>
      cases hstep
      exact .rewatch hlisted hwatch
    · cases hstep

/-- Only a failure fails the watch. -/
theorem Turn.failed {st st' : System} {a : Action} (h : Turn st a st')
    {nodes : Dict GoString StoreNode} (hfailed : st'.watch = .failed nodes) :
    st.watch = .failed nodes ∨ a = .fail := by
  cases h with
  | fail => exact .inr rfl
  | watch | rewatch => cases hfailed
  | _ => exact .inl hfailed

/-! ## Conditions -/

/-- The hash tells these values apart. -/
def CollisionFree (values : List GoString) : Prop :=
  ∀ u ∈ values, ∀ v ∈ values, Sha1.sum u = Sha1.sum v → u = v

instance (values : List GoString) : Decidable (CollisionFree values) :=
  inferInstanceAs (Decidable (∀ u ∈ values, ∀ v ∈ values, Sha1.sum u = Sha1.sum v → u = v))

/-- Applications are path elements, and what is hashed is one of these values: the value of a
node for its key and the drain URL for the cache. -/
def Uses (values : List GoString) : Action → Prop
  | .set ttl appId hostname drainURL =>
    Path.Element appId ∧ drainData hostname drainURL ∈ values ∧
      ∀ s ∈ appServiceFromStoreNode (drainNode ttl appId hostname drainURL), s.url ∈ values
  | .deleteApp appId => Path.Element appId
  | _ => True

/-- No other node is for the service of this one. -/
def Sole (nodes : Dict GoString StoreNode) (node : StoreNode) : Prop :=
  ∀ s ∈ appServiceFromStoreNode node, ∀ s' ∈ services (nodes.erase node.key), s'.key ≠ s.key

/-- A node goes only when no other one is for its service. -/
def LastOfService (st : System) : Action → Prop
  | .delete key | .expire key => ∀ node ∈ st.nodes.lookup key, Sole st.nodes node
  | _ => True

/-- A node is written only when no other one is for its service. -/
def Distinct (st : System) : Action → Prop
  | .set ttl appId hostname drainURL => Sole st.nodes (drainNode ttl appId hostname drainURL)
  | _ => True

/-- After a failure the services are those that were there when the watch failed. -/
def Unchanged (st : System) : Prop :=
  match st.watch with
  | .failed nodes =>
    (∀ s ∈ services nodes, s ∈ services st.nodes) ∧ ∀ s ∈ services st.nodes, s ∈ services nodes
  | _ => True

/-- When `Run` lists the store or starts another watch after a failure, the store has the
services that it had at the failure. The listing fails only for a store without nodes. -/
def NothingMissed (st : System) : Action → Prop
  | .list _ | .rewatch => Unchanged st
  | .listError => Unchanged st ∧ services st.nodes = []
  | _ => True

/-- The watch never fails, and the listing fails only for a store without nodes. -/
def NoErrors (st : System) : Action → Prop
  | .fail => False
  | .listError => services st.nodes = []
  | _ => True

instance (values : List GoString) (a : Action) : Decidable (Uses values a) := by
  cases a <;> unfold Uses <;> infer_instance

instance (nodes : Dict GoString StoreNode) (node : StoreNode) : Decidable (Sole nodes node) :=
  inferInstanceAs (Decidable (∀ s ∈ appServiceFromStoreNode node,
    ∀ s' ∈ services (nodes.erase node.key), s'.key ≠ s.key))

instance (st : System) (a : Action) : Decidable (LastOfService st a) := by
  cases a <;> unfold LastOfService <;> infer_instance

instance (st : System) (a : Action) : Decidable (Distinct st a) := by
  cases a <;> unfold Distinct <;> infer_instance

instance (st : System) : Decidable (Unchanged st) := by
  unfold Unchanged
  split <;> infer_instance

instance (st : System) (a : Action) : Decidable (NothingMissed st a) := by
  cases a <;> unfold NothingMissed <;> infer_instance

instance (st : System) (a : Action) : Decidable (NoErrors st a) := by
  cases a <;> unfold NoErrors <;> infer_instance

/-- A watch is up, and all that was listed and all its events are handled. -/
structure CaughtUp (st : System) : Prop where
  watch : st.watch.isUp = true
  listed : st.listed = some []
  events : st.events = []

end StoreWatcher

end Loggregator.Doppler
