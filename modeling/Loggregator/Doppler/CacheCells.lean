import Loggregator.Doppler.StoreWatcher
import Loggregator.Lib.Replica

/-!
# The cells of the cache

The cache is a family of cells, one for each application and drain URL, where no two URLs in use
have the same hash. An event is an update of the cells (`cell_handleEvent`). The live values of a
cell are the services of the nodes in the store that are for its application and URL, and the
event of a change of the store tells every cell what changes for it (`Tracks`). A node that is
deleted or expires must be the last one for its service, as its event clears the cell.
-/

namespace Loggregator.Doppler

open Lib Update SyslogDrainBinder

/-! ## Cells of the cache -/

/-- The cell for an application and a URL. -/
def cell (c : AppServiceCache) (k : GoString × GoString) : Option AppService :=
  c.find k.1 (hexEncode (Sha1.sum k.2))

/-- What adding a node does to a cell. -/
def putOf (k : GoString × GoString) (node : StoreNode) : Update AppService :=
  match appServiceFromStoreNode node with
  | none => .keep
  | some s => if s.key = k then .put s else .keep

theorem putOf_eq_put {k : GoString × GoString} {node : StoreNode} {s : AppService} :
    putOf k node = .put s ↔ appServiceFromStoreNode node = some s ∧ s.key = k := by
  unfold putOf
  cases appServiceFromStoreNode node with
  | none => simp
  | some s' =>
    simp only [Option.some.injEq]
    split
    · next hkey =>
      rw [Update.put.injEq]
      exact ⟨fun heq => ⟨heq, heq ▸ hkey⟩, fun h => h.1⟩
    · next hkey => exact ⟨by simp, fun ⟨heq, h⟩ => absurd (heq ▸ h) hkey⟩

theorem putOf_ne_clear (k : GoString × GoString) (node : StoreNode) : putOf k node ≠ .clear := by
  unfold putOf
  split
  · simp
  · split <;> simp

/-- What an event does to a cell. -/
def WatchEvent.updateOf (k : GoString × GoString) : WatchEvent → Update AppService
  | .create node | .update node =>
    if node.dir = true ∨ node.value = [] then .keep else putOf k node
  | .delete node | .expire node =>
    if node.dir = true then if k.1 = Path.base node.key then .clear else .keep
    else
      match appServiceFromStoreNode node with
      | none => .keep
      | some s => if s.key = k then .clear else .keep

/-- The node that an event is about. -/
def WatchEvent.node : WatchEvent → StoreNode
  | .create node | .update node | .delete node | .expire node => node

namespace StoreWatcher

variable {values : List GoString} {c : AppServiceCache} {k : GoString × GoString}

/-- The drain URL of a node, if it has one, is among the values. -/
def KnownNode (values : List GoString) (node : StoreNode) : Prop :=
  ∀ s ∈ appServiceFromStoreNode node, s.url ∈ values

section

variable (hfree : CollisionFree values)
include hfree

/-- Two hashed URLs lead to the same cell only when they are equal. -/
theorem cell_eq_iff {s : AppService} (hs : s.url ∈ values) (hk : k.2 ∈ values) :
    (k.1 = s.appId ∧ hexEncode (Sha1.sum k.2) = s.id) ↔ s.key = k := by
  constructor
  · rintro ⟨happ, hid⟩
    rw [AppService.key, ← happ, ← hfree _ hk _ hs (hexEncode_inj hid)]
  · rintro rfl
    exact ⟨rfl, rfl⟩

theorem cell_watcherAdd {s : AppService} (hs : s.url ∈ values) (hk : k.2 ∈ values) :
    cell (watcherAdd c s).1 k = if s.key = k then (cell c k).or (some s) else cell c k := by
  have hcell := cell_eq_iff (k := k) hfree hs hk
  unfold watcherAdd
  cases hx : c.find s.appId s.id with
  | some s' =>
    have hexists : c.serviceExists s = true := by rw [AppServiceCache.serviceExists, hx]; rfl
    rw [if_pos hexists]
    split
    · next hkey =>
      have : cell c k = some s' := by rw [← hkey]; exact hx
      rw [this, Option.some_or]
    · rfl
  | none =>
    have hexists : ¬ c.serviceExists s = true := by rw [AppServiceCache.serviceExists, hx]; decide
    rw [if_neg hexists, cell, AppServiceCache.find_add]
    split
    · next h =>
      have hkey := hcell.mp h
      have : cell c k = none := by rw [← hkey]; exact hx
      rw [if_pos hkey, this, Option.none_or]
    · next h =>
      rw [if_neg (fun hkey => h (hcell.mpr hkey))]
      rfl

theorem cell_watcherRemove {s : AppService} (hs : s.url ∈ values) (hk : k.2 ∈ values) :
    cell (watcherRemove c s).1 k = if s.key = k then none else cell c k := by
  have hcell := cell_eq_iff (k := k) hfree hs hk
  unfold watcherRemove
  cases hx : c.find s.appId s.id with
  | some s' =>
    have hexists : c.serviceExists s = true := by rw [AppServiceCache.serviceExists, hx]; rfl
    rw [if_pos hexists, cell, AppServiceCache.find_remove]
    simp only [hcell]
    rfl
  | none =>
    have hexists : ¬ c.serviceExists s = true := by rw [AppServiceCache.serviceExists, hx]; decide
    rw [if_neg hexists]
    split
    · next hkey =>
      rw [← hkey]
      exact hx
    · rfl

theorem cell_addNode {node : StoreNode} (hnode : KnownNode values node) (hk : k.2 ∈ values) :
    cell (addNode c node).1 k = (putOf k node).apply (cell c k) := by
  unfold addNode putOf
  cases hs : appServiceFromStoreNode node with
  | none => rfl
  | some s =>
    simp only
    rw [cell_watcherAdd hfree (hnode s hs) hk]
    split <;> rfl

end

variable {e : WatchEvent} {appId : GoString}

theorem cell_handleEvent (hfree : CollisionFree values) (he : KnownNode values e.node)
    (hk : k.2 ∈ values) :
    cell (handleEvent c e).1 k = (e.updateOf k).apply (cell c k) := by
  -- creations and updates are handled alike, and so are deletions and expiries
  have hadd : ∀ node, KnownNode values node →
      cell (if node.dir = true ∨ node.value = [] then (c, Watcher.idle) else addNode c node).1 k =
        (if node.dir = true ∨ node.value = [] then Update.keep else putOf k node).apply
          (cell c k) := by
    intro node hnode
    split
    · rfl
    · exact cell_addNode hfree hnode hk
  have hdelete : ∀ node, KnownNode values node →
      cell (deleteEvent c node).1 k = ((WatchEvent.delete node).updateOf k).apply (cell c k) := by
    intro node hnode
    unfold deleteEvent WatchEvent.updateOf
    simp only
    split
    · rw [cell, watcherRemoveApp, AppServiceCache.find_removeApp]
      split <;> rfl
    · cases hs : appServiceFromStoreNode node with
      | none => rfl
      | some s =>
        simp only
        rw [cell_watcherRemove hfree (hnode s hs) hk]
        split <;> rfl
  cases e with
  | create node | update node => exact hadd node he
  | delete node | expire node => exact hdelete node he

/-- Services stand in the cell of their application and URL, which is among the values. -/
structure Placed (values : List GoString) (c : AppServiceCache) : Prop where
  wellPlaced : c.WellPlaced
  known : ∀ appId id s, c.find appId id = some s → s.url ∈ values

namespace Placed

theorem empty : Placed values {} where
  wellPlaced := AppServiceCache.wellPlaced_empty
  known := by
    intro appId id s hs
    simp [AppServiceCache.find] at hs

variable (hc : Placed values c)
include hc

theorem add {s : AppService} (hs : s.url ∈ values) :
    Placed values (watcherAdd c s).1 := by
  unfold watcherAdd
  split
  · exact hc
  · exact ⟨hc.wellPlaced.add s, AppServiceCache.forall_find_add hc.known hs⟩

theorem remove (s : AppService) : Placed values (watcherRemove c s).1 := by
  unfold watcherRemove
  split
  · exact ⟨hc.wellPlaced.remove s, AppServiceCache.forall_find_remove hc.known s⟩
  · exact hc

theorem removeApp (appId : GoString) :
    Placed values (watcherRemoveApp c appId).1 :=
  ⟨hc.wellPlaced.removeApp appId, AppServiceCache.forall_find_removeApp hc.known appId⟩

theorem addNode {node : StoreNode} (hnode : KnownNode values node) :
    Placed values (addNode c node).1 := by
  unfold Doppler.addNode
  cases hs : appServiceFromStoreNode node with
  | none => exact hc
  | some s => exact hc.add (hnode s hs)

theorem deleteEvent (node : StoreNode) :
    Placed values (deleteEvent c node).1 := by
  unfold Doppler.deleteEvent
  split
  · exact hc.removeApp _
  · cases appServiceFromStoreNode node with
    | none => exact hc
    | some s => exact hc.remove s

theorem handleEvent {e : WatchEvent} (he : KnownNode values e.node) :
    Placed values (handleEvent c e).1 := by
  cases e with
  | create node | update node =>
    simp only [Doppler.handleEvent]
    split
    · exact hc
    · exact hc.addNode he
  | delete node | expire node => exact hc.deleteEvent node

theorem contains_iff :
    c.Contains k ↔ ∃ s, cell c k = some s ∧ s.key = k := by
  constructor
  · rintro ⟨appId, id, s, hs, rfl⟩
    obtain ⟨rfl, rfl⟩ := hc.wellPlaced appId id s hs
    exact ⟨s, hs, rfl⟩
  · rintro ⟨s, hs, hk⟩
    exact ⟨k.1, _, s, hs, hk⟩

end Placed

/-! ## Changes of the store -/

/-- The node is one that the binder writes, under its own key. -/
structure Written (values : List GoString) (key : GoString) (node : StoreNode) : Prop where
  drain : ∃ ttl appId hostname drainURL, node = drainNode ttl appId hostname drainURL ∧
    Path.Element appId ∧ drainData hostname drainURL ∈ values
  known : KnownNode values node
  key_eq : node.key = key

/-- All nodes of the store are. -/
def AllWritten (values : List GoString) (nodes : Dict GoString StoreNode) : Prop :=
  ∀ key node, nodes.lookup key = some node → Written values key node

variable {nodes : Dict GoString StoreNode} {key : GoString} {node : StoreNode} {s : AppService}

theorem mem_services : s ∈ services nodes ↔
    ∃ key node, nodes.lookup key = some node ∧ appServiceFromStoreNode node = some s := by
  simp only [services, List.mem_filterMap, Dict.mem_values]
  constructor
  · rintro ⟨node, ⟨key, hnode⟩, hs⟩
    exact ⟨key, node, hnode, hs⟩
  · rintro ⟨key, node, hnode, hs⟩
    exact ⟨node, ⟨key, hnode⟩, hs⟩

/-- The hash tells the values of nodes apart, so the key determines the service. -/
theorem Written.decode_eq (hfree : CollisionFree values) {node' : StoreNode}
    (hnode : Written values key node) (hnode' : Written values key node') :
    appServiceFromStoreNode node = appServiceFromStoreNode node' := by
  obtain ⟨ttl, appId, hostname, drainURL, rfl, -, hdata⟩ := hnode.drain
  obtain ⟨ttl', appId', hostname', drainURL', rfl, -, hdata'⟩ := hnode'.drain
  have hkey : drainKey appId (drainData hostname drainURL) =
      drainKey appId' (drainData hostname' drainURL') :=
    hnode.key_eq.trans hnode'.key_eq.symm
  obtain ⟨rfl, hsum⟩ := drainKey_inj hkey
  have hvalue := hfree _ hdata _ hdata' hsum
  rw [appServiceFromStoreNode, appServiceFromStoreNode, drainNode, drainNode, hvalue]

/-- The application of a node's service is the one that the node is written for. -/
theorem Written.appId_iff (hnode : Written values key node)
    (hs : appServiceFromStoreNode node = some s) :
    Path.dir node.key = appDir appId ↔ s.appId = appId := by
  obtain ⟨ttl, appId', hostname, drainURL, rfl, happ', -⟩ := hnode.drain
  obtain ⟨metadata, -, rfl⟩ := Option.map_eq_some_iff.mp hs
  simp only [drainNode, dir_drainKey happ', base_appDir happ']
  exact ⟨fun h => List.append_cancel_left h, fun h => by rw [h]⟩

theorem services_insert (hfree : CollisionFree values) (hnodes : AllWritten values nodes)
    (hnode : Written values key node) :
    s ∈ services (nodes.insert key node) ↔
      s ∈ services nodes ∨ appServiceFromStoreNode node = some s := by
  simp only [mem_services, Dict.lookup_insert_ite]
  constructor
  · rintro ⟨key', node', hlookup, hs⟩
    split at hlookup
    · cases hlookup
      exact .inr hs
    · exact .inl ⟨key', node', hlookup, hs⟩
  · rintro (⟨key', node', hlookup, hs⟩ | hs)
    · by_cases hkey : key' = key
      · subst hkey
        rw [(hnodes key' node' hlookup).decode_eq hfree hnode] at hs
        exact ⟨key', node, if_pos rfl, hs⟩
      · exact ⟨key', node', by rw [if_neg hkey]; exact hlookup, hs⟩
    · exact ⟨key, node, if_pos rfl, hs⟩

theorem services_erase (hnode : nodes.lookup key = some node) (hkey : node.key = key)
    (hsole : Sole nodes node) :
    s ∈ services (nodes.erase key) ↔
      s ∈ services nodes ∧ ∀ s' ∈ appServiceFromStoreNode node, s.key ≠ s'.key := by
  constructor
  · intro hs
    refine ⟨?_, fun s' hs' => hsole s' hs' s (hkey ▸ hs)⟩
    obtain ⟨key', node', hlookup, hs⟩ := mem_services.mp hs
    exact mem_services.mpr ⟨key', node', (Dict.lookup_erase_eq_some.mp hlookup).2, hs⟩
  · rintro ⟨hs, hne⟩
    obtain ⟨key', node', hlookup, hs⟩ := mem_services.mp hs
    refine mem_services.mpr ⟨key', node', Dict.lookup_erase_eq_some.mpr ⟨?_, hlookup⟩, hs⟩
    rintro rfl
    rw [hnode] at hlookup
    cases hlookup
    exact hne s hs rfl

theorem services_outside (hnodes : AllWritten values nodes) :
    s ∈ services (outside (appDir appId) nodes) ↔ s ∈ services nodes ∧ s.appId ≠ appId := by
  simp only [mem_services, lookup_outside]
  constructor
  · rintro ⟨key', node', ⟨hlookup, hdir⟩, hs⟩
    exact ⟨⟨key', node', hlookup, hs⟩,
      fun hid => hdir (((hnodes key' node' hlookup).appId_iff hs).mpr hid)⟩
  · rintro ⟨⟨key', node', hlookup, hs⟩, hne⟩
    exact ⟨key', node',
      ⟨hlookup, fun hdir => hne (((hnodes key' node' hlookup).appId_iff hs).mp hdir)⟩, hs⟩

/-- The services that a cell should stand for. -/
def live (nodes : Dict GoString StoreNode) (k : GoString × GoString) (s : AppService) : Prop :=
  s ∈ services nodes ∧ s.key = k

/-- Adding a node tells every cell what its service changes. -/
theorem follows_putOf {nodes' : Dict GoString StoreNode}
    (hservices : ∀ s, s ∈ services nodes' ↔
      s ∈ services nodes ∨ appServiceFromStoreNode node = some s) (k : GoString × GoString) :
    Follows (putOf k node) (live nodes k) (live nodes' k) := by
  unfold putOf
  cases hs : appServiceFromStoreNode node with
  | none => simp [Follows, live, hservices, hs]
  | some s =>
    simp only
    split
    · next hkey =>
      intro s'
      simp only [live, hservices, hs, Option.some.injEq]
      constructor
      · rintro ⟨hs' | rfl, hk'⟩
        · exact .inl ⟨hs', hk'⟩
        · exact .inr rfl
      · rintro (⟨hs', hk'⟩ | rfl)
        · exact ⟨.inl hs', hk'⟩
        · exact ⟨.inr rfl, hkey⟩
    · next hkey =>
      intro s'
      simp only [live, hservices, hs, Option.some.injEq]
      constructor
      · rintro ⟨hs' | rfl, hk'⟩
        · exact ⟨hs', hk'⟩
        · exact absurd hk' hkey
      · rintro ⟨hs', hk'⟩
        exact ⟨.inl hs', hk'⟩

/-- The event of a change of the store tells every cell what changes for it. -/
structure Tracks (values : List GoString) (nodes nodes' : Dict GoString StoreNode)
    (e : WatchEvent) : Prop where
  written : AllWritten values nodes'
  known : KnownNode values e.node
  follows : ∀ k, Follows (e.updateOf k) (live nodes k) (live nodes' k)

theorem drainNode_value_ne_nil (ttl : UInt64) (appId hostname drainURL : GoString) :
    ¬ ((drainNode ttl appId hostname drainURL).dir = true ∨
      (drainNode ttl appId hostname drainURL).value = []) := by
  rintro (hdir | hvalue)
  · cases hdir
  · rw [drainNode, drainData_eq] at hvalue
    cases hvalue

theorem tracks_set (hfree : CollisionFree values) (hnodes : AllWritten values nodes) {ttl : UInt64}
    {hostname drainURL : GoString} (huses : Uses values (.set ttl appId hostname drainURL))
    (he : e = .update (drainNode ttl appId hostname drainURL) ∨
      e = .create (drainNode ttl appId hostname drainURL)) :
    Tracks values nodes (nodes.insert (drainNode ttl appId hostname drainURL).key
      (drainNode ttl appId hostname drainURL)) e := by
  obtain ⟨happ, hdata, hknown⟩ := huses
  have hnode : Written values (drainNode ttl appId hostname drainURL).key
      (drainNode ttl appId hostname drainURL) :=
    ⟨⟨ttl, appId, hostname, drainURL, rfl, happ, hdata⟩, hknown, rfl⟩
  have hne := drainNode_value_ne_nil ttl appId hostname drainURL
  generalize drainNode ttl appId hostname drainURL = node at *
  have hupdate : ∀ k, e.updateOf k = putOf k node := by
    intro k
    rcases he with rfl | rfl <;> exact if_neg hne
  refine ⟨?_, ?_, ?_⟩
  · intro key' node' hlookup
    rw [Dict.lookup_insert_ite] at hlookup
    split at hlookup
    · next hkey =>
      cases hlookup
      rw [hkey]
      exact hnode
    · exact hnodes key' node' hlookup
  · rcases he with rfl | rfl <;> exact hknown
  · intro k
    rw [hupdate]
    exact follows_putOf (fun s => services_insert hfree hnodes hnode) k

theorem tracks_remove (hnodes : AllWritten values nodes) (hnode : nodes.lookup key = some node)
    (hsole : Sole nodes node) (he : e = .delete node ∨ e = .expire node) :
    Tracks values nodes (nodes.erase key) e := by
  have hwritten := hnodes key node hnode
  have hdir : ¬ node.dir = true := by
    obtain ⟨ttl, appId, hostname, drainURL, rfl, -⟩ := hwritten.drain
    exact Bool.false_ne_true
  have hservices := fun s => services_erase (s := s) hnode hwritten.key_eq hsole
  refine ⟨?_, ?_, ?_⟩
  · intro key' node' hlookup
    exact hnodes key' node' (Dict.lookup_erase_eq_some.mp hlookup).2
  · rcases he with rfl | rfl <;> exact hwritten.known
  · intro k
    have hupdate : e.updateOf k = match appServiceFromStoreNode node with
        | none => .keep
        | some s => if s.key = k then .clear else .keep := by
      rcases he with rfl | rfl <;> exact if_neg hdir
    rw [hupdate]
    cases hs : appServiceFromStoreNode node with
    | none => simp [Follows, live, hservices, hs]
    | some s =>
      simp only
      split
      · next hkey =>
        rintro s' ⟨hs', hk'⟩
        exact ((hservices s').mp hs').2 s hs (hk'.trans hkey.symm)
      · next hkey =>
        intro s'
        simp only [live, hservices, hs, Option.mem_def, Option.some.injEq, forall_eq']
        constructor
        · rintro ⟨⟨hs', -⟩, hk'⟩
          exact ⟨hs', hk'⟩
        · rintro ⟨hs', hk'⟩
          exact ⟨⟨hs', fun heq => hkey (heq.symm.trans hk')⟩, hk'⟩

theorem tracks_deleteApp (hnodes : AllWritten values nodes) (happ : Path.Element appId) :
    Tracks values nodes (outside (appDir appId) nodes)
      (.delete { key := appDir appId, value := [], dir := true }) := by
  have hservices : ∀ s, s ∈ services (outside (appDir appId) nodes) ↔
      s ∈ services nodes ∧ s.appId ≠ appId := fun s => services_outside hnodes
  refine ⟨?_, ?_, ?_⟩
  · intro key' node' hlookup
    exact hnodes key' node' (lookup_outside.mp hlookup).1
  · intro s hs
    cases hs
  · intro k
    simp only [WatchEvent.updateOf, if_true, base_appDir happ]
    split
    · next hk =>
      rintro s ⟨hs, rfl⟩
      exact ((hservices s).mp hs).2 hk
    · next hk =>
      intro s
      simp only [live, hservices]
      constructor
      · rintro ⟨⟨hs, -⟩, hkey⟩
        exact ⟨hs, hkey⟩
      · rintro ⟨hs, rfl⟩
        exact ⟨⟨hs, hk⟩, rfl⟩

end StoreWatcher

end Loggregator.Doppler
