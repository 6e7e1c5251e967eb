import Loggregator.Doppler.CacheCells

/-!
# The cache follows the store

The cache is to have the services of the nodes in the store. A node that goes while another one
is for the same service takes the service away, and what changes between two watches is never
seen. When neither happens, every cell reflects its live values once all that is under way has
been handled (`Synced`).
-/

namespace Loggregator.Doppler.StoreWatcher

open Lib Update SyslogDrainBinder

variable {values : List GoString} {k : GoString × GoString}
  {nodes : Dict GoString StoreNode} {key : GoString} {node : StoreNode} {s : AppService}

/-! ## The invariant -/

/-- The nodes that the cells are to follow: those at the failure while no watch is up. -/
def base (st : System) : Dict GoString StoreNode :=
  match st.watch with
  | .failed nodes => nodes
  | _ => st.nodes

/-- What the events under way do to a cell. -/
def pending (st : System) (k : GoString × GoString) : List (Update AppService) :=
  st.events.map (WatchEvent.updateOf k)

/-- Before the listing, the events under way do no harm to what will be listed. From then on, the
cell reflects the nodes once everything under way is handled. -/
def Synced (st : System) (k : GoString × GoString) : Prop :=
  match st.listed with
  | none => cell st.cache k = none ∧ Stable (live (base st) k) (pending st k)
  | some rest =>
    Reflects (live (base st) k) (replay (rest.map (putOf k) ++ pending st k) (cell st.cache k))

structure Inv (values : List GoString) (st : System) : Prop where
  written : AllWritten values st.nodes
  placed : Placed values st.cache
  events : ∀ e ∈ st.events, KnownNode values e.node
  listed : ∀ rest ∈ st.listed, ∀ node ∈ rest, KnownNode values node
  off : st.watch = .off → st.events = [] ∧ st.listed = none
  synced : ∀ k, k.2 ∈ values → Synced st k

namespace Inv

variable {st st' : System}

theorem initial : Inv values {} where
  written := by
    intro key node hnode
    cases hnode
  placed := .empty
  events := by
    intro e he
    cases he
  listed := by
    intro rest hrest
    cases hrest
  off := fun _ => ⟨rfl, rfl⟩
  synced := fun k _ => ⟨rfl, fun _ hx => hx⟩

/-- A change of the store. -/
theorem change (hst : Inv values st) {nodes : Dict GoString StoreNode} {e : WatchEvent}
    (htracks : Tracks values st.nodes nodes e) : Inv values (change st nodes e) := by
  refine ⟨htracks.written, hst.placed, ?_, hst.listed, ?_, ?_⟩
  · intro e' he'
    simp only [StoreWatcher.change] at he'
    split at he'
    · rcases List.mem_append.mp he' with he' | he'
      · exact hst.events e' he'
      · cases List.mem_singleton.mp he'
        exact htracks.known
    · exact hst.events e' he'
  · intro hoff
    have hoff : st.watch = .off := hoff
    simp only [StoreWatcher.change, hoff, Watch.isUp]
    exact hst.off hoff
  · intro k hk
    have hsynced := hst.synced k hk
    unfold Synced pending base at hsynced ⊢
    cases hwatch : st.watch with
    | off =>
      obtain ⟨hevents, hlisted⟩ := hst.off hwatch
      simp only [StoreWatcher.change, hwatch, Watch.isUp, hlisted, hevents] at hsynced ⊢
      exact ⟨hsynced.1, fun _ hx => hx⟩
    | failed nodes' =>
      simp only [StoreWatcher.change, hwatch, Watch.isUp] at hsynced ⊢
      exact hsynced
    | up =>
      simp only [StoreWatcher.change, hwatch, Watch.isUp, if_true, List.map_append,
        List.map_cons, List.map_nil] at hsynced ⊢
      cases hlisted : st.listed with
      | none =>
        rw [hlisted] at hsynced
        exact ⟨hsynced.1, (htracks.follows k).stable hsynced.2⟩
      | some rest =>
        rw [hlisted] at hsynced
        simp only at hsynced ⊢
        rw [← List.append_assoc, replay_concat]
        exact (htracks.follows k).reflects hsynced

/-- The listing, of nodes that have the services which the cells follow. -/
theorem list (hst : Inv values st) (hlisted : st.listed = none) (hwatch : st.watch ≠ .off)
    {rest : List StoreNode} (hknown : ∀ node ∈ rest, KnownNode values node)
    (hrest : ∀ s, s ∈ rest.filterMap appServiceFromStoreNode ↔ s ∈ services (base st)) :
    Inv values { st with listed := some rest } := by
  refine ⟨hst.written, hst.placed, hst.events, ?_, fun hoff => absurd hoff hwatch, ?_⟩
  · intro rest' hrest'
    cases hrest'
    exact hknown
  · intro k hk
    have hsynced := hst.synced k hk
    rw [Synced, hlisted] at hsynced
    obtain ⟨hcell, hstable⟩ := hsynced
    have hputs : ∀ u ∈ rest.map (putOf k), u ≠ .clear := by
      intro u hu
      obtain ⟨node, -, rfl⟩ := List.mem_map.mp hu
      exact putOf_ne_clear k node
    have hlive : ∀ s, live (base st) k s ↔ .put s ∈ rest.map (putOf k) := by
      intro s
      simp only [live, ← hrest, List.mem_filterMap, List.mem_map, putOf_eq_put]
      constructor
      · rintro ⟨⟨node, hnode, hs⟩, hkey⟩
        exact ⟨node, hnode, hs, hkey⟩
      · rintro ⟨node, hnode, hs, hkey⟩
        exact ⟨⟨node, hnode, hs⟩, hkey⟩
    show Reflects (live (base st) k) (replay (_ ++ pending st k) (cell st.cache k))
    rw [hcell, replay_append]
    exact hstable _ ((reflects_replay_puts hputs).congr hlive)

theorem load (hfree : CollisionFree values) (hst : Inv values st) {node : StoreNode}
    {rest : List StoreNode} (hlisted : st.listed = some (node :: rest)) (watcher : Watcher) :
    Inv values { st with
      listed := some rest, cache := (addNode st.cache node).1, watcher := watcher } := by
  obtain ⟨hnode, hknown⟩ := List.forall_mem_cons.mp (hst.listed _ hlisted)
  refine ⟨hst.written, hst.placed.addNode hnode, hst.events, ?_, ?_, ?_⟩
  · intro rest' hrest'
    cases hrest'
    exact hknown
  · intro hoff
    rw [(hst.off hoff).2] at hlisted
    cases hlisted
  · intro k hk
    have hsynced := hst.synced k hk
    rw [Synced, hlisted] at hsynced
    show Reflects (live (base st) k)
      (replay (rest.map (putOf k) ++ pending st k) (cell (addNode st.cache node).1 k))
    rw [cell_addNode hfree hnode hk]
    exact hsynced

theorem event (hfree : CollisionFree values) (hst : Inv values st) {e : WatchEvent}
    {events : List WatchEvent} (hlisted : st.listed = some []) (hevents : st.events = e :: events)
    (watcher : Watcher) :
    Inv values { st with
      events := events, cache := (handleEvent st.cache e).1, watcher := watcher } := by
  have hknown := hst.events
  rw [hevents, List.forall_mem_cons] at hknown
  refine ⟨hst.written, hst.placed.handleEvent hknown.1, hknown.2, hst.listed, ?_, ?_⟩
  · intro hoff
    rw [(hst.off hoff).2] at hlisted
    cases hlisted
  · intro k hk
    have hsynced := hst.synced k hk
    rw [Synced, hlisted, pending, hevents] at hsynced
    rw [Synced]
    simp only [hlisted, pending, cell_handleEvent hfree hknown.1 hk]
    exact hsynced

/-- The watch fails or starts, and the services that the cells follow stay the same. -/
theorem setWatch (hst : Inv values st) {w : Watch} (hw : w ≠ .off)
    (hsame : ∀ s, s ∈ services (base { st with watch := w }) ↔ s ∈ services (base st)) :
    Inv values { st with watch := w } := by
  refine ⟨hst.written, hst.placed, hst.events, hst.listed, fun hoff => absurd hoff hw, ?_⟩
  intro k hk
  have hlive : ∀ s, live (base { st with watch := w }) k s ↔ live (base st) k s :=
    fun s => and_congr_left' (hsame s)
  have hsynced := hst.synced k hk
  unfold Synced at hsynced ⊢
  cases hlisted : st.listed with
  | none =>
    simp only [hlisted] at hsynced ⊢
    exact ⟨hsynced.1, hsynced.2.congr hlive⟩
  | some rest =>
    simp only [hlisted] at hsynced ⊢
    exact hsynced.congr hlive

end Inv

/-- The conditions under which no cell is cleared too early and no change is missed. -/
def Orderly (values : List GoString) (st : System) (a : Action) : Prop :=
  Uses values a ∧ LastOfService st a ∧ NothingMissed st a

theorem Unchanged.services_base {st : System} (h : Unchanged st) (s : AppService) :
    s ∈ services st.nodes ↔ s ∈ services (base st) := by
  unfold Unchanged at h
  unfold base
  split
  · next nodes hwatch =>
    rw [hwatch] at h
    exact ⟨h.2 s, h.1 s⟩
  · rfl

theorem Inv.step (hfree : CollisionFree values) {st st' : System} {a : Action}
    (hst : Inv values st) (hok : Orderly values st a) (hstep : step st a = some st') :
    Inv values st' := by
  obtain ⟨huses, hlast, hmissed⟩ := hok
  cases step_cases hstep with
  | set he => exact hst.change (tracks_set hfree hst.written huses he)
  | delete hnode =>
    exact hst.change (tracks_remove hst.written hnode (hlast _ hnode) (.inl rfl))
  | expire hnode =>
    exact hst.change (tracks_remove hst.written hnode (hlast _ hnode) (.inr rfl))
  | deleteApp => exact hst.change (tracks_deleteApp hst.written huses)
  | fail hwatch | watch hwatch =>
    refine hst.setWatch (by simp) (fun s => ?_)
    rw [base, base, hwatch]
  | list hwatch hlisted hperm =>
    refine hst.list hlisted hwatch ?_ ?_
    · intro node hnode
      obtain ⟨key, hlookup⟩ := Dict.mem_values.mp (hperm.mem_iff.mp hnode)
      exact (hst.written key node hlookup).known
    · intro s
      rw [← hmissed.services_base]
      exact (hperm.filterMap _).mem_iff
  | listError hwatch hlisted =>
    refine hst.list hlisted hwatch (by simp) (fun s => ?_)
    rw [← hmissed.1.services_base, hmissed.2]
    rfl
  | load hlisted => exact hst.load hfree hlisted _
  | event hlisted hevents => exact hst.event hfree hlisted hevents _
  | notify => exact ⟨hst.written, hst.placed, hst.events, hst.listed, hst.off, hst.synced⟩
  | rewatch => exact hst.setWatch (by simp) (fun s => hmissed.services_base s)

/-! ## Agreement -/

theorem Inv.reflects {st : System} (hst : Inv values st) (hdone : CaughtUp st)
    (hk : k.2 ∈ values) : Reflects (live st.nodes k) (cell st.cache k) := by
  have hsynced := hst.synced k hk
  have hbase : base st = st.nodes := by
    have hup := hdone.watch
    unfold base
    split
    · next hwatch =>
      rw [hwatch] at hup
      cases hup
    · rfl
  rw [Synced, hdone.listed, pending, hdone.events, hbase] at hsynced
  exact hsynced

theorem Inv.url_mem {st : System} (hst : Inv values st) (hs : s ∈ services st.nodes) :
    s.url ∈ values := by
  obtain ⟨key, node, hnode, hs⟩ := mem_services.mp hs
  exact (hst.written key node hnode).known s hs

theorem Inv.contains_iff {st : System} (hst : Inv values st) (hdone : CaughtUp st) :
    st.cache.Contains k ↔ ∃ s ∈ services st.nodes, s.key = k := by
  rw [hst.placed.contains_iff]
  constructor
  · rintro ⟨s, hs, rfl⟩
    have hlive := (hst.reflects hdone (hst.placed.known _ _ s hs)).live_of_mem s hs
    exact ⟨s, hlive.1, rfl⟩
  · rintro ⟨s, hs, rfl⟩
    have hreflects := hst.reflects (k := s.key) hdone (hst.url_mem hs)
    obtain ⟨s', hs'⟩ := Option.isSome_iff_exists.mp (hreflects.isSome_iff.mpr ⟨s, hs, rfl⟩)
    exact ⟨s', hs', (hreflects.live_of_mem s' hs').2⟩

/-- The condition without watch errors: a node goes only when no other one is for its service. -/
def okWithoutErrors (values : List GoString) (st : System) (a : Action) : Prop :=
  Uses values a ∧ NoErrors st a ∧ LastOfService st a

instance (values : List GoString) (st : System) (a : Action) :
    Decidable (okWithoutErrors values st a) := inferInstanceAs (Decidable (_ ∧ _ ∧ _))

/-- Then no watch fails, so nothing is missed. -/
theorem orderly_of_okWithoutErrors {st : System}
    (hst : Reachable step (okWithoutErrors values) {} st) :
    Reachable step (Orderly values) {} st := by
  refine hst.mono (fun st a hst hok => ⟨hok.1, hok.2.2, ?_⟩)
  have hwatch : ∀ nodes, st.watch ≠ .failed nodes :=
    hst.invariant (P := fun st => ∀ nodes, st.watch ≠ .failed nodes) (by simp)
      (fun st a st' hi hok hstep nodes hfailed => by
        rcases (step_cases hstep).failed hfailed with hfailed | rfl
        · exact hi nodes hfailed
        · exact hok.2.1)
  have hunchanged : Unchanged st := by
    unfold Unchanged
    split
    · next nodes hfailed => exact absurd hfailed (hwatch nodes)
    · trivial
  cases a with
  | list | rewatch => exact hunchanged
  | listError => exact ⟨hunchanged, hok.2.1⟩
  | _ => trivial

/-- In every run without watch errors in which a node goes only when no other node is for its
service, the cache agrees with the store once all events are handled: it has a service for an
application and a URL exactly when some node has that URL. -/
theorem cache_agrees_with_store (values : List GoString) (hfree : CollisionFree values)
    {st : System} (hst : Reachable step (okWithoutErrors values) {} st) (hdone : CaughtUp st)
    (appId drainURL : GoString) :
    st.cache.Contains (appId, drainURL) ↔
      ∃ node ∈ Dict.values st.nodes, HasDrain node appId drainURL := by
  have hinv : Inv values st :=
    (orderly_of_okWithoutErrors hst).invariant .initial (fun _ _ _ => Inv.step hfree)
  rw [hinv.contains_iff hdone]
  simp only [services, List.mem_filterMap, HasDrain]
  constructor
  · rintro ⟨⟨_, _, hostname⟩, ⟨node, hnode, hs⟩, hkey⟩
    cases hkey
    exact ⟨node, hnode, hostname, hs⟩
  · rintro ⟨node, hnode, hostname, hs⟩
    exact ⟨_, ⟨node, hnode, hs⟩, rfl⟩

/-- A drain URL, its nodes for two hostnames, and what is hashed for them. -/
def drainURL : GoString := str "syslog://drain"
def nodeFor (hostname : GoString) : StoreNode := drainNode 1800 (str "app") hostname drainURL
def setFor (hostname : GoString) : Action := .set 1800 (str "app") hostname drainURL
def hashed : List GoString := [drainURL, (nodeFor (str "one")).value, (nodeFor (str "two")).value]

theorem hashed_collisionFree : CollisionFree hashed := by decide +kernel

theorem hasDrain_nodeFor {hostname : GoString} (hhost : Json.Plain hostname) :
    HasDrain (nodeFor hostname) (str "app") drainURL :=
  (hasDrain_drainNode (by decide) hhost (Json.plain_of_all (by decide)) 1800 _ _).mpr ⟨rfl, rfl⟩

/-- A node is there before the watch, expires and is written again before the listing. -/
def rewrittenNode : List Action :=
  [setFor (str "one"), .watch, .expire (nodeFor (str "one")).key, setFor (str "one"),
   .list [[nodeFor (str "one")]], .load, .notify, .event, .notify, .event, .notify]

theorem rewrittenNode_cached :
    ∃ st, run (guarded step (okWithoutErrors hashed)) {} rewrittenNode = some st ∧ CaughtUp st ∧
      st.cache.Contains (str "app", drainURL) := by
  have hrun : (run (guarded step (okWithoutErrors hashed)) {} rewrittenNode).map
      (fun st => (Dict.values st.nodes, st.watch.isUp, st.listed, st.events.isEmpty)) =
      some ([nodeFor (str "one")], true, some [], true) := by decide +kernel
  obtain ⟨st, hst, hfinal⟩ := Option.map_eq_some_iff.mp hrun
  simp only [Prod.mk.injEq, List.isEmpty_iff] at hfinal
  obtain ⟨hnodes, hwatch, hlisted, hevents⟩ := hfinal
  have hdone : CaughtUp st := ⟨hwatch, hlisted, hevents⟩
  refine ⟨st, hst, hdone, (cache_agrees_with_store hashed hashed_collisionFree
    (Reachable.refl.of_guarded hst) hdone _ _).mpr
      ⟨nodeFor (str "one"), ?_, hasDrain_nodeFor (Json.plain_of_all (by decide))⟩⟩
  rw [hnodes]
  exact List.mem_cons_self

/-- A permitted run that ends caught up, with one node in the store and nothing in the cache. -/
theorem exists_caughtUp_empty {ok : System → Action → Prop} [∀ st a, Decidable (ok st a)]
    {as : List Action} {node : StoreNode}
    (hrun : (run (guarded step ok) {} as).map (fun st => (Dict.values st.nodes, st.watch.isUp,
      st.listed, st.events.isEmpty, st.cache.appServicesByAppId.entries.isEmpty)) =
      some ([node], true, some [], true, true)) :
    ∃ st, Reachable step ok {} st ∧ CaughtUp st ∧ node ∈ Dict.values st.nodes ∧
      st.cache = {} := by
  obtain ⟨st, hreach, hfinal⟩ := exists_reachable_of_guarded hrun
  simp only [Prod.mk.injEq, List.isEmpty_iff] at hfinal
  obtain ⟨hnodes, hwatch, hlisted, hevents, hcache⟩ := hfinal
  refine ⟨st, hreach, ⟨hwatch, hlisted, hevents⟩, ?_,
    congrArg AppServiceCache.mk (AList.ext hcache)⟩
  rw [hnodes]
  exact List.mem_cons_self

/-- Two nodes of an application have the same URL, and one of them expires. -/
def sharedURL : List Action :=
  [.watch, .list [], setFor (str "one"), setFor (str "two"), .event, .notify, .event,
   .expire (nodeFor (str "one")).key, .event, .notify]

/-- The service of the other node is gone from the cache. -/
theorem sharedURL_lost :
    ∃ st, Reachable step (fun st a => Uses hashed a ∧ NoErrors st a) {} st ∧ CaughtUp st ∧
      nodeFor (str "two") ∈ Dict.values st.nodes ∧
      HasDrain (nodeFor (str "two")) (str "app") drainURL ∧
      ¬ st.cache.Contains (str "app", drainURL) := by
  have hrun : (run (guarded step (fun st a => Uses hashed a ∧ NoErrors st a)) {} sharedURL).map
      (fun st => (Dict.values st.nodes, st.watch.isUp, st.listed, st.events.isEmpty,
        st.cache.appServicesByAppId.entries.isEmpty)) =
      some ([nodeFor (str "two")], true, some [], true, true) := by decide +kernel
  obtain ⟨st, hreach, hdone, hnode, hempty⟩ := exists_caughtUp_empty hrun
  refine ⟨st, hreach, hdone, hnode, hasDrain_nodeFor (Json.plain_of_all (by decide)), ?_⟩
  rw [hempty]
  exact AppServiceCache.not_contains_empty _

/-- The condition with watch errors: nodes are for distinct services, and nothing is missed. -/
def okWithErrors (values : List GoString) (st : System) (a : Action) : Prop :=
  Uses values a ∧ Distinct st a ∧ NothingMissed st a

instance (values : List GoString) (st : System) (a : Action) :
    Decidable (okWithErrors values st a) := inferInstanceAs (Decidable (_ ∧ _ ∧ _))

/-- The nodes are for distinct services. -/
def AllSole (nodes : Dict GoString StoreNode) : Prop :=
  ∀ key node, nodes.lookup key = some node → node.key = key ∧ Sole nodes node

theorem mem_services_erase : s ∈ services (nodes.erase key) ↔
    ∃ key' node, key' ≠ key ∧ nodes.lookup key' = some node ∧
      appServiceFromStoreNode node = some s := by
  simp only [mem_services, Dict.lookup_erase_eq_some, and_assoc]

theorem AllSole.mono {nodes' : Dict GoString StoreNode} (h : AllSole nodes)
    (hsub : ∀ key node, nodes'.lookup key = some node → nodes.lookup key = some node) :
    AllSole nodes' := by
  intro key node hnode
  obtain ⟨hkey, hsole⟩ := h key node (hsub key node hnode)
  refine ⟨hkey, fun s hs s' hs' => hsole s hs s' ?_⟩
  obtain ⟨key', node', hne, hlookup, hs'⟩ := mem_services_erase.mp hs'
  exact mem_services_erase.mpr ⟨key', node', hne, hsub key' node' hlookup, hs'⟩

theorem AllSole.insert (h : AllSole nodes) (hsole : Sole nodes node) :
    AllSole (nodes.insert node.key node) := by
  intro key node₁ hnode₁
  rw [Dict.lookup_insert_ite] at hnode₁
  split at hnode₁
  · next hkey =>
    cases hnode₁
    refine ⟨hkey.symm, fun s hs s' hs' => hsole s hs s' ?_⟩
    obtain ⟨key', node', hne, hlookup, hs'⟩ := mem_services_erase.mp hs'
    rw [Dict.lookup_insert_ite, if_neg hne] at hlookup
    exact mem_services_erase.mpr ⟨key', node', hne, hlookup, hs'⟩
  · next hkey =>
    obtain ⟨rfl, hsole₁⟩ := h key node₁ hnode₁
    refine ⟨rfl, fun s hs s' hs' => ?_⟩
    obtain ⟨key', node', hne, hlookup, hs'⟩ := mem_services_erase.mp hs'
    rw [Dict.lookup_insert_ite] at hlookup
    split at hlookup
    · cases hlookup
      exact (hsole s' hs' s (mem_services_erase.mpr ⟨_, node₁, hkey, hnode₁, hs⟩)).symm
    · exact hsole₁ s hs s' (mem_services_erase.mpr ⟨key', node', hne, hlookup, hs'⟩)

theorem AllSole.unique (h : AllSole nodes) {s s' : AppService} (hs : s ∈ services nodes)
    (hs' : s' ∈ services nodes) (hkey : s.key = s'.key) : s = s' := by
  obtain ⟨key, node, hnode, hs⟩ := mem_services.mp hs
  obtain ⟨key', node', hnode', hs'⟩ := mem_services.mp hs'
  obtain ⟨rfl, hsole⟩ := h key node hnode
  by_cases heq : key' = node.key
  · subst heq
    rw [hnode] at hnode'
    cases hnode'
    exact Option.some.inj (hs.symm.trans hs')
  · exact absurd hkey.symm
      (hsole s hs s' (mem_services_erase.mpr ⟨key', node', heq, hnode', hs'⟩))

theorem AllSole.step {st st' : System} {a : Action} (h : AllSole st.nodes)
    (hok : Distinct st a) (hstep : step st a = some st') : AllSole st'.nodes := by
  cases step_cases hstep with
  | set => exact h.insert hok
  | delete | expire =>
    exact h.mono (fun key' node' hnode => (Dict.lookup_erase_eq_some.mp hnode).2)
  | deleteApp => exact h.mono (fun key' node' hnode => (lookup_outside.mp hnode).1)
  | _ => exact h

theorem allSole_of_okWithErrors {st : System} (hst : Reachable step (okWithErrors values) {} st) :
    AllSole st.nodes :=
  hst.invariant (P := fun st => AllSole st.nodes) (fun _ _ hnode => by cases hnode)
    (fun _ _ _ h hok => h.step hok.2.1)

theorem orderly_of_okWithErrors {st : System} (hst : Reachable step (okWithErrors values) {} st) :
    Reachable step (Orderly values) {} st := by
  refine hst.mono (fun st a hst hok => ⟨hok.1, ?_, hok.2.2⟩)
  cases a with
  | delete key | expire key =>
    exact fun node hnode => (allSole_of_okWithErrors hst key node hnode).2
  | _ => trivial

/-- In every run in which the nodes are for distinct services and no service comes or goes
between the failure of a watch and the listing or the next watch, the cache has exactly the
services of the nodes once a watch is up and all its events are handled. -/
theorem cache_recovers (values : List GoString) (hfree : CollisionFree values) {st : System}
    (hst : Reachable step (okWithErrors values) {} st) (hdone : CaughtUp st) (s : AppService) :
    (∃ appId id, st.cache.find appId id = some s) ↔
      ∃ node ∈ Dict.values st.nodes, appServiceFromStoreNode node = some s := by
  have hinv : Inv values st :=
    (orderly_of_okWithErrors hst).invariant .initial (fun _ _ _ => Inv.step hfree)
  have hsole := allSole_of_okWithErrors hst
  rw [← List.mem_filterMap, ← services]
  constructor
  · rintro ⟨appId, id, hs⟩
    obtain ⟨rfl, rfl⟩ := hinv.placed.wellPlaced appId id s hs
    have hreflects := hinv.reflects (k := s.key) hdone (hinv.placed.known _ _ s hs)
    exact (hreflects.live_of_mem s hs).1
  · intro hs
    have hreflects := hinv.reflects (k := s.key) hdone (hinv.url_mem hs)
    exact ⟨_, _, (hreflects.eq_some_iff (fun a b ha hb => hsole.unique ha.1 hb.1
      (ha.2.trans hb.2.symm)) s).mpr ⟨hs, rfl⟩⟩

theorem decode_nodeFor {hostname : GoString} (hhost : Json.Plain hostname) :
    appServiceFromStoreNode (nodeFor hostname) = some ⟨str "app", drainURL, hostname⟩ := by
  have hurl : Json.Plain drainURL := Json.plain_of_all (by decide)
  rw [nodeFor, appServiceFromStoreNode_drainNode (by decide), unmarshal_plain hhost hurl,
    Option.map_some]

/-- A node is written again while no watch is up, and deleted after the next one has started. -/
def refreshedBetween : List Action :=
  [.watch, .list [], setFor (str "one"), .fail, .event, .notify, setFor (str "one"), .rewatch,
   .delete (nodeFor (str "one")).key, setFor (str "two"), .event, .notify, .event, .notify]

theorem refreshedBetween_cached :
    ∃ st, run (guarded step (okWithErrors hashed)) {} refreshedBetween = some st ∧
      CaughtUp st ∧ ∃ appId id, st.cache.find appId id =
        some { appId := str "app", url := drainURL, hostname := str "two" } := by
  have hrun : (run (guarded step (okWithErrors hashed)) {} refreshedBetween).map
      (fun st => (Dict.values st.nodes, st.watch.isUp, st.listed, st.events.isEmpty)) =
      some ([nodeFor (str "two")], true, some [], true) := by decide +kernel
  obtain ⟨st, hst, hfinal⟩ := Option.map_eq_some_iff.mp hrun
  simp only [Prod.mk.injEq, List.isEmpty_iff] at hfinal
  obtain ⟨hnodes, hwatch, hlisted, hevents⟩ := hfinal
  have hdone : CaughtUp st := ⟨hwatch, hlisted, hevents⟩
  refine ⟨st, hst, hdone, (cache_recovers hashed hashed_collisionFree
    (Reachable.refl.of_guarded hst) hdone _).mpr ⟨nodeFor (str "two"), ?_,
      decode_nodeFor (Json.plain_of_all (by decide))⟩⟩
  rw [hnodes]
  exact List.mem_cons_self

/-- A node is written while no watch is up. -/
def writtenBetween : List Action :=
  [.watch, .list [], .fail, setFor (str "one"), .rewatch]

/-- The service of the node is never cached. -/
theorem writtenBetween_missed :
    ∃ st, Reachable step (fun st a => Uses hashed a ∧ Distinct st a) {} st ∧ CaughtUp st ∧
      nodeFor (str "one") ∈ Dict.values st.nodes ∧
      appServiceFromStoreNode (nodeFor (str "one")) =
        some { appId := str "app", url := drainURL, hostname := str "one" } ∧
      ¬ ∃ appId id s, st.cache.find appId id = some s := by
  have hrun : (run (guarded step (fun st a => Uses hashed a ∧ Distinct st a)) {}
      writtenBetween).map (fun st => (Dict.values st.nodes, st.watch.isUp, st.listed,
        st.events.isEmpty, st.cache.appServicesByAppId.entries.isEmpty)) =
      some ([nodeFor (str "one")], true, some [], true, true) := by decide +kernel
  obtain ⟨st, hreach, hdone, hnode, hempty⟩ := exists_caughtUp_empty hrun
  refine ⟨st, hreach, hdone, hnode, decode_nodeFor (Json.plain_of_all (by decide)), ?_⟩
  rintro ⟨appId, id, s, hs⟩
  rw [hempty] at hs
  cases hs

end Loggregator.Doppler.StoreWatcher
