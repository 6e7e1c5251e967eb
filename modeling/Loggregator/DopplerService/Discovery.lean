import Loggregator.DopplerService.MetaNodes
import Loggregator.Lib.IP

/-!
# The dopplers of a finder

A finder as the traffic controller uses it, with the protocol `ws` and without a preferred zone. It
lists both roots of the store and then handles the events of the two watches one at a time. Whatever
the events below the legacy root are, the addresses for gRPC are those of the dopplers that are
announced.
-/

namespace Loggregator.DopplerService

open Lib Json SyslogDrainBinder

/-! ## The legacy root -/

section Legacy

variable (f : Finder) (maps : Maps)

theorem saveNode_legacy (node : StoreNode) : ∃ maps', f.saveNode .legacy maps node = .ok maps' ∧
    maps'.metaEndpoints = maps.metaEndpoints := ⟨_, rfl, rfl⟩

theorem deleteNode_legacy (node : StoreNode) : ∃ maps', f.deleteNode .legacy maps node = .ok maps' ∧
    maps'.metaEndpoints = maps.metaEndpoints := ⟨_, rfl, rfl⟩

theorem read_legacy (tree : Option StoreTree) : ∃ maps', f.read .legacy maps tree = .ok maps' ∧
    maps'.metaEndpoints = maps.metaEndpoints := by
  cases tree with
  | none => exact ⟨maps, rfl, rfl⟩
  | some tree =>
    refine foldlM_ok (P := fun m : Maps => m.metaEndpoints = maps.metaEndpoints) ?_ rfl
    intro m hm node _
    obtain ⟨m', hsave, hm'⟩ := saveNode_legacy f m node
    exact ⟨m', hsave, hm'.trans hm⟩

/-- An event of the watch of the legacy root. -/
inductive LegacyEvent : WatchEvent → Prop where
  | create {node : StoreNode} {p : Option StoreNode} (hkey : hasPrefix node.key legacyRoot = true) :
      LegacyEvent ⟨.create, some node, p⟩
  | update {node prev : StoreNode} (hkey : hasPrefix node.key legacyRoot = true)
      (hprev : hasPrefix prev.key legacyRoot = true) : LegacyEvent ⟨.update, some node, some prev⟩
  | delete {prev : StoreNode} {p : Option StoreNode}
      (hprev : hasPrefix prev.key legacyRoot = true) : LegacyEvent ⟨.delete, p, some prev⟩
  | expire {prev : StoreNode} {p : Option StoreNode}
      (hprev : hasPrefix prev.key legacyRoot = true) : LegacyEvent ⟨.expire, p, some prev⟩

theorem handleEvent_legacy {event : WatchEvent} (h : LegacyEvent event) :
    ∃ maps' sent, f.handleEvent .legacy maps event = .ok (maps', sent) ∧
      maps'.metaEndpoints = maps.metaEndpoints := by
  cases h with
  | @create node p _ =>
    obtain ⟨maps', hsave, hmeta⟩ := saveNode_legacy f maps node
    exact ⟨maps', true, by rw [handleEvent_create, hsave]; rfl, hmeta⟩
  | @update node prev _ _ =>
    rw [handleEvent_update]
    split
    · exact ⟨maps, false, rfl, rfl⟩
    · obtain ⟨maps', hsave, hmeta⟩ := saveNode_legacy f maps node
      exact ⟨maps', true, by rw [hsave]; rfl, hmeta⟩
  | @delete prev p _ =>
    obtain ⟨maps', hdelete, hmeta⟩ := deleteNode_legacy f maps prev
    exact ⟨maps', true, by rw [handleEvent_delete, hdelete]; rfl, hmeta⟩
  | @expire prev p _ =>
    obtain ⟨maps', hdelete, hmeta⟩ := deleteNode_legacy f maps prev
    exact ⟨maps', true, by rw [handleEvent_expire, hdelete]; rfl, hmeta⟩

end Legacy

/-! ## Addresses for gRPC -/

/-- The address is one of IPv4. -/
def Announcement.IPv4 (a : Announcement) : Prop := (IP.parseIPv4 a.ip).isSome = true

instance (a : Announcement) : Decidable a.IPv4 :=
  inferInstanceAs (Decidable ((IP.parseIPv4 a.ip).isSome = true))

theorem Announcement.IPv4.colon_notMem {a : Announcement} (h : a.IPv4) : Json.colon ∉ a.ip := by
  obtain ⟨ip, hip⟩ := Option.isSome_iff_exists.mp h
  intro hmem
  rcases IP.parseIPv4_bytes hip _ hmem with hdigit | hdot
  · exact absurd hdigit (by decide)
  · exact absurd hdot (by decide)

/-- An IPv4 address can be announced. -/
def Announcement.ofIPv4 (ip : GoString) (ttl : UInt64) (config : Config)
    (h : (IP.parseIPv4 ip).isSome = true) : Announcement where
  ip := ip
  ttl := ttl
  config := config
  safe := by
    have hsafe : ∀ n, 48 ≤ n → n ≤ 57 → htmlSafe (UInt8.ofNat n) = true := by
      intro n hlo hhi
      interval_cases n <;> decide
    obtain ⟨bytes, hbytes⟩ := Option.isSome_iff_exists.mp h
    rw [List.all_eq_true]
    intro c hc
    rcases IP.parseIPv4_bytes hbytes c hc with hdigit | rfl
    · simp only [Url.isDigit, Bool.and_eq_true, decide_eq_true_eq] at hdigit
      have hc := hsafe c.toNat (UInt8.le_iff_toNat_le.mp hdigit.1)
        (UInt8.le_iff_toNat_le.mp hdigit.2)
      rwa [UInt8.ofNat_toNat] at hc
    · decide

section GRPC

variable (f : Finder)

/-- The address for gRPC of an announced doppler. -/
def Finder.grpcDoppler (a : Announcement) : GoString :=
  a.ip ++ str ":" ++ formatInt f.grpcPort.toInt

theorem grpcAddr_wsAddr {a : Announcement} (h : a.IPv4) :
    f.grpcAddr (wsAddr a.ip a.config) = f.grpcDoppler a := by
  have hhost : (a.ip ++ str ":" ++ formatNat a.config.outgoingPort.toNat).takeWhile
      (fun c => c != Json.colon) = a.ip := by
    have hip : ∀ c ∈ a.ip, (c != Json.colon) = true := by
      intro c hc
      rw [bne_iff_ne]
      rintro rfl
      exact h.colon_notMem hc
    rw [List.append_assoc, List.takeWhile_append_of_pos hip]
    exact List.append_nil a.ip
  have htrim : trimPrefix (wsAddr a.ip a.config) (str "ws://") =
      a.ip ++ str ":" ++ formatNat a.config.outgoingPort.toNat := by
    rw [wsAddr, List.append_assoc, List.append_assoc, trimPrefix_append, ← List.append_assoc]
  rw [Finder.grpcAddr, htrim, hhost, Finder.grpcDoppler]

theorem grpcDopplers_eventOf {l : List Announcement} (h : ∀ a ∈ l, a.IPv4) :
    (f.eventOf (l.map Announcement.endpoints).flatten).grpcDopplers = l.map f.grpcDoppler := by
  induction l with
  | nil => rfl
  | cons a l ih =>
    rw [List.forall_mem_cons] at h
    have hudp : protocolOf (udpAddr a.ip a.config) = some .udp := rfl
    have hws : protocolOf (wsAddr a.ip a.config) = some .ws := rfl
    have hl := ih h.2
    rw [Finder.eventOf] at hl ⊢
    simp only [List.map_cons, List.flatten_cons, List.filter_append, List.map_append] at hl ⊢
    rw [hl]
    simp [Announcement.endpoints, hudp, hws, grpcAddr_wsAddr f h.1]

variable {f}

/-- Without UDP among the protocols the legacy addresses are not looked at. -/
theorem chooseAddrs_ws (hprotocols : f.protocols = [str "ws"]) (maps : Maps) :
    f.chooseAddrs maps = .ok maps.metaEndpoints := by
  have hidx : f.protocols.findIdx? (fun protocol => hasPrefix (str "udp") protocol) = none := by
    rw [hprotocols]
    decide
  rw [Finder.chooseAddrs, Finder.addLegacyAddrs, Finder.protocolIndex, hidx]

/-- Without a preferred zone the event has all addresses. -/
theorem eventFor_all (hzone : f.preferredDopplerZone = []) (m : Dict GoString (List GoString)) :
    f.eventFor m.entries = f.eventOf (Dict.values m).flatten := by
  have hall : addrsWithPrefix [] m.entries = (Dict.values m).flatten := by
    have hfilter : m.entries.filter (fun p => hasPrefix p.1 []) = m.entries :=
      List.filter_eq_self.mpr (fun _ _ => rfl)
    rw [addrsWithPrefix, hfilter, Dict.values, List.flatMap_def]
  rw [Finder.eventFor, hzone, eventWithPrefix_eq, hall, ite_self]

end GRPC

/-! ## All events -/

/-- A finder and the announced dopplers. -/
structure Discovery where
  store : MetaStore
  maps : Maps

/-- What a finder handles: the event of a change of the announced dopplers, or an event of the watch
of the legacy root. -/
inductive Input where
  | change (c : Change)
  | legacy (event : WatchEvent)

/-- Dopplers have IPv4 addresses. -/
def Input.Valid : Input → Prop
  | .change (.announce a) => a.IPv4
  | .change _ => True
  | .legacy event => LegacyEvent event

namespace Discovery

variable (f : Finder)

/-- An event is handled. -/
def step (d : Discovery) : Input → Except Panic Discovery
  | .change c => (c.handle f d.maps d.store).map (fun (maps, _) => ⟨c.apply d.store, maps⟩)
  | .legacy event => (f.handleEvent .legacy d.maps event).map (fun (maps, _) => ⟨d.store, maps⟩)

/-- `Start` up to the event that it sends, with the trees of the two listings. -/
def start (store : MetaStore) (metaTree legacyTree : StoreTree) : Except Panic Discovery := do
  let maps ← f.read .dopplerMeta {} (some metaTree)
  let maps ← f.read .legacy maps (some legacyTree)
  return ⟨store, maps⟩

/-- The finder has the endpoints of the announced dopplers. -/
structure Follows (d : Discovery) : Prop where
  endpoints : ∀ name, d.maps.metaEndpoints.lookup name = d.store.endpoints name
  ipv4 : ∀ a ∈ Dict.values d.store.nodes, a.IPv4

theorem follows_start {store : MetaStore} {metaTree : StoreTree} (legacyTree : StoreTree)
    (hlist : store.ListedBy metaTree) (hipv4 : ∀ a ∈ Dict.values store.nodes, a.IPv4) :
    ∃ d, start f store metaTree legacyTree = .ok d ∧ d.Follows := by
  obtain ⟨maps₁, hread₁, -, hlookup⟩ := hlist.read f {}
  obtain ⟨maps₂, hread₂, hmeta⟩ := read_legacy f maps₁ (some legacyTree)
  refine ⟨⟨store, maps₂⟩, ?_, fun name => ?_, hipv4⟩
  · rw [start, hread₁]
    show (f.read .legacy maps₁ (some legacyTree)).bind _ = _
    rw [hread₂]
    rfl
  · rw [hmeta, hlookup]
    exact Option.or_none

theorem Follows.change {d : Discovery} (h : d.Follows) {c : Change}
    (hvalid : (Input.change c).Valid) : ∃ d', step f d (.change c) = .ok d' ∧ d'.Follows := by
  refine ⟨⟨c.apply d.store, _⟩, by rw [step, c.handle_eq f d.maps d.store]; rfl, fun name => ?_, ?_⟩
  · rw [Change.lookup_handled, Change.endpoints_apply_ite, h.endpoints]
  · intro a ha
    obtain ⟨name, hname⟩ := Dict.mem_values.mp ha
    cases c with
    | announce b =>
      simp only [Change.apply, MetaStore.announce, Dict.lookup_insert_ite] at hname
      split at hname
      · cases hname
        exact hvalid
      · exact h.ipv4 a (Dict.mem_values.mpr ⟨name, hname⟩)
    | delete name' | expire name' =>
      exact h.ipv4 a (Dict.mem_values.mpr ⟨name, (Dict.lookup_erase_eq_some.mp hname).2⟩)

theorem Follows.legacy {d : Discovery} (h : d.Follows) {event : WatchEvent}
    (hvalid : LegacyEvent event) : ∃ d', step f d (.legacy event) = .ok d' ∧ d'.Follows := by
  obtain ⟨maps', sent, hhandle, hmeta⟩ := handleEvent_legacy f d.maps hvalid
  refine ⟨⟨d.store, maps'⟩, by rw [step, hhandle]; rfl, fun name => ?_, h.ipv4⟩
  rw [hmeta]
  exact h.endpoints name

theorem Follows.step {d : Discovery} (h : d.Follows) {i : Input} (hvalid : i.Valid) :
    ∃ d', Discovery.step f d i = .ok d' ∧ d'.Follows := by
  cases i with
  | change c => exact h.change f hvalid
  | legacy event => exact h.legacy f hvalid

variable {f}

theorem Follows.grpcDopplers {d : Discovery} (h : d.Follows) (hprotocols : f.protocols = [str "ws"])
    (hzone : f.preferredDopplerZone = []) : ∃ e, f.event d.maps = .ok e ∧
      e.grpcDopplers.Perm ((Dict.values d.store.nodes).map f.grpcDoppler) := by
  refine ⟨f.eventFor d.maps.metaEndpoints.entries, ?_, ?_⟩
  · rw [Finder.event, chooseAddrs_ws hprotocols]
    rfl
  · have hvalues := Dict.values_perm_map (g := Announcement.endpoints) h.endpoints
    rw [eventFor_all hzone, ← grpcDopplers_eventOf f h.ipv4]
    exact (eventOf_same f hvalues.flatten).grpc

/-- The event after any events of the two watches has the address of each announced doppler, and no
others. -/
theorem finder_reports_announced (f : Finder) (hprotocols : f.protocols = [str "ws"])
    (hzone : f.preferredDopplerZone = []) (store : MetaStore)
    (hipv4 : ∀ a ∈ Dict.values store.nodes, a.IPv4) (metaTree legacyTree : StoreTree)
    (hlist : store.ListedBy metaTree) (inputs : List Input) (hvalid : ∀ i ∈ inputs, i.Valid) :
    ∃ d₀ d e, start f store metaTree legacyTree = .ok d₀ ∧ inputs.foldlM (step f) d₀ = .ok d ∧
      f.event d.maps = .ok e ∧
      e.grpcDopplers.Perm ((Dict.values d.store.nodes).map f.grpcDoppler) := by
  obtain ⟨d₀, hstart, h₀⟩ := follows_start f legacyTree hlist hipv4
  obtain ⟨d, hrun, hd⟩ := foldlM_ok (f := step f) (P := Follows)
    (fun d hd i hi => hd.step f (hvalid i hi)) h₀
  obtain ⟨e, he, hperm⟩ := hd.grpcDopplers hprotocols hzone
  exact ⟨d₀, d, e, hstart, hrun, he, hperm⟩

/-- The announcement of a job, for the examples. -/
def sampleDoppler (ip : GoString) (index : GoString)
    (h : (IP.parseIPv4 ip).isSome = true) : Announcement :=
  .ofIPv4 ip 10 ⟨str "z1", str "doppler", index, 3457, 8081⟩ h

/-- One doppler is listed. Another one starts, a legacy node is written, and the first one stops. -/
theorem finder_reports_second :
    let f : Finder := ⟨3457, 8082, [str "ws"], []⟩
    let a := sampleDoppler (str "10.0.0.1") (str "0") (by decide +kernel)
    let b := sampleDoppler (str "10.0.0.2") (str "1") (by decide +kernel)
    let store := MetaStore.announce ⟨∅, fun _ _ h => by cases h⟩ a
    let dir : StoreTree → StoreTree := fun t => .node ⟨metaRoot, [], true, 0⟩ [t]
    let legacyNode : StoreNode := ⟨legacyRoot ++ str "/z1/doppler/0", str "10.0.0.1", false, 10⟩
    let inputs : List Input := [.change (.announce b), .legacy ⟨.create, some legacyNode, none⟩,
      .change (.delete a.name)]
    ∃ d₀ d e, Discovery.start f store (dir (.node a.node [])) (.node legacyNode []) = .ok d₀ ∧
      inputs.foldlM (Discovery.step f) d₀ = .ok d ∧ f.event d.maps = .ok e ∧
      e.grpcDopplers.Perm [str "10.0.0.2:8082"] := by
  intro f a b store dir legacyNode inputs
  have hlist : store.ListedBy (dir (.node a.node [])) := .refl _
  have hipv4 : ∀ a ∈ Dict.values store.nodes, a.IPv4 := by
    intro a' ha'
    rw [List.mem_singleton.mp ha']
    show (IP.parseIPv4 (str "10.0.0.1")).isSome = true
    decide +kernel
  have hvalid : ∀ i ∈ inputs, i.Valid := by
    have hb : b.IPv4 := by
      show (IP.parseIPv4 (str "10.0.0.2")).isSome = true
      decide +kernel
    simp only [inputs, List.forall_mem_cons, List.not_mem_nil, false_imp_iff, implies_true,
      and_true]
    exact ⟨hb, .create (by decide +kernel), trivial⟩
  have heval : ((Discovery.start f store (dir (.node a.node [])) (.node legacyNode [])).bind
      (fun d₀ => inputs.foldlM (Discovery.step f) d₀)).toOption.map
        (fun d => (Dict.values d.store.nodes).map f.grpcDoppler) =
      some [str "10.0.0.2:8082"] := by decide +kernel
  obtain ⟨d₀, d, e, hstart, hrun, he, hperm⟩ := finder_reports_announced f rfl rfl store hipv4
    (dir (.node a.node [])) (.node legacyNode []) hlist inputs hvalid
  rw [hstart] at heval
  simp only [Except.bind, hrun] at heval
  have hlive : (Dict.values d.store.nodes).map f.grpcDoppler = [str "10.0.0.2:8082"] :=
    Option.some.inj heval
  rw [hlive] at hperm
  exact ⟨d₀, d, e, hstart, hrun, he, hperm⟩

end Discovery

end Loggregator.DopplerService
