import Loggregator.DopplerService.Finder
import Loggregator.Lib.Transition

/-!
# Announced nodes in a finder

What the functions of the finder do with the nodes that `Announce` writes. They are decoded without
an error, `equal` compares their endpoints, and they are kept under the part of the key that tells
dopplers apart. So a finder that has the announced endpoints in its map keeps them there when it
handles the event of a change, and gets them there by a listing.
-/

namespace Loggregator.DopplerService

open Lib Json SyslogDrainBinder

/-! ## Decoding -/

theorem elementsInRange_strings (l : List GoString) :
    Decoder.elementsInRange (l.map .string) = true := by
  induction l with
  | nil => rfl
  | cons s l ih =>
    rw [List.map_cons, Decoder.elementsInRange, ih]
    rfl

theorem elements_strings (l : List GoString) :
    Decoder.elements [] Decoder.string (l.map .string) [] = (l, false) := by
  induction l with
  | nil => rfl
  | cons s l ih =>
    rw [List.map_cons, Decoder.elements, List.tail_nil, ih]
    rfl

namespace Announcement

variable (a b : Announcement)

theorem parseMetaValue_node :
    parseMetaValue a.node.value = .ok (some (.endpoints a.endpoints)) := by
  have hversion : Decoder.inRange (formatNat dopplerMetaVersion.toNat) = true := by decide +kernel
  have hendpoints := elementsInRange_strings a.endpoints
  rw [parseMetaValue, Decoder.unmarshal, a.parse_node]
  simp only [DopplerMeta.json, Decoder.map, Decoder.members, List.foldl_cons, List.foldl_nil,
    Decoder.any, Decoder.numbersInRange, hversion, hendpoints, Bool.not_true, Bool.or_self,
    Bool.false_eq_true, if_false]
  rfl

theorem unmarshal_node :
    DopplerEvent.unmarshal a.node.value = (⟨1, a.endpoints.toFinset⟩, false) := by
  have hint : Decoder.int (.number (formatNat dopplerMetaVersion.toNat)) 0 = (1, false) := by
    decide +kernel
  have hset : unmarshalSet (.array (a.endpoints.map .string)) ∅ =
      (a.endpoints.toFinset, false) := by
    have helems := elements_strings a.endpoints
    simp only [endpoints, List.map_cons, List.map_nil] at helems ⊢
    simp only [unmarshalSet, Decoder.slice, List.append_nil, helems, Bool.false_eq_true, if_false]
  have hversion : fieldFor [versionField, endpointsField] versionField = some versionField := by
    decide
  have hendpoints : fieldFor [versionField, endpointsField] endpointsField =
      some endpointsField := by decide
  have hne : endpointsField ≠ versionField := by decide
  rw [DopplerEvent.unmarshal, Decoder.unmarshal, a.parse_node]
  simp only [DopplerMeta.json, Decoder.struct, Decoder.members, List.foldl_cons, List.foldl_nil,
    DopplerEvent.store, hversion, hendpoints, if_pos, if_neg hne, hint, hset, Bool.or_self]

theorem udpAddr_ne_wsAddr : udpAddr a.ip a.config ≠ wsAddr b.ip b.config := by
  intro h
  have hhead : some (117 : UInt8) = some 119 := congrArg List.head? h
  exact absurd hhead (by decide)

/-- The addresses are told apart by their protocols, so their order is no matter. -/
theorem toFinset_endpoints : a.endpoints.toFinset = b.endpoints.toFinset ↔
    a.endpoints = b.endpoints := by
  refine ⟨fun h => ?_, fun h => by rw [h]⟩
  have hudp : udpAddr a.ip a.config ∈ b.endpoints.toFinset := by
    rw [← h]
    simp [endpoints]
  have hws : wsAddr a.ip a.config ∈ b.endpoints.toFinset := by
    rw [← h]
    simp [endpoints]
  simp only [endpoints, List.toFinset_cons, List.toFinset_nil, insert_empty_eq, Finset.mem_insert,
    Finset.mem_singleton, udpAddr_ne_wsAddr a b, or_false] at hudp
  simp only [endpoints, List.toFinset_cons, List.toFinset_nil, insert_empty_eq, Finset.mem_insert,
    Finset.mem_singleton, (udpAddr_ne_wsAddr b a).symm, false_or] at hws
  rw [endpoints, endpoints, hudp, hws]

theorem not_hasPrefix_legacyRoot : hasPrefix a.node.key legacyRoot = false := by
  rw [a.node_key]
  rfl

/-- `equal` compares the endpoints. -/
theorem equal_iff : equal a.node b.node = true ↔ a.endpoints = b.endpoints := by
  rw [← toFinset_endpoints]
  simp only [equal, a.not_hasPrefix_legacyRoot, unmarshal_node, Bool.or_self, Bool.false_eq_true,
    if_false]
  constructor
  · intro h
    split at h
    · cases h
    · next hcard =>
      exact Finset.eq_of_subset_of_card_le (of_decide_eq_true h) (not_not.mp hcard).ge
  · intro h
    rw [h, if_neg (fun hne => hne rfl)]
    exact decide_eq_true (fun _ hv => hv)

end Announcement

/-! ## The maps -/

variable (f : Finder) (maps : Maps)

theorem parseNode_node (a : Announcement) :
    parseNode a.node (f.parser .dopplerMeta) = .ok (a.name, some (.endpoints a.endpoints)) := by
  have hkey : dopplerKey a.node.key (.endpoints a.endpoints) = a.name := by
    rw [dopplerKey, a.node_key, trimPrefix_append, trimPrefix_append]
  rw [parseNode, Finder.parser, a.parseMetaValue_node]
  show Except.ok (dopplerKey a.node.key (.endpoints a.endpoints), _) = _
  rw [hkey]

/-- The endpoints of a doppler are written or taken out. -/
def Maps.set (name : GoString) : Option (List GoString) → Maps
  | some addrs => { maps with metaEndpoints := maps.metaEndpoints.insert name addrs }
  | none => { maps with metaEndpoints := maps.metaEndpoints.erase name }

@[simp] theorem Maps.legacyEndpoints_set (name : GoString) (addrs : Option (List GoString)) :
    (maps.set name addrs).legacyEndpoints = maps.legacyEndpoints := by
  cases addrs <;> rfl

theorem Maps.lookup_set (name : GoString) (addrs : Option (List GoString)) (name' : GoString) :
    (maps.set name addrs).metaEndpoints.lookup name' =
      if name' = name then addrs else maps.metaEndpoints.lookup name' := by
  cases addrs with
  | some addrs => exact Dict.lookup_insert_ite _ _ _ _
  | none => exact Dict.lookup_erase_ite _ _ _

theorem saveNode_node (a : Announcement) :
    f.saveNode .dopplerMeta maps a.node = .ok (maps.set a.name (some a.endpoints)) := by
  rw [Finder.saveNode, parseNode_node]
  rfl

theorem deleteNode_node (a : Announcement) :
    f.deleteNode .dopplerMeta maps a.node = .ok (maps.set a.name none) := by
  rw [Finder.deleteNode, parseNode_node]
  rfl

/-! ## The store -/

/-- The announced nodes below `META_ROOT`, by the parts of their keys after the root. -/
structure MetaStore where
  nodes : Dict GoString Announcement
  name_of_lookup : ∀ name a, nodes.lookup name = some a → a.name = name

namespace MetaStore

variable (s : MetaStore)

/-- The endpoints of a node. -/
def endpoints (name : GoString) : Option (List GoString) :=
  (s.nodes.lookup name).map Announcement.endpoints

/-- A node is written. -/
def announce (a : Announcement) : MetaStore where
  nodes := s.nodes.insert a.name a
  name_of_lookup := by
    intro name b hb
    rw [Dict.lookup_insert_ite] at hb
    split at hb
    · next hname =>
      cases hb
      exact hname.symm
    · exact s.name_of_lookup name b hb

/-- A node is deleted or expires. -/
def remove (name : GoString) : MetaStore where
  nodes := s.nodes.erase name
  name_of_lookup := fun name' a ha =>
    s.name_of_lookup name' a (Dict.lookup_erase_eq_some.mp ha).2

theorem endpoints_announce (a : Announcement) (name : GoString) :
    (s.announce a).endpoints name = if name = a.name then some a.endpoints
      else s.endpoints name := by
  rw [endpoints, announce, Dict.lookup_insert_ite]
  split <;> rfl

theorem endpoints_remove (name' name : GoString) :
    (s.remove name').endpoints name = if name = name' then none else s.endpoints name := by
  rw [endpoints, remove, Dict.lookup_erase_ite]
  split <;> rfl

end MetaStore

/-! ## Listings -/

mutual

/-- The nodes of a tree that are no directories. -/
def StoreTree.leaves : StoreTree → List StoreNode
  | .node root childNodes => if root.dir then StoreTree.leavesBelow childNodes else [root]

def StoreTree.leavesBelow : List StoreTree → List StoreNode
  | [] => []
  | t :: ts => t.leaves ++ StoreTree.leavesBelow ts

end

mutual

/-- `findLeafs` leaves out the nodes without a value. -/
theorem findLeafs_eq : ∀ t : StoreTree, findLeafs t = t.leaves.filter (fun n => n.value ≠ [])
  | .node root childNodes => by
    rw [findLeafs, StoreTree.leaves]
    split
    · exact findLeafsBelow_eq childNodes
    · by_cases hvalue : root.value = [] <;> simp [hvalue]

theorem findLeafsBelow_eq : ∀ ts : List StoreTree,
    findLeafsBelow ts = (StoreTree.leavesBelow ts).filter (fun n => n.value ≠ [])
  | [] => rfl
  | t :: ts => by
    rw [findLeafsBelow, StoreTree.leavesBelow, List.filter_append, findLeafs_eq t,
      findLeafsBelow_eq ts]

end

theorem Announcement.node_injective {a b : Announcement} (h : a.node = b.node) :
    a.name = b.name := by
  have hkey := congrArg StoreNode.key h
  rw [a.node_key, b.node_key] at hkey
  exact List.append_cancel_left (List.append_cancel_left hkey)

namespace MetaStore

variable (s : MetaStore)

/-- The tree has the nodes of the store, in any order. -/
def ListedBy (tree : StoreTree) : Prop :=
  tree.leaves.Perm ((Dict.values s.nodes).map Announcement.node)

variable {s} in
theorem ListedBy.mem_findLeafs {tree : StoreTree} (h : s.ListedBy tree) {n : StoreNode} :
    n ∈ findLeafs tree ↔ ∃ name a, s.nodes.lookup name = some a ∧ n = a.node := by
  rw [findLeafs_eq, List.mem_filter, h.mem_iff, List.mem_map]
  constructor
  · rintro ⟨⟨a, ha, rfl⟩, -⟩
    obtain ⟨name, hname⟩ := Dict.mem_values.mp ha
    exact ⟨name, a, hname, rfl⟩
  · rintro ⟨name, a, ha, rfl⟩
    exact ⟨⟨a, Dict.mem_values.mpr ⟨name, ha⟩, rfl⟩, decide_eq_true (List.cons_ne_nil _ _)⟩

/-- Saving nodes of the store writes the endpoints of those that are among them. -/
theorem foldlM_saveNode {ns : List StoreNode}
    (hns : ∀ n ∈ ns, ∃ name a, s.nodes.lookup name = some a ∧ n = a.node) :
    ∃ maps', ns.foldlM (f.saveNode .dopplerMeta) maps = .ok maps' ∧
      maps'.legacyEndpoints = maps.legacyEndpoints ∧
      ∀ name, maps'.metaEndpoints.lookup name =
        (((s.nodes.lookup name).filter (fun a => a.node ∈ ns)).map Announcement.endpoints).or
          (maps.metaEndpoints.lookup name) := by
  induction ns generalizing maps with
  | nil => exact ⟨maps, rfl, rfl, fun name => by simp⟩
  | cons n ns ih =>
    obtain ⟨name, a, ha, rfl⟩ := hns n List.mem_cons_self
    obtain ⟨maps', hloop, hlegacy, hlookup⟩ := ih (maps.set a.name (some a.endpoints))
      (fun n hn => hns n (List.mem_cons_of_mem _ hn))
    refine ⟨maps', ?_, ?_, fun name' => ?_⟩
    · rw [List.foldlM_cons, saveNode_node]
      exact hloop
    · rw [hlegacy, Maps.legacyEndpoints_set]
    · have hname := s.name_of_lookup name a ha
      rw [hlookup, Maps.lookup_set]
      cases hb : s.nodes.lookup name' with
      | none =>
        have hne : name' ≠ a.name := by
          rintro rfl
          rw [hname, ha] at hb
          cases hb
        simp [hne]
      | some b =>
        by_cases hmem : b.node ∈ ns
        · simp [Option.filter, hmem]
        · by_cases hab : name' = a.name
          · have hsame : b = a := by
              rw [hab, hname, ha] at hb
              exact (Option.some.inj hb).symm
            rw [hsame] at hmem ⊢
            simp [Option.filter, hmem, hab]
          · have hne : b.node ≠ a.node := by
              intro h
              exact hab ((s.name_of_lookup name' b hb).symm.trans (Announcement.node_injective h))
            simp [Option.filter, hmem, hab, hne]

/-- Reading a listing writes the endpoints of all nodes and takes none out. -/
theorem ListedBy.read {s : MetaStore} {tree : StoreTree} (h : s.ListedBy tree) :
    ∃ maps', f.read .dopplerMeta maps (some tree) = .ok maps' ∧
      maps'.legacyEndpoints = maps.legacyEndpoints ∧
      ∀ name, maps'.metaEndpoints.lookup name =
        (s.endpoints name).or (maps.metaEndpoints.lookup name) := by
  obtain ⟨maps', hread, hlegacy, hlookup⟩ := s.foldlM_saveNode f maps
    (fun n (hn : n ∈ findLeafs tree) => h.mem_findLeafs.mp hn)
  refine ⟨maps', hread, hlegacy, fun name => ?_⟩
  rw [hlookup, endpoints]
  cases ha : s.nodes.lookup name with
  | none => rfl
  | some a => rw [Option.filter, if_pos (decide_eq_true (h.mem_findLeafs.mpr ⟨name, a, ha, rfl⟩))]

end MetaStore

/-! ## Changes -/

/-- A change of the store. -/
inductive Change where
  | announce (a : Announcement)
  | delete (name : GoString)
  | expire (name : GoString)

namespace Change

variable (s : MetaStore)

/-- The store after the change. -/
def apply : Change → MetaStore
  | .announce a => s.announce a
  | .delete name | .expire name => s.remove name

/-- The event that a watch has for the change. There is none for a node that is not there. -/
def event : Change → Option WatchEvent
  | .announce a =>
    match s.nodes.lookup a.name with
    | some prev => some { type := .update, node := some a.node, prevNode := some prev.node }
    | none => some { type := .create, node := some a.node }
  | .delete name =>
    (s.nodes.lookup name).map (fun prev => { type := .delete, prevNode := some prev.node })
  | .expire name =>
    (s.nodes.lookup name).map (fun prev => { type := .expire, prevNode := some prev.node })

/-- The name of the node that is changed. -/
def name : Change → GoString
  | .announce a => a.name
  | .delete name | .expire name => name

/-- The endpoints of that node after the change. -/
def result : Change → Option (List GoString)
  | .announce a => some a.endpoints
  | .delete _ | .expire _ => none

theorem endpoints_apply (c : Change) (name : GoString) :
    (c.apply s).endpoints name = if name = c.name then c.result else s.endpoints name := by
  cases c with
  | announce a => exact s.endpoints_announce a name
  | delete name' | expire name' => exact s.endpoints_remove name' name

/-- The event is for a node whose endpoints change. -/
def Matters (c : Change) : Prop := s.endpoints c.name ≠ c.result

instance (c : Change) : Decidable (c.Matters s) :=
  inferInstanceAs (Decidable (s.endpoints c.name ≠ c.result))

/-- A change that does not matter changes no endpoints. -/
theorem endpoints_apply_ite (c : Change) (name : GoString) : (c.apply s).endpoints name =
    if name = c.name ∧ c.Matters s then c.result else s.endpoints name := by
  rw [endpoints_apply]
  by_cases hmatters : c.Matters s
  · simp only [hmatters, and_true]
  · simp only [hmatters, and_false, if_false]
    split
    · next hname =>
      rw [hname]
      exact (not_not.mp hmatters).symm
    · rfl

/-- There is an event for each change that matters. -/
theorem event_of_matters {c : Change} (h : c.Matters s) : (c.event s).isSome = true := by
  have hremove : ∀ name, s.endpoints name ≠ none → (s.nodes.lookup name).isSome = true := by
    intro name hname
    rw [MetaStore.endpoints, Ne, Option.map_eq_none_iff] at hname
    exact Option.isSome_iff_ne_none.mpr hname
  cases c with
  | announce a =>
    rw [event]
    split <;> rfl
  | delete name | expire name => rw [event, Option.isSome_map, hremove name h]

/-- The event of the change is handled. -/
def handle (c : Change) : Except Panic (Maps × Bool) :=
  match c.event s with
  | none => .ok (maps, false)
  | some e => f.handleEvent .dopplerMeta maps e

theorem handle_announce (a : Announcement) : (Change.announce a).handle f maps s =
    .ok (if (Change.announce a).Matters s then maps.set a.name (some a.endpoints) else maps,
      decide ((Change.announce a).Matters s)) := by
  have hsave := saveNode_node f maps a
  rw [handle, event]
  cases hprev : s.nodes.lookup a.name with
  | none =>
    have hmatters : (Change.announce a).Matters s := by
      rw [Matters, MetaStore.endpoints, name, hprev]
      exact (Option.some_ne_none _).symm
    rw [if_pos hmatters, decide_eq_true hmatters]
    simp only [handleEvent_create, hsave]
    rfl
  | some prev =>
    have hmatters : (Change.announce a).Matters s ↔ ¬ equal prev.node a.node = true := by
      rw [Matters, MetaStore.endpoints, name, hprev, prev.equal_iff a]
      exact not_congr Option.some_inj
    by_cases hequal : equal prev.node a.node = true
    · have hnot : ¬ (Change.announce a).Matters s := fun h => hmatters.mp h hequal
      rw [if_neg hnot, decide_eq_false hnot]
      simp only [handleEvent_update, if_pos hequal]
    · have hyes := hmatters.mpr hequal
      rw [if_pos hyes, decide_eq_true hyes]
      simp only [handleEvent_update, if_neg hequal, hsave]
      rfl

theorem handle_remove {c : Change} {type : EventType} (htype : type = .delete ∨ type = .expire)
    (hevent : c.event s = (s.nodes.lookup c.name).map
      (fun prev => { type := type, prevNode := some prev.node })) (hresult : c.result = none) :
    c.handle f maps s =
      .ok (if c.Matters s then maps.set c.name none else maps, decide (c.Matters s)) := by
  have hmatters : c.Matters s ↔ s.nodes.lookup c.name ≠ none := by
    rw [Matters, MetaStore.endpoints, hresult]
    exact not_congr Option.map_eq_none_iff
  rw [handle, hevent]
  cases hprev : s.nodes.lookup c.name with
  | none =>
    have hnot : ¬ c.Matters s := fun h => hmatters.mp h hprev
    rw [if_neg hnot, decide_eq_false hnot]
    rfl
  | some prev =>
    have hyes : c.Matters s := hmatters.mpr (by rw [hprev]; exact Option.some_ne_none _)
    have hdelete := deleteNode_node f maps prev
    rw [s.name_of_lookup _ _ hprev] at hdelete
    rw [if_pos hyes, decide_eq_true hyes]
    rcases htype with rfl | rfl
    · simp only [Option.map_some, handleEvent_delete, hdelete]
      rfl
    · simp only [Option.map_some, handleEvent_expire, hdelete]
      rfl

/-- Handling the event of a change writes the new endpoints and sends an event, unless they are the
old ones. -/
theorem handle_eq (c : Change) : c.handle f maps s =
    .ok (if c.Matters s then maps.set c.name c.result else maps, decide (c.Matters s)) := by
  cases c with
  | announce a => exact handle_announce f maps s a
  | delete name => exact handle_remove f maps s (.inl rfl) rfl rfl
  | expire name => exact handle_remove f maps s (.inr rfl) rfl rfl

/-- The maps after the event of a change is handled. -/
theorem lookup_handled (c : Change) (name : GoString) :
    (if c.Matters s then maps.set c.name c.result else maps).metaEndpoints.lookup name =
      if name = c.name ∧ c.Matters s then c.result else maps.metaEndpoints.lookup name := by
  by_cases hmatters : c.Matters s
  · simp only [hmatters, if_true, and_true, Maps.lookup_set]
  · simp only [hmatters, if_false, and_false]

end Change

end Loggregator.DopplerService
