import Loggregator.DopplerService.Finder
import Loggregator.Lib.Transition

/-!
# Panics of a finder

`read`, `handleEvent` and `sendEvent` of `dopplerservice/finder.go`, one after another, on any
contents of the store. There are three ways to panic. `parseMetaValue` asserts that the endpoints
of an object are an array of strings, and an object may have none. `addLegacyAddrs` takes the first
address of a doppler that has an entry in both maps, and there may be none. It looks that address
up among the protocols, and an address of another protocol may have been announced.
-/

namespace Loggregator.DopplerService

open Lib Json SyslogDrainBinder

/-! ## Values -/

/-- A value below the meta root: it does not decode into a map, or the endpoints of the map are an
array of strings. `null` decodes, into a map without endpoints. -/
def MetaValueOk (leafValue : GoString) : Prop :=
  (Decoder.unmarshal (Decoder.map .null Decoder.any) ∅ leafValue).2 = true ∨
    ∃ addrs : List GoString,
      (Decoder.unmarshal (Decoder.map .null Decoder.any) ∅ leafValue).1.lookup (str "endpoints") =
        some (.array (addrs.map .string))

/-- A value below a root; every text is a legacy value. -/
def ValueOk : Root → GoString → Prop
  | .dopplerMeta, leafValue => MetaValueOk leafValue
  | .legacy, _ => True

theorem completes_assertString {v : Json} : Completes (assertString v) ↔ ∃ s, v = .string s := by
  constructor
  · rintro ⟨s, h⟩
    cases v with
    | string s' => exact ⟨s', rfl⟩
    | _ => cases h
  · rintro ⟨s, rfl⟩
    exact ⟨s, rfl⟩

theorem completes_mapM_assertString {vs : List Json} :
    Completes (vs.mapM assertString) ↔ ∃ addrs : List GoString, vs = addrs.map .string := by
  induction vs with
  | nil => exact iff_of_true ⟨[], rfl⟩ ⟨[], rfl⟩
  | cons v vs ih =>
    rw [List.mapM_cons, completes_bind]
    constructor
    · rintro ⟨s, hs, hrest⟩
      obtain ⟨addrs, haddrs, -⟩ := completes_bind.mp hrest
      obtain ⟨s', rfl⟩ := completes_assertString.mp ⟨s, hs⟩
      obtain ⟨addrs', rfl⟩ := ih.mp ⟨addrs, haddrs⟩
      exact ⟨s' :: addrs', rfl⟩
    · rintro ⟨addrs, haddrs⟩
      cases addrs with
      | nil => cases haddrs
      | cons s addrs =>
        cases haddrs
        obtain ⟨r, hr⟩ := ih.mpr ⟨addrs, rfl⟩
        exact ⟨s, rfl, completes_bind.mpr ⟨r, hr, completes_ok _⟩⟩

theorem completes_parseMetaValue {leafValue : GoString} :
    Completes (parseMetaValue leafValue) ↔ MetaValueOk leafValue := by
  rw [parseMetaValue, MetaValueOk]
  generalize Decoder.unmarshal (Decoder.map .null Decoder.any) ∅ leafValue = decoded
  obtain ⟨data, err⟩ := decoded
  cases err with
  | true => exact iff_of_true (completes_ok none) (.inl rfl)
  | false =>
    simp only [Bool.false_eq_true, if_false, false_or]
    cases hendpoints : data.lookup (str "endpoints") with
    | none =>
      exact iff_of_false (not_completes_error _) (by rintro ⟨addrs, h⟩; cases h)
    | some v =>
      cases v with
      | array vs =>
        simp only [Option.some.injEq, Json.array.injEq]
        rw [← completes_mapM_assertString]
        exact completes_bind_of_forall (fun _ => completes_ok _)
      | _ => exact iff_of_false (not_completes_error _) (by rintro ⟨addrs, h⟩; cases h)

theorem completes_parseValue {f : Finder} {root : Root} {leafValue : GoString} :
    Completes (f.parser root leafValue) ↔ ValueOk root leafValue := by
  cases root with
  | dopplerMeta => exact completes_parseMetaValue
  | legacy => exact iff_of_true (completes_ok _) trivial

/-! ## Nodes and events of a watch -/

section Nodes

variable {f : Finder} {root : Root} {maps : Maps} {node : StoreNode}

theorem completes_parseNode {parser : GoString → Except Panic (Option Value)} :
    Completes (parseNode node parser) ↔ Completes (parser node.value) := by
  apply completes_bind_of_forall
  intro value
  cases value <;> exact completes_ok _

theorem completes_saveNode : Completes (f.saveNode root maps node) ↔ ValueOk root node.value := by
  rw [← completes_parseValue (f := f), ← completes_parseNode]
  exact completes_bind_of_forall (fun _ => completes_ok _)

theorem completes_deleteNode :
    Completes (f.deleteNode root maps node) ↔ ValueOk root node.value := by
  rw [← completes_parseValue (f := f), ← completes_parseNode]
  exact completes_bind_of_forall (fun _ => completes_ok _)

/-- A value that does not decode is ignored. -/
theorem saveNode_unparsable
    (h : (Decoder.unmarshal (Decoder.map .null Decoder.any) ∅ node.value).2 = true) :
    f.saveNode .dopplerMeta maps node = .ok maps ∧
      f.deleteNode .dopplerMeta maps node = .ok maps := by
  have hnode : parseNode node (f.parser .dopplerMeta) = .ok ([], none) := by
    have hparse : f.parser .dopplerMeta node.value = .ok none := by
      simp only [Finder.parser, parseMetaValue, h, if_true]
    rw [parseNode, hparse]
    rfl
  constructor
  · rw [Finder.saveNode, hnode]
    rfl
  · rw [Finder.deleteNode, hnode]
    rfl

/-- Every leaf of a listing has such a value. -/
def ListingOk (root : Root) : Option StoreTree → Prop
  | none => True
  | some tree => ∀ node ∈ findLeafs tree, ValueOk root node.value

theorem completes_read {tree : Option StoreTree} :
    Completes (f.read root maps tree) ↔ ListingOk root tree := by
  cases tree with
  | none => exact iff_of_true (completes_ok _) trivial
  | some tree =>
    exact completes_foldlM_of_forall (P := fun node : StoreNode => ValueOk root node.value)
      (fun _ _ => completes_saveNode)

/-- The nodes that an event needs are there, and the one that is parsed has such a value. -/
def EventOk (root : Root) (event : WatchEvent) : Prop :=
  match event.type with
  | .invalid | .other => True
  | .create => ∃ node, event.node = some node ∧ ValueOk root node.value
  | .update => ∃ prev node, event.prevNode = some prev ∧ event.node = some node ∧
      (equal prev node = true ∨ ValueOk root node.value)
  | .delete | .expire => ∃ prev, event.prevNode = some prev ∧ ValueOk root prev.value

theorem completes_handleEvent {event : WatchEvent} :
    Completes (f.handleEvent root maps event) ↔ EventOk root event := by
  obtain ⟨type, node, prevNode⟩ := event
  cases type with
  | invalid | other => exact iff_of_true (completes_ok _) trivial
  | create =>
    cases node with
    | none => exact iff_of_false (not_completes_error _) (by rintro ⟨node, h, -⟩; cases h)
    | some node =>
      rw [handleEvent_create, completes_map, completes_saveNode]
      simp [EventOk]
  | update =>
    cases prevNode with
    | none => exact iff_of_false (not_completes_error _) (by rintro ⟨prev, node, h, -⟩; cases h)
    | some prev =>
      cases node with
      | none =>
        exact iff_of_false (not_completes_error _) (by rintro ⟨prev, node, -, h, -⟩; cases h)
      | some node =>
        rw [handleEvent_update]
        cases hequal : equal prev node with
        | true => exact iff_of_true (completes_ok _) ⟨prev, node, rfl, rfl, .inl hequal⟩
        | false =>
          rw [if_neg Bool.false_ne_true, completes_map, completes_saveNode]
          simp [EventOk, hequal]
  | delete =>
    cases prevNode with
    | none => exact iff_of_false (not_completes_error _) (by rintro ⟨prev, h, -⟩; cases h)
    | some prev =>
      rw [handleEvent_delete, completes_map, completes_deleteNode]
      simp [EventOk]
  | expire =>
    cases prevNode with
    | none => exact iff_of_false (not_completes_error _) (by rintro ⟨prev, h, -⟩; cases h)
    | some prev =>
      rw [handleEvent_expire, completes_map, completes_deleteNode]
      simp [EventOk]

end Nodes

/-! ## Events of the finder -/

section Send

variable {f : Finder} {maps : Maps}

/-- An address has one of the protocols of the finder. -/
def Finder.Supported (f : Finder) (addr : GoString) : Prop :=
  ∃ protocol ∈ f.protocols, hasPrefix addr protocol = true

/-- If udp is a protocol of the finder, every doppler with an entry in both maps has a first
address, which has one of the protocols. -/
def Finder.SendOk (f : Finder) (maps : Maps) : Prop :=
  f.Supported (str "udp") → ∀ doppler legacyAddr addrs,
    maps.legacyEndpoints.lookup doppler = some legacyAddr →
    maps.metaEndpoints.lookup doppler = some addrs →
    ∃ chosenAddr rest, addrs = chosenAddr :: rest ∧ f.Supported chosenAddr

theorem completes_protocolIndex {addr : GoString} :
    Completes (f.protocolIndex addr) ↔ f.Supported addr := by
  have hany : (f.protocols.findIdx? (fun protocol => hasPrefix addr protocol)).isSome ↔
      f.Supported addr := by
    rw [List.findIdx?_isSome, List.any_eq_true, Finder.Supported]
  rw [← hany, Finder.protocolIndex]
  cases f.protocols.findIdx? (fun protocol => hasPrefix addr protocol) with
  | none => exact iff_of_false (not_completes_error _) (by simp)
  | some i => exact iff_of_true (completes_ok i) rfl

theorem completes_chosenFor {udpIdx : Nat} {doppler : GoString} {legacyAddr : Option GoString}
    {addrs : Option (List GoString)} :
    Completes (f.chosenFor udpIdx doppler legacyAddr addrs) ↔
      ∀ l a, legacyAddr = some l → addrs = some a →
        ∃ chosenAddr rest, a = chosenAddr :: rest ∧ f.Supported chosenAddr := by
  cases legacyAddr with
  | none => exact iff_of_true (completes_ok addrs) (by rintro l a ⟨⟩)
  | some legacyAddr =>
    cases addrs with
    | none => exact iff_of_true (completes_ok _) (by rintro l a - ⟨⟩)
    | some addrs =>
      cases addrs with
      | nil =>
        refine iff_of_false (not_completes_error _) (fun h => ?_)
        obtain ⟨chosenAddr, rest, hnil, -⟩ := h _ _ rfl rfl
        cases hnil
      | cons chosenAddr rest =>
        have hsupported : (∀ l a, some legacyAddr = some l → some (chosenAddr :: rest) = some a →
            ∃ chosenAddr rest, a = chosenAddr :: rest ∧ f.Supported chosenAddr) ↔
            f.Supported chosenAddr := by simp
        rw [hsupported, ← completes_protocolIndex, Finder.chosenFor]
        cases f.protocolIndex chosenAddr with
        | error => exact iff_of_false (not_completes_error _) (not_completes_error _)
        | ok idx =>
          refine iff_of_true ?_ (completes_ok idx)
          simp only
          split <;> exact completes_ok _

theorem completes_chooseAddrs : Completes (f.chooseAddrs maps) ↔ f.SendOk maps := by
  rw [Finder.chooseAddrs, Finder.addLegacyAddrs, Finder.SendOk, ← completes_protocolIndex]
  cases f.protocolIndex (str "udp") with
  | error e =>
    exact iff_of_true (completes_ok _) (fun h => absurd h (not_completes_error e))
  | ok udpIdx =>
    have hchosen : Completes (maps.legacyEndpoints.entries.foldlM (f.addLegacyAddr udpIdx)
        maps.metaEndpoints) ↔ ∀ doppler, Completes (f.chosenFor udpIdx doppler
          (maps.legacyEndpoints.lookup doppler) (maps.metaEndpoints.lookup doppler)) := by
      rcases foldlM_addLegacyAddr f udpIdx maps.legacyEndpoints.nodupKeys maps.metaEndpoints with
        ⟨addrs, hloop, hall⟩ | ⟨e, doppler, hloop, herror⟩
      · exact iff_of_true ⟨addrs, hloop⟩ (fun doppler => ⟨_, hall doppler⟩)
      · rw [hloop]
        refine iff_of_false (not_completes_error e) (fun h => ?_)
        obtain ⟨r, hr⟩ := h doppler
        exact absurd (hr.symm.trans herror) (by simp)
    simp only [hchosen, completes_chosenFor]
    exact ⟨fun h _ => h, fun h => h (completes_ok udpIdx)⟩

theorem completes_event : Completes (f.event maps) ↔ f.SendOk maps := by
  rw [← completes_chooseAddrs]
  exact completes_bind_of_forall (fun _ => completes_ok _)

end Send

/-! ## Sequences -/

/-- A call of a finder: a listing of a root, an event of its watch, or the `sendEvent` of
`Start`. -/
inductive Call where
  | read (root : Root) (tree : Option StoreTree)
  | handleEvent (root : Root) (event : WatchEvent)
  | sendEvent

/-- The maps after a call. -/
def Finder.call (f : Finder) (maps : Maps) : Call → Except Panic Maps
  | .read root tree => f.read root maps tree
  | .handleEvent root event => do
    let (maps, sent) ← f.handleEvent root maps event
    if sent then
      let _ ← f.event maps
    return maps
  | .sendEvent => do
    let _ ← f.event maps
    return maps

/-- A call does not panic: the values that are parsed and the maps that are sent are right. -/
def Finder.CallOk (f : Finder) (maps : Maps) : Call → Prop
  | .read root tree => ListingOk root tree
  | .handleEvent root event => EventOk root event ∧
      ∀ maps', f.handleEvent root maps event = .ok (maps', true) → f.SendOk maps'
  | .sendEvent => f.SendOk maps

theorem completes_call {f : Finder} {maps : Maps} {call : Call} :
    Completes (f.call maps call) ↔ f.CallOk maps call := by
  have hsend : ∀ maps, Completes (do let _ ← f.event maps; return maps : Except Panic Maps) ↔
      f.SendOk maps := by
    intro maps
    rw [← completes_event]
    exact completes_bind_of_forall (fun _ => completes_ok _)
  cases call with
  | read root tree => exact completes_read
  | sendEvent => exact hsend maps
  | handleEvent root event =>
    have hhandle : Completes (f.handleEvent root maps event) ↔ EventOk root event :=
      completes_handleEvent
    rw [Finder.CallOk, ← hhandle, Finder.call]
    cases f.handleEvent root maps event with
    | error e => exact iff_of_false (not_completes_error e) (fun h => not_completes_error e h.1)
    | ok r =>
      obtain ⟨maps', sent⟩ := r
      cases sent with
      | false =>
        refine iff_of_true (completes_ok maps') ⟨completes_ok _, ?_⟩
        rintro maps₁ ⟨⟩
      | true =>
        refine (hsend maps').trans ⟨fun h => ⟨completes_ok _, ?_⟩, fun h => h.2 maps' rfl⟩
        rintro maps₁ ⟨⟩
        exact h

/-- For every list of protocols and every sequence of listings, events and `sendEvent`, from the
empty maps of `NewFinder`: no call panics exactly if each finds the values and the maps right, and
a value below the meta root that does not decode changes nothing. -/
theorem no_panic_iff (f : Finder) (calls : List Call) :
    (Completes (calls.foldlM f.call {}) ↔
      ∀ before call after maps, calls = before ++ call :: after →
        before.foldlM f.call {} = .ok maps → f.CallOk maps call) ∧
    ∀ maps (node : StoreNode),
      (Decoder.unmarshal (Decoder.map .null Decoder.any) ∅ node.value).2 = true →
        f.saveNode .dopplerMeta maps node = .ok maps ∧
          f.deleteNode .dopplerMeta maps node = .ok maps := by
  refine ⟨?_, fun maps node h => saveNode_unparsable h⟩
  rw [completes_foldlM]
  simp only [completes_call]

/-- The panic that a computation ends with. -/
def panicOf (x : Except Panic Maps) : Option Panic :=
  match x with
  | .error e => some e
  | .ok _ => none

theorem not_completes_of_panicOf {x : Except Panic Maps} {e : Panic} (h : panicOf x = some e) :
    ¬ Completes x := by
  rintro ⟨maps, rfl⟩
  cases h

/-- The listing of a root with one node. -/
def listing (root : GoString) (value : GoString) : Option StoreTree :=
  some (.node { key := root ++ str "/z1/doppler/0", value := value } [])

/-- A finder for udp. -/
def udpFinder : Finder where
  legacyPort := 3457
  grpcPort := 8082
  protocols := [str "udp"]
  preferredDopplerZone := []

/-- A meta node and a legacy node of one doppler, and `sendEvent`. -/
def bothNodes (value : GoString) : List Call :=
  [.read .dopplerMeta (listing metaRoot value), .read .legacy (listing legacyRoot (str "10.0.0.1")),
    .sendEvent]

/-- A meta node with an empty object. -/
def emptyObject : List Call := [.read .dopplerMeta (listing metaRoot (str "\x7b\x7d"))]

/-- An object without endpoints, no endpoints at all and an endpoint of another protocol. -/
theorem finder_panics :
    panicOf (emptyObject.foldlM udpFinder.call {}) = some .interfaceConversion ∧
    panicOf ((bothNodes (str "\x7b\"version\":1,\"endpoints\":[]\x7d")).foldlM udpFinder.call {}) =
      some .indexOutOfRange ∧
    panicOf ((bothNodes (str "\x7b\"endpoints\":[\"ws://10.0.0.1:8081\"]\x7d")).foldlM
        udpFinder.call {}) =
      some (.message (udpFinder.notInProtocols (str "ws://10.0.0.1:8081") (str "z1/doppler/0"))) ∧
    ¬ Completes (emptyObject.foldlM udpFinder.call {}) := by
  have hempty : panicOf (emptyObject.foldlM udpFinder.call {}) = some .interfaceConversion := by
    decide +kernel
  exact ⟨hempty, by decide +kernel, by decide +kernel, not_completes_of_panicOf hempty⟩

end Loggregator.DopplerService
