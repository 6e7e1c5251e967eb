import Loggregator.DopplerService.Announcer
import Loggregator.Lib.Dict
import Loggregator.Lib.Unmarshal
import Mathlib.Data.Finset.Card

/-!
# Finding dopplers

The functions of `dopplerservice/finder.go`. A finder keeps the addresses of the nodes below two
roots of the store in two maps. `handleEvent` changes a map for an event of the watch of a root,
and `sendEvent` makes an event of the two maps. What runs at the same time as what is not said
here: each function takes the maps as they are when it reads them.

The type assertions, the index and the explicit panic of the source are errors of these functions.
-/

namespace Loggregator.DopplerService

open Lib Json SyslogDrainBinder

/-- What stops the program. -/
inductive Panic where
  | interfaceConversion
  | indexOutOfRange
  | nilPointer
  | message (text : GoString)
  deriving DecidableEq

/-- The two roots that are watched, each by a goroutine of its own. -/
inductive Root where
  | dopplerMeta
  | legacy
  deriving DecidableEq

/-- The arguments of `NewFinder`. -/
structure Finder where
  legacyPort : Int64
  grpcPort : Int64
  protocols : List GoString
  preferredDopplerZone : GoString

/-- The traffic controller's finder. -/
def sampleFinder : Finder := ⟨3457, 8082, [str "ws"], []⟩

/-- The maps of a finder. -/
structure Maps where
  metaEndpoints : Dict GoString (List GoString) := ∅
  legacyEndpoints : Dict GoString GoString := ∅

/-! ## Values -/

/-- What a parser returns: a slice of strings or a string. -/
inductive Value where
  | endpoints (addrs : List GoString)
  | address (addr : GoString)
  deriving DecidableEq

/-- `endpoint.(string)`. -/
def assertString : Json → Except Panic GoString
  | .string s => .ok s
  | _ => .error .interfaceConversion

/-- `parseMetaValue`, with `none` for a text that is no object. -/
def parseMetaValue (leafValue : GoString) : Except Panic (Option Value) :=
  let (data, err) := Decoder.unmarshal (Decoder.map .null Decoder.any) ∅ leafValue
  if err then .ok none
  else
    match data.lookup (str "endpoints") with
    | some (.array endpointSlice) => do
      let endpoints ← endpointSlice.mapM assertString
      return some (.endpoints endpoints)
    | _ => .error .interfaceConversion

/-- `parseLegacyValue`. -/
def Finder.parseLegacyValue (f : Finder) (leafValue : GoString) : Except Panic (Option Value) :=
  .ok (some (.address (str "udp://" ++ leafValue ++ str ":" ++ formatInt f.legacyPort.toInt)))

/-- The parser for the nodes below a root. -/
def Finder.parser (f : Finder) : Root → GoString → Except Panic (Option Value)
  | .dopplerMeta => parseMetaValue
  | .legacy => f.parseLegacyValue

/-- The key that a value is kept under. -/
def dopplerKey (key : GoString) : Value → GoString
  | .endpoints _ => trimPrefix (trimPrefix key metaRoot) (str "/")
  | .address _ => trimPrefix (trimPrefix key legacyRoot) (str "/")

/-- `parseNode`. -/
def parseNode (node : StoreNode) (parser : GoString → Except Panic (Option Value)) :
    Except Panic (GoString × Option Value) := do
  match ← parser node.value with
  | none => return ([], none)
  | some value => return (dopplerKey node.key value, some value)

/-- `saveEndpoints`. -/
def saveEndpoints (maps : Maps) (key : GoString) : Option Value → Maps
  | some (.endpoints src) => { maps with metaEndpoints := maps.metaEndpoints.insert key src }
  | some (.address src) => { maps with legacyEndpoints := maps.legacyEndpoints.insert key src }
  | none => maps

/-- `deleteEndpoints`. -/
def deleteEndpoints (maps : Maps) (key : GoString) : Option Value → Maps
  | some (.endpoints _) => { maps with metaEndpoints := maps.metaEndpoints.erase key }
  | some (.address _) => { maps with legacyEndpoints := maps.legacyEndpoints.erase key }
  | none => maps

/-- `f.saveEndpoints(f.parseNode(node, parser))`. -/
def Finder.saveNode (f : Finder) (root : Root) (maps : Maps) (node : StoreNode) :
    Except Panic Maps := do
  let (key, value) ← parseNode node (f.parser root)
  return saveEndpoints maps key value

/-- `f.deleteEndpoints(f.parseNode(node, parser))`. -/
def Finder.deleteNode (f : Finder) (root : Root) (maps : Maps) (node : StoreNode) :
    Except Panic Maps := do
  let (key, value) ← parseNode node (f.parser root)
  return deleteEndpoints maps key value

/-! ## Listings -/

/-- A node with the nodes below it. -/
inductive StoreTree where
  | node (root : StoreNode) (childNodes : List StoreTree)

mutual

/-- `findLeafs`. -/
def findLeafs : StoreTree → List StoreNode
  | .node root childNodes =>
    if root.dir then findLeafsBelow childNodes
    else if root.value = [] then [] else [root]

/-- Its loop over the nodes below a directory. -/
def findLeafsBelow : List StoreTree → List StoreNode
  | [] => []
  | t :: ts => findLeafs t ++ findLeafsBelow ts

end

/-- `read`, with the tree that `ListRecursively` returns, or `none` for its error. -/
def Finder.read (f : Finder) (root : Root) (maps : Maps) : Option StoreTree → Except Panic Maps
  | none => .ok maps
  | some tree => (findLeafs tree).foldlM (f.saveNode root) maps

/-! ## Events of a watch -/

/-- `storeadapter.EventType`. -/
inductive EventType where
  | invalid
  | create
  | delete
  | expire
  | update
  | other
  deriving DecidableEq

/-- `storeadapter.WatchEvent`. -/
structure WatchEvent where
  type : EventType
  node : Option StoreNode := none
  prevNode : Option StoreNode := none
  deriving DecidableEq

/-- `DopplerEvent`. -/
structure DopplerEvent where
  version : Int64 := 0
  endpoints : Finset GoString := ∅

/-- `set.UnmarshalJSON`. -/
def unmarshalSet : Decoder (Finset GoString) := fun v s =>
  let (src, err) := Decoder.slice [] Decoder.string v {}
  if err then (s, true) else (src.elems.toFinset, false)

/-- A member of an object is stored in the field that its key names. -/
def DopplerEvent.store (e : DopplerEvent) (member : GoString × Json) : DopplerEvent × Bool :=
  match fieldFor [versionField, endpointsField] member.1 with
  | none => (e, false)
  | some name =>
    if name = versionField then
      let (version, err) := Decoder.int member.2 e.version
      ({ e with version := version }, err)
    else
      let (endpoints, err) := unmarshalSet member.2 e.endpoints
      ({ e with endpoints := endpoints }, err)

/-- `json.Unmarshal`. -/
def DopplerEvent.unmarshal (data : GoString) : DopplerEvent × Bool :=
  Decoder.unmarshal (Decoder.struct DopplerEvent.store) {} data

/-- `equal`. -/
def equal (prev next : StoreNode) : Bool :=
  if hasPrefix prev.key legacyRoot then prev.value == next.value
  else
    let (prevEvent, prevErr) := DopplerEvent.unmarshal prev.value
    let (nextEvent, nextErr) := DopplerEvent.unmarshal next.value
    if prevErr || nextErr then false
    else if prevEvent.endpoints.card ≠ nextEvent.endpoints.card then false
    else decide (∀ v ∈ prevEvent.endpoints, v ∈ nextEvent.endpoints)

/-- `*p`. -/
def deref (p : Option StoreNode) : Except Panic StoreNode := p.elim (.error .nilPointer) .ok

/-- `handleEvent` up to `sendEvent`: the maps, and whether an event is sent. -/
def Finder.handleEvent (f : Finder) (root : Root) (maps : Maps) (event : WatchEvent) :
    Except Panic (Maps × Bool) :=
  match event.type with
  | .invalid => .ok (maps, false)
  | .update => do
    let prev ← deref event.prevNode
    let node ← deref event.node
    if equal prev node then return (maps, false)
    else
      let maps ← f.saveNode root maps node
      return (maps, true)
  | .create => do
    let node ← deref event.node
    let maps ← f.saveNode root maps node
    return (maps, true)
  | .delete | .expire => do
    let prev ← deref event.prevNode
    let maps ← f.deleteNode root maps prev
    return (maps, true)
  | .other => .ok (maps, true)

section HandleEvent

variable (f : Finder) (root : Root) (maps : Maps) (node prev : StoreNode)

theorem handleEvent_create (p : Option StoreNode) :
    f.handleEvent root maps ⟨.create, some node, p⟩ =
      (f.saveNode root maps node).map (fun maps => (maps, true)) := by
  show (f.saveNode root maps node).bind _ = _
  cases f.saveNode root maps node <;> rfl

theorem handleEvent_update : f.handleEvent root maps ⟨.update, some node, some prev⟩ =
    if equal prev node then .ok (maps, false)
    else (f.saveNode root maps node).map (fun maps => (maps, true)) := by
  show (if equal prev node then _ else (f.saveNode root maps node).bind _) = _
  split
  · rfl
  · cases f.saveNode root maps node <;> rfl

theorem handleEvent_delete (p : Option StoreNode) :
    f.handleEvent root maps ⟨.delete, p, some prev⟩ =
      (f.deleteNode root maps prev).map (fun maps => (maps, true)) := by
  show (f.deleteNode root maps prev).bind _ = _
  cases f.deleteNode root maps prev <;> rfl

theorem handleEvent_expire (p : Option StoreNode) :
    f.handleEvent root maps ⟨.expire, p, some prev⟩ =
      (f.deleteNode root maps prev).map (fun maps => (maps, true)) := by
  show (f.deleteNode root maps prev).bind _ = _
  cases f.deleteNode root maps prev <;> rfl

end HandleEvent

/-! ## Events of the finder -/

/-- `Event`. -/
structure Event where
  grpcDopplers : List GoString := []
  udpDopplers : List GoString := []
  tlsDopplers : List GoString := []
  tcpDopplers : List GoString := []
  deriving DecidableEq

/-- `empty`. -/
def Event.empty (e : Event) : Bool :=
  e.udpDopplers.isEmpty && e.tcpDopplers.isEmpty && e.tlsDopplers.isEmpty

/-- The protocols that an event has addresses for. -/
inductive Protocol where
  | udp
  | tcp
  | tls
  | ws
  deriving DecidableEq

/-- The cases of the switch in `eventWithPrefix`. -/
def protocolOf (addr : GoString) : Option Protocol :=
  if hasPrefix addr (str "udp") then some .udp
  else if hasPrefix addr (str "tcp") then some .tcp
  else if hasPrefix addr (str "tls") then some .tls
  else if hasPrefix addr (str "ws") then some .ws
  else none

/-- The host of an address and the port for gRPC. -/
def Finder.grpcAddr (f : Finder) (addr : GoString) : GoString :=
  (trimPrefix addr (str "ws://")).takeWhile (fun c => c != Json.colon) ++ str ":" ++
    formatInt f.grpcPort.toInt

/-- An address is added to an event. -/
def Finder.addAddr (f : Finder) (event : Event) (addr : GoString) : Event :=
  match protocolOf addr with
  | some .udp =>
    { event with udpDopplers := event.udpDopplers ++ [trimPrefix addr (str "udp://")] }
  | some .tcp =>
    { event with tcpDopplers := event.tcpDopplers ++ [trimPrefix addr (str "tcp://")] }
  | some .tls =>
    { event with tlsDopplers := event.tlsDopplers ++ [trimPrefix addr (str "tls://")] }
  | some .ws => { event with grpcDopplers := event.grpcDopplers ++ [f.grpcAddr addr] }
  | none => event

/-- The chosen addresses in the order of a visit. -/
abbrev Visit := List (Sigma fun _ : GoString => List GoString)

/-- The loops of `eventWithPrefix`. -/
def Finder.eventWithPrefix (f : Finder) (dopplerPrefix : GoString) (chosenAddrs : Visit) : Event :=
  chosenAddrs.foldl (fun event p =>
    p.2.foldl (fun event addr =>
      if hasPrefix p.1 dopplerPrefix then f.addAddr event addr else event) event) {}

/-- `protocolIndex`. -/
def Finder.protocolIndex (f : Finder) (addr : GoString) : Except GoString Nat :=
  match f.protocols.findIdx? (fun protocol => hasPrefix addr protocol) with
  | some i => .ok i
  | none => .error (str "Protocol " ++ addr ++ str " is not present")

/-- The text of the panic in `addLegacyAddrs`. -/
def Finder.notInProtocols (f : Finder) (chosenAddr doppler : GoString) : GoString :=
  str "Somehow chosenAddr " ++ chosenAddr ++ str " (for doppler " ++ doppler ++
    str ") is not in this finder's protocol list [" ++ (str " ").intercalate f.protocols ++ str "]"

/-- The turn of `addLegacyAddrs` for a doppler. -/
def Finder.addLegacyAddr (f : Finder) (udpIdx : Nat) (addrs : Dict GoString (List GoString))
    (p : Sigma fun _ : GoString => GoString) : Except Panic (Dict GoString (List GoString)) :=
  match addrs.lookup p.1 with
  | some [] => .error .indexOutOfRange
  | some (chosenAddr :: _) =>
    match f.protocolIndex chosenAddr with
    | .error _ => .error (.message (f.notInProtocols chosenAddr p.1))
    | .ok idx =>
      -- there is already an address that is preferred over the legacy one
      if hasPrefix chosenAddr (str "udp") || decide (idx < udpIdx) then .ok addrs
      else .ok (addrs.insert p.1 [p.2])
  | none => .ok (addrs.insert p.1 [p.2])

/-- `addLegacyAddrs`. -/
def Finder.addLegacyAddrs (f : Finder) (legacyEndpoints : Dict GoString GoString)
    (addrs : Dict GoString (List GoString)) : Except Panic (Dict GoString (List GoString)) :=
  match f.protocolIndex (str "udp") with
  | .error _ => .ok addrs
  | .ok udpIdx => legacyEndpoints.entries.foldlM (f.addLegacyAddr udpIdx) addrs

/-- `chooseAddrs`. -/
def Finder.chooseAddrs (f : Finder) (maps : Maps) :
    Except Panic (Dict GoString (List GoString)) :=
  f.addLegacyAddrs maps.legacyEndpoints maps.metaEndpoints

/-- The event of `sendEvent` for these addresses. -/
def Finder.eventFor (f : Finder) (chosenAddrs : Visit) : Event :=
  let event := f.eventWithPrefix f.preferredDopplerZone chosenAddrs
  if event.empty then f.eventWithPrefix [] chosenAddrs else event

/-- The event that `sendEvent` sends when the maps do not change meanwhile. -/
def Finder.event (f : Finder) (maps : Maps) : Except Panic Event := do
  let chosenAddrs ← f.chooseAddrs maps
  return f.eventFor chosenAddrs.entries

/-- `hasAddrs`. -/
def Maps.hasAddrs (maps : Maps) : Bool :=
  !maps.legacyEndpoints.entries.isEmpty || !maps.metaEndpoints.entries.isEmpty

/-! ## The order of a visit

The language leaves the order open in which the loops visit a map. Two visits give the same event up
to the order of its lists. -/

/-- The events have the same addresses. -/
structure Event.Same (e e' : Event) : Prop where
  grpc : e.grpcDopplers.Perm e'.grpcDopplers
  udp : e.udpDopplers.Perm e'.udpDopplers
  tls : e.tlsDopplers.Perm e'.tlsDopplers
  tcp : e.tcpDopplers.Perm e'.tcpDopplers

namespace Event.Same

variable {e e' e'' : Event}

theorem refl (e : Event) : e.Same e := ⟨.refl _, .refl _, .refl _, .refl _⟩

theorem trans (h : e.Same e') (h' : e'.Same e'') : e.Same e'' :=
  ⟨h.grpc.trans h'.grpc, h.udp.trans h'.udp, h.tls.trans h'.tls, h.tcp.trans h'.tcp⟩

theorem empty_eq (h : e.Same e') : e.empty = e'.empty := by
  rw [Event.empty, Event.empty, h.udp.isEmpty_eq, h.tcp.isEmpty_eq, h.tls.isEmpty_eq]

end Event.Same

/-- The event of these addresses. -/
def Finder.eventOf (f : Finder) (addrs : List GoString) : Event where
  grpcDopplers := (addrs.filter (fun a => protocolOf a = some .ws)).map f.grpcAddr
  udpDopplers := (addrs.filter (fun a => protocolOf a = some .udp)).map
    (fun a => trimPrefix a (str "udp://"))
  tlsDopplers := (addrs.filter (fun a => protocolOf a = some .tls)).map
    (fun a => trimPrefix a (str "tls://"))
  tcpDopplers := (addrs.filter (fun a => protocolOf a = some .tcp)).map
    (fun a => trimPrefix a (str "tcp://"))

section Visit

variable (f : Finder)

theorem addAddr_eventOf (addrs : List GoString) (addr : GoString) :
    f.addAddr (f.eventOf addrs) addr = f.eventOf (addrs ++ [addr]) := by
  rw [Finder.addAddr]
  split
  all_goals
    next h => simp [Finder.eventOf, h]

theorem foldl_addAddr_eventOf (addrs addrs' : List GoString) :
    addrs'.foldl f.addAddr (f.eventOf addrs) = f.eventOf (addrs ++ addrs') := by
  induction addrs' generalizing addrs with
  | nil => rw [List.foldl_nil, List.append_nil]
  | cons addr addrs' ih =>
    rw [List.foldl_cons, addAddr_eventOf, ih, List.append_assoc, List.singleton_append]

/-- The addresses of the dopplers that have the prefix. -/
def addrsWithPrefix (dopplerPrefix : GoString) (chosenAddrs : Visit) : List GoString :=
  (chosenAddrs.filter (fun p => hasPrefix p.1 dopplerPrefix)).flatMap (fun p => p.2)

theorem eventWithPrefix_eq (dopplerPrefix : GoString) (chosenAddrs : Visit) :
    f.eventWithPrefix dopplerPrefix chosenAddrs =
      f.eventOf (addrsWithPrefix dopplerPrefix chosenAddrs) := by
  -- the addresses that have been visited before the loop goes on
  have hloop : ∀ addrs, chosenAddrs.foldl (fun event p =>
      p.2.foldl (fun event addr =>
        if hasPrefix p.1 dopplerPrefix then f.addAddr event addr else event) event)
      (f.eventOf addrs) = f.eventOf (addrs ++ addrsWithPrefix dopplerPrefix chosenAddrs) := by
    induction chosenAddrs with
    | nil =>
      intro addrs
      simp [addrsWithPrefix]
    | cons p chosenAddrs ih =>
      intro addrs
      rw [List.foldl_cons]
      by_cases hp : hasPrefix p.1 dopplerPrefix = true
      · simp only [hp, if_true, foldl_addAddr_eventOf, ih]
        simp [addrsWithPrefix, hp]
      · simp only [hp, List.foldl_fixed, ih, Bool.false_eq_true, if_false]
        simp [addrsWithPrefix, hp]
  exact hloop []

theorem eventOf_same {addrs addrs' : List GoString} (h : addrs.Perm addrs') :
    (f.eventOf addrs).Same (f.eventOf addrs') :=
  ⟨(h.filter _).map _, (h.filter _).map _, (h.filter _).map _, (h.filter _).map _⟩

theorem eventWithPrefix_same (dopplerPrefix : GoString) {visit visit' : Visit}
    (h : visit.Perm visit') :
    (f.eventWithPrefix dopplerPrefix visit).Same (f.eventWithPrefix dopplerPrefix visit') := by
  rw [eventWithPrefix_eq, eventWithPrefix_eq]
  exact eventOf_same f ((h.filter _).flatMap_right _)

theorem eventFor_same {visit visit' : Visit} (h : visit.Perm visit') :
    (f.eventFor visit).Same (f.eventFor visit') := by
  rw [Finder.eventFor, Finder.eventFor, (eventWithPrefix_same f f.preferredDopplerZone h).empty_eq]
  split
  · exact eventWithPrefix_same f [] h
  · exact eventWithPrefix_same f _ h

/-- The choice for one doppler between its legacy address and its other addresses. -/
def Finder.chosenFor (udpIdx : Nat) (doppler : GoString) (legacyAddr : Option GoString)
    (addrs : Option (List GoString)) : Except Panic (Option (List GoString)) :=
  match legacyAddr, addrs with
  | none, _ => .ok addrs
  | some _, some [] => .error .indexOutOfRange
  | some legacyAddr, some (chosenAddr :: rest) =>
    match f.protocolIndex chosenAddr with
    | .error _ => .error (.message (f.notInProtocols chosenAddr doppler))
    | .ok idx =>
      if hasPrefix chosenAddr (str "udp") || decide (idx < udpIdx) then
        .ok (some (chosenAddr :: rest))
      else .ok (some [legacyAddr])
  | some legacyAddr, none => .ok (some [legacyAddr])

/-- A turn of the loop makes the choice for its doppler. -/
theorem addLegacyAddr_chosenFor (udpIdx : Nat) (addrs : Dict GoString (List GoString))
    (p : Sigma fun _ : GoString => GoString) :
    (∃ addrs', f.addLegacyAddr udpIdx addrs p = .ok addrs' ∧
      f.chosenFor udpIdx p.1 (some p.2) (addrs.lookup p.1) = .ok (addrs'.lookup p.1) ∧
      ∀ k ≠ p.1, addrs'.lookup k = addrs.lookup k) ∨
    ∃ e, f.addLegacyAddr udpIdx addrs p = .error e ∧
      f.chosenFor udpIdx p.1 (some p.2) (addrs.lookup p.1) = .error e := by
  have hinsert : ∀ k ≠ p.1, (addrs.insert p.1 [p.2]).lookup k = addrs.lookup k :=
    fun k hk => AList.lookup_insert_ne hk
  rw [Finder.addLegacyAddr]
  cases haddrs : addrs.lookup p.1 with
  | none =>
    refine .inl ⟨_, rfl, ?_, hinsert⟩
    rw [AList.lookup_insert]
    rfl
  | some l =>
    cases l with
    | nil => exact .inr ⟨_, rfl, rfl⟩
    | cons chosenAddr rest =>
      simp only [Finder.chosenFor]
      cases f.protocolIndex chosenAddr with
      | error => exact .inr ⟨_, rfl, rfl⟩
      | ok idx =>
        simp only
        split
        · exact .inl ⟨addrs, rfl, by rw [haddrs], fun _ _ => rfl⟩
        · exact .inl ⟨_, rfl, by rw [AList.lookup_insert], hinsert⟩

/-- The loop makes the choice for each doppler, whatever the order of the visit. -/
theorem foldlM_addLegacyAddr (udpIdx : Nat) {l : List (Sigma fun _ : GoString => GoString)}
    (hl : l.NodupKeys) (addrs : Dict GoString (List GoString)) :
    (∃ addrs', l.foldlM (f.addLegacyAddr udpIdx) addrs = .ok addrs' ∧
      ∀ k, f.chosenFor udpIdx k (l.dlookup k) (addrs.lookup k) = .ok (addrs'.lookup k)) ∨
    ∃ e k, l.foldlM (f.addLegacyAddr udpIdx) addrs = .error e ∧
      f.chosenFor udpIdx k (l.dlookup k) (addrs.lookup k) = .error e := by
  induction l generalizing addrs with
  | nil => exact .inl ⟨addrs, rfl, fun _ => rfl⟩
  | cons p l ih =>
    obtain ⟨hnot, hl⟩ := List.nodupKeys_cons.mp hl
    have hp : l.dlookup p.1 = none := List.dlookup_eq_none.mpr hnot
    rw [List.foldlM_cons]
    rcases addLegacyAddr_chosenFor f udpIdx addrs p with ⟨addrs₁, hturn, hchosen, hother⟩ |
      ⟨e, hturn, hchosen⟩
    · rw [hturn]
      rcases ih hl addrs₁ with ⟨addrs', hloop, hall⟩ | ⟨e, k, hloop, herr⟩
      · refine .inl ⟨addrs', hloop, fun k => ?_⟩
        by_cases hk : k = p.1
        · subst hk
          have hstays := hall p.1
          rw [hp] at hstays
          rw [List.dlookup_cons_eq, hchosen]
          exact hstays
        · rw [List.dlookup_cons_ne _ _ hk, ← hother k hk]
          exact hall k
      · refine .inr ⟨e, k, hloop, ?_⟩
        by_cases hk : k = p.1
        · subst hk
          rw [hp] at herr
          cases herr
        · rw [List.dlookup_cons_ne _ _ hk, ← hother k hk]
          exact herr
    · refine .inr ⟨e, p.1, ?_, ?_⟩
      · rw [hturn]
        rfl
      · rw [List.dlookup_cons_eq]
        exact hchosen

end Visit

/-- The maps have the same entries. -/
structure Maps.Agree (m m' : Maps) : Prop where
  metaEndpoints : ∀ k, m.metaEndpoints.lookup k = m'.metaEndpoints.lookup k
  legacyEndpoints : ∀ k, m.legacyEndpoints.lookup k = m'.legacyEndpoints.lookup k

namespace Maps.Agree

variable {f : Finder} {m m' : Maps}

theorem refl (m : Maps) : m.Agree m := ⟨fun _ => rfl, fun _ => rfl⟩

theorem chooseAddrs (h : m.Agree m') {chosen : Dict GoString (List GoString)}
    (hchosen : f.chooseAddrs m = .ok chosen) :
    ∃ chosen', f.chooseAddrs m' = .ok chosen' ∧ ∀ k, chosen.lookup k = chosen'.lookup k := by
  unfold Finder.chooseAddrs Finder.addLegacyAddrs at hchosen ⊢
  cases hidx : f.protocolIndex (str "udp") with
  | error =>
    rw [hidx] at hchosen
    cases hchosen
    exact ⟨m'.metaEndpoints, rfl, h.metaEndpoints⟩
  | ok udpIdx =>
    rw [hidx] at hchosen
    simp only at hchosen ⊢
    have hsame : ∀ k, f.chosenFor udpIdx k (m'.legacyEndpoints.entries.dlookup k)
        (m'.metaEndpoints.lookup k) = f.chosenFor udpIdx k
          (m.legacyEndpoints.entries.dlookup k) (m.metaEndpoints.lookup k) := by
      intro k
      rw [h.metaEndpoints k]
      exact congrArg (fun a => f.chosenFor udpIdx k a _) (h.legacyEndpoints k).symm
    have hall : ∀ k, f.chosenFor udpIdx k (m.legacyEndpoints.entries.dlookup k)
        (m.metaEndpoints.lookup k) = .ok (chosen.lookup k) := by
      rcases foldlM_addLegacyAddr f udpIdx m.legacyEndpoints.nodupKeys m.metaEndpoints with
        ⟨chosen₁, hloop, hall⟩ | ⟨e, _, hloop, _⟩
      · rw [hchosen] at hloop
        cases hloop
        exact hall
      · rw [hchosen] at hloop
        cases hloop
    rcases foldlM_addLegacyAddr f udpIdx m'.legacyEndpoints.nodupKeys m'.metaEndpoints with
      ⟨chosen', hloop, hall'⟩ | ⟨e, k, _, herr⟩
    · refine ⟨chosen', hloop, fun k => ?_⟩
      have hk := hall' k
      rw [hsame k, hall k] at hk
      exact Except.ok.inj hk
    · rw [hsame k, hall k] at herr
      cases herr

theorem event (h : m.Agree m') {e : Event} (he : f.event m = .ok e) :
    ∃ e', f.event m' = .ok e' ∧ e.Same e' := by
  rw [Finder.event] at he
  cases hchosen : f.chooseAddrs m with
  | error =>
    rw [hchosen] at he
    cases he
  | ok chosen =>
    rw [hchosen] at he
    cases he
    obtain ⟨chosen', hchosen', hlookup⟩ := h.chooseAddrs hchosen
    refine ⟨f.eventFor chosen'.entries, ?_,
      eventFor_same f (Dict.entries_perm_of_lookup_eq hlookup)⟩
    rw [Finder.event, hchosen']
    rfl

theorem hasAddrs (h : m.Agree m') : m'.hasAddrs = m.hasAddrs := by
  have hmeta := Dict.entries_perm_of_lookup_eq h.metaEndpoints
  have hlegacy := Dict.entries_perm_of_lookup_eq h.legacyEndpoints
  rw [Maps.hasAddrs, Maps.hasAddrs, hmeta.isEmpty_eq, hlegacy.isEmpty_eq]

end Maps.Agree

/-! ## What has been sent -/

/-- The event is the one for the maps, up to the order of its lists. -/
def Finder.Current (f : Finder) (maps : Maps) (e : Event) : Prop :=
  ∃ e', f.event maps = .ok e' ∧ e.Same e'

/-- The event that was sent last is the one for the maps. There is none only while there are no
addresses. -/
def Finder.Published (f : Finder) (maps : Maps) : Option Event → Prop
  | some e => f.Current maps e
  | none => maps.hasAddrs = false

theorem Finder.Current.agree {f : Finder} {m m' : Maps} {e : Event} (h : f.Current m e)
    (ha : m.Agree m') : f.Current m' e := by
  obtain ⟨e₁, he₁, hsame⟩ := h
  obtain ⟨e₂, he₂, hsame₂⟩ := ha.event he₁
  exact ⟨e₂, he₂, hsame.trans hsame₂⟩

theorem Finder.Published.agree {f : Finder} {m m' : Maps} {lastSent : Option Event}
    (h : f.Published m lastSent) (ha : m.Agree m') : f.Published m' lastSent := by
  cases lastSent with
  | none => exact ha.hasAddrs.trans h
  | some e => exact Finder.Current.agree h ha

end Loggregator.DopplerService
