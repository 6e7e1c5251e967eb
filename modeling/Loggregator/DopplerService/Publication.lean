import Loggregator.DopplerService.Finder
import Loggregator.Lib.Transition
import Mathlib.Logic.Function.Basic

/-!
# The events that a finder sends

`Start` and the two goroutines of a finder that it starts, one for each root. Each access to a map
is one action: `handleEvent` changes a map, `chooseAddrs` copies the map of endpoints,
`addLegacyAddrs` reads the legacy one, and only then is the event sent. A panic ends the program, so
no action follows it.

The actions of the goroutines alternate in any way. A goroutine that has computed its event can be
overtaken by the other one, and then the event that is sent last is not the one for the maps. This
does not happen when a map is changed only while no other thread has read it for an event that it
has not sent yet.
-/

namespace Loggregator.DopplerService.Publication

open Lib SyslogDrainBinder

/-- `Start` and the goroutines. -/
inductive Thread where
  | start
  | run (root : Root)
  deriving DecidableEq

/-- The calls of `eventWithPrefix` in `sendEvent`: with the preferred zone, and with an empty prefix
when there is nothing in that zone. -/
inductive Pass where
  | preferred
  | all
  deriving DecidableEq

/-- Where a thread is. -/
inductive Phase where
  | off
  | idle
  | save (root : Root) (nodes : List StoreNode)
  | check
  | choose (pass : Pass)
  | merge (pass : Pass) (addrs : Dict GoString (List GoString))
  | send (event : Event)

/-- The maps, the threads, and the channel of events with the event that was sent last. -/
structure System where
  maps : Maps := {}
  phase : Thread → Phase := fun _ => .off
  events : List Event := []
  lastSent : Option Event := none

/-- The actions. A listing returns a tree or fails; the loop over the chosen addresses visits them
in an order of its own. -/
inductive Action where
  | start (metaTree : Option StoreTree)
  | goMeta (legacyTree : Option StoreTree)
  | goLegacy
  | hasAddrs
  | event (root : Root) (event : WatchEvent)
  | error (root : Root) (tree : Option StoreTree)
  | save (t : Thread)
  | saved (root : Root)
  | choose (t : Thread)
  | merge (t : Thread) (visit : Visit)
  | send (t : Thread)
  | next

/-- A thread goes on. -/
def System.goTo (st : System) (t : Thread) (p : Phase) : System :=
  { st with phase := Function.update st.phase t p }

/-- The nodes of a listing that are saved. -/
def listed (tree : Option StoreTree) : List StoreNode := tree.elim [] findLeafs

/-- The capacity of the channel of events. -/
def capacity : Nat := 10

/-- `sendEvent` after a call of `eventWithPrefix`. -/
def computed (f : Finder) (visit : Visit) : Pass → Phase
  | .preferred =>
    let event := f.eventWithPrefix f.preferredDopplerZone visit
    if event.empty then .choose .all else .send event
  | .all => .send (f.eventWithPrefix [] visit)

/-- One action. -/
def step (f : Finder) (st : System) : Action → Option System
  | .start metaTree =>
    match st.phase .start with
    | .off => some (st.goTo .start (.save .dopplerMeta (listed metaTree)))
    | _ => none
  | .goMeta legacyTree =>
    match st.phase .start, st.phase (.run .dopplerMeta) with
    | .save .dopplerMeta [], .off =>
      some ((st.goTo (.run .dopplerMeta) .idle).goTo .start (.save .legacy (listed legacyTree)))
    | _, _ => none
  | .goLegacy =>
    match st.phase .start, st.phase (.run .legacy) with
    | .save .legacy [], .off => some ((st.goTo (.run .legacy) .idle).goTo .start .check)
    | _, _ => none
  | .hasAddrs =>
    match st.phase .start with
    | .check => some (st.goTo .start (if st.maps.hasAddrs then .choose .preferred else .idle))
    | _ => none
  | .event root event =>
    match st.phase (.run root), f.handleEvent root st.maps event with
    | .idle, .ok (maps, sent) =>
      some ({ st with maps := maps }.goTo (.run root) (if sent then .choose .preferred else .idle))
    | _, _ => none
  | .error root tree =>
    -- the next watch is started and the root is listed again
    match st.phase (.run root) with
    | .idle => some (st.goTo (.run root) (.save root (listed tree)))
    | _ => none
  | .save t =>
    match st.phase t with
    | .save root (node :: nodes) =>
      match f.saveNode root st.maps node with
      | .ok maps => some ({ st with maps := maps }.goTo t (.save root nodes))
      | .error _ => none
    | _ => none
  | .saved root =>
    match st.phase (.run root) with
    | .save _ [] => some (st.goTo (.run root) .idle)
    | _ => none
  | .choose t =>
    match st.phase t with
    | .choose pass => some (st.goTo t (.merge pass st.maps.metaEndpoints))
    | _ => none
  | .merge t visit =>
    match st.phase t with
    | .merge pass addrs =>
      match f.addLegacyAddrs st.maps.legacyEndpoints addrs with
      | .ok chosenAddrs =>
        if visit.Perm chosenAddrs.entries then some (st.goTo t (computed f visit pass)) else none
      | .error _ => none
    | _ => none
  | .send t =>
    match st.phase t with
    | .send event =>
      if st.events.length < capacity then
        some ({ st with events := st.events ++ [event], lastSent := some event }.goTo t .idle)
      else none
    | _ => none
  | .next =>
    match st.events with
    | [] => none
    | _ :: events => some { st with events := events }

/-! ## Conditions -/

/-- The thread has read a map for an event that it has not sent yet. -/
def Phase.Reading : Phase → Prop
  | .merge _ _ | .send _ | .choose .all => True
  | _ => False

/-- No other thread has. -/
def Alone (st : System) (t : Thread) : Prop :=
  ∀ t' ∈ [Thread.start, .run .dopplerMeta, .run .legacy], t' ≠ t → ¬ (st.phase t').Reading

/-- The map has the value of the node. -/
def Known (f : Finder) (maps : Maps) (root : Root) (node : StoreNode) : Prop :=
  match parseNode node (f.parser root) with
  | .ok (key, some (.endpoints addrs)) => maps.metaEndpoints.lookup key = some addrs
  | .ok (key, some (.address addr)) => maps.legacyEndpoints.lookup key = some addr
  | _ => True

/-- An event of a watch is handled, and a node of the first listings is saved, only while no other
thread is on the way to send an event. A listing after an error has only what is in the maps. -/
def Settled (f : Finder) (st : System) : Action → Prop
  | .event root _ => Alone st (.run root)
  | .save .start => Alone st .start
  | .save (.run root) =>
    match st.phase (.run root) with
    | .save root' (node :: _) => Known f st.maps root' node
    | _ => True
  | _ => True

instance (p : Phase) : Decidable p.Reading := by
  unfold Phase.Reading
  split <;> infer_instance

instance (st : System) (t : Thread) : Decidable (Alone st t) :=
  inferInstanceAs (Decidable (∀ t' ∈ [Thread.start, .run .dopplerMeta, .run .legacy], t' ≠ t →
    ¬ (st.phase t').Reading))

instance (f : Finder) (maps : Maps) (root : Root) (node : StoreNode) :
    Decidable (Known f maps root node) := by
  unfold Known
  split <;> infer_instance

instance (f : Finder) (st : System) (a : Action) : Decidable (Settled f st a) := by
  unfold Settled
  split
  · infer_instance
  · infer_instance
  · split <;> infer_instance
  · infer_instance

variable {t : Thread} {p : Phase} {root : Root}

theorem Alone.not_reading {st : System} {t' : Thread} (h : Alone st t) (ht : t' ≠ t) :
    ¬ (st.phase t').Reading := by
  refine h t' ?_ ht
  rcases t' with - | (- | -) <;> simp

/-! ## What is sent -/

/-- There is nothing in the preferred zone. -/
def NoPreferred (f : Finder) (maps : Maps) : Prop :=
  ∃ chosenAddrs, f.chooseAddrs maps = .ok chosenAddrs ∧
    (f.eventWithPrefix f.preferredDopplerZone chosenAddrs.entries).empty = true

/-- What a thread has read is still what is in the maps. -/
def Fresh (f : Finder) (maps : Maps) : Phase → Prop
  | .choose .all => NoPreferred f maps
  | .merge pass addrs =>
    (∀ k, addrs.lookup k = maps.metaEndpoints.lookup k) ∧ (pass = .all → NoPreferred f maps)
  | .send e => f.Current maps e
  | _ => True

theorem fresh_of_not_reading {f : Finder} {maps : Maps} (h : ¬ p.Reading) :
    Fresh f maps p := by
  unfold Fresh
  split
  · exact absurd trivial h
  · exact absurd trivial h
  · exact absurd trivial h
  · trivial

section Agree

variable {f : Finder} {maps maps' : Maps}

theorem NoPreferred.agree (h : NoPreferred f maps) (ha : maps.Agree maps') :
    NoPreferred f maps' := by
  obtain ⟨chosenAddrs, hchosen, hempty⟩ := h
  obtain ⟨chosenAddrs', hchosen', hlookup⟩ := ha.chooseAddrs hchosen
  have hperm := Dict.entries_perm_of_lookup_eq hlookup
  exact ⟨chosenAddrs', hchosen', (eventWithPrefix_same f _ hperm).empty_eq ▸ hempty⟩

theorem Fresh.agree {p : Phase} (h : Fresh f maps p) (ha : maps.Agree maps') : Fresh f maps' p := by
  unfold Fresh at h ⊢
  split
  · exact NoPreferred.agree h ha
  · exact ⟨fun k => (h.1 k).trans (ha.metaEndpoints k), fun hp => (h.2 hp).agree ha⟩
  · exact Finder.Current.agree h ha
  · trivial

end Agree

/-- A thread computes the event for the maps when what it has read is fresh. -/
theorem fresh_computed {f : Finder} {maps : Maps} {pass : Pass}
    {addrs chosenAddrs : Dict GoString (List GoString)} {visit : Visit}
    (h : Fresh f maps (.merge pass addrs))
    (hchosen : f.addLegacyAddrs maps.legacyEndpoints addrs = .ok chosenAddrs)
    (hvisit : visit.Perm chosenAddrs.entries) : Fresh f maps (computed f visit pass) := by
  obtain ⟨haddrs, hall⟩ := h
  have ha : Maps.Agree ⟨addrs, maps.legacyEndpoints⟩ maps := ⟨haddrs, fun _ => rfl⟩
  obtain ⟨chosen, hchosen', hlookup⟩ := ha.chooseAddrs hchosen
  have hperm := hvisit.trans (Dict.entries_perm_of_lookup_eq hlookup)
  have hevent : f.event maps = .ok (f.eventFor chosen.entries) := by
    rw [Finder.event, hchosen']
    rfl
  have hsame := fun dopplerPrefix => eventWithPrefix_same f dopplerPrefix hperm
  cases pass with
  | preferred =>
    have hempty := (hsame f.preferredDopplerZone).empty_eq
    rw [computed]
    split
    · next h => exact ⟨chosen, hchosen', by rw [← hempty, h]⟩
    · next h =>
      refine ⟨_, hevent, ?_⟩
      rw [Finder.eventFor, if_neg (by rw [← hempty]; exact h)]
      exact hsame _
  | all =>
    obtain ⟨chosen₁, hchosen₁, hempty⟩ := hall rfl
    rw [hchosen'] at hchosen₁
    cases hchosen₁
    refine ⟨_, hevent, ?_⟩
    rw [Finder.eventFor, if_pos hempty]
    exact hsame _

/-! ## The invariant -/

/-- The thread is going to send an event. -/
def Phase.Owes : Phase → Prop
  | .choose _ | .merge _ _ | .send _ => True
  | _ => False

/-- `Start` is going to look whether there are addresses. -/
def Phase.Starting : Phase → Prop
  | .save _ _ | .check => True
  | _ => False

/-- An event is going to be sent, or the last one is the one for the maps. -/
def Pending (f : Finder) (st : System) : Prop :=
  (∃ t, (st.phase t).Owes) ∨ ((st.phase .start).Starting ∧ st.maps.hasAddrs = true) ∨
    f.Published st.maps st.lastSent

structure Inv (f : Finder) (st : System) : Prop where
  fresh : ∀ t, Fresh f st.maps (st.phase t)
  pending : Pending f st

variable {f : Finder} {st st' : System}

theorem Inv.init (f : Finder) : Inv f {} := ⟨fun _ => trivial, .inr (.inr rfl)⟩

@[simp] theorem goTo_self (st : System) (t : Thread) (p : Phase) : (st.goTo t p).phase t = p :=
  Function.update_self ..

theorem goTo_ne (st : System) {t' : Thread} (h : t' ≠ t) (p : Phase) :
    (st.goTo t p).phase t' = st.phase t' := Function.update_of_ne h ..

/-- A thread goes on and leaves the maps as they are. -/
theorem Inv.goTo (h : Inv f st) (hfresh : Fresh f st.maps p) (howes : (st.phase t).Owes → p.Owes)
    (hstart : t = .start → (st.phase t).Starting → st.maps.hasAddrs = true →
      p.Starting ∨ p.Owes) : Inv f (st.goTo t p) := by
  refine ⟨fun t' => ?_, ?_⟩
  · by_cases ht : t' = t
    · rw [ht, goTo_self]
      exact hfresh
    · rw [goTo_ne st ht]
      exact h.fresh t'
  · rcases h.pending with ⟨t', ht'⟩ | ⟨hs, haddrs⟩ | hpub
    · by_cases ht : t' = t
      · subst ht
        exact .inl ⟨t', by rw [goTo_self]; exact howes ht'⟩
      · exact .inl ⟨t', by rw [goTo_ne st ht]; exact ht'⟩
    · by_cases ht : t = .start
      · subst ht
        rcases hstart rfl hs haddrs with hp | hp
        · exact .inr (.inl ⟨by rw [goTo_self]; exact hp, haddrs⟩)
        · exact .inl ⟨.start, by rw [goTo_self]; exact hp⟩
      · exact .inr (.inl ⟨by rw [goTo_ne st (Ne.symm ht)]; exact hs, haddrs⟩)
    · exact .inr (.inr hpub)

/-- A goroutine that owes no event goes on. -/
theorem Inv.goTo_run (h : Inv f st) {p₀ : Phase} (hphase : st.phase (.run root) = p₀)
    (howes : ¬ p₀.Owes) (hfresh : Fresh f st.maps p) :
    Inv f (st.goTo (.run root) p) := by
  refine h.goTo hfresh (fun ho => ?_) (fun ht => by cases ht)
  rw [hphase] at ho
  exact absurd ho howes

/-- A thread changes the maps while no other one has read them. -/
theorem fresh_changed (halone : Alone st t) (hp : ¬ p.Reading) (maps : Maps) (t' : Thread) :
    Fresh f maps (({ st with maps := maps }.goTo t p).phase t') := by
  by_cases ht : t' = t
  · rw [ht, goTo_self]
    exact fresh_of_not_reading hp
  · rw [goTo_ne _ ht]
    exact fresh_of_not_reading (halone.not_reading ht)

/-! ### Changes of the maps -/

theorem map_sent_ne {x : Except Panic Maps} {maps : Maps} :
    x.map (fun maps => (maps, true)) ≠ .ok (maps, false) := by
  cases x with
  | error | ok => exact fun h => by cases h

/-- `handleEvent` sends an event when it has changed a map. -/
theorem handleEvent_not_sent {maps maps' : Maps} {event : WatchEvent}
    (h : f.handleEvent root maps event = .ok (maps', false)) : maps' = maps := by
  obtain ⟨type, node, prev⟩ := event
  cases type with
  | invalid =>
    cases h
    rfl
  | other => cases h
  | create =>
    cases node with
    | none => cases h
    | some node => exact absurd h (by rw [handleEvent_create]; exact map_sent_ne)
  | delete =>
    cases prev with
    | none => cases h
    | some prev => exact absurd h (by rw [handleEvent_delete]; exact map_sent_ne)
  | expire =>
    cases prev with
    | none => cases h
    | some prev => exact absurd h (by rw [handleEvent_expire]; exact map_sent_ne)
  | update =>
    cases prev with
    | none => cases h
    | some prev =>
      cases node with
      | none => cases h
      | some node =>
        rw [handleEvent_update] at h
        split at h
        · cases h
          rfl
        · exact absurd h map_sent_ne

theorem saveNode_eq_ok {maps maps' : Maps} {node : StoreNode}
    (h : f.saveNode root maps node = .ok maps') :
    ∃ key value, parseNode node (f.parser root) = .ok (key, value) ∧
      maps' = saveEndpoints maps key value := by
  rw [Finder.saveNode] at h
  cases hparse : parseNode node (f.parser root) with
  | error =>
    rw [hparse] at h
    cases h
  | ok p =>
    rw [hparse] at h
    cases h
    exact ⟨p.1, p.2, rfl, rfl⟩

/-- A node is saved, unless it has no value. -/
theorem hasAddrs_of_saveNode {maps maps' : Maps} {node : StoreNode}
    (h : f.saveNode root maps node = .ok maps') : maps' = maps ∨ maps'.hasAddrs = true := by
  obtain ⟨key, value, -, rfl⟩ := saveNode_eq_ok h
  cases value with
  | none => exact .inl rfl
  | some value =>
    cases value with
    | endpoints addrs => exact .inr (Bool.or_true _)
    | address addr => exact .inr rfl

theorem agree_of_known {maps maps' : Maps} {node : StoreNode}
    (h : f.saveNode root maps node = .ok maps') (hknown : Known f maps root node) :
    maps.Agree maps' := by
  obtain ⟨key, value, hparse, rfl⟩ := saveNode_eq_ok h
  rw [Known, hparse] at hknown
  cases value with
  | none => exact .refl maps
  | some value =>
    cases value with
    | endpoints addrs =>
      refine ⟨fun k => ?_, fun _ => rfl⟩
      rw [saveEndpoints, Dict.lookup_insert_ite]
      split
      · next hk =>
        rw [hk]
        exact hknown
      · rfl
    | address addr =>
      refine ⟨fun _ => rfl, fun k => ?_⟩
      rw [saveEndpoints, Dict.lookup_insert_ite]
      split
      · next hk =>
        rw [hk]
        exact hknown
      · rfl

/-! ### Steps -/

theorem Inv.event (h : Inv f st) {e : WatchEvent} (halone : Alone st (.run root))
    (hstep : step f st (.event root e) = some st') :
    Inv f st' := by
  simp only [step] at hstep
  split at hstep
  · next maps sent hphase hhandle =>
    cases hstep
    cases sent with
    | true =>
      refine ⟨fresh_changed halone id maps, .inl ⟨.run root, ?_⟩⟩
      rw [goTo_self]
      trivial
    | false =>
      rw [handleEvent_not_sent hhandle]
      exact h.goTo_run hphase id trivial
  · cases hstep

theorem Inv.save_start (h : Inv f st) (halone : Alone st .start)
    (hstep : step f st (.save .start) = some st') : Inv f st' := by
  simp only [step] at hstep
  split at hstep
  · next root node nodes hphase =>
    split at hstep
    · next maps hsave =>
      cases hstep
      refine ⟨fresh_changed halone id maps, ?_⟩
      rcases hasAddrs_of_saveNode hsave with rfl | haddrs
      · -- nothing is saved, and `Start` goes on to list
        refine (h.goTo (t := .start) (p := .save root nodes) trivial ?_
          (fun _ _ _ => .inl trivial)).pending
        rw [hphase]
        exact id
      · exact .inr (.inl ⟨by rw [goTo_self]; trivial, haddrs⟩)
    · cases hstep
  · cases hstep

theorem Inv.save_run (h : Inv f st) (hok : Settled f st (.save (.run root)))
    (hstep : step f st (.save (.run root)) = some st') : Inv f st' := by
  simp only [step] at hstep
  split at hstep
  · next root' node nodes hphase =>
    split at hstep
    · next maps hsave =>
      cases hstep
      rw [Settled, hphase] at hok
      have ha := agree_of_known hsave hok
      have hkept : Inv f { st with maps := maps } := by
        refine ⟨fun t => (h.fresh t).agree ha, ?_⟩
        rcases h.pending with hp | ⟨hs, haddrs⟩ | hpub
        · exact .inl hp
        · exact .inr (.inl ⟨hs, ha.hasAddrs.trans haddrs⟩)
        · exact .inr (.inr (hpub.agree ha))
      exact hkept.goTo_run hphase id trivial
    · cases hstep
  · cases hstep

theorem Inv.send (h : Inv f st) (hstep : step f st (.send t) = some st') :
    Inv f st' := by
  simp only [step] at hstep
  split at hstep
  · next e hphase =>
    split at hstep
    · cases hstep
      have hcurrent := h.fresh t
      rw [hphase] at hcurrent
      refine ⟨fun t' => ?_, .inr (.inr hcurrent)⟩
      by_cases ht : t' = t
      · rw [ht, goTo_self]
        trivial
      · rw [goTo_ne _ ht]
        exact h.fresh t'
    · cases hstep
  · cases hstep

/-- `Start` starts a goroutine and goes on. -/
theorem Inv.spawn (h : Inv f st) (hrun : st.phase (.run root) = .off)
    (hstart : ¬ (st.phase .start).Owes) (hfresh : Fresh f st.maps p) (hp : p.Starting) :
    Inv f ((st.goTo (.run root) .idle).goTo .start p) := by
  have hspawned : Inv f (st.goTo (.run root) .idle) := h.goTo_run hrun id trivial
  refine hspawned.goTo hfresh (fun ho => ?_) (fun _ _ _ => .inl hp)
  rw [goTo_ne _ (by simp)] at ho
  exact absurd ho hstart

theorem Inv.step {a : Action} (h : Inv f st) (hok : Settled f st a)
    (hstep : Publication.step f st a = some st') : Inv f st' := by
  cases a with
  | event root e => exact h.event hok hstep
  | save t =>
    cases t with
    | start => exact h.save_start hok hstep
    | run root => exact h.save_run hok hstep
  | send t => exact h.send hstep
  | start metaTree =>
    simp only [Publication.step] at hstep
    split at hstep
    · next hphase =>
      cases hstep
      refine h.goTo trivial ?_ ?_
      · rw [hphase]
        exact id
      · rw [hphase]
        exact fun _ hs => hs.elim
    · cases hstep
  | goMeta legacyTree =>
    simp only [Publication.step] at hstep
    split at hstep
    · next hstart hmeta =>
      cases hstep
      exact h.spawn hmeta (by rw [hstart]; exact id) trivial trivial
    · cases hstep
  | goLegacy =>
    simp only [Publication.step] at hstep
    split at hstep
    · next hstart hlegacy =>
      cases hstep
      exact h.spawn hlegacy (by rw [hstart]; exact id) trivial trivial
    · cases hstep
  | hasAddrs =>
    simp only [Publication.step] at hstep
    split at hstep
    · next hphase =>
      cases hstep
      refine h.goTo ?_ ?_ ?_
      · split <;> trivial
      · rw [hphase]
        exact fun ho => ho.elim
      · intro _ _ haddrs
        rw [if_pos haddrs]
        exact .inr trivial
    · cases hstep
  | error root tree | saved root =>
    simp only [Publication.step] at hstep
    split at hstep
    · next hphase =>
      cases hstep
      exact h.goTo_run hphase id trivial
    · cases hstep
  | choose t =>
    simp only [Publication.step] at hstep
    split at hstep
    · next pass hphase =>
      cases hstep
      refine h.goTo ⟨fun _ => rfl, ?_⟩ (fun _ => trivial) (fun _ _ _ => .inr trivial)
      rintro rfl
      have hfresh := h.fresh t
      rwa [hphase] at hfresh
    · cases hstep
  | merge t visit =>
    simp only [Publication.step] at hstep
    split at hstep
    · next pass addrs hphase =>
      split at hstep
      · next chosenAddrs hchosen =>
        split at hstep
        · next hvisit =>
          cases hstep
          have hfresh := h.fresh t
          rw [hphase] at hfresh
          have howes : (computed f visit pass).Owes := by
            cases pass with
            | preferred =>
              rw [computed]
              split <;> trivial
            | all => trivial
          exact h.goTo (fresh_computed hfresh hchosen hvisit) (fun _ => howes)
            (fun _ _ _ => .inr howes)
        · cases hstep
      · cases hstep
    · cases hstep
  | next =>
    simp only [Publication.step] at hstep
    split at hstep
    · cases hstep
    · cases hstep
      exact ⟨h.fresh, h.pending⟩

/-- When no thread is under way, the event that was sent last is the one for the maps. -/
theorem lastSent_current (f : Finder) (st : System)
    (hs : Reachable (Publication.step f) (Settled f) {} st)
    (hidle : ∀ t, st.phase t = .idle) : f.Published st.maps st.lastSent := by
  have hinv : Inv f st := hs.invariant (Inv.init f) (fun _ _ _ h hok hstep => h.step hok hstep)
  rcases hinv.pending with ⟨t, ht⟩ | ⟨hstart, -⟩ | hpub
  · rw [hidle t] at ht
    exact ht.elim
  · rw [hidle .start] at hstart
    exact hstart.elim
  · exact hpub

/-! ## Two runs -/

def Phase.isIdle : Phase → Bool
  | .idle => true
  | _ => false

/-- No thread is under way. -/
def idle (st : System) : Bool :=
  (st.phase .start).isIdle && (st.phase (.run .dopplerMeta)).isIdle &&
    (st.phase (.run .legacy)).isIdle

theorem phase_of_idle (h : idle st = true) (t : Thread) : st.phase t = .idle := by
  have hphase : ∀ {p : Phase}, p.isIdle = true → p = .idle := by
    intro p hp
    cases p with
    | idle => rfl
    | _ => cases hp
  simp only [idle, Bool.and_eq_true] at h
  rcases t with - | (- | -)
  · exact hphase h.1.1
  · exact hphase h.1.2
  · exact hphase h.2

/-- A doppler that starts has a node below each root. -/
def metaCreated : WatchEvent :=
  { type := .create, node := some (announceNode (str "10.0.0.1") 10
      ⟨str "z1", str "doppler", str "0", 3457, 8081⟩) }

def legacyCreated : WatchEvent :=
  { type := .create, node := some ⟨legacyRoot ++ str "/z1/doppler/0", str "10.0.0.1", false, 10⟩ }

/-- The event for these nodes. -/
def sampleEvent : Event :=
  { grpcDopplers := [str "10.0.0.1:8082"], udpDopplers := [str "10.0.0.1:3457"] }

/-- `Start` with an empty store. -/
def started : List Action := [.start none, .goMeta none, .goLegacy, .hasAddrs]

/-- The goroutine of the legacy root handles its event and computes an empty one. -/
def legacyComputed : List Action :=
  [.event .legacy legacyCreated, .choose (.run .legacy), .merge (.run .legacy) [],
    .choose (.run .legacy), .merge (.run .legacy) []]

/-- The other goroutine handles its event and sends one. -/
def metaSent : List Action :=
  [.event .dopplerMeta metaCreated, .choose (.run .dopplerMeta), .merge (.run .dopplerMeta)
    [⟨str "z1/doppler/0", [str "udp://10.0.0.1:3457", str "ws://10.0.0.1:8081"]⟩],
    .send (.run .dopplerMeta)]

/-- One event after the other. -/
theorem lastSent_current_in_turn : ∃ st,
    Reachable (step sampleFinder) (Settled sampleFinder) {} st ∧ (∀ t, st.phase t = .idle) ∧
      st.lastSent = some sampleEvent ∧ sampleFinder.Published st.maps st.lastSent := by
  have hrun : (run (guarded (step sampleFinder) (Settled sampleFinder)) {}
      (started ++ legacyComputed ++ [.send (.run .legacy)] ++ metaSent)).map
        (fun st => (idle st, st.lastSent)) = some (true, some sampleEvent) := by decide +kernel
  obtain ⟨st, hs, heq⟩ := exists_reachable_of_guarded hrun
  obtain ⟨hidle, hlast⟩ := Prod.mk.inj heq
  exact ⟨st, hs, phase_of_idle hidle, hlast,
    lastSent_current sampleFinder st hs (phase_of_idle hidle)⟩

/-- The goroutine of the legacy root is overtaken: the empty event is sent last, while the map has a
doppler. -/
theorem stale_event_sent_last : ∃ st, Reachable (step sampleFinder) Always {} st ∧
    (∀ t, st.phase t = .idle) ∧ st.lastSent = some {} ∧
      sampleFinder.event st.maps = .ok sampleEvent ∧
      ¬ sampleFinder.Published st.maps st.lastSent := by
  have hrun : (run (step sampleFinder) {}
      (started ++ legacyComputed ++ metaSent ++ [.send (.run .legacy)])).map
        (fun st => (idle st, st.lastSent, (sampleFinder.event st.maps).toOption)) =
      some (true, some {}, some sampleEvent) := by decide +kernel
  obtain ⟨st, hreach, heq⟩ := exists_reachable_of_run hrun
  simp only [Prod.mk.injEq] at heq
  obtain ⟨hidle, hlast, hevent⟩ := heq
  have hok : sampleFinder.event st.maps = .ok sampleEvent := by
    cases he : sampleFinder.event st.maps with
    | error =>
      rw [he] at hevent
      cases hevent
    | ok e =>
      rw [he] at hevent
      exact congrArg Except.ok (Option.some.inj hevent)
  refine ⟨st, hreach, phase_of_idle hidle, hlast, hok, fun hpub => ?_⟩
  rw [hlast] at hpub
  obtain ⟨e', he', hsame⟩ := hpub
  rw [hok] at he'
  cases he'
  exact absurd hsame.grpc.length_eq (by decide)

end Loggregator.DopplerService.Publication
