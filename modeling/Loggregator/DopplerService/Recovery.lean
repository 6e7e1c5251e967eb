import Loggregator.DopplerService.MetaNodes
import Loggregator.Lib.Transition

/-!
# A finder after an outage of the store

The goroutine for `META_ROOT` next to the store that it watches. The announced dopplers change at
any time; a watch that is up queues an event for each change, and delivers its events in order
before the error that ends it. After an error the goroutine starts another watch and lists the root.
The error of a listing that fails is dropped.

A listing adds to the endpoints and sends nothing, so it does not make up for what was missed: a
doppler that has gone during the outage stays, and nobody is told of one that has come. The
goroutine is the only one that changes the endpoints, so the saves of a listing are one action, and
so is handling an event with sending what follows. The legacy addresses stay as they are.
-/

namespace Loggregator.DopplerService.Recovery

open Lib SyslogDrainBinder

inductive Watch where
  | off
  | up
  | failed
  deriving DecidableEq

/-- Where the goroutine is: before `Start`, between `Watch` and the end of `ListRecursively`, for
the first time or after an error, and in `select`. -/
inductive Phase where
  | starting
  | listing (first : Bool)
  | selecting
  deriving DecidableEq

/-- The store, the watch with the events that are under way, and the finder. An event is kept as its
change and the store before it. -/
structure System where
  store : MetaStore
  watch : Watch := .off
  events : List (MetaStore × Change) := []
  phase : Phase := .starting
  maps : Maps := {}
  lastSent : Option Event := none

inductive Action where
  | change (c : Change)
  | fail
  | watch
  | list (tree : StoreTree)
  | listError
  | event
  | rewatch

instance (s : MetaStore) (tree : StoreTree) : Decidable (s.ListedBy tree) :=
  inferInstanceAs (Decidable (tree.leaves.Perm ((Dict.values s.nodes).map Announcement.node)))

/-- The event that was sent last, after another one is sent or not. -/
def sendIf (f : Finder) (sends : Bool) (maps : Maps) (lastSent : Option Event) :
    Option (Option Event) :=
  if sends then (f.event maps).toOption.map some else some lastSent

/-- `read` after a listing. `Start` sends an event when there are addresses. -/
def readListing (f : Finder) (st : System) (first : Bool) (tree : Option StoreTree) :
    Option System :=
  match f.read .dopplerMeta st.maps tree with
  | .ok maps => (sendIf f (first && maps.hasAddrs) maps st.lastSent).map (fun lastSent =>
      { st with maps := maps, lastSent := lastSent, phase := .selecting })
  | .error _ => none

/-- One action. -/
def step (f : Finder) (st : System) : Action → Option System
  | .change c =>
    some { st with
      store := c.apply st.store
      events := if st.watch = .up ∧ (c.event st.store).isSome then st.events ++ [(st.store, c)]
        else st.events }
  | .fail =>
    match st.watch with
    | .up => some { st with watch := .failed }
    | _ => none
  | .watch =>
    match st.phase with
    | .starting => some { st with watch := .up, phase := .listing true }
    | _ => none
  | .list tree =>
    match st.phase with
    | .listing first =>
      if st.store.ListedBy tree then readListing f st first (some tree) else none
    | _ => none
  | .listError =>
    match st.phase with
    | .listing first => readListing f st first none
    | _ => none
  | .event =>
    match st.phase, st.events with
    | .selecting, (store, c) :: events =>
      match c.handle f st.maps store with
      | .ok (maps, sent) => (sendIf f sent maps st.lastSent).map (fun lastSent =>
          { st with maps := maps, lastSent := lastSent, events := events })
      | .error _ => none
    | _, _ => none
  | .rewatch =>
    -- the error comes after the events of its watch
    match st.phase, st.events, st.watch with
    | .selecting, [], .failed => some { st with watch := .up, phase := .listing false }
    | _, _, _ => none

/-- A finder that has not been started, with legacy addresses. -/
def init (store : MetaStore) (legacyEndpoints : Dict GoString GoString) : System where
  store := store
  maps := { legacyEndpoints := legacyEndpoints }

/-! ## Conditions -/

/-- From the failure of a watch to the end of the listing that follows it. -/
def Outage (st : System) : Prop := st.watch = .failed ∨ st.phase = .listing false

/-- During an outage no doppler comes, goes or gets other endpoints. The first listing fails only
when there are no dopplers. -/
def NothingMissed (st : System) : Action → Prop
  | .change c => Outage st → ¬ c.Matters st.store
  | .listError => st.phase = .listing true → st.store.nodes.entries = []
  | _ => True

instance (st : System) : Decidable (Outage st) :=
  inferInstanceAs (Decidable (st.watch = .failed ∨ st.phase = .listing false))

instance (st : System) (a : Action) : Decidable (NothingMissed st a) := by
  cases a with
  | change c => exact inferInstanceAs (Decidable (Outage st → ¬ c.Matters st.store))
  | listError =>
    exact decidable_of_iff (st.phase = .listing true → st.store.nodes.entries.isEmpty = true)
      (by rw [List.isEmpty_iff]; exact Iff.rfl)
  | _ => exact isTrue trivial

/-! ## Events under way -/

/-- What the events write for a doppler. -/
def writes (events : List (MetaStore × Change)) (name : GoString) :
    List (Option (List GoString)) :=
  events.filterMap (fun (store, c) =>
    if name = c.name ∧ c.Matters store then some c.result else none)

/-- What a doppler has after the events are handled. -/
def replay (events : List (MetaStore × Change)) (name : GoString) (x : Option (List GoString)) :
    Option (List GoString) :=
  (writes events name).getLast?.getD x

section Replay

variable (events : List (MetaStore × Change)) (store : MetaStore) (c : Change) (name : GoString)
  (x : Option (List GoString))

theorem replay_cons : replay ((store, c) :: events) name x =
    replay events name (if name = c.name ∧ c.Matters store then c.result else x) := by
  unfold replay writes
  rw [List.filterMap_cons]
  by_cases h : name = c.name ∧ c.Matters store
  · simp only [if_pos h, List.getLast?_cons, Option.getD_some]
  · simp only [if_neg h]

theorem replay_concat : replay (events ++ [(store, c)]) name x =
    if name = c.name ∧ c.Matters store then c.result else replay events name x := by
  unfold replay writes
  rw [List.filterMap_append]
  by_cases h : name = c.name ∧ c.Matters store
  · simp [h]
  · simp [h]

/-- Events do not matter twice. -/
theorem replay_replay : replay events name (replay events name x) = replay events name x := by
  unfold replay
  cases (writes events name).getLast? with
  | none | some y => rfl

end Replay

/-! ## The invariant -/

/-- The first listing is done. -/
def Phase.Listed : Phase → Prop
  | .selecting | .listing false => True
  | .starting | .listing true => False

structure Inv (f : Finder) (st : System) : Prop where
  off : st.watch = .off → st.phase = .starting ∧ st.events = []
  unlisted : ¬ st.phase.Listed →
    st.lastSent = none ∧ ∀ name, st.maps.metaEndpoints.lookup name = none
  stable : ∀ name, replay st.events name (st.store.endpoints name) = st.store.endpoints name
  known : st.phase.Listed → ∀ name,
    replay st.events name (st.maps.metaEndpoints.lookup name) = st.store.endpoints name
  relisting : st.phase = .listing false → ∀ name,
    st.maps.metaEndpoints.lookup name = st.store.endpoints name
  published : st.phase.Listed → f.Published st.maps st.lastSent

variable {f : Finder} {st st' : System}

theorem Inv.init (f : Finder) (store : MetaStore) (legacyEndpoints : Dict GoString GoString) :
    Inv f (init store legacyEndpoints) where
  off _ := ⟨rfl, rfl⟩
  unlisted _ := ⟨rfl, fun _ => rfl⟩
  stable _ := rfl
  known h := h.elim
  relisting h := by cases h
  published h := h.elim

theorem Inv.watch_ne_off (h : Inv f st) (hphase : st.phase ≠ .starting) : st.watch ≠ .off :=
  fun hoff => hphase (h.off hoff).1

/-- Before its first listing the finder has nothing. -/
theorem Inv.first (h : Inv f st) (hphase : st.phase = .listing true) :
    st.lastSent = none ∧ ∀ name, st.maps.metaEndpoints.lookup name = none :=
  h.unlisted (by rw [hphase]; exact id)

/-- The events after a change, as far as they write something. -/
theorem replay_change (st : System) (c : Change) (name : GoString) (x : Option (List GoString))
    (hup : c.Matters st.store → st.watch = .up) :
    replay (if st.watch = .up ∧ (c.event st.store).isSome then st.events ++ [(st.store, c)]
      else st.events) name x =
        if name = c.name ∧ c.Matters st.store then c.result else replay st.events name x := by
  by_cases hmatters : c.Matters st.store
  · rw [if_pos ⟨hup hmatters, c.event_of_matters st.store hmatters⟩, replay_concat]
  · simp only [hmatters, and_false, if_false]
    split
    · rw [replay_concat, if_neg (fun h => hmatters h.2)]
    · rfl

theorem Inv.change (h : Inv f st) {c : Change} (hok : Outage st → ¬ c.Matters st.store)
    (hstep : step f st (.change c) = some st') : Inv f st' := by
  cases hstep
  by_cases hoff : st.watch = .off
  · -- nothing has been read or queued
    obtain ⟨hphase, hevents⟩ := h.off hoff
    have hnot : ¬ st.phase.Listed := by
      rw [hphase]
      exact id
    have hqueue : (if st.watch = .up ∧ (c.event st.store).isSome then
        st.events ++ [(st.store, c)] else st.events) = [] := by
      rw [if_neg (fun hup => by rw [hoff] at hup; cases hup.1), hevents]
    refine ⟨fun _ => ⟨hphase, hqueue⟩, h.unlisted, fun name => ?_, fun hl => absurd hl hnot,
      fun hl => ?_, fun hl => absurd hl hnot⟩
    swap
    · rw [hphase] at hl
      cases hl
    show replay (ite _ _ _) name _ = _
    rw [hqueue]
    rfl
  · have hup : c.Matters st.store → st.watch = .up := by
      intro hmatters
      cases hwatch : st.watch with
      | off => exact absurd hwatch hoff
      | up => rfl
      | failed => exact absurd hmatters (hok (.inl hwatch))
    refine ⟨fun hw => absurd hw hoff, h.unlisted, fun name => ?_, fun hl name => ?_,
      fun hl name => ?_, h.published⟩
    · show replay _ name ((c.apply st.store).endpoints name) = (c.apply st.store).endpoints name
      rw [replay_change st c name _ hup, Change.endpoints_apply_ite]
      split
      · rfl
      · exact h.stable name
    · show replay _ name _ = (c.apply st.store).endpoints name
      rw [replay_change st c name _ hup, Change.endpoints_apply_ite, h.known hl name]
    · show st.maps.metaEndpoints.lookup name = (c.apply st.store).endpoints name
      rw [Change.endpoints_apply_ite, if_neg (fun hm => hok (.inr hl) hm.2), h.relisting hl name]

theorem sendIf_published {sends : Bool} {maps : Maps} {lastSent lastSent' : Option Event}
    (h : sendIf f sends maps lastSent = some lastSent')
    (hpub : sends = false → f.Published maps lastSent) : f.Published maps lastSent' := by
  unfold sendIf at h
  cases sends with
  | false =>
    cases h
    exact hpub rfl
  | true =>
    obtain ⟨e, he, rfl⟩ := Option.map_eq_some_iff.mp h
    refine ⟨e, ?_, .refl e⟩
    cases hevent : f.event maps with
    | error =>
      rw [hevent] at he
      cases he
    | ok e' =>
      rw [hevent] at he
      cases he
      rfl

/-- A listing after which the finder has the endpoints of the store. -/
theorem Inv.listed (h : Inv f st) {first : Bool} (hphase : st.phase = .listing first)
    {tree : Option StoreTree} (hstep : readListing f st first tree = some st')
    (hread : ∀ maps, f.read .dopplerMeta st.maps tree = .ok maps →
      maps.legacyEndpoints = st.maps.legacyEndpoints ∧
      ∀ name, maps.metaEndpoints.lookup name = st.store.endpoints name) :
    Inv f st' ∧ st'.store = st.store ∧ f.Published st'.maps st'.lastSent ∧
      ∀ name, st'.maps.metaEndpoints.lookup name = st'.store.endpoints name := by
  unfold readListing at hstep
  split at hstep
  · next maps hmaps =>
    obtain ⟨lastSent, hsend, rfl⟩ := Option.map_eq_some_iff.mp hstep
    obtain ⟨hlegacy, hlookup⟩ := hread maps hmaps
    have hpub : f.Published maps lastSent := by
      refine sendIf_published hsend (fun hsends => ?_)
      cases first with
      | true =>
        rw [(h.first hphase).1]
        exact hsends
      | false =>
        refine (h.published (by rw [hphase]; trivial)).agree ⟨fun name => ?_, fun name => ?_⟩
        · rw [h.relisting hphase name, hlookup]
        · rw [hlegacy]
    refine ⟨⟨fun hoff => ?_, fun hn => absurd trivial hn, h.stable, fun _ name => ?_,
      (fun hp => by cases hp), fun _ => hpub⟩, rfl, hpub, hlookup⟩
    · exact absurd hoff (h.watch_ne_off (by simp [hphase]))
    · show replay st.events name (maps.metaEndpoints.lookup name) = _
      rw [hlookup]
      exact h.stable name
  · cases hstep

/-- A listing that succeeds. -/
theorem Inv.list (h : Inv f st) {tree : StoreTree} (hstep : step f st (.list tree) = some st') :
    Inv f st' ∧ st'.store = st.store ∧ f.Published st'.maps st'.lastSent ∧
      ∀ name, st'.maps.metaEndpoints.lookup name = st'.store.endpoints name := by
  simp only [step] at hstep
  split at hstep
  · next first hphase =>
    split at hstep
    · next hlist =>
      refine h.listed hphase hstep (fun maps hmaps => ?_)
      obtain ⟨maps', hread, hlegacy, hlookup⟩ := hlist.read f st.maps
      rw [hmaps] at hread
      cases hread
      refine ⟨hlegacy, fun name => ?_⟩
      rw [hlookup]
      cases first with
      | false =>
        rw [h.relisting hphase name]
        exact Option.or_self
      | true =>
        rw [(h.first hphase).2 name]
        exact Option.or_none
    · cases hstep
  · cases hstep

/-- A listing that fails. -/
theorem Inv.listError (h : Inv f st) (hok : st.phase = .listing true → st.store.nodes.entries = [])
    (hstep : step f st .listError = some st') : Inv f st' := by
  simp only [step] at hstep
  split at hstep
  · next first hphase =>
    refine (h.listed hphase hstep (fun maps hmaps => ?_)).1
    cases hmaps
    refine ⟨rfl, fun name => ?_⟩
    cases first with
    | false => exact h.relisting hphase name
    | true =>
      rw [(h.first hphase).2 name, MetaStore.endpoints,
        Dict.lookup_of_isEmpty (List.isEmpty_iff.mpr (hok hphase))]
      rfl
  · cases hstep

theorem Inv.event (h : Inv f st) (hstep : step f st .event = some st') : Inv f st' := by
  simp only [step] at hstep
  split at hstep
  · next store c events hphase hevents =>
    rw [c.handle_eq f st.maps store] at hstep
    obtain ⟨lastSent, hsend, rfl⟩ := Option.map_eq_some_iff.mp hstep
    have hlisted : st.phase.Listed := by
      rw [hphase]
      trivial
    have hstable := h.stable
    have hknown := h.known hlisted
    rw [hevents] at hstable hknown
    refine ⟨fun hoff => ?_, fun hn => absurd hlisted hn, fun name => ?_, fun _ name => ?_,
      fun hp => ?_, fun _ => ?_⟩
    · exact absurd hoff (h.watch_ne_off (by simp [hphase]))
    · show replay events name (st.store.endpoints name) = st.store.endpoints name
      have hname := hstable name
      rw [replay_cons] at hname
      rw [← hname, replay_replay]
    · show replay events name (Maps.metaEndpoints _ |>.lookup name) = st.store.endpoints name
      rw [Change.lookup_handled, ← replay_cons]
      exact hknown name
    · rw [hphase] at hp
      cases hp
    · refine sendIf_published hsend (fun hsends => ?_)
      rw [if_neg (of_decide_eq_false hsends)]
      exact h.published hlisted
  · cases hstep

theorem Inv.step {a : Action} (h : Inv f st) (hok : NothingMissed st a)
    (hstep : Recovery.step f st a = some st') : Inv f st' := by
  cases a with
  | change c => exact h.change hok hstep
  | list tree => exact (h.list hstep).1
  | listError => exact h.listError hok hstep
  | event => exact h.event hstep
  | fail =>
    simp only [Recovery.step] at hstep
    split at hstep
    · cases hstep
      exact ⟨(fun hoff => by cases hoff), h.unlisted, h.stable, h.known, h.relisting, h.published⟩
    · cases hstep
  | watch =>
    simp only [Recovery.step] at hstep
    split at hstep
    · next hphase =>
      cases hstep
      have hnot : ¬ st.phase.Listed := by
        rw [hphase]
        exact id
      exact ⟨(fun hoff => by cases hoff), fun _ => h.unlisted hnot, h.stable, fun hl => hl.elim,
        (fun hl => by cases hl), fun hl => hl.elim⟩
    · cases hstep
  | rewatch =>
    simp only [Recovery.step] at hstep
    split at hstep
    · next hphase hevents _ =>
      cases hstep
      have hlisted : st.phase.Listed := by
        rw [hphase]
        trivial
      have hknown := h.known hlisted
      refine ⟨(fun hoff => by cases hoff), fun hn => absurd trivial hn, h.stable, fun _ => hknown,
        fun _ name => ?_, fun _ => h.published hlisted⟩
      have hname := hknown name
      rwa [hevents] at hname
    · cases hstep

/-- After a listing that succeeds the finder has the endpoints of the dopplers that are listed, and
the event that was sent last is the one for them. -/
theorem relisting_recovers (f : Finder) (store : MetaStore)
    (legacyEndpoints : Dict GoString GoString) (st : System) (tree : StoreTree)
    (hs : Reachable (Recovery.step f) NothingMissed (Recovery.init store legacyEndpoints) st)
    (hphase : st.phase = .listing false) (hlist : st.store.ListedBy tree) :
    ∃ st', Recovery.step f st (.list tree) = some st' ∧
      (∀ name, st'.maps.metaEndpoints.lookup name = st.store.endpoints name) ∧
      f.Published st'.maps st'.lastSent := by
  have hinv : Inv f st := hs.invariant (Inv.init f store legacyEndpoints)
    (fun _ _ _ h hok hstep => h.step hok hstep)
  obtain ⟨maps, hread, -, -⟩ := hlist.read f st.maps
  have hstep : Recovery.step f st (.list tree) =
      some { st with maps := maps, phase := .selecting } := by
    simp only [Recovery.step, hphase, if_pos hlist, readListing, hread]
    rfl
  obtain ⟨-, -, hpub, hlookup⟩ := hinv.list hstep
  exact ⟨_, hstep, hlookup, hpub⟩

/-! ## Two outages -/

def sampleDoppler (ttl : UInt64) : Announcement where
  ip := str "10.0.0.1"
  ttl := ttl
  config := ⟨str "z1", str "doppler", str "0", 3457, 8081⟩
  safe := by decide +kernel

def noDopplers : MetaStore := ⟨∅, fun _ _ h => by cases h⟩

/-- The tree of these nodes. -/
def listing (nodes : List StoreNode) : StoreTree :=
  .node { key := metaRoot, value := [], dir := true } (nodes.map (fun n => .node n []))

/-- A doppler is listed, and the watch fails. -/
def outage : List Action := [.watch, .list (listing [(sampleDoppler 10).node]), .fail]

/-- Its node is written again during the outage. -/
theorem relisting_after_refresh : ∃ st st',
    Reachable (step sampleFinder) NothingMissed
      (init (noDopplers.announce (sampleDoppler 10)) ∅) st ∧
    step sampleFinder st (.list (listing [(sampleDoppler 20).node])) = some st' ∧
    (∀ name, st'.maps.metaEndpoints.lookup name = st.store.endpoints name) ∧
    sampleFinder.Published st'.maps st'.lastSent := by
  have hrun : (run (guarded (step sampleFinder) NothingMissed)
      (init (noDopplers.announce (sampleDoppler 10)) ∅)
      (outage ++ [.change (.announce (sampleDoppler 20)), .rewatch])).map (fun st =>
        (decide (st.phase = .listing false),
          decide (st.store.ListedBy (listing [(sampleDoppler 20).node])))) =
      some (true, true) := by decide +kernel
  obtain ⟨st, hs, heq⟩ := exists_reachable_of_guarded hrun
  obtain ⟨hphase, hlist⟩ := Prod.mk.inj heq
  obtain ⟨st', hstep, hlookup, hpub⟩ := relisting_recovers sampleFinder _ _ st _ hs
    (of_decide_eq_true hphase) (of_decide_eq_true hlist)
  exact ⟨st, st', hs, hstep, hlookup, hpub⟩

/-- The doppler goes during the outage. It is not listed any more, and still there. -/
theorem relisting_keeps_deleted : ∃ st st',
    Reachable (step sampleFinder) Always (init (noDopplers.announce (sampleDoppler 10)) ∅) st ∧
    st.phase = .listing false ∧ st.store.ListedBy (listing []) ∧
    step sampleFinder st (.list (listing [])) = some st' ∧
    (Dict.values st.store.nodes).isEmpty = true ∧
    Dict.values st'.maps.metaEndpoints =
      [[str "udp://10.0.0.1:3457", str "ws://10.0.0.1:8081"]] ∧
    st'.lastSent.map Event.grpcDopplers = some [str "10.0.0.1:8082"] := by
  have hrun : (run (step sampleFinder) (init (noDopplers.announce (sampleDoppler 10)) ∅)
      (outage ++ [.change (.delete (str "z1/doppler/0")), .rewatch])).bind (fun st =>
        (step sampleFinder st (.list (listing []))).map (fun st' =>
          decide (st.phase = .listing false ∧ st.store.ListedBy (listing []) ∧
            (Dict.values st.store.nodes).isEmpty = true ∧
            Dict.values st'.maps.metaEndpoints =
              [[str "udp://10.0.0.1:3457", str "ws://10.0.0.1:8081"]] ∧
            st'.lastSent.map Event.grpcDopplers = some [str "10.0.0.1:8082"]))) =
      some true := by decide +kernel
  obtain ⟨st, hst, heq⟩ := Option.bind_eq_some_iff.mp hrun
  obtain ⟨st', hst', heq⟩ := Option.map_eq_some_iff.mp heq
  obtain ⟨hphase, hlist, hgone, hkept, hsent⟩ := of_decide_eq_true heq
  exact ⟨st, st', Reachable.refl.of_run hst, hphase, hlist, hst', hgone, hkept, hsent⟩

end Loggregator.DopplerService.Recovery
