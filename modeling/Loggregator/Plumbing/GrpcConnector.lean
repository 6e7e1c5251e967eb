import Loggregator.Lib.Bytes
import Loggregator.Lib.Transition
import Mathlib.Data.Finset.Insert
import Mathlib.Data.List.Nodup
import Mathlib.Logic.Function.Basic

/-!
# The connector to the dopplers

`plumbing/grpc_connector.go`: `Subscribe`, `handleFinderEvent` and the goroutines of
`consumeSubscription`. An action is one operation on shared state. The fields that `c.mu`
guards are touched by `handleFinderEvent`, by the spawning loop of `Subscribe`, by the read of
`disconnect` and by the deferred block of `consumeSubscription`. Of these only
`handleFinderEvent` is more than one action: it loads the slots of `consumerStates` one by one,
and a slot, a `dead` flag or a `refCount` can change between two loads. While it runs the lock
is held and the others are not enabled.

Client objects, consumers and goroutines are named by numbers. An object stays in the heap
after it has left the list of clients, as a goroutine may still hold it.
-/

namespace Loggregator.Plumbing.GrpcConnector

open Lib

/-- `maxConnections`, the number of slots. -/
def maxConnections : Nat := 2000

/-- `dopplerClientInfo`. -/
structure DopplerClientInfo where
  uri : GoString := []
  disconnect : Bool := false
  refCount : Int := 0

/-- `consumerState`: `done` says that its context is done, `dead` that this has been noted. -/
structure ConsumerState where
  done : Bool := false
  dead : Bool := false
  dopplers : Finset GoString := ∅

/-- `consumeSubscription`, by the operation that comes next. -/
inductive Pc where
  | tryAddDoppler
  | addRef
  | loadDead (tried : Bool)
  | loadDisconnect (tried ctxDisconnect : Bool)
  /-- In `pool.Subscribe`, or in the delay after it failed. -/
  | poolSubscribe
  | readStream
  /-- The decision to return has been made and the deferred block is to come. -/
  | deferred
  | returned
  deriving DecidableEq

structure Goroutine where
  consumer : Nat
  client : Nat
  pc : Pc
  deriving DecidableEq

/-- The call of `Subscribe` that made a consumer, by the operation that comes next. -/
inductive Call where
  | idle
  | load (i : Nat)
  | loadDead (i state : Nat)
  | compareAndSwap (i : Nat) (state : Option Nat)
  | spawn
  | returned
  | failed
  deriving DecidableEq

/-- An operation on the pool of connections. -/
inductive PoolOp where
  | registerDoppler (addr : GoString)
  | close (addr : GoString)
  deriving DecidableEq

/-- The variables of `handleFinderEvent`. The lists hold what is still to be handled. -/
structure Event where
  uris : List GoString
  newURIs : List GoString
  deadClients : List Nat
  deriving DecidableEq

/-- `handleFinderEvent`, by the operation that comes next. -/
inductive Finder where
  | idle
  | register (e : Event)
  | load (e : Event) (client i : Nat)
  | loadDead (e : Event) (client i state : Nat)
  | disable (e : Event)
  deriving DecidableEq

/-- The connector. `pool` is the record of what it did to the pool, the latest first, and
`advertised` holds the URIs of the finder event that was handled last. -/
structure State where
  infos : Nat → DopplerClientInfo := fun _ => {}
  nextClient : Nat := 0
  clients : List Nat := []
  consumerStates : List (Option Nat)
  consumers : Nat → ConsumerState := fun _ => {}
  calls : Nat → Call := fun _ => .idle
  goroutines : List Goroutine := []
  finder : Finder := .idle
  pool : List PoolOp := []
  advertised : List GoString := []

/-- `NewGRPCConnector`, for any number of slots. -/
def newGRPCConnector (n : Nat) : State where
  consumerStates := List.replicate n none

/-- The actions: a call of `Subscribe` and its operations, the end of a context and its note in
`dead`, a finder event and its operations, the operations of a goroutine, and the outcome of
what it waits for: a stream from the pool, or an error from the pool or the stream. -/
inductive Action where
  | subscribe (cs : Nat)
  | call (cs : Nat)
  | cancel (cs : Nat)
  | die (cs : Nat)
  | event (uris : List GoString)
  | finder
  | goroutine (i : Nat)
  | stream (i : Nat)
  | fail (i : Nat)
  deriving DecidableEq

/-! ## The pool -/

def PoolOp.addr : PoolOp → GoString
  | .registerDoppler addr | .close addr => addr

/-- The keys of `Pool.dopplers`. -/
def dopplers : List PoolOp → Finset GoString
  | [] => ∅
  | .registerDoppler addr :: ops => insert addr (dopplers ops)
  | .close addr :: ops => (dopplers ops).erase addr

/-- The address was registered, and not closed since. -/
def Registered (ops : List PoolOp) (addr : GoString) : Prop :=
  ops.find? (fun op => op.addr = addr) = some (.registerDoppler addr)

instance (ops : List PoolOp) (addr : GoString) : Decidable (Registered ops addr) :=
  inferInstanceAs (Decidable (_ = _))

theorem registered_register (ops : List PoolOp) (a addr : GoString) :
    Registered (.registerDoppler a :: ops) addr ↔ addr = a ∨ Registered ops addr := by
  unfold Registered
  by_cases h : a = addr
  · subst h
    simp [PoolOp.addr]
  · simp [PoolOp.addr, h, Ne.symm h]

theorem registered_close (ops : List PoolOp) (a addr : GoString) :
    Registered (.close a :: ops) addr ↔ addr ≠ a ∧ Registered ops addr := by
  unfold Registered
  by_cases h : a = addr
  · subst h
    simp [PoolOp.addr]
  · simp [PoolOp.addr, h, Ne.symm h]

/-- The pool has an entry for the addresses that were registered and not closed since. -/
theorem mem_dopplers (ops : List PoolOp) (addr : GoString) :
    addr ∈ dopplers ops ↔ Registered ops addr := by
  induction ops with
  | nil => simp [dopplers, Registered]
  | cons op ops ih =>
    cases op with
    | registerDoppler a => rw [dopplers, Finset.mem_insert, registered_register, ih]
    | close a => rw [dopplers, Finset.mem_erase, registered_close, ih]

/-! ## The functions that run under the lock -/

/-- `GRPCConnector.subtractClient`. -/
def subtractClient (infos : Nat → DopplerClientInfo) (remaining : List Nat) (uri : GoString) :
    List Nat × Bool × (Nat → DopplerClientInfo) :=
  match remaining.find? (fun client => (infos client).uri = uri) with
  | some client =>
    (remaining.eraseP (fun client => (infos client).uri = uri), true,
      Function.update infos client { infos client with disconnect := false })
  | none => (remaining, false, infos)

/-- `GRPCConnector.delta`, with the clients that are left in `dead`. -/
def delta (infos : Nat → DopplerClientInfo) (dead : List Nat) :
    List GoString → List GoString × List Nat × (Nat → DopplerClientInfo)
  | [] => ([], dead, infos)
  | newURI :: uris =>
    match subtractClient infos dead newURI with
    | (dead, true, infos) => delta infos dead uris
    | (dead, false, infos) =>
      let (add, dead, infos) := delta infos dead uris
      (newURI :: add, dead, infos)

theorem subtractClient_uri (infos : Nat → DopplerClientInfo) (remaining : List Nat)
    (uri : GoString) (client : Nat) :
    ((subtractClient infos remaining uri).2.2 client).uri = (infos client).uri := by
  unfold subtractClient
  split
  · simp only [Function.update_apply]
    split
    · next h => rw [h]
    · rfl
  · rfl

theorem delta_uri (infos : Nat → DopplerClientInfo) (dead : List Nat) (uris : List GoString)
    (client : Nat) : ((delta infos dead uris).2.2 client).uri = (infos client).uri := by
  induction uris generalizing infos dead with
  | nil => rfl
  | cons uri uris ih =>
    have huri := subtractClient_uri infos dead uri client
    rw [delta]
    split
    · next hsub =>
      rw [hsub] at huri
      rw [ih, huri]
    · next hsub =>
      rw [hsub] at huri
      rw [ih, huri]

theorem eraseP_eq_filter {uri : Nat → GoString} {l : List Nat} (h : (l.map uri).Nodup)
    (u : GoString) : l.eraseP (fun c => uri c = u) = l.filter (fun c => uri c ≠ u) := by
  induction l with
  | nil => rfl
  | cons c l ih =>
    simp only [List.map_cons, List.nodup_cons, List.mem_map, not_exists, not_and] at h
    by_cases hc : uri c = u
    · have hrest : ∀ c' ∈ l, uri c' ≠ u := fun c' hmem heq => h.1 c' hmem (heq.trans hc.symm)
      rw [List.eraseP_cons_of_pos (by simp [hc]), List.filter_cons_of_neg (by simp [hc]),
        List.filter_eq_self.mpr (by simpa using hrest)]
    · rw [List.eraseP_cons_of_neg (by simp [hc]), List.filter_cons_of_pos (by simp [hc]),
        ih h.2]

/-- `disconnect` is reset for the clients that are advertised. -/
def readvertise (infos : Nat → DopplerClientInfo) (clients : List Nat) (uris : List GoString)
    (client : Nat) : DopplerClientInfo :=
  if client ∈ clients ∧ (infos client).uri ∈ uris then { infos client with disconnect := false }
  else infos client

theorem readvertise_uri (infos : Nat → DopplerClientInfo) (clients : List Nat)
    (uris : List GoString) (client : Nat) :
    (readvertise infos clients uris client).uri = (infos client).uri := by
  unfold readvertise
  split <;> rfl

/-- What `delta` finds when no URI is repeated: the URIs without a client are new, the clients
without a URI are dead, and the others are advertised again. -/
theorem delta_eq {infos : Nat → DopplerClientInfo} {dead : List Nat} {uris : List GoString}
    (hdead : (dead.map (fun client => (infos client).uri)).Nodup) (huris : uris.Nodup) :
    delta infos dead uris =
      (uris.filter (fun uri => uri ∉ dead.map (fun client => (infos client).uri)),
        dead.filter (fun client => (infos client).uri ∉ uris), readvertise infos dead uris) := by
  induction uris generalizing infos dead with
  | nil =>
    simp only [delta, List.filter_nil, List.not_mem_nil, not_false_eq_true, decide_true,
      List.filter_true, Prod.mk.injEq, true_and]
    funext c
    simp [readvertise]
  | cons u uris ih =>
    rw [List.nodup_cons] at huris
    rw [delta, subtractClient]
    cases hfind : dead.find? (fun client => (infos client).uri = u) with
    | none =>
      have hne : ∀ c ∈ dead, (infos c).uri ≠ u := by simpa using hfind
      simp only [ih hdead huris.2]
      refine Prod.ext ?_ (Prod.ext ?_ ?_)
      · rw [List.filter_cons_of_pos (by simpa using hne)]
      · apply List.filter_congr
        intro c hc
        simp [hne c hc]
      · funext c
        simp only [readvertise, List.mem_cons]
        by_cases hc : c ∈ dead
        · simp [hne c hc]
        · simp [hc]
    | some client =>
      obtain ⟨hu, hmem⟩ : (infos client).uri = u ∧ client ∈ dead :=
        ⟨by simpa using List.find?_some hfind, List.mem_of_find?_eq_some hfind⟩
      have huri : ∀ c, (Function.update infos client
          { infos client with disconnect := false } c).uri = (infos c).uri := by
        intro c
        by_cases hc : c = client
        · subst hc
          rw [Function.update_self]
        · rw [Function.update_of_ne hc]
      have hrest : ∀ v ∈ uris, v ≠ u := fun v hv heq => huris.1 (heq ▸ hv)
      simp only [eraseP_eq_filter hdead]
      rw [ih (by simpa only [huri] using hdead.sublist (List.filter_sublist.map _)) huris.2]
      simp only [huri]
      refine Prod.ext ?_ (Prod.ext ?_ ?_)
      · rw [List.filter_cons_of_neg (by simpa using ⟨client, hmem, hu⟩)]
        apply List.filter_congr
        intro v hv
        apply decide_eq_decide.mpr
        simp only [List.mem_map, List.mem_filter, decide_eq_true_eq]
        apply not_congr
        constructor
        · rintro ⟨c, hc, rfl⟩
          exact ⟨c, hc.1, rfl⟩
        · rintro ⟨c, hc, rfl⟩
          exact ⟨c, ⟨hc, hrest _ hv⟩, rfl⟩
      · simp only [List.filter_filter, List.mem_cons, not_or]
        apply List.filter_congr
        intro c _
        rw [Bool.and_comm]
        simp
      · funext c
        simp only [readvertise, huri, List.mem_filter, List.mem_cons, decide_not]
        by_cases hc : c = client
        · subst hc
          simp [hu, hmem]
        · have hne : c ∈ dead → (infos c).uri ≠ u := by
            intro hcm heq
            exact hc (List.inj_on_of_nodup_map hdead hcm hmem (heq.trans hu.symm))
          rw [Function.update_of_ne hc]
          by_cases hcm : c ∈ dead
          · simp [hcm, hne hcm]
          · simp [hcm]

namespace State

/-- `pool.Close` and `GRPCConnector.close` for a client. The list has no pointer twice
(`Wf.distinct`), so the loop of `close` deletes one element. -/
def close (st : State) (client : Nat) : State :=
  { st with
    pool := .close (st.infos client).uri :: st.pool
    clients := st.clients.erase client }

/-- A goroutine goes on to another operation. -/
def goto (st : State) (i : Nat) (g : Goroutine) (pc : Pc) : State :=
  { st with goroutines := st.goroutines.set i { g with pc := pc } }

/-- Change a consumer. -/
def modifyConsumer (st : State) (cs : Nat) (f : ConsumerState → ConsumerState) : State :=
  { st with consumers := Function.update st.consumers cs (f (st.consumers cs)) }

/-- Change a client object. -/
def modifyInfo (st : State) (client : Nat) (f : DopplerClientInfo → DopplerClientInfo) : State :=
  { st with infos := Function.update st.infos client (f (st.infos client)) }

/-- `atomic.AddInt64` on the `refCount` of a client. -/
def addRef (st : State) (client : Nat) (n : Int) : State :=
  st.modifyInfo client (fun info => { info with refCount := info.refCount + n })

/-- The call of `Subscribe` goes on to another operation. -/
def setCall (st : State) (cs : Nat) (call : Call) : State :=
  { st with calls := Function.update st.calls cs call }

/-- `c.mu` is free. -/
def Unlocked (st : State) : Prop := st.finder = .idle

instance (st : State) : Decidable st.Unlocked := inferInstanceAs (Decidable (_ = _))

/-- The URI of the doppler that a goroutine reads from. -/
def uri (st : State) (g : Goroutine) : GoString := (st.infos g.client).uri

/-! ## The operations -/

/-- The next operation of `Subscribe`, from `addConsumerState` on. -/
def stepCall (st : State) (cs : Nat) : Option State :=
  match st.calls cs with
  | .load i =>
    match st.consumerStates[i]? with
    | none => some (st.setCall cs .failed)
    | some none => some (st.setCall cs (.compareAndSwap i none))
    | some (some state) => some (st.setCall cs (.loadDead i state))
  | .loadDead i state =>
    if (st.consumers state).dead then some (st.setCall cs (.compareAndSwap i (some state)))
    else some (st.setCall cs (.load (i + 1)))
  | .compareAndSwap i state =>
    if st.consumerStates[i]? = some state then
      some ({ st with consumerStates := st.consumerStates.set i (some cs) }.setCall cs .spawn)
    else some (st.setCall cs (.load (i + 1)))
  | .spawn =>
    if st.Unlocked then
      some ({ st with
        goroutines := st.goroutines ++
          st.clients.map (fun client => Goroutine.mk cs client .tryAddDoppler) }.setCall cs
            .returned)
    else none
  | .idle | .returned | .failed => none

/-- `handleFinderEvent` up to the end of `delta`. -/
def startEvent (st : State) (uris : List GoString) : State :=
  let (newURIs, deadClients, infos) := delta st.infos st.clients uris
  { st with infos := infos, finder := .register ⟨uris, newURIs, deadClients⟩ }

/-- Register a new doppler. The scan of the slots is to come. -/
def registerDoppler (st : State) (addr : GoString) (e : Event) : State :=
  { st with
    pool := .registerDoppler addr :: st.pool
    infos := Function.update st.infos st.nextClient { uri := addr }
    nextClient := st.nextClient + 1
    clients := st.clients ++ [st.nextClient]
    finder := .load e st.nextClient 0 }

/-- Disable a client that is no longer advertised. -/
def disableClient (st : State) (client : Nat) (e : Event) : State :=
  let st' := { st.modifyInfo client (fun info => { info with disconnect := true }) with
    finder := .disable e }
  if (st.infos client).refCount = 0 then st'.close client else st'

/-- The next operation of `handleFinderEvent`. -/
def stepFinder (st : State) : Option State :=
  match st.finder with
  | .idle => none
  | .register e =>
    match e.newURIs with
    | [] => some { st with finder := .disable e }
    | addr :: newURIs => some (st.registerDoppler addr { e with newURIs := newURIs })
  | .load e client i =>
    match st.consumerStates[i]? with
    | none => some { st with finder := .register e }
    | some none => some { st with finder := .load e client (i + 1) }
    | some (some cs) => some { st with finder := .loadDead e client i cs }
  | .loadDead e client i cs =>
    some { st with
      goroutines := st.goroutines ++
        (if (st.consumers cs).dead then [] else [⟨cs, client, .tryAddDoppler⟩])
      finder := .load e client (i + 1) }
  | .disable e =>
    match e.deadClients with
    | [] => some { st with finder := .idle, advertised := e.uris }
    | client :: deadClients =>
      some (st.disableClient client { e with deadClients := deadClients })

/-- A goroutine gives back its reference and forgets the doppler. -/
def dropRef (st : State) (i : Nat) (g : Goroutine) : State :=
  ((st.goto i g .returned).addRef g.client (-1)).modifyConsumer g.consumer
    (fun cs => { cs with dopplers := cs.dopplers.erase (st.uri g) })

/-- The deferred block of `consumeSubscription`. -/
def release (st : State) (i : Nat) (g : Goroutine) : State :=
  if ((st.dropRef i g).infos g.client).refCount ≤ 0 ∧ (st.infos g.client).disconnect then
    (st.dropRef i g).close g.client
  else st.dropRef i g

/-- The next operation of `consumeSubscription`. -/
def stepGoroutine (st : State) (i : Nat) (g : Goroutine) : Option State :=
  match g.pc with
  | .tryAddDoppler =>
    if st.uri g ∈ (st.consumers g.consumer).dopplers then some (st.goto i g .returned)
    else some ((st.goto i g .addRef).modifyConsumer g.consumer
      (fun cs => { cs with dopplers := insert (st.uri g) cs.dopplers }))
  | .addRef => some ((st.goto i g (.loadDead false)).addRef g.client 1)
  | .loadDead tried =>
    some (st.goto i g (.loadDisconnect tried (st.consumers g.consumer).dead))
  | .loadDisconnect tried ctxDisconnect =>
    if st.Unlocked then
      if tried && (st.infos g.client).disconnect || ctxDisconnect then
        some (st.goto i g .deferred)
      else some (st.goto i g .poolSubscribe)
    else none
  | .deferred => if st.Unlocked then some (st.release i g) else none
  | .poolSubscribe | .readStream | .returned => none

end State

/-- One action. -/
def step (st : State) : Action → Option State
  | .subscribe cs => if st.calls cs = .idle then some (st.setCall cs (.load 0)) else none
  | .call cs => st.stepCall cs
  | .cancel cs => some (st.modifyConsumer cs (fun c => { c with done := true }))
  | .die cs =>
    if st.calls cs ≠ .idle ∧ (st.consumers cs).done then
      some (st.modifyConsumer cs (fun c => { c with dead := true }))
    else none
  | .event uris => if st.Unlocked then some (st.startEvent uris) else none
  | .finder => st.stepFinder
  | .goroutine i => st.goroutines[i]?.bind (fun g => st.stepGoroutine i g)
  | .stream i =>
    -- without an entry the pool has no connection and returns an error
    st.goroutines[i]?.bind (fun g =>
      if g.pc = .poolSubscribe ∧ st.uri g ∈ dopplers st.pool then some (st.goto i g .readStream)
      else none)
  | .fail i =>
    st.goroutines[i]?.bind (fun g =>
      if g.pc = .poolSubscribe ∨ g.pc = .readStream then some (st.goto i g (.loadDead true))
      else none)

/-! ## What an action can do -/

/-- In the loop of `consumeSubscription`, from a successful `tryAddDoppler` to the decision to
return. -/
def Pc.Running (pc : Pc) : Prop := pc ≠ .tryAddDoppler ∧ pc ≠ .deferred ∧ pc ≠ .returned

/-- Between a successful `tryAddDoppler` and `forgetDoppler`. -/
def Pc.Holding (pc : Pc) : Prop := pc ≠ .tryAddDoppler ∧ pc ≠ .returned

instance (pc : Pc) : Decidable pc.Running := inferInstanceAs (Decidable (_ ∧ _))

instance (pc : Pc) : Decidable pc.Holding := inferInstanceAs (Decidable (_ ∧ _))

theorem Pc.Running.holding {pc : Pc} (h : pc.Running) : pc.Holding := ⟨h.1, h.2.2⟩

/-- `Subscribe` has stored the consumer in a slot. -/
def Call.Stored (call : Call) : Prop := call = .spawn ∨ call = .returned

/-- The actions by what they change. -/
inductive Step (st : State) : Action → State → Prop where
  /-- An operation of `Subscribe` before its compare-and-swap has succeeded. -/
  | search {a : Action} {cs : Nat} {call : Call} (hold : ¬ (st.calls cs).Stored)
      (hnew : ¬ call.Stored)
      (hdead : ∀ i state, call = .compareAndSwap i (some state) → (st.consumers state).dead) :
      Step st a (st.setCall cs call)
  | swap {cs i : Nat} {state : Option Nat} (hcall : st.calls cs = .compareAndSwap i state)
      (hslot : st.consumerStates[i]? = some state) :
      Step st (.call cs)
        ({ st with consumerStates := st.consumerStates.set i (some cs) }.setCall cs .spawn)
  | spawn {cs : Nat} (hcall : st.calls cs = .spawn) (hlock : st.Unlocked) :
      Step st (.call cs) ({ st with
        goroutines := st.goroutines ++
          st.clients.map (fun client => Goroutine.mk cs client .tryAddDoppler) }.setCall cs
            .returned)
  | cancel {cs : Nat} :
      Step st (.cancel cs) (st.modifyConsumer cs (fun c => { c with done := true }))
  | die {cs : Nat} (hdone : (st.consumers cs).done) :
      Step st (.die cs) (st.modifyConsumer cs (fun c => { c with dead := true }))
  | event {uris : List GoString} (hlock : st.Unlocked) :
      Step st (.event uris) (st.startEvent uris)
  | register {e : Event} {addr : GoString} {newURIs : List GoString}
      (hfinder : st.finder = .register e) (hnew : e.newURIs = addr :: newURIs) :
      Step st .finder (st.registerDoppler addr { e with newURIs := newURIs })
  | registered {e : Event} (hfinder : st.finder = .register e) (hnew : e.newURIs = []) :
      Step st .finder { st with finder := .disable e }
  | scanned {e : Event} {client i : Nat} (hfinder : st.finder = .load e client i)
      (hslot : st.consumerStates[i]? = none) :
      Step st .finder { st with finder := .register e }
  | skip {e : Event} {client i : Nat} (hfinder : st.finder = .load e client i)
      (hslot : st.consumerStates[i]? = some none) :
      Step st .finder { st with finder := .load e client (i + 1) }
  | load {e : Event} {client i cs : Nat} (hfinder : st.finder = .load e client i)
      (hslot : st.consumerStates[i]? = some (some cs)) :
      Step st .finder { st with finder := .loadDead e client i cs }
  | loadDead {e : Event} {client i cs : Nat} (hfinder : st.finder = .loadDead e client i cs) :
      Step st .finder { st with
        goroutines := st.goroutines ++
          (if (st.consumers cs).dead then [] else [⟨cs, client, .tryAddDoppler⟩])
        finder := .load e client (i + 1) }
  | disable {e : Event} {client : Nat} {deadClients : List Nat}
      (hfinder : st.finder = .disable e) (hdead : e.deadClients = client :: deadClients) :
      Step st .finder (st.disableClient client { e with deadClients := deadClients })
  | handled {e : Event} (hfinder : st.finder = .disable e) (hdead : e.deadClients = []) :
      Step st .finder { st with finder := .idle, advertised := e.uris }
  | added {i : Nat} {g : Goroutine} (hg : st.goroutines[i]? = some g)
      (hpc : g.pc = .tryAddDoppler) (hnew : st.uri g ∉ (st.consumers g.consumer).dopplers) :
      Step st (.goroutine i) ((st.goto i g .addRef).modifyConsumer g.consumer
        (fun cs => { cs with dopplers := insert (st.uri g) cs.dopplers }))
  | refused {i : Nat} {g : Goroutine} (hg : st.goroutines[i]? = some g)
      (hpc : g.pc = .tryAddDoppler) (hold : st.uri g ∈ (st.consumers g.consumer).dopplers) :
      Step st (.goroutine i) (st.goto i g .returned)
  | addRef {i : Nat} {g : Goroutine} (hg : st.goroutines[i]? = some g) (hpc : g.pc = .addRef) :
      Step st (.goroutine i) ((st.goto i g (.loadDead false)).addRef g.client 1)
  /-- The goroutine stays in its loop. -/
  | run {a : Action} {i : Nat} {g : Goroutine} {pc : Pc} (hg : st.goroutines[i]? = some g)
      (hold : g.pc.Running) (hnew : pc.Running)
      (hdead : ∀ tried, pc = .loadDisconnect tried true → (st.consumers g.consumer).dead) :
      Step st a (st.goto i g pc)
  | leave {i : Nat} {g : Goroutine} (hg : st.goroutines[i]? = some g) (hrun : g.pc.Running)
      (hwhy : (st.infos g.client).disconnect ∨ ∃ tried, g.pc = .loadDisconnect tried true) :
      Step st (.goroutine i) (st.goto i g .deferred)
  | release {i : Nat} {g : Goroutine} (hg : st.goroutines[i]? = some g)
      (hpc : g.pc = .deferred) (hlock : st.Unlocked) :
      Step st (.goroutine i) (st.release i g)

theorem step_call {st st' : State} {cs : Nat} (h : st.stepCall cs = some st') :
    Step st (.call cs) st' := by
  unfold State.stepCall at h
  cases hcall : st.calls cs with
  | idle | returned | failed => rw [hcall] at h; cases h
  | load i =>
    have hold : ¬ (st.calls cs).Stored := by simp [hcall, Call.Stored]
    simp only [hcall] at h
    split at h
    all_goals
      cases h
      exact .search hold (by simp [Call.Stored]) nofun
  | loadDead i state =>
    have hold : ¬ (st.calls cs).Stored := by simp [hcall, Call.Stored]
    simp only [hcall] at h
    split at h
    · next hdead =>
      cases h
      refine .search hold (by simp [Call.Stored]) ?_
      intro j state' heq
      cases heq
      exact hdead
    · cases h
      exact .search hold (by simp [Call.Stored]) nofun
  | compareAndSwap i state =>
    simp only [hcall] at h
    split at h
    · next hslot =>
      cases h
      exact .swap hcall hslot
    · cases h
      exact .search (by simp [hcall, Call.Stored]) (by simp [Call.Stored]) nofun
  | spawn =>
    simp only [hcall] at h
    split at h
    · next hlock =>
      cases h
      exact .spawn hcall hlock
    · cases h

theorem step_finder {st st' : State} (h : st.stepFinder = some st') : Step st .finder st' := by
  unfold State.stepFinder at h
  cases hfinder : st.finder with
  | idle => rw [hfinder] at h; cases h
  | register e =>
    simp only [hfinder] at h
    split at h
    · next hnew =>
      cases h
      exact .registered hfinder hnew
    · next addr newURIs hnew =>
      cases h
      exact .register hfinder hnew
  | load e client i =>
    simp only [hfinder] at h
    split at h
    · next hslot =>
      cases h
      exact .scanned hfinder hslot
    · next hslot =>
      cases h
      exact .skip hfinder hslot
    · next cs hslot =>
      cases h
      exact .load hfinder hslot
  | loadDead e client i cs =>
    rw [hfinder] at h
    cases h
    exact .loadDead hfinder
  | disable e =>
    simp only [hfinder] at h
    split at h
    · next hdead =>
      cases h
      exact .handled hfinder hdead
    · next client deadClients hdead =>
      cases h
      exact .disable hfinder hdead

theorem step_goroutine {st st' : State} {i : Nat} {g : Goroutine}
    (hg : st.goroutines[i]? = some g) (h : st.stepGoroutine i g = some st') :
    Step st (.goroutine i) st' := by
  unfold State.stepGoroutine at h
  cases hpc : g.pc with
  | tryAddDoppler =>
    simp only [hpc] at h
    split at h
    · next hold =>
      cases h
      exact .refused hg hpc hold
    · next hnew =>
      cases h
      exact .added hg hpc hnew
  | addRef =>
    simp only [hpc] at h
    cases h
    exact .addRef hg hpc
  | loadDead tried =>
    simp only [hpc] at h
    cases h
    refine .run hg (by simp [hpc, Pc.Running]) (by simp [Pc.Running]) ?_
    intro tried' heq
    simp only [Pc.loadDisconnect.injEq] at heq
    exact heq.2
  | loadDisconnect tried ctxDisconnect =>
    simp only [hpc] at h
    have hrun : g.pc.Running := by simp [hpc, Pc.Running]
    split at h
    · split at h
      · next hwhy =>
        cases h
        refine .leave hg hrun ?_
        simp only [Bool.or_eq_true, Bool.and_eq_true] at hwhy
        rcases hwhy with ⟨-, hdis⟩ | rfl
        · exact Or.inl hdis
        · exact Or.inr ⟨tried, hpc⟩
      · cases h
        exact .run hg hrun (by decide) nofun
    · cases h
  | deferred =>
    simp only [hpc] at h
    split at h
    · next hlock =>
      cases h
      exact .release hg hpc hlock
    · cases h
  | poolSubscribe | readStream | returned => simp only [hpc] at h; cases h

/-- Every action is one of these. -/
theorem step_cases {st st' : State} {a : Action} (h : step st a = some st') : Step st a st' := by
  cases a with
  | subscribe cs =>
    simp only [step] at h
    split at h
    · next hcall =>
      cases h
      exact .search (by simp [hcall, Call.Stored]) (by simp [Call.Stored]) nofun
    · cases h
  | call cs => exact step_call h
  | cancel cs =>
    cases h
    exact .cancel
  | die cs =>
    simp only [step] at h
    split at h
    · next hdone =>
      cases h
      exact .die hdone.2
    · cases h
  | event uris =>
    simp only [step] at h
    split at h
    · next hlock =>
      cases h
      exact .event hlock
    · cases h
  | finder => exact step_finder h
  | goroutine i =>
    obtain ⟨g, hg, hstep⟩ := Option.bind_eq_some_iff.mp h
    exact step_goroutine hg hstep
  | stream i =>
    obtain ⟨g, hg, hstep⟩ := Option.bind_eq_some_iff.mp h
    split at hstep
    · next hpc =>
      cases hstep
      exact .run hg (by rw [hpc.1]; decide) (by decide) nofun
    · cases hstep
  | fail i =>
    obtain ⟨g, hg, hstep⟩ := Option.bind_eq_some_iff.mp h
    split at hstep
    · next hpc =>
      cases hstep
      refine .run hg ?_ (by decide) nofun
      rcases hpc with hpc | hpc <;> rw [hpc] <;> decide
    · cases hstep

end Loggregator.Plumbing.GrpcConnector
