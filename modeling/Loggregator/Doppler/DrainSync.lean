import Loggregator.Doppler.AppServices

/-!
# From the watcher's cache to the registered drains

The watcher's goroutine and the sink manager's two listeners run side by side. Adds and removes
travel on two channels to two goroutines, so the registration of an add can come after the
removal that followed it. `Ordered` is the condition that keeps the order: a listener takes a
notification only when the other one is not on its way to the registry for the same service.

`Final` says what will be registered once everything under way has been handled. Every step
leaves it equal to the cache.
-/

namespace Loggregator.Doppler.DrainSync

open Lib SinkManager

/-- The listener for new drains, by the operation that comes next. -/
inductive Adder where
  | idle
  | check (s : AppService)
  | register (s : AppService) (u : Url)
  /-- `RegisterSink` after the registration, until it has counted the sink. -/
  | waiting (thread : Nat)
deriving DecidableEq

/-- The watcher, the listener for new drains, and the sink manager with its listener for
deleted drains. -/
structure System where
  cache : AppServiceCache := {}
  watcher : Watcher := .idle
  adder : Adder := .idle
  manager : SinkManager.State := {}
  errors : List DrainError := []

/-- The actions: a change that the watcher handles, its sends, and the operations of the
listeners. -/
inductive Action where
  | storeAdd (s : AppService)
  | storeRemove (s : AppService)
  | storeRemoveApp (appId : GoString)
  | sendAdd
  | sendRemove
  | adder
  | manager (a : SinkManager.Action)

/-- The actions of the sink manager that belong to a listener: all but those of the sinks' own
goroutines and of other callers. -/
def listenerAction (st : SinkManager.State) : SinkManager.Action → Bool
  | .drain | .resume => true
  | .thread i =>
    match st.threads[i]? with
    | some (.run _ _) => false
    | _ => true
  | _ => false

/-- The next operation of the listener for new drains. -/
def stepAdder (m : URLBlacklistManager) (st : System) : Option System :=
  match st.adder with
  | .idle => none
  | .check s =>
    match m.checkUrl s.url with
    | .error e =>
      some { st with adder := .idle, errors := st.errors ++ [.invalidUrl s.appId s.url e] }
    | .ok u =>
      if u.scheme ∈ writerSchemes then some { st with adder := .register s u }
      else some { st with
        adder := .idle
        errors := st.errors ++
          [.invalidScheme s.appId (u.scheme ++ str "://" ++ u.host ++ u.path)] }
  | .register s u =>
    let sink := newSyslogSink st.manager.nextChan s.appId u
    (SinkManager.step st.manager (.register sink)).map (fun manager =>
      { st with
        manager := manager
        adder :=
          if st.manager.sinks.Free sink then .waiting st.manager.threads.length else .idle })
  | .waiting i =>
    match st.manager.threads[i]? with
    | some (.run _ _) => some { st with adder := .idle }
    | _ => none

/-- One action. -/
def step (m : URLBlacklistManager) (st : System) : Action → Option System
  | .storeAdd s =>
    if st.watcher = .idle then
      some { st with cache := (watcherAdd st.cache s).1, watcher := (watcherAdd st.cache s).2 }
    else none
  | .storeRemove s =>
    if st.watcher = .idle then
      some { st with
        cache := (watcherRemove st.cache s).1, watcher := (watcherRemove st.cache s).2 }
    else none
  | .storeRemoveApp appId =>
    if st.watcher = .idle then
      some { st with
        cache := (watcherRemoveApp st.cache appId).1
        watcher := (watcherRemoveApp st.cache appId).2 }
    else none
  | .sendAdd =>
    match st.watcher, st.adder with
    | .sendAdd s, .idle => some { st with watcher := .idle, adder := .check s }
    | _, _ => none
  | .sendRemove =>
    match st.watcher with
    | .sendRemove s rest =>
      (SinkManager.step st.manager (.receive s.appId s.url)).map (fun manager =>
        { st with manager := manager, watcher := .removals rest })
    | _ => none
  | .adder => stepAdder m st
  | .manager a =>
    if listenerAction st.manager a then
      (SinkManager.step st.manager a).map (fun manager => { st with manager := manager })
    else none

/-! ## The condition -/

/-- The listener for new drains is on its way to the registry for this service. -/
def Adder.Adding (a : Adder) (k : GoString × GoString) : Prop :=
  match a with
  | .check s | .register s _ => s.key = k
  | _ => False

/-- The listener for deleted drains is on its way to the registry for this service. -/
def Removing (st : SinkManager.State) (k : GoString × GoString) : Prop :=
  match st.listener with
  | .idle => False
  | .drain appId url => (appId, url) = k
  | .waiting i =>
    match st.threads[i]? with
    | some (.close sink) => sink.key = k
    | _ => False

instance (a : Adder) (k : GoString × GoString) : Decidable (a.Adding k) := by
  cases a <;> unfold Adder.Adding <;> infer_instance

instance (st : SinkManager.State) (k : GoString × GoString) : Decidable (Removing st k) := by
  unfold Removing
  split
  · infer_instance
  · infer_instance
  · split <;> infer_instance

/-- A service of an application with a drain URL that is accepted and is the identifier of its
own parse. -/
def IsDrain (m : URLBlacklistManager) (s : AppService) : Prop :=
  s.appId ≠ [] ∧
  match m.checkUrl s.url with
  | .ok u => u.scheme ∈ writerSchemes ∧ syslogIdentifier u = s.url
  | .error _ => False

instance (m : URLBlacklistManager) (s : AppService) : Decidable (IsDrain m s) := by
  unfold IsDrain
  cases m.checkUrl s.url <;> infer_instance

/-- The services that the watcher hears of. -/
def Domain (m : URLBlacklistManager) (_ : System) : Action → Prop
  | .storeAdd s | .storeRemove s => IsDrain m s
  | _ => True

/-- Notifications for one service are not handled by both listeners at once, and the hashes of
the cached URLs tell them apart. -/
def Ordered (st : System) : Action → Prop
  | .storeAdd s | .storeRemove s => st.cache.NoCollision s
  | .sendAdd => ∀ s ∈ st.watcher.services, ¬ Removing st.manager s.key
  | .sendRemove => ∀ s ∈ st.watcher.services.take 1, ¬ st.adder.Adding s.key
  | _ => True

/-- Both conditions. -/
def ok (m : URLBlacklistManager) (st : System) (a : Action) : Prop :=
  Domain m st a ∧ Ordered st a

instance (m : URLBlacklistManager) (st : System) (a : Action) : Decidable (Domain m st a) := by
  cases a <;> unfold Domain <;> infer_instance

instance (st : System) (a : Action) : Decidable (Ordered st a) := by
  cases a <;> unfold Ordered <;> infer_instance

instance (m : URLBlacklistManager) (st : System) (a : Action) : Decidable (ok m st a) :=
  inferInstanceAs (Decidable (_ ∧ _))

/-- The watcher is idle and both listeners have finished. -/
structure Quiescent (st : System) : Prop where
  watcher : st.watcher = .idle
  adder : st.adder = .idle
  listener : st.manager.listener = .idle

/-- The registered drains are the services in the cache. -/
def Agree (st : System) : Prop :=
  ∀ k, (st.manager.sinks.wrapper k).isSome ↔ st.cache.Contains k

theorem IsDrain.accepted {m : URLBlacklistManager} {s : AppService} (h : IsDrain m s) :
    ∃ u, Accepted m s.url u ∧ syslogIdentifier u = s.url := by
  have h2 := h.2
  cases hc : m.checkUrl s.url with
  | error e => rw [hc] at h2; exact h2.elim
  | ok u =>
    rw [hc] at h2
    exact ⟨u, ⟨hc, h2.1⟩, h2.2⟩

/-! ## The invariant -/

/-- What is registered under the key once all that is under way has been handled. -/
def Final (st : System) (k : GoString × GoString) : Prop :=
  st.watcher.Adds k ∨ (¬ st.watcher.Removes k ∧
    (st.adder.Adding k ∨ (¬ Removing st.manager k ∧ (st.manager.sinks.wrapper k).isSome)))

/-- The operations of `UnregisterSink`. -/
def Unregisters : Thread → Prop
  | .close _ | .dec _ | .disconnect _ => True
  | _ => False

/-- The invariant of the runs that keep to `ok`. -/
structure Inv (m : URLBlacklistManager) (st : System) : Prop where
  placed : st.cache.WellPlaced
  cached : ∀ appId id s, st.cache.find appId id = some s → IsDrain m s
  sent : ∀ s ∈ st.watcher.services, IsDrain m s
  adder : ∀ s, st.adder = .check s → IsDrain m s
  register : ∀ s u, st.adder = .register s u → IsDrain m s ∧ m.checkUrl s.url = .ok u
  keyed : Keyed st.manager.sinks
  listener : ∀ i th, st.manager.threads[i]? = some th → Unregisters th →
    st.manager.listener = .waiting i
  exclusive : ∀ k, st.adder.Adding k → ¬ Removing st.manager k
  final : ∀ k, Final st k ↔ st.cache.Contains k

theorem Inv.initial (m : URLBlacklistManager) : Inv m {} := by
  refine ⟨AppServiceCache.wellPlaced_empty, ?_, nofun, nofun, nofun, ?_, nofun, nofun, ?_⟩
  · intro appId id s hs
    simp [AppServiceCache.find] at hs
  · intro k w hw
    simp at hw
  · intro k
    simp [Final, Watcher.Adds, Watcher.Removes, Adder.Adding,
      AppServiceCache.not_contains_empty]

/-- When nothing is under way, what is registered is what is cached. -/
theorem Inv.agree {m : URLBlacklistManager} {st : System} (hi : Inv m st)
    (hq : Quiescent st) : Agree st := by
  intro k
  have hf := hi.final k
  simp only [Final, hq.watcher, hq.adder, Watcher.Adds, Watcher.Removes, Adder.Adding, Removing,
    hq.listener, false_or, not_false_eq_true, true_and] at hf
  exact hf

/-! ## The watcher -/

section Steps

variable {m : URLBlacklistManager} {st : System}

variable {s : AppService} {manager : SinkManager.State} {i : Nat}

section

variable (hi : Inv m st)
include hi

theorem inv_storeAdd (hw : st.watcher = .idle) (hs : IsDrain m s) :
    Inv m { st with
      cache := (watcherAdd st.cache s).1, watcher := (watcherAdd st.cache s).2 } := by
  unfold watcherAdd
  cases hex : st.cache.serviceExists s with
  | true =>
    have hsame : { st with cache := st.cache, watcher := Watcher.idle } = st := by
      rw [← hw]
    simp only [if_true, hsame]
    exact hi
  | false =>
    simp only [Bool.false_eq_true, if_false]
    refine ⟨hi.placed.add s, AppServiceCache.forall_find_add hi.cached hs, ?_, hi.adder,
      hi.register, hi.keyed, hi.listener, hi.exclusive, ?_⟩
    · intro s' hs'
      simp only [Watcher.services, List.mem_singleton] at hs'
      subst hs'
      exact hs
    · intro k
      have hf := hi.final k
      rw [AppServiceCache.contains_add hex, ← hf]
      simp only [Final, hw, Watcher.Adds, Watcher.Removes, eq_comm (a := k), not_false_eq_true,
        true_and, false_or]

theorem inv_storeRemove (hw : st.watcher = .idle) (hs : IsDrain m s) (hc : st.cache.NoCollision s) :
    Inv m { st with
      cache := (watcherRemove st.cache s).1, watcher := (watcherRemove st.cache s).2 } := by
  unfold watcherRemove
  cases hex : st.cache.serviceExists s with
  | false =>
    have hsame : { st with cache := st.cache, watcher := Watcher.idle } = st := by
      rw [← hw]
    simp only [Bool.false_eq_true, if_false, hsame]
    exact hi
  | true =>
    simp only [if_true]
    refine ⟨hi.placed.remove s, AppServiceCache.forall_find_remove hi.cached s, ?_, hi.adder,
      hi.register, hi.keyed, hi.listener, hi.exclusive, ?_⟩
    · intro s' hs'
      simp only [Watcher.services, List.mem_singleton] at hs'
      subst hs'
      exact hs
    · intro k
      have hf := hi.final k
      rw [AppServiceCache.contains_remove hi.placed hc, ← hf]
      simp only [Final, hw, Watcher.Adds, Watcher.Removes, List.mem_singleton, exists_eq_left,
        not_false_eq_true, true_and, false_or, ne_eq, eq_comm (a := k)]

theorem inv_storeRemoveApp (hw : st.watcher = .idle) (a : GoString) :
    Inv m { st with
      cache := (watcherRemoveApp st.cache a).1, watcher := (watcherRemoveApp st.cache a).2 } := by
  unfold watcherRemoveApp
  refine ⟨hi.placed.removeApp a, AppServiceCache.forall_find_removeApp hi.cached a, ?_, hi.adder,
    hi.register, hi.keyed, hi.listener, hi.exclusive, ?_⟩
  · intro s' hs'
    rw [Watcher.removals_services, AppServiceCache.mem_removeApp] at hs'
    obtain ⟨id, hfind⟩ := hs'
    exact hi.cached a id s' hfind
  · intro k
    have hf := hi.final k
    have hadds := Watcher.removals_adds (st.cache.removeApp a).1 k
    rw [AppServiceCache.contains_removeApp hi.placed]
    simp only [Final, hw, Watcher.Adds, Watcher.Removes, not_false_eq_true, true_and, false_or]
      at hf
    simp only [Final, hadds, Watcher.removals_removes, AppServiceCache.mem_removeApp_key hi.placed,
      false_or, hf]
    constructor
    · rintro ⟨hnot, hcached⟩
      exact ⟨fun ha => hnot ⟨ha, hcached⟩, hcached⟩
    · rintro ⟨hne, hcached⟩
      exact ⟨fun h => hne h.1, hcached⟩

theorem inv_sendAdd (hw : st.watcher = .sendAdd s) (ha : st.adder = .idle)
    (hok : ¬ Removing st.manager s.key) :
    Inv m { st with watcher := .idle, adder := .check s } := by
  have hs : IsDrain m s := hi.sent s (by simp [hw, Watcher.services])
  refine ⟨hi.placed, hi.cached, nofun, ?_, nofun, hi.keyed, hi.listener, ?_, ?_⟩
  · intro s' hs'
    cases hs'
    exact hs
  · intro k hk
    obtain rfl : s.key = k := hk
    exact hok
  · intro k
    rw [← hi.final k]
    simp only [Final, hw, ha, Watcher.Adds, Watcher.Removes, Adder.Adding, not_false_eq_true,
      true_and, false_or]

theorem inv_sendRemove {rest : List AppService} (hw : st.watcher = .sendRemove s rest)
    (hl : st.manager.listener = .idle) (hok : ¬ st.adder.Adding s.key) :
    Inv m { st with
      manager := { st.manager with listener := .drain s.appId s.url }
      watcher := .removals rest } := by
  have hidle : ∀ (i : Nat) (th : Thread), st.manager.threads[i]? = some th →
      ¬ Unregisters th := by
    intro i th hth hu
    have hlist := hi.listener i th hth hu
    rw [hl] at hlist
    cases hlist
  refine ⟨hi.placed, hi.cached, ?_, hi.adder, hi.register, hi.keyed, ?_, ?_, ?_⟩
  · intro s' hs'
    rw [Watcher.removals_services] at hs'
    exact hi.sent s' (by simp [hw, Watcher.services, hs'])
  · intro i th hth hu
    exact absurd hu (hidle i th hth)
  · intro k hk hr
    obtain rfl : s.key = k := hr
    exact hok hk
  · intro k
    have hadds := Watcher.removals_adds rest k
    rw [← hi.final k]
    simp only [Final, hadds, Watcher.removals_removes]
    simp only [hw, Watcher.Adds, Watcher.Removes, Removing, hl, List.mem_cons, exists_eq_or_imp]
    by_cases hk : s.key = k
    · subst hk
      have hdrain : (s.appId, s.url) = s.key := rfl
      simp [hok, hdrain]
    · have hdrain : (s.appId, s.url) ≠ k := hk
      simp [hk, hdrain]

/-! ## The listeners -/

theorem inv_check (ha : st.adder = .check s) {u : Url} (hu : Accepted m s.url u) :
    Inv m { st with adder := .register s u } := by
  have hs := hi.adder s ha
  refine ⟨hi.placed, hi.cached, hi.sent, nofun, ?_, hi.keyed, hi.listener, ?_, ?_⟩
  · intro s' u' h'
    cases h'
    exact ⟨hs, hu.check⟩
  · intro k hk
    apply hi.exclusive k
    rw [ha]
    exact hk
  · intro k
    rw [← hi.final k]
    simp only [Final, ha, Adder.Adding]

end

theorem removing_append {mst mst' : SinkManager.State} {l : List Thread}
    (hl : mst'.listener = mst.listener) (ht : mst'.threads = mst.threads ++ l)
    (hnot : ∀ sink, Thread.close sink ∉ l) (k : GoString × GoString) :
    Removing mst' k ↔ Removing mst k := by
  unfold Removing
  rw [hl, ht]
  cases mst.listener with
  | idle | drain appId url => rfl
  | waiting i =>
    simp only
    by_cases hlt : i < mst.threads.length
    · rw [List.getElem?_append_left hlt]
    · have hnone : mst.threads[i]? = none := List.getElem?_eq_none (by omega)
      rw [List.getElem?_append_right (by omega), hnone]
      cases hth : l[i - mst.threads.length]? with
      | none => rfl
      | some th =>
        cases th with
        | close sink => exact absurd (List.mem_of_getElem? hth) (hnot sink)
        | _ => rfl

variable (hi : Inv m st)
include hi

theorem inv_register {u : Url} (ha : st.adder = .register s u) {l : List Thread}
    (hsinks : manager.sinks = (st.manager.sinks.registerAppSink st.manager.nextChan
      (newSyslogSink st.manager.nextChan s.appId u)).2)
    (hlistener : manager.listener = st.manager.listener)
    (hthreads : manager.threads = st.manager.threads ++ l) (hl : ∀ th ∈ l, ¬ Unregisters th)
    {adder : Adder} (hidle : adder = .idle ∨ ∃ i, adder = .waiting i) :
    Inv m { st with manager := manager, adder := adder } := by
  obtain ⟨hs, hu⟩ := hi.register s u ha
  obtain ⟨u', hacc, hid⟩ := hs.accepted
  cases hu.symm.trans hacc.check
  have hkey : (newSyslogSink st.manager.nextChan s.appId u).key = s.key := by
    simp only [Sink.key, newSyslogSink, hid, AppService.key]
  have hne := hacc.identifier_ne
  have hadding : ∀ k, ¬ adder.Adding k := by
    intro k
    rcases hidle with rfl | ⟨i, rfl⟩ <;> exact id
  have hremoving := removing_append hlistener hthreads (fun sink hmem => hl _ hmem trivial)
  -- after the registration the service is registered, whether it was before or not
  have hreg : ∀ k, (manager.sinks.wrapper k).isSome ↔
      k = s.key ∨ (st.manager.sinks.wrapper k).isSome := by
    intro k
    rw [hsinks, GroupedSinks.registerAppSink_wrapper, hkey]
    simp only [GroupedSinks.Free, hkey]
    by_cases hk : k = s.key
    · subst hk
      cases st.manager.sinks.wrapper s.key <;> simp [newSyslogSink, hs.1, hne]
    · simp [hk]
  refine ⟨hi.placed, hi.cached, hi.sent, ?_, ?_, ?_, ?_, ?_, ?_⟩
  · intro s' h'
    rcases hidle with rfl | ⟨i, rfl⟩ <;> cases h'
  · intro s' u' h'
    rcases hidle with rfl | ⟨i, rfl⟩ <;> cases h'
  · intro k w hw
    simp only [hsinks, GroupedSinks.registerAppSink_wrapper] at hw
    split at hw
    · next hk =>
      cases hw
      exact hk.2.symm
    · exact hi.keyed k w hw
  · intro i th hth hun
    simp only [hthreads, hlistener] at hth ⊢
    by_cases hlt : i < st.manager.threads.length
    · rw [List.getElem?_append_left hlt] at hth
      exact hi.listener i th hth hun
    · rw [List.getElem?_append_right (by omega)] at hth
      exact absurd hun (hl th (List.mem_of_getElem? hth))
  · intro k hk
    exact absurd hk (hadding k)
  · intro k
    have hex := hi.exclusive k
    rw [← hi.final k]
    simp only [Final, hremoving, hreg, hadding k, false_or]
    simp only [ha, Adder.Adding] at hex ⊢
    by_cases hk : s.key = k
    · subst hk
      simp [hex rfl]
    · simp [hk, Ne.symm hk]

/-- The listener for new drains has finished. -/
theorem inv_resumeAdder (ha : st.adder = .waiting i) :
    Inv m { st with adder := .idle } := by
  refine ⟨hi.placed, hi.cached, hi.sent, nofun, nofun, hi.keyed, hi.listener, nofun, ?_⟩
  intro k
  rw [← hi.final k]
  simp only [Final, ha, Adder.Adding]

/-- A listener that has not called `UnregisterSink`: no such call is under way. -/
theorem Inv.no_unregisters (hl : ∀ i, st.manager.listener ≠ .waiting i) :
    ∀ (i : Nat) (th : Thread), st.manager.threads[i]? = some th → ¬ Unregisters th := by
  intro i th hth hu
  exact hl i (hi.listener i th hth hu)

theorem inv_drain_none {appId url : GoString} (hl : st.manager.listener = .drain appId url)
    (hd : st.manager.sinks.wrapper (appId, url) = none) :
    Inv m { st with manager := { st.manager with listener := .idle } } := by
  have hno := hi.no_unregisters (fun i => by rw [hl]; nofun)
  refine ⟨hi.placed, hi.cached, hi.sent, hi.adder, hi.register, hi.keyed, ?_, ?_, ?_⟩
  · intro i th hth hu
    exact absurd hu (hno i th hth)
  · intro k _ hr
    exact hr
  · intro k
    rw [← hi.final k]
    simp only [Final, Removing, hl, not_false_eq_true, true_and]
    by_cases hk : (appId, url) = k
    · subst hk
      simp [hd]
    · simp [hk]

theorem inv_drain_some {appId url : GoString} {w : SinkWrapper}
    (hl : st.manager.listener = .drain appId url)
    (hd : st.manager.sinks.wrapper (appId, url) = some w) :
    Inv m { st with manager := { st.manager with
      threads := st.manager.threads ++ [.close w.sink]
      listener := .waiting st.manager.threads.length } } := by
  have hno := hi.no_unregisters (fun i => by rw [hl]; nofun)
  have hkey := hi.keyed _ w hd
  have hsame : ∀ k, Removing { st.manager with
      threads := st.manager.threads ++ [.close w.sink]
      listener := .waiting st.manager.threads.length } k ↔ Removing st.manager k := by
    intro k
    simp [Removing, hl, hkey]
  refine ⟨hi.placed, hi.cached, hi.sent, hi.adder, hi.register, hi.keyed, ?_, ?_, ?_⟩
  · intro i th hth hu
    simp only at hth ⊢
    by_cases hlt : i < st.manager.threads.length
    · rw [List.getElem?_append_left hlt] at hth
      exact absurd hu (hno i th hth)
    · have hi' := (List.getElem?_eq_some_iff.mp hth).1
      rw [List.length_append, List.length_singleton] at hi'
      congr 1
      omega
  · intro k hk hr
    exact hi.exclusive k hk ((hsame k).mp hr)
  · intro k
    rw [← hi.final k]
    simp only [Final, hsame]

theorem inv_resume {sink : Sink} (hl : st.manager.listener = .waiting i)
    (hth : st.manager.threads[i]? = some (.done sink)) :
    Inv m { st with manager := { st.manager with listener := .idle } } := by
  refine ⟨hi.placed, hi.cached, hi.sent, hi.adder, hi.register, hi.keyed, ?_, ?_, ?_⟩
  · intro j th hj hu
    have hlist := hi.listener j th hj hu
    rw [hl] at hlist
    cases hlist
    cases hth.symm.trans hj
    exact hu.elim
  · intro k _ hr
    exact hr
  · intro k
    rw [← hi.final k]
    simp only [Final, Removing, hl, hth]

/-- An operation of `RegisterSink` or `UnregisterSink` that is not `CloseAndDelete`. -/
theorem inv_thread_quiet {th th' : Thread} (hth : st.manager.threads[i]? = some th)
    (hsinks : manager.sinks = st.manager.sinks) (hlistener : manager.listener = st.manager.listener)
    (hthreads : manager.threads = st.manager.threads.set i th') (hclose : ∀ sink, th ≠ .close sink)
    (hclose' : ∀ sink, th' ≠ .close sink) (hun : Unregisters th' → Unregisters th) :
    Inv m { st with manager := manager } := by
  have hlt := (List.getElem?_eq_some_iff.mp hth).1
  have hsame : ∀ k, Removing manager k ↔ Removing st.manager k := by
    intro k
    unfold Removing
    rw [hlistener, hthreads]
    cases hl : st.manager.listener with
    | idle | drain appId url => rfl
    | waiting j =>
      simp only
      by_cases hij : i = j
      · subst hij
        rw [List.getElem?_set_self hlt, hth]
        cases th <;> cases th' <;> first | rfl | exact absurd rfl (hclose _) |
          exact absurd rfl (hclose' _)
      · rw [List.getElem?_set_ne hij]
  refine ⟨hi.placed, hi.cached, hi.sent, hi.adder, hi.register, ?_, ?_, ?_, ?_⟩
  · simp only [hsinks]
    exact hi.keyed
  · intro j t hj hu
    simp only [hthreads, hlistener] at hj ⊢
    by_cases hij : i = j
    · subst hij
      rw [List.getElem?_set_self hlt] at hj
      cases hj
      exact hi.listener i th hth (hun hu)
    · rw [List.getElem?_set_ne hij] at hj
      exact hi.listener j t hj hu
  · intro k hk hr
    exact hi.exclusive k hk ((hsame k).mp hr)
  · intro k
    rw [← hi.final k]
    simp only [Final, hsame, hsinks]

/-- `CloseAndDelete` in the listener's call. -/
theorem inv_thread_close {sink : Sink} {th' : Thread}
    (hth : st.manager.threads[i]? = some (.close sink))
    (hsinks : manager.sinks = (st.manager.sinks.closeAndDelete sink).2)
    (hlistener : manager.listener = st.manager.listener)
    (hthreads : manager.threads = st.manager.threads.set i th')
    (hclose' : ∀ sink, th' ≠ .close sink) : Inv m { st with manager := manager } := by
  have hlt := (List.getElem?_eq_some_iff.mp hth).1
  have hl := hi.listener i _ hth trivial
  have hbefore : ∀ k, Removing st.manager k ↔ sink.key = k := by
    intro k
    simp only [Removing, hl, hth]
  have hafter : ∀ k, ¬ Removing manager k := by
    intro k
    simp only [Removing, hlistener, hl, hthreads, List.getElem?_set_self hlt]
    cases th' <;> first | exact id | exact absurd rfl (hclose' _)
  refine ⟨hi.placed, hi.cached, hi.sent, hi.adder, hi.register, ?_, ?_, ?_, ?_⟩
  · intro k w hw
    simp only [hsinks, GroupedSinks.closeAndDelete_wrapper] at hw
    split at hw
    · cases hw
    · exact hi.keyed k w hw
  · intro j t hj hu
    simp only [hthreads, hlistener] at hj ⊢
    by_cases hij : i = j
    · subst hij
      exact hl
    · rw [List.getElem?_set_ne hij] at hj
      exact hi.listener j t hj hu
  · intro k _
    exact hafter k
  · intro k
    rw [← hi.final k]
    simp only [Final, hafter k, hbefore, hsinks, GroupedSinks.closeAndDelete_wrapper,
      not_false_eq_true, true_and]
    by_cases hk : sink.key = k
    · subst hk
      simp
    · simp [hk, Ne.symm hk]

end Steps

/-! ## Every action -/

theorem inv_stepAdder {m : URLBlacklistManager} {st st' : System} (hi : Inv m st)
    (h : stepAdder m st = some st') : Inv m st' := by
  unfold stepAdder at h
  cases ha : st.adder with
  | idle => rw [ha] at h; cases h
  | check s =>
    obtain ⟨u, hu, -⟩ := (hi.adder s ha).accepted
    rw [ha] at h
    simp only [hu.check, if_pos hu.scheme, Option.some.injEq] at h
    subst h
    exact inv_check hi ha hu
  | register s u =>
    rw [ha] at h
    simp only [Option.map_eq_some_iff] at h
    obtain ⟨manager, hstep, rfl⟩ := h
    simp only [SinkManager.step, Option.some.injEq] at hstep
    subst hstep
    refine inv_register hi ha ?_ ?_ rfl ?_ ?_
    · rfl
    · rfl
    · intro th hth
      split at hth
      · rw [List.mem_singleton] at hth
        subst hth
        exact id
      · cases hth
    · split
      · exact Or.inr ⟨_, rfl⟩
      · exact Or.inl rfl
  | waiting i =>
    rw [ha] at h
    simp only at h
    split at h
    · cases h
      exact inv_resumeAdder hi ha
    · cases h

theorem inv_stepManager {m : URLBlacklistManager} {st : System} {a : SinkManager.Action}
    {manager : SinkManager.State} (hi : Inv m st) (hl : listenerAction st.manager a = true)
    (h : SinkManager.step st.manager a = some manager) :
    Inv m { st with manager := manager } := by
  cases a with
  | register sink | unregister sink | receive appId url => cases hl
  | drain =>
    simp only [SinkManager.step] at h
    cases hlist : st.manager.listener with
    | idle => rw [hlist] at h; cases h
    | waiting i => rw [hlist] at h; cases h
    | drain appId url =>
      rw [hlist] at h
      simp only [GroupedSinks.drainFor_eq] at h
      cases hw : st.manager.sinks.wrapper (appId, url) with
      | none =>
        rw [hw] at h
        cases h
        exact inv_drain_none hi hlist hw
      | some w =>
        rw [hw] at h
        cases h
        exact inv_drain_some hi hlist hw
  | resume =>
    simp only [SinkManager.step] at h
    cases hlist : st.manager.listener with
    | idle => rw [hlist] at h; cases h
    | drain appId url => rw [hlist] at h; cases h
    | waiting i =>
      rw [hlist] at h
      simp only at h
      split at h
      · next sink hth =>
        cases h
        exact inv_resume hi hlist hth
      · cases h
  | thread i =>
    simp only [SinkManager.step, stepThread] at h
    cases hth : st.manager.threads[i]? with
    | none => rw [hth] at h; cases h
    | some th =>
      rw [hth] at h
      cases th with
      | inc sink c =>
        cases h
        exact inv_thread_quiet hi hth rfl rfl rfl (by simp) (by simp) (by simp [Unregisters])
      | run sink c =>
        simp only [listenerAction, hth] at hl
        cases hl
      | close sink =>
        simp only [Option.some.injEq] at h
        subst h
        refine inv_thread_close hi hth rfl rfl rfl ?_
        intro sink'
        split <;> simp
      | dec sink =>
        simp only [Option.some.injEq] at h
        subst h
        refine inv_thread_quiet hi hth rfl rfl rfl (by simp) ?_ ?_
        · intro sink'
          split <;> simp
        · exact fun _ => trivial
      | disconnect sink =>
        cases h
        exact inv_thread_quiet hi hth rfl rfl rfl (by simp) (by simp) (by simp [Unregisters])
      | done sink => cases h

theorem inv_step {m : URLBlacklistManager} {st : System} {a : Action} {st' : System}
    (hi : Inv m st) (hok : ok m st a) (h : step m st a = some st') : Inv m st' := by
  obtain ⟨hdom, hord⟩ := hok
  cases a with
  | storeAdd s =>
    simp only [step] at h
    split at h
    · next hw =>
      cases h
      exact inv_storeAdd hi hw hdom
    · cases h
  | storeRemove s =>
    simp only [step] at h
    split at h
    · next hw =>
      cases h
      exact inv_storeRemove hi hw hdom hord
    · cases h
  | storeRemoveApp appId =>
    simp only [step] at h
    split at h
    · next hw =>
      cases h
      exact inv_storeRemoveApp hi hw appId
    · cases h
  | sendAdd =>
    simp only [step] at h
    split at h
    · next s hw ha =>
      cases h
      exact inv_sendAdd hi hw ha (hord s (by simp [hw, Watcher.services]))
    · cases h
  | sendRemove =>
    simp only [step] at h
    split at h
    · next s rest hw =>
      simp only [SinkManager.step, Option.map_eq_some_iff] at h
      obtain ⟨manager, hm, rfl⟩ := h
      split at hm
      · next hl =>
        cases hm
        exact inv_sendRemove hi hw hl (hord s (by simp [hw, Watcher.services]))
      · cases hm
    · cases h
  | adder => exact inv_stepAdder hi h
  | manager a =>
    simp only [step] at h
    split at h
    · next hl =>
      obtain ⟨manager, hm, rfl⟩ := Option.map_eq_some_iff.mp h
      exact inv_stepManager hi hl hm
    · cases h

/-- In a run in which the listeners never handle the same service at once, the registered drains
are the cached services whenever nothing is under way. -/
theorem drains_agree_with_cache (m : URLBlacklistManager) (st : System)
    (hst : Reachable (step m) (ok m) {} st) (hq : Quiescent st) : Agree st := by
  have hinv : Inv m st := hst.invariant (Inv.initial m) (fun _ _ _ => inv_step)
  exact hinv.agree hq

/-- A drain is added, deleted and added again, each change handled to its end. -/
def orderlyChanges : List Action :=
  [.storeAdd plainDrain, .sendAdd, .adder, .adder, .manager (.thread 0), .adder,
   .storeRemove plainDrain, .sendRemove, .manager .drain, .manager (.thread 1),
   .manager (.thread 1), .manager (.thread 1), .manager .resume,
   .storeAdd plainDrain, .sendAdd, .adder, .adder, .manager (.thread 2), .adder]

theorem orderlyChanges_agree :
    ∃ st, run (guarded (step {}) (ok {})) {} orderlyChanges = some st ∧
      (st.manager.sinks.wrapper plainDrain.key).isSome ∧ Quiescent st ∧ Agree st := by
  have hrun : (run (guarded (step {}) (ok {})) {} orderlyChanges).map (fun st =>
      ((st.manager.sinks.wrapper plainDrain.key).isSome, decide (st.watcher = .idle),
        decide (st.adder = .idle), decide (st.manager.listener = .idle))) =
      some (true, true, true, true) := by decide +kernel
  obtain ⟨st, hst, hfinal⟩ := Option.map_eq_some_iff.mp hrun
  simp only [Prod.mk.injEq, decide_eq_true_eq] at hfinal
  obtain ⟨hreg, hwatcher, hadder, hlistener⟩ := hfinal
  have hq : Quiescent st := ⟨hwatcher, hadder, hlistener⟩
  exact ⟨st, hst, hreg, hq, drains_agree_with_cache {} st (Reachable.refl.of_guarded hst) hq⟩

/-- A drain is added and deleted. The delete finds nothing, as the add is still checking its
URL. -/
def overtakenChanges : List Action :=
  [.storeAdd plainDrain, .sendAdd, .storeRemove plainDrain, .sendRemove, .manager .drain, .adder,
   .adder, .manager (.thread 0), .adder]

/-- The deleted drain stays registered. -/
theorem overtaken_drain_stays :
    ∃ st, Reachable (step {}) (Domain {}) {} st ∧ Quiescent st ∧
      (st.manager.sinks.wrapper plainDrain.key).isSome ∧
      ¬ st.cache.Contains plainDrain.key ∧ ¬ Agree st := by
  have hrun : (run (guarded (step {}) (Domain {})) {} overtakenChanges).map (fun st =>
      ((st.manager.sinks.wrapper plainDrain.key).isSome, decide (st.watcher = .idle),
        decide (st.adder = .idle), decide (st.manager.listener = .idle),
        st.cache.appServicesByAppId.entries.isEmpty)) = some (true, true, true, true, true) := by
    decide +kernel
  obtain ⟨st, hreach, hfinal⟩ := exists_reachable_of_guarded hrun
  simp only [Prod.mk.injEq, decide_eq_true_eq, List.isEmpty_iff] at hfinal
  obtain ⟨hreg, hwatcher, hadder, hlistener, hcache⟩ := hfinal
  have hempty : ¬ st.cache.Contains plainDrain.key := by
    rw [show st.cache = {} from congrArg AppServiceCache.mk (AList.ext hcache)]
    exact AppServiceCache.not_contains_empty _
  refine ⟨st, hreach, ⟨hwatcher, hadder, hlistener⟩, hreg, hempty, ?_⟩
  intro hagree
  exact hempty ((hagree _).mp hreg)

end Loggregator.Doppler.DrainSync
