import Loggregator.Plumbing.PoolEntries

/-!
# Streams and slots

A goroutine of `consumeSubscription` reads a doppler only between a successful `tryAddDoppler`
and its `forgetDoppler`. The set `dopplers` of the consumer excludes a second one for the same
URI, whichever client object and whichever spawning loop it comes from (`Exclusive`).

`addConsumerState` looks at the slots one after another. It loads a slot, loads the `dead` flag
of the consumer in it, and swaps. `Searched` keeps what a call of `Subscribe` has met so far: it
passes a slot only because of a consumer that is not dead, or because the slot was taken after
it was loaded.
-/

namespace Loggregator.Plumbing.GrpcConnector

open Lib

/-! ## One goroutine for each consumer and URI -/

/-- The goroutines that hold a URI have it in the set of their consumer, each alone. -/
structure Exclusive (st : State) : Prop where
  clients : ∀ c ∈ st.clients, c < st.nextClient
  scanned : ∀ c ∈ st.finder.client, c < st.nextClient
  started : ∀ g ∈ st.goroutines, g.client < st.nextClient
  holding : ∀ g ∈ st.goroutines, g.pc.Holding → st.uri g ∈ (st.consumers g.consumer).dopplers
  alone : ∀ (i j : Nat) (g g' : Goroutine), st.goroutines[i]? = some g →
    st.goroutines[j]? = some g' →
    g.consumer = g'.consumer → st.uri g = st.uri g' → g.pc.Holding → g'.pc.Holding → i = j

section Exclusive

variable {st st' : State}

theorem exclusive_initial (n : Nat) : Exclusive (newGRPCConnector n) :=
  ⟨nofun, nofun, nofun, nofun, by simp [newGRPCConnector]⟩

variable (hx : Exclusive st)
include hx

/-- What gives no goroutine a URI and takes none away. -/
theorem Exclusive.frame (hclients : ∀ c ∈ st'.clients, c < st'.nextClient)
    (hscanned : ∀ c ∈ st'.finder.client, c < st'.nextClient)
    (huri : ∀ c < st.nextClient, (st'.infos c).uri = (st.infos c).uri)
    (hdopplers : ∀ cs, (st'.consumers cs).dopplers = (st.consumers cs).dopplers)
    (hgoroutines : ∀ (i : Nat) (g' : Goroutine), st'.goroutines[i]? = some g' →
      g'.client < st'.nextClient ∧ (g'.pc.Holding → ∃ g, st.goroutines[i]? = some g ∧
        g.consumer = g'.consumer ∧ g.client = g'.client ∧ g.pc.Holding)) :
    Exclusive st' := by
  have huri' : ∀ g g' : Goroutine, g ∈ st.goroutines → g.client = g'.client →
      st'.uri g' = st.uri g := by
    intro g g' hg hclient
    rw [State.uri, State.uri, ← hclient]
    exact huri _ (hx.started g hg)
  refine ⟨hclients, hscanned, ?_, ?_, ?_⟩
  · intro g' hg'
    obtain ⟨i, hi⟩ := List.getElem?_of_mem hg'
    exact (hgoroutines i g' hi).1
  · intro g' hg' hpc
    obtain ⟨i, hi⟩ := List.getElem?_of_mem hg'
    obtain ⟨g, hg, hcs, hcl, hold⟩ := (hgoroutines i g' hi).2 hpc
    have hmem := List.mem_of_getElem? hg
    rw [huri' g g' hmem hcl, hdopplers, ← hcs]
    exact hx.holding g hmem hold
  · intro i j g' h' hi hj hcs hu hpc hpc'
    obtain ⟨g, hg, hgcs, hgcl, hgold⟩ := (hgoroutines i g' hi).2 hpc
    obtain ⟨h, hh, hhcs, hhcl, hhold⟩ := (hgoroutines j h' hj).2 hpc'
    refine hx.alone i j g h hg hh (hgcs.trans (hcs.trans hhcs.symm)) ?_ hgold hhold
    rw [← huri' g g' (List.mem_of_getElem? hg) hgcl, ← huri' h h' (List.mem_of_getElem? hh) hhcl,
      hu]

/-- What changes neither the clients nor the goroutines. -/
theorem Exclusive.quiet (hnext : st'.nextClient = st.nextClient)
    (hclients : ∀ c ∈ st'.clients, c ∈ st.clients)
    (hscanned : ∀ c ∈ st'.finder.client, c ∈ st.finder.client)
    (huri : ∀ c, (st'.infos c).uri = (st.infos c).uri)
    (hdopplers : ∀ cs, (st'.consumers cs).dopplers = (st.consumers cs).dopplers)
    (hgoroutines : st'.goroutines = st.goroutines) : Exclusive st' := by
  refine hx.frame ?_ ?_ (fun c _ => huri c) hdopplers ?_
  · exact fun c hc => hnext ▸ hx.clients c (hclients c hc)
  · exact fun c hc => hnext ▸ hx.scanned c (hscanned c hc)
  · intro i g hg
    rw [hgoroutines] at hg
    rw [hnext]
    exact ⟨hx.started g (List.mem_of_getElem? hg), fun hpc => ⟨g, hg, rfl, rfl, hpc⟩⟩

/-- `handleFinderEvent` or a call goes on. -/
theorem Exclusive.goOn {slots : List (Option Nat)} {calls : Nat → Call} {finder : Finder}
    {advertised : List GoString} (hscanned : ∀ c ∈ finder.client, c ∈ st.finder.client) :
    Exclusive { st with
      consumerStates := slots, calls := calls, finder := finder, advertised := advertised } :=
  hx.quiet rfl (fun _ => id) hscanned (fun _ => rfl) (fun _ => rfl) rfl

theorem Exclusive.modifyConsumer (cs : Nat) {f : ConsumerState → ConsumerState}
    (hf : ∀ c, (f c).dopplers = c.dopplers) :
    Exclusive (st.modifyConsumer cs f) := by
  refine hx.quiet rfl (fun _ => id) (fun _ => id) (fun _ => rfl) ?_ rfl
  intro cs'
  simp only [State.modifyConsumer, Function.update_apply]
  split
  · next h => rw [hf, h]
  · rfl

/-- Goroutines are started. -/
theorem Exclusive.start {l : List Goroutine} {calls : Nat → Call} {finder : Finder}
    (hscanned : ∀ c ∈ finder.client, c ∈ st.finder.client)
    (hl : ∀ g ∈ l, g.client < st.nextClient ∧ g.pc = .tryAddDoppler) :
    Exclusive { st with goroutines := st.goroutines ++ l, calls := calls, finder := finder } := by
  refine hx.frame hx.clients (fun c hc => hx.scanned c (hscanned c hc))
    (fun _ _ => rfl) (fun _ => rfl) ?_
  intro i g hg
  rcases List.mem_append.mp (List.mem_of_getElem? hg) with hold | hnew
  · refine ⟨hx.started g hold, ?_⟩
    intro hpc
    by_cases hi : i < st.goroutines.length
    · rw [List.getElem?_append_left hi] at hg
      exact ⟨g, hg, rfl, rfl, hpc⟩
    · rw [List.getElem?_append_right (by omega)] at hg
      exact absurd (hl g (List.mem_of_getElem? hg)).2 hpc.1
  · exact ⟨(hl g hnew).1, fun hpc => absurd (hl g hnew).2 hpc.1⟩

/-- A goroutine that goes on without a call of `tryAddDoppler`. -/
theorem Exclusive.goto {i : Nat} {g : Goroutine} {pc : Pc} (hg : st.goroutines[i]? = some g)
    (hpc : pc.Holding → g.pc.Holding) :
    Exclusive (st.goto i g pc) := by
  refine hx.frame hx.clients hx.scanned (fun _ _ => rfl) (fun _ => rfl) ?_
  intro j g' hg'
  rcases getElem?_set_cases hg' with ⟨rfl, rfl⟩ | ⟨-, hg'⟩
  · exact ⟨hx.started g (List.mem_of_getElem? hg), fun h => ⟨g, hg, rfl, rfl, hpc h⟩⟩
  · exact ⟨hx.started g' (List.mem_of_getElem? hg'), fun h => ⟨g', hg', rfl, rfl, h⟩⟩

theorem Exclusive.addRef (client : Nat) (n : Int) :
    Exclusive (st.addRef client n) :=
  hx.quiet rfl (fun _ => id) (fun _ => id) (fun c => (st.addRef_same client n c).1)
    (fun _ => rfl) rfl

theorem Exclusive.close (client : Nat) : Exclusive (st.close client) :=
  hx.quiet rfl (fun _ => List.mem_of_mem_erase) (fun _ => id) (fun _ => rfl) (fun _ => rfl) rfl

theorem Exclusive.registerDoppler (addr : GoString) (e : Event) :
    Exclusive (st.registerDoppler addr e) := by
  refine hx.frame ?_ ?_ ?_ (fun _ => rfl) ?_
  · intro c hc
    rcases List.mem_append.mp hc with hc | hc
    · exact (hx.clients c hc).trans (Nat.lt_succ_self _)
    · rw [List.mem_singleton.mp hc]
      exact Nat.lt_succ_self _
  · intro c hc
    cases hc
    exact Nat.lt_succ_self _
  · intro c hc
    simp only [State.registerDoppler, Function.update_of_ne hc.ne]
  · intro i g hg
    exact ⟨(hx.started g (List.mem_of_getElem? hg)).trans (Nat.lt_succ_self _),
      fun hpc => ⟨g, hg, rfl, rfl, hpc⟩⟩

theorem Exclusive.disableClient (client : Nat) (e : Event) :
    Exclusive (st.disableClient client e) := by
  have hdis : Exclusive { st.modifyInfo client (fun info => { info with disconnect := true }) with
      finder := .disable e } :=
    hx.quiet rfl (fun _ => id) nofun (st.modifyInfo_uri client
      (f := fun info => { info with disconnect := true }) (fun _ => rfl)) (fun _ => rfl) rfl
  unfold State.disableClient
  split
  · exact hdis.close client
  · exact hdis

/-- `tryAddDoppler` succeeds only if no goroutine of the consumer holds the URI. -/
theorem Exclusive.added {i : Nat} {g : Goroutine} (hg : st.goroutines[i]? = some g)
    (hnew : st.uri g ∉ (st.consumers g.consumer).dopplers) :
    Exclusive ((st.goto i g .addRef).modifyConsumer g.consumer
      (fun cs => { cs with dopplers := insert (st.uri g) cs.dopplers })) := by
  have hsub : ∀ cs, (st.consumers cs).dopplers ⊆ (Function.update st.consumers g.consumer
      { st.consumers g.consumer with
        dopplers := insert (st.uri g) (st.consumers g.consumer).dopplers } cs).dopplers := by
    intro cs
    rw [Function.update_apply]
    split
    · next h =>
      subst h
      exact Finset.subset_insert _ _
    · exact Finset.Subset.refl _
  -- another goroutine with this consumer and URI would have the URI in the set
  have hother : ∀ g', g' ∈ st.goroutines → g'.consumer = g.consumer → st.uri g' = st.uri g →
      ¬ g'.pc.Holding := by
    intro g' hg' hcs hu hpc
    rw [← hcs, ← hu] at hnew
    exact hnew (hx.holding g' hg' hpc)
  refine ⟨hx.clients, hx.scanned, ?_, ?_, ?_⟩
  · intro g' hg'
    rcases List.mem_or_eq_of_mem_set hg' with hold | rfl
    · exact hx.started g' hold
    · exact hx.started g (List.mem_of_getElem? hg)
  · intro g' hg' hpc
    rcases List.mem_or_eq_of_mem_set hg' with hold | rfl
    · exact hsub _ (hx.holding g' hold hpc)
    · simp [State.modifyConsumer, State.goto, State.uri]
  · intro j k g₁ g₂ hj hk hcs hu hpc₁ hpc₂
    rcases getElem?_set_cases hj with ⟨rfl, rfl⟩ | ⟨-, hj'⟩ <;>
      rcases getElem?_set_cases hk with ⟨rfl, rfl⟩ | ⟨-, hk'⟩
    · rfl
    · exact absurd hpc₂ (hother g₂ (List.mem_of_getElem? hk') hcs.symm hu.symm)
    · exact absurd hpc₁ (hother g₁ (List.mem_of_getElem? hj') hcs hu)
    · exact hx.alone j k g₁ g₂ hj' hk' hcs hu hpc₁ hpc₂

/-- A goroutine that forgets its URI was the only one that held it. -/
theorem Exclusive.dropRef {i : Nat} {g : Goroutine} (hg : st.goroutines[i]? = some g)
    (hpc : g.pc = .deferred) :
    Exclusive (st.dropRef i g) := by
  have hreturned : Exclusive ((st.goto i g .returned).addRef g.client (-1)) :=
    (hx.goto hg (fun h => absurd rfl h.2)).addRef g.client (-1)
  refine ⟨hreturned.clients, hreturned.scanned, hreturned.started, ?_, hreturned.alone⟩
  intro g' hg' hpc'
  have hmem := hreturned.holding g' hg' hpc'
  obtain ⟨j, hj⟩ := List.getElem?_of_mem hg'
  have huri : ∀ g'' : Goroutine, ((st.goto i g .returned).addRef g.client (-1)).uri g'' =
      st.uri g'' := fun g'' => ((st.goto i g .returned).addRef_same g.client (-1) g''.client).1
  simp only [State.dropRef, State.modifyConsumer, Function.update_apply]
  split
  · next hcs =>
    refine Finset.mem_erase.mpr ⟨?_, hcs ▸ hmem⟩
    intro hu
    -- `g'` would be a second holder of the URI
    rcases getElem?_set_cases hj with ⟨rfl, rfl⟩ | ⟨hij, hj⟩
    · exact hpc'.2 rfl
    · refine hij (hx.alone j i g' g hj hg hcs ?_ hpc' (by rw [hpc]; decide))
      rw [← huri g']
      exact hu
  · exact hmem

theorem exclusive_step {a : Action} (h : step st a = some st') :
    Exclusive st' := by
  cases step_cases h with
  | search | swap => exact hx.goOn (fun _ => id)
  | spawn =>
    refine hx.start (fun _ => id) ?_
    intro g hg
    obtain ⟨client, hclient, rfl⟩ := List.mem_map.mp hg
    exact ⟨hx.clients client hclient, rfl⟩
  | cancel | die => exact hx.modifyConsumer _ (fun _ => rfl)
  | @event uris =>
    exact hx.quiet rfl (fun _ => id) nofun (delta_uri st.infos st.clients uris) (fun _ => rfl) rfl
  | register => exact hx.registerDoppler _ _
  | registered | scanned => exact hx.goOn nofun
  | skip hfinder | load hfinder => exact hx.goOn (by rw [hfinder]; exact fun _ => id)
  | @loadDead e client i cs hfinder =>
    refine hx.start (by rw [hfinder]; exact fun _ => id) ?_
    intro g hg
    have hclient : client < st.nextClient := hx.scanned client (by rw [hfinder]; rfl)
    split at hg
    · cases hg
    · rw [List.mem_singleton.mp hg]
      exact ⟨hclient, rfl⟩
  | disable => exact hx.disableClient _ _
  | handled => exact hx.goOn nofun
  | added hg hpc hnew => exact hx.added hg hnew
  | refused hg => exact hx.goto hg (fun h => absurd rfl h.2)
  | addRef hg hpc => exact (hx.goto hg (fun _ => by rw [hpc]; decide)).addRef _ _
  | run hg hold => exact hx.goto hg (fun _ => hold.holding)
  | leave hg hrun => exact hx.goto hg (fun _ => hrun.holding)
  | release hg hpc =>
    unfold State.release
    split
    · exact (hx.dropRef hg hpc).close _
    · exact hx.dropRef hg hpc

end Exclusive

/-! ## The search for a slot -/

section Slots

variable {st st' : State} {a : Action}

/-- Only the compare-and-swap of `addConsumerState` changes a slot. -/
theorem slots_step (h : step st a = some st') :
    st'.consumerStates = st.consumerStates ∨
    ∃ cs i state, a = .call cs ∧ st.calls cs = .compareAndSwap i state ∧
      st.consumerStates[i]? = some state ∧
      st'.consumerStates = st.consumerStates.set i (some cs) := by
  cases step_cases h with
  | @swap cs i state hcall hslot => exact Or.inr ⟨cs, i, state, rfl, hcall, hslot, rfl⟩
  | disable =>
    left
    unfold State.disableClient
    split <;> rfl
  | release =>
    left
    unfold State.release
    split <;> rfl
  | _ => exact Or.inl rfl

theorem dead_step (h : step st a = some st') {cs : Nat} (hdead : (st.consumers cs).dead = true) :
    (st'.consumers cs).dead = true := by
  have hmodify : ∀ (st : State) (cs' : Nat) (f : ConsumerState → ConsumerState),
      (∀ c, c.dead = true → (f c).dead = true) → (st.consumers cs).dead = true →
      ((st.modifyConsumer cs' f).consumers cs).dead = true := by
    intro st cs' f hf hdead
    simp only [State.modifyConsumer, Function.update_apply]
    split
    · next hcs => exact hf _ (hcs ▸ hdead)
    · exact hdead
  cases step_cases h with
  | cancel => exact hmodify st _ _ (fun _ => id) hdead
  | die => exact hmodify st _ _ (fun _ _ => rfl) hdead
  | added => exact hmodify _ _ _ (fun _ => id) hdead
  | disable =>
    unfold State.disableClient
    split <;> exact hdead
  | @release i g =>
    have hdrop : ((st.dropRef i g).consumers cs).dead = true :=
      hmodify ((st.goto i g .returned).addRef g.client (-1)) g.consumer
        (fun c => { c with dopplers := c.dopplers.erase (st.uri g) }) (fun _ => id) hdead
    unfold State.release
    split <;> exact hdrop
  | _ => exact hdead

theorem stepFinder_calls (h : st.stepFinder = some st') : st'.calls = st.calls := by
  unfold State.stepFinder at h
  split at h
  · cases h
  · split at h <;> cases h <;> rfl
  · split at h <;> cases h <;> rfl
  · cases h
    rfl
  · split at h
    · cases h
      rfl
    · cases h
      unfold State.disableClient
      split <;> rfl

theorem stepGoroutine_calls {i : Nat} {g : Goroutine} (h : st.stepGoroutine i g = some st') :
    st'.calls = st.calls := by
  unfold State.stepGoroutine at h
  split at h
  · split at h <;> cases h <;> rfl
  · cases h
    rfl
  · cases h
    rfl
  · split at h
    · split at h <;> cases h <;> rfl
    · cases h
  · split at h
    · cases h
      unfold State.release
      split <;> rfl
    · cases h
  all_goals cases h

theorem stepCall_calls {cs cs' : Nat} (hne : cs ≠ cs') (h : st.stepCall cs' = some st') :
    st'.calls cs = st.calls cs := by
  have hset : ∀ (st : State) (call : Call), (st.setCall cs' call).calls cs = st.calls cs :=
    fun _ _ => Function.update_of_ne hne _ _
  unfold State.stepCall at h
  split at h
  · split at h <;> cases h <;> exact hset _ _
  · split at h <;> cases h <;> exact hset _ _
  · split at h <;> cases h <;> exact hset _ _
  · split at h
    · cases h
      exact hset _ _
    · cases h
  all_goals cases h

/-- What an action does to a call of `Subscribe`. -/
theorem calls_step (h : step st a = some st') (cs : Nat) :
    st'.calls cs = st.calls cs ∨
    (a = .subscribe cs ∧ st'.calls cs = .load 0) ∨
    (a = .call cs ∧ st.stepCall cs = some st') := by
  cases a with
  | subscribe cs' =>
    simp only [step] at h
    split at h
    · cases h
      by_cases hcs : cs = cs'
      · subst hcs
        exact Or.inr (Or.inl ⟨rfl, Function.update_self _ _ _⟩)
      · exact Or.inl (Function.update_of_ne hcs _ _)
    · cases h
  | call cs' =>
    by_cases hcs : cs = cs'
    · subst hcs
      exact Or.inr (Or.inr ⟨rfl, h⟩)
    · exact Or.inl (stepCall_calls hcs h)
  | cancel cs' =>
    cases h
    exact Or.inl rfl
  | die cs' | event uris =>
    simp only [step] at h
    split at h <;> cases h
    exact Or.inl rfl
  | finder => exact Or.inl (congrFun (stepFinder_calls h) cs)
  | goroutine i =>
    obtain ⟨g, -, hstep⟩ := Option.bind_eq_some_iff.mp h
    exact Or.inl (congrFun (stepGoroutine_calls hstep) cs)
  | stream i | fail i =>
    obtain ⟨g, -, hstep⟩ := Option.bind_eq_some_iff.mp h
    split at hstep <;> cases hstep
    exact Or.inl rfl

end Slots

/-- The call of `Subscribe` for the consumer has loaded the slot and found `state` in it. -/
def Loaded (n cs i : Nat) (state : Option Nat) : List Action → Prop :=
  Happened step (newGRPCConnector n) (fun _ s a =>
    a = .call cs ∧ s.calls cs = .load i ∧ s.consumerStates[i]? = some state)

/-- The slot that the call looks at is not free: the consumer in it is not dead, or another one
has taken it since it was loaded. -/
def State.Occupied (n : Nat) (as : List Action) (s : State) (cs i : Nat) : Prop :=
  (∃ state, s.calls cs = .loadDead i state ∧ s.consumerStates[i]? = some (some state) ∧
    (s.consumers state).dead = false) ∨
  (∃ state other, s.calls cs = .compareAndSwap i state ∧ Loaded n cs i state as ∧
    s.consumerStates[i]? = some (some other) ∧ some other ≠ state)

/-- The call has looked at the slot and found it occupied. -/
def Passed (n cs i : Nat) : List Action → Prop :=
  Happened step (newGRPCConnector n) (fun as s a => a = .call cs ∧ s.Occupied n as cs i)

/-- There is a consumer in the slot. -/
def State.Taken (st : State) (i : Nat) : Prop :=
  ∃ cs, st.consumerStates[i]? = some (some cs)

/-- What the call of `Subscribe` for a consumer has met, by the operation that comes next. -/
def SearchedBy (n : Nat) (as : List Action) (st : State) (cs : Nat) : Call → Prop
  | .idle => True
  | .load i => ∀ j < i, Passed n cs j as
  | .loadDead i state => (∀ j < i, Passed n cs j as) ∧ i < n ∧ Loaded n cs i (some state) as ∧
      st.Taken i ∧
      ((st.consumers state).dead = false → st.consumerStates[i]? = some (some state))
  | .compareAndSwap i state => (∀ j < i, Passed n cs j as) ∧ i < n ∧ Loaded n cs i state as ∧
      (state ≠ none → st.Taken i) ∧ ∀ c ∈ state, (st.consumers c).dead = true
  | .spawn | .returned =>
      (st.consumers cs).dead = false → ∃ i : Nat, st.consumerStates[i]? = some (some cs)
  | .failed => ∀ j < n, Passed n cs j as

structure Searched (n : Nat) (as : List Action) (st : State) : Prop where
  length : st.consumerStates.length = n
  call : ∀ cs, SearchedBy n as st cs (st.calls cs)

section Searched

variable {n : Nat} {as : List Action} {st st' : State} {a : Action}

theorem searched_initial (n : Nat) : Searched n [] (newGRPCConnector n) :=
  ⟨List.length_replicate, fun _ => trivial⟩

/-- A slot whose consumer is not dead is not overwritten. -/
theorem Searched.keeps_live (hs : Searched n as st) (h : step st a = some st') {i cs : Nat}
    (hslot : st.consumerStates[i]? = some (some cs)) (hdead : (st.consumers cs).dead = false) :
    st'.consumerStates[i]? = some (some cs) := by
  rcases slots_step h with heq | ⟨cs', j, state, -, hcall, hold, hset⟩
  · rw [heq, hslot]
  · have hne : j ≠ i := by
      rintro rfl
      rw [hold] at hslot
      cases hslot
      have hby := hs.call cs'
      rw [hcall] at hby
      obtain ⟨-, -, -, -, hstate⟩ := hby
      rw [hstate cs rfl] at hdead
      cases hdead
    rw [hset, List.getElem?_set_ne hne, hslot]

theorem taken_step (h : step st a = some st') {i : Nat} (ht : st.Taken i) : st'.Taken i := by
  obtain ⟨cs, hslot⟩ := ht
  rcases slots_step h with heq | ⟨cs', j, state, -, -, hold, hset⟩
  · exact ⟨cs, by rw [heq, hslot]⟩
  · by_cases hij : j = i
    · subst hij
      exact ⟨cs', by rw [hset, List.getElem?_set_self (List.getElem?_eq_some_iff.mp hold).1]⟩
    · exact ⟨cs, by rw [hset, List.getElem?_set_ne hij, hslot]⟩

theorem alive_of_step (h : step st a = some st') {cs : Nat}
    (hdead : (st'.consumers cs).dead = false) : (st.consumers cs).dead = false := by
  cases hold : (st.consumers cs).dead with
  | false => rfl
  | true => rw [dead_step h hold] at hdead; cases hdead

/-- What a call has met stays true while others go on. -/
theorem Searched.call_mono (hs : Searched n as st) (h : step st a = some st') (cs : Nat)
    (call : Call) (hcall : SearchedBy n as st cs call) :
    SearchedBy n (as ++ [a]) st' cs call := by
  have hpassed : ∀ k, (∀ j < k, Passed n cs j as) → ∀ j < k, Passed n cs j (as ++ [a]) :=
    fun k hk j hj => (hk j hj).concat a
  cases call with
  | idle => trivial
  | load i => exact hpassed i hcall
  | loadDead i state =>
    obtain ⟨hpass, hi, hload, htaken, hslot⟩ := hcall
    refine ⟨hpassed i hpass, hi, hload.concat a, taken_step h htaken, ?_⟩
    intro hdead
    have halive := alive_of_step h hdead
    exact hs.keeps_live h (hslot halive) halive
  | compareAndSwap i state =>
    obtain ⟨hpass, hi, hload, htaken, hdead⟩ := hcall
    exact ⟨hpassed i hpass, hi, hload.concat a, fun hne => taken_step h (htaken hne),
      fun c hc => dead_step h (hdead c hc)⟩
  | spawn | returned =>
    intro hdead
    have halive := alive_of_step h hdead
    obtain ⟨i, hslot⟩ := hcall halive
    exact ⟨i, hs.keeps_live h hslot halive⟩
  | failed => exact hpassed n hcall

theorem State.setCall_self (st : State) (cs : Nat) (call : Call) :
    (st.setCall cs call).calls cs = call := Function.update_self ..

/-- A slot that is passed has been found occupied. -/
theorem passed_succ {cs i : Nat} (hrun : run step (newGRPCConnector n) as = some st)
    (hpass : ∀ j < i, Passed n cs j as) (hocc : st.Occupied n as cs i) :
    ∀ j < i + 1, Passed n cs j (as ++ [.call cs]) := by
  intro j hj
  rcases Nat.lt_succ_iff_lt_or_eq.mp hj with hlt | rfl
  · exact (hpass j hlt).concat _
  · exact Happened.last hrun ⟨rfl, hocc⟩

/-- The next operation of the call. -/
theorem Searched.stepCall (hs : Searched n as st)
    (hrun : run step (newGRPCConnector n) as = some st) {cs : Nat} (h : st.stepCall cs = some st') :
    SearchedBy n (as ++ [.call cs]) st' cs (st'.calls cs) := by
  have hstep : step st (.call cs) = some st' := h
  have hby := hs.call cs
  have hmono := hs.call_mono hstep cs
  unfold State.stepCall at h
  cases hcall : st.calls cs with
  | idle | returned | failed => rw [hcall] at h; cases h
  | load i =>
    rw [hcall] at hby
    have hload : ∀ state, st.consumerStates[i]? = some state →
        i < n ∧ Loaded n cs i state (as ++ [.call cs]) := by
      intro state hslot
      exact ⟨hs.length ▸ (List.getElem?_eq_some_iff.mp hslot).1,
        Happened.last hrun ⟨rfl, hcall, hslot⟩⟩
    simp only [hcall] at h
    split at h
    · next hslot =>
      cases h
      rw [State.setCall_self]
      have hn : n ≤ i := hs.length ▸ List.getElem?_eq_none_iff.mp hslot
      exact fun j hj => hmono (.load i) hby j (hj.trans_le hn)
    · next hslot =>
      cases h
      rw [State.setCall_self]
      exact ⟨hmono (.load i) hby, (hload _ hslot).1, (hload _ hslot).2, fun hne => absurd rfl hne,
        by simp⟩
    · next state hslot =>
      cases h
      rw [State.setCall_self]
      exact ⟨hmono (.load i) hby, (hload _ hslot).1, (hload _ hslot).2, ⟨state, hslot⟩,
        fun _ => hslot⟩
  | loadDead i state =>
    rw [hcall] at hby
    obtain ⟨hpass, hi, hload, htaken, hslot⟩ := hby
    simp only [hcall] at h
    split at h
    · next hdead =>
      cases h
      rw [State.setCall_self]
      refine ⟨hmono (.load i) hpass, hi, hload.concat _, fun _ => htaken, ?_⟩
      intro c hc
      cases hc
      exact hdead
    · next hdead =>
      cases h
      rw [State.setCall_self]
      have halive : (st.consumers state).dead = false := by simpa using hdead
      exact passed_succ hrun hpass (Or.inl ⟨state, hcall, hslot halive, halive⟩)
  | compareAndSwap i state =>
    rw [hcall] at hby
    obtain ⟨hpass, hi, hload, htaken, hdead⟩ := hby
    simp only [hcall] at h
    split at h
    · next hslot =>
      cases h
      rw [State.setCall_self]
      intro _
      exact ⟨i, List.getElem?_set_self (List.getElem?_eq_some_iff.mp hslot).1⟩
    · next hslot =>
      cases h
      rw [State.setCall_self]
      obtain ⟨slot, hnow⟩ : ∃ slot, st.consumerStates[i]? = some slot :=
        ⟨_, List.getElem?_eq_getElem (hs.length ▸ hi)⟩
      -- a slot that was empty and changed, or one that had a consumer, has a consumer
      have hother : ∃ other, st.consumerStates[i]? = some (some other) := by
        cases state with
        | some c => exact htaken (by simp)
        | none =>
          cases slot with
          | none => exact absurd hnow hslot
          | some other => exact ⟨other, hnow⟩
      obtain ⟨other, hother⟩ := hother
      refine passed_succ hrun hpass (Or.inr ⟨state, other, hcall, hload, hother, ?_⟩)
      rintro rfl
      exact hslot hother
  | spawn =>
    rw [hcall] at hby
    simp only [hcall] at h
    split at h
    · cases h
      rw [State.setCall_self]
      exact hby
    · cases h

theorem searched_step (hrun : run step (newGRPCConnector n) as = some st)
    (hs : Searched n as st) (h : step st a = some st') : Searched n (as ++ [a]) st' := by
  constructor
  · rcases slots_step h with heq | ⟨cs, i, state, -, -, -, hset⟩
    · rw [heq, hs.length]
    · rw [hset, List.length_set, hs.length]
  · intro cs
    rcases calls_step h cs with heq | ⟨rfl, hnew⟩ | ⟨rfl, hcall⟩
    · rw [heq]
      exact hs.call_mono h cs _ (hs.call cs)
    · rw [hnew]
      exact fun j hj => absurd hj (Nat.not_lt_zero j)
    · exact hs.stepCall hrun hcall

end Searched

/-- In every run, at most one goroutine of a consumer is between a successful `tryAddDoppler` and
the `forgetDoppler` for a URI. No action overwrites the slot of a consumer that is not dead, so
an accepted consumer stays in its slot until then, and a call of `Subscribe` fails only after it
has found every slot occupied. -/
theorem no_duplicate_streams {n : Nat} {as : List Action} {st : State}
    (hrun : run step (newGRPCConnector n) as = some st) :
    (∀ (i j : Nat) (g g' : Goroutine), st.goroutines[i]? = some g → st.goroutines[j]? = some g' →
      g.consumer = g'.consumer → st.uri g = st.uri g' → g.pc.Holding → g'.pc.Holding → i = j) ∧
    (∀ a st', step st a = some st' → ∀ i cs : Nat, st.consumerStates[i]? = some (some cs) →
      (st.consumers cs).dead = false → st'.consumerStates[i]? = some (some cs)) ∧
    (∀ cs, (st.calls cs).Stored → (st.consumers cs).dead = false →
      ∃ i : Nat, st.consumerStates[i]? = some (some cs)) ∧
    (∀ cs, st.calls cs = .failed → ∀ i < n, Passed n cs i as) := by
  have hx : Exclusive st := run_invariant (P := fun _ => Exclusive) (exclusive_initial n)
    (fun _ _ _ _ _ hx hstep => exclusive_step hx hstep) hrun
  have hs : Searched n as st := run_invariant (searched_initial n)
    (fun _ _ _ _ hrun hs hstep => searched_step hrun hs hstep) hrun
  refine ⟨hx.alone, ?_, ?_, ?_⟩
  · intro a st' hstep i cs hslot hdead
    exact hs.keeps_live hstep hslot hdead
  · intro cs hstored hdead
    have hby := hs.call cs
    rcases hstored with hcall | hcall <;> rw [hcall] at hby <;> exact hby hdead
  · intro cs hcall
    have hby := hs.call cs
    rw [hcall] at hby
    exact hby

/-- Two consumers compete for the only slot. The goroutine that the first one is given by the
finder holds the doppler when the one that its own call has started asks for it. -/
def competingConsumers : List Action :=
  [.subscribe 0, .call 0, .subscribe 1, .call 1, .call 0, .call 1, .call 1,
   .event [doppler], .finder, .finder, .finder, .finder, .finder, .finder, .call 0,
   .goroutine 0, .goroutine 1]

theorem competingConsumers_exclusive :
    ∃ st, run step (newGRPCConnector 1) competingConsumers = some st ∧
      st.goroutines = [⟨0, 0, .addRef⟩, ⟨0, 0, .returned⟩] ∧
      Passed 1 1 0 competingConsumers := by
  have hrun : (run step (newGRPCConnector 1) competingConsumers).map
      (fun st => (st.goroutines, st.calls 1)) =
      some ([⟨0, 0, .addRef⟩, ⟨0, 0, .returned⟩], .failed) := by decide
  obtain ⟨st, hst, hfinal⟩ := Option.map_eq_some_iff.mp hrun
  simp only [Prod.mk.injEq] at hfinal
  exact ⟨st, hst, hfinal.1, (no_duplicate_streams hst).2.2.2 1 hfinal.2 0 Nat.one_pos⟩

end Loggregator.Plumbing.GrpcConnector
