import Loggregator.Plumbing.PoolEntries

/-!
# Every consumer reads from every doppler

A consumer is covered from two sides: `Subscribe` starts a goroutine for every client in the
list, and `handleFinderEvent` starts one for every consumer in a slot. Coverage is lost where a
doppler is advertised again: the event only resets `disconnect`, while a goroutine may already
have read the flag and be on its way out, or may have left. It is also lost when a goroutine of
an earlier client of the URI still holds the URI in the set of the consumer. `ok` excludes both.
-/

namespace Loggregator.Plumbing.GrpcConnector

open Lib

/-- `Subscribe` has returned and the context is not done. -/
def State.Live (st : State) (cs : Nat) : Prop :=
  st.calls cs = .returned ∧ (st.consumers cs).done = false

/-- A goroutine for the consumer and the client has been started and has not decided to
return. -/
def State.Attended (st : State) (cs client : Nat) : Prop :=
  ∃ g ∈ st.goroutines, g.consumer = cs ∧ g.client = client ∧ g.pc ≠ .deferred ∧
    g.pc ≠ .returned

instance (st : State) (cs : Nat) : Decidable (st.Live cs) := inferInstanceAs (Decidable (_ ∧ _))

instance (st : State) (cs client : Nat) : Decidable (st.Attended cs client) :=
  inferInstanceAs (Decidable (∃ g ∈ st.goroutines, _))

/-- No goroutine is between its start and its first operation, or between the decision to
return and the end of its deferred block. -/
@[mk_iff]
structure Quiescent (st : State) : Prop where
  finder : st.Unlocked
  started : ∀ g ∈ st.goroutines, g.pc ≠ .tryAddDoppler
  leaving : ∀ g ∈ st.goroutines, g.pc ≠ .deferred

instance (st : State) : Decidable (Quiescent st) :=
  decidable_of_iff' _ (quiescent_iff st)

/-- Every live consumer has a goroutine in its loop for every client that is not to be
disconnected. -/
def State.Covered (st : State) : Prop :=
  ∀ cs, st.Live cs → ∀ client ∈ st.clients, (st.infos client).disconnect = false →
    ∃ g ∈ st.goroutines, g.consumer = cs ∧ g.client = client ∧ g.pc.Running

/-- No goroutine of a consumer whose context is not done is leaving the client, and every live
consumer still has one for it. -/
def State.Kept (st : State) (client : Nat) : Prop :=
  (∀ g ∈ st.goroutines, g.client = client → (st.consumers g.consumer).done = false →
    g.pc ≠ .deferred) ∧
  (∀ slot ∈ st.consumerStates, ∀ cs ∈ slot, st.Live cs → st.Attended cs client)

instance (st : State) (client : Nat) : Decidable (st.Kept client) :=
  inferInstanceAs (Decidable (_ ∧ _))

/-- A doppler is advertised again only while all keep to its client. -/
def Readvertised (st : State) : Action → Prop
  | .event uris => ∀ client ∈ st.clients, (st.infos client).disconnect →
      (st.infos client).uri ∈ uris → st.Kept client
  | _ => True

/-- The conditions under which no subscription is lost. -/
def ok (st : State) (a : Action) : Prop :=
  Orderly (fun done => done = false) st a ∧ Readvertised st a

instance (st : State) : ∀ a : Action, Decidable (Readvertised st a)
  | .event uris => inferInstanceAs (Decidable (∀ client ∈ st.clients,
      (st.infos client).disconnect → (st.infos client).uri ∈ uris → st.Kept client))
  | .subscribe _ | .call _ | .cancel _ | .die _ | .finder | .goroutine _ | .stream _
  | .fail _ => isTrue trivial

instance (st : State) (a : Action) : Decidable (ok st a) := inferInstanceAs (Decidable (_ ∧ _))

/-! ## Consumers and slots -/

/-- The consumer is in a slot from the given one on. -/
def State.InSlot (st : State) (cs i : Nat) : Prop :=
  ∃ j, i ≤ j ∧ st.consumerStates[j]? = some (some cs)

/-- `dead` and what has been read from it imply that the context is done, and a consumer that
`Subscribe` has stored stays in its slot until then. -/
structure Noted (st : State) : Prop where
  dead : ∀ cs, (st.consumers cs).dead → (st.consumers cs).done
  read : ∀ g ∈ st.goroutines, ∀ tried, g.pc = .loadDisconnect tried true →
    (st.consumers g.consumer).done
  swap : ∀ cs i state, st.calls cs = .compareAndSwap i (some state) → (st.consumers state).done
  stored : ∀ cs, (st.calls cs).Stored → (st.consumers cs).done = false → st.InSlot cs 0

section Noted

variable {st st' : State}

theorem noted_initial (n : Nat) : Noted (newGRPCConnector n) := by
  refine ⟨nofun, nofun, nofun, ?_⟩
  intro cs hcall
  rcases hcall with h | h <;> cases h

variable (hn : Noted st)
include hn

/-- What changes neither the consumers' flags nor the calls and slots. -/
theorem Noted.frame
    (hconsumers : ∀ cs, (st'.consumers cs).done = (st.consumers cs).done ∧
      (st'.consumers cs).dead = (st.consumers cs).dead) (hcalls : st'.calls = st.calls)
    (hslots : st'.consumerStates = st.consumerStates)
    (hread : ∀ g ∈ st'.goroutines, g ∈ st.goroutines ∨ ∀ tried,
      g.pc = .loadDisconnect tried true → (st.consumers g.consumer).done) : Noted st' := by
  refine ⟨?_, ?_, ?_, ?_⟩
  · intro cs hdead
    rw [(hconsumers cs).2] at hdead
    rw [(hconsumers cs).1]
    exact hn.dead cs hdead
  · intro g hg tried hpc
    rw [(hconsumers g.consumer).1]
    rcases hread g hg with hold | hnew
    · exact hn.read g hold tried hpc
    · exact hnew tried hpc
  · intro cs i state hcall
    rw [(hconsumers state).1]
    exact hn.swap cs i state (hcalls ▸ hcall)
  · intro cs hcall hdone
    rw [(hconsumers cs).1] at hdone
    simp only [State.InSlot, hslots]
    exact hn.stored cs (hcalls ▸ hcall) hdone

theorem Noted.same (hconsumers : st'.consumers = st.consumers) (hcalls : st'.calls = st.calls)
    (hslots : st'.consumerStates = st.consumerStates)
    (hgoroutines : st'.goroutines = st.goroutines) : Noted st' :=
  hn.frame (fun _ => by rw [hconsumers]; exact ⟨rfl, rfl⟩) hcalls hslots
    (fun _ hg => Or.inl (hgoroutines ▸ hg))

theorem Noted.addRef (client : Nat) (n : Int) : Noted (st.addRef client n) :=
  hn.same rfl rfl rfl rfl

/-- A goroutine goes on to an operation that does not rest on `dead`. -/
theorem Noted.goto (i : Nat) (g : Goroutine) (pc : Pc)
    (hread : ∀ tried, pc = .loadDisconnect tried true → (st.consumers g.consumer).done) :
    Noted (st.goto i g pc) := by
  refine hn.frame (fun _ => ⟨rfl, rfl⟩) rfl rfl ?_
  intro g' hg'
  rcases List.mem_or_eq_of_mem_set hg' with hold | rfl
  · exact Or.inl hold
  · exact Or.inr hread

/-- A context that is done stays so, and `dead` is set only then. -/
theorem Noted.modifyConsumer (cs : Nat) (f : ConsumerState → ConsumerState)
    (hf : ∀ c, c.done → (f c).done)
    (hdead : (f (st.consumers cs)).dead → (f (st.consumers cs)).done) :
    Noted (st.modifyConsumer cs f) := by
  have hdone : ∀ c, (st.consumers c).done → ((st.modifyConsumer cs f).consumers c).done :=
    (Frame.modifyConsumer cs f hf).done
  refine ⟨?_, fun g hg tried hpc => hdone _ (hn.read g hg tried hpc),
    fun cs' i state hcall => hdone _ (hn.swap cs' i state hcall), ?_⟩
  · intro c
    simp only [State.modifyConsumer, Function.update_apply]
    split
    · exact hdead
    · exact hn.dead c
  · intro c hcall hlive
    refine hn.stored c hcall (Bool.eq_false_iff.mpr fun hold => ?_)
    rw [hdone c hold] at hlive
    cases hlive

/-- A call of `Subscribe` goes on. -/
theorem Noted.setCall {cs : Nat} {call : Call}
    (hswap : ∀ i state, call = .compareAndSwap i (some state) → (st.consumers state).done)
    (hstored : call.Stored → (st.consumers cs).done = false → st.InSlot cs 0) :
    Noted (st.setCall cs call) := by
  refine ⟨hn.dead, hn.read, ?_, ?_⟩
  · intro cs' i state hcall
    simp only [State.setCall, Function.update_apply] at hcall
    split at hcall
    · exact hswap i state hcall
    · exact hn.swap cs' i state hcall
  · intro cs' hcall
    simp only [State.setCall, Function.update_apply] at hcall
    split at hcall
    · next hcs =>
      subst hcs
      exact hstored hcall
    · exact hn.stored cs' hcall

/-- A slot that is overwritten held no consumer, or one whose context is done. -/
theorem Noted.inSlot_set {cs cs' i k : Nat} {state : Option Nat}
    (hcall : st.calls cs' = .compareAndSwap i state) (hslot : st.consumerStates[i]? = some state)
    (hdone : (st.consumers cs).done = false) (h : st.InSlot cs k) :
    ∃ j, k ≤ j ∧ (st.consumerStates.set i (some cs'))[j]? = some (some cs) := by
  obtain ⟨j, hj, hin⟩ := h
  refine ⟨j, hj, ?_⟩
  have hne : i ≠ j := by
    rintro rfl
    rw [hslot] at hin
    cases hin
    rw [hn.swap cs' i cs hcall] at hdone
    cases hdone
  rwa [List.getElem?_set_ne hne]

theorem noted_step {a : Action} (h : step st a = some st') : Noted st' := by
  cases step_cases h with
  | search hold hnew hdead =>
    exact hn.setCall (fun i state hcall => hn.dead state (hdead i state hcall))
      (fun hstored => absurd hstored hnew)
  | @swap cs i state hcall hslot =>
    have hslots : Noted { st with consumerStates := st.consumerStates.set i (some cs) } :=
      ⟨hn.dead, hn.read, hn.swap, fun cs' hstored hdone =>
        hn.inSlot_set hcall hslot hdone (hn.stored cs' hstored hdone)⟩
    exact hslots.setCall nofun (fun _ _ =>
      ⟨i, Nat.zero_le i, List.getElem?_set_self (List.getElem?_eq_some_iff.mp hslot).1⟩)
  | @spawn cs hcall hlock =>
    have hspawned : Noted { st with
        goroutines := st.goroutines ++
          st.clients.map (fun client => Goroutine.mk cs client .tryAddDoppler) } := by
      refine hn.frame (fun _ => ⟨rfl, rfl⟩) rfl rfl ?_
      intro g hg
      refine (List.mem_append.mp hg).imp_right ?_
      intro hnew
      obtain ⟨client, -, rfl⟩ := List.mem_map.mp hnew
      nofun
    exact hspawned.setCall nofun (fun _ => hn.stored cs (Or.inl hcall))
  | cancel => exact hn.modifyConsumer _ _ (fun _ _ => rfl) (fun _ => rfl)
  | die hdone => exact hn.modifyConsumer _ _ (fun _ => id) (fun _ => hdone)
  | event | register | registered | scanned | skip | load => exact hn.same rfl rfl rfl rfl
  | loadDead =>
    refine hn.frame (fun _ => ⟨rfl, rfl⟩) rfl rfl ?_
    intro g hg
    refine (List.mem_append.mp hg).imp_right ?_
    intro hnew
    split at hnew
    · cases hnew
    · simp [List.mem_singleton.mp hnew]
  | disable =>
    unfold State.disableClient
    split
    · exact hn.same rfl rfl rfl rfl
    · exact hn.same rfl rfl rfl rfl
  | handled => exact hn.same rfl rfl rfl rfl
  | @added i g =>
    exact (hn.goto i g .addRef (by simp)).modifyConsumer _ _ (fun _ => id) (hn.dead _)
  | @refused i g => exact hn.goto i g .returned (by simp)
  | @addRef i g =>
    exact (hn.goto i g (.loadDead false) (by simp)).addRef g.client 1
  | @run a i g pc hg hold hnew hdead =>
    exact hn.goto i g pc (fun tried hpc => hn.dead _ (hdead tried hpc))
  | @leave i g => exact hn.goto i g .deferred (by simp)
  | @release i g =>
    have hgone := (hn.goto i g .returned (by simp)).addRef g.client (-1)
    have hdrop : Noted (st.dropRef i g) :=
      hgone.modifyConsumer g.consumer
        (fun cs => { cs with dopplers := cs.dopplers.erase (st.uri g) }) (fun _ => id)
        (hgone.dead _)
    unfold State.release
    split
    · exact hdrop.same rfl rfl rfl rfl
    · exact hdrop

end Noted

/-! ## The sets of dopplers -/

/-- Some goroutine of the consumer has added the URI and not forgotten it yet. -/
def State.Held (st : State) (cs : Nat) (uri : GoString) : Prop :=
  ∃ g ∈ st.goroutines, g.consumer = cs ∧ st.uri g = uri ∧ g.pc.Holding

def Holders (st : State) : Prop := ∀ cs, ∀ uri ∈ (st.consumers cs).dopplers, st.Held cs uri

section Holders

variable {st st' : State}

/-- The sets do not grow and the goroutines go on. -/
theorem Holders.frame (hh : Holders st)
    (hdopplers : ∀ cs, (st'.consumers cs).dopplers ⊆ (st.consumers cs).dopplers)
    (hheld : ∀ cs, ∀ uri ∈ (st'.consumers cs).dopplers, st.Held cs uri → st'.Held cs uri) :
    Holders st' :=
  fun cs uri huri => hheld cs uri huri (hh cs uri (hdopplers cs huri))

theorem State.Held.mono {cs : Nat} {uri : GoString} (h : st.Held cs uri)
    (hgoroutines : st.goroutines ⊆ st'.goroutines)
    (huri : ∀ g ∈ st.goroutines, st'.uri g = st.uri g) : st'.Held cs uri := by
  obtain ⟨g, hg, hcs, hu, hpc⟩ := h
  exact ⟨g, hgoroutines hg, hcs, (huri g hg).trans hu, hpc⟩

theorem State.Held.goto {cs i : Nat} {uri : GoString} {g : Goroutine} {pc : Pc}
    (h : st.Held cs uri) (hg : st.goroutines[i]? = some g)
    (hpc : g.consumer = cs → st.uri g = uri → g.pc.Holding → pc.Holding) :
    (st.goto i g pc).Held cs uri :=
  exists_mem_set hg h (fun hQ => ⟨hQ.1, hQ.2.1, hpc hQ.1 hQ.2.1 hQ.2.2⟩)

/-- The sets are the same and no goroutine goes on. -/
theorem Holders.keep (hh : Holders st)
    (hdopplers : ∀ cs, (st'.consumers cs).dopplers = (st.consumers cs).dopplers)
    (hgoroutines : st.goroutines ⊆ st'.goroutines)
    (huri : ∀ g ∈ st.goroutines, st'.uri g = st.uri g) : Holders st' :=
  hh.frame (fun cs => (hdopplers cs).subset) (fun _ _ _ h => h.mono hgoroutines huri)

theorem modifyConsumer_dopplers (cs : Nat) {f : ConsumerState → ConsumerState}
    (hf : ∀ c, (f c).dopplers = c.dopplers) (cs' : Nat) :
    ((st.modifyConsumer cs f).consumers cs').dopplers = (st.consumers cs').dopplers := by
  simp only [State.modifyConsumer, Function.update_apply]
  split
  · next h => rw [hf, h]
  · rfl

theorem holders_step {a : Action} (hh : Holders st)
    (hheld : ∀ g ∈ st.goroutines, g.client < st.nextClient) (h : step st a = some st') :
    Holders st' := by
  cases step_cases h with
  | search | swap => exact hh.keep (fun _ => rfl) (List.Subset.refl _) (fun _ _ => rfl)
  | spawn => exact hh.keep (fun _ => rfl) (List.subset_append_left _ _) (fun _ _ => rfl)
  | @cancel cs | @die cs =>
    exact hh.keep (modifyConsumer_dopplers cs (fun _ => rfl)) (List.Subset.refl _)
      (fun _ _ => rfl)
  | @event uris =>
    exact hh.keep (fun _ => rfl) (List.Subset.refl _)
      (fun g _ => delta_uri st.infos st.clients uris g.client)
  | register =>
    refine hh.keep (fun _ => rfl) (List.Subset.refl _) ?_
    intro g hg
    simp only [State.uri, State.registerDoppler, Function.update_of_ne (hheld g hg).ne]
  | registered | scanned | skip | load =>
    exact hh.keep (fun _ => rfl) (List.Subset.refl _) (fun _ _ => rfl)
  | loadDead => exact hh.keep (fun _ => rfl) (List.subset_append_left _ _) (fun _ _ => rfl)
  | @disable e client deadClients =>
    have huri := st.modifyInfo_uri client (f := fun info => { info with disconnect := true })
      (fun _ => rfl)
    unfold State.disableClient
    split
    · exact hh.keep (fun _ => rfl) (List.Subset.refl _) (fun g _ => huri g.client)
    · exact hh.keep (fun _ => rfl) (List.Subset.refl _) (fun g _ => huri g.client)
  | handled => exact hh.keep (fun _ => rfl) (List.Subset.refl _) (fun _ _ => rfl)
  | @added i g hg hpc hnew =>
    intro cs uri huri
    have hlt := (List.getElem?_eq_some_iff.mp hg).1
    by_cases hself : cs = g.consumer ∧ uri = st.uri g
    · obtain ⟨rfl, rfl⟩ := hself
      exact ⟨{ g with pc := .addRef }, List.mem_set hlt _, rfl, rfl, by simp [Pc.Holding]⟩
    · have hold : uri ∈ (st.consumers cs).dopplers := by
        simp only [State.modifyConsumer, State.goto, Function.update_apply] at huri
        split at huri
        · next hcs =>
          subst hcs
          exact (Finset.mem_insert.mp huri).resolve_left (fun heq => hself ⟨rfl, heq⟩)
        · exact huri
      exact (hh cs uri hold).goto hg (fun _ _ hhold => absurd hpc hhold.1)
  | @refused i g hg hpc =>
    refine hh.frame (fun _ => Finset.Subset.refl _) ?_
    intro cs uri _ hold
    exact hold.goto hg (fun _ _ hhold => absurd hpc hhold.1)
  | @addRef i g hg hpc =>
    refine hh.frame (fun _ => Finset.Subset.refl _) ?_
    intro cs uri _ hold
    have hgo : (st.goto i g (.loadDead false)).Held cs uri :=
      hold.goto hg (fun _ _ _ => by decide)
    exact hgo.mono (List.Subset.refl _) (fun g' _ => (st.addRef_same g.client 1 g'.client).1)
  | @run a i g pc hg hold hnew =>
    refine hh.frame (fun _ => Finset.Subset.refl _) ?_
    intro cs uri _ hcov
    exact hcov.goto hg (fun _ _ _ => hnew.holding)
  | @leave i g hg =>
    refine hh.frame (fun _ => Finset.Subset.refl _) ?_
    intro cs uri _ hcov
    exact hcov.goto hg (fun _ _ _ => by decide)
  | @release i g hg hpc =>
    have hdrop : Holders (st.dropRef i g) := by
      intro cs uri huri
      simp only [State.dropRef, State.modifyConsumer, Function.update_apply] at huri
      have hold : uri ∈ (st.consumers cs).dopplers ∧ ¬ (g.consumer = cs ∧ st.uri g = uri) := by
        split at huri
        · next hcs =>
          subst hcs
          rw [Finset.mem_erase] at huri
          exact ⟨huri.2, fun heq => huri.1 heq.2.symm⟩
        · next hcs => exact ⟨huri, fun heq => hcs heq.1.symm⟩
      have hgo : (st.goto i g .returned).Held cs uri :=
        (hh cs uri hold.1).goto hg (fun hcs hu => absurd ⟨hcs, hu⟩ hold.2)
      exact hgo.mono (List.Subset.refl _)
        (fun g' _ => (st.addRef_same g.client (-1) g'.client).1)
    unfold State.release
    split
    · exact hdrop.keep (fun _ => rfl) (List.Subset.refl _) (fun _ _ => rfl)
    · exact hdrop

end Holders

/-! ## Coverage -/

/-- The scan of `handleFinderEvent` for the client has not come to the consumer yet. -/
def State.Awaits (st : State) (cs client : Nat) : Prop :=
  match st.finder with
  | .load _ c i => c = client ∧ st.InSlot cs i
  | .loadDead _ c i state => c = client ∧ (state = cs ∨ st.InSlot cs (i + 1))
  | _ => False

/-- A client is due for a consumer when it is in the list and not to be disconnected. -/
def State.Due (st : State) (client : Nat) : Prop :=
  client ∈ st.clients ∧ (st.infos client).disconnect = false

/-- No goroutine leaves a client that is due, and every live consumer has a goroutine for it or
will be given one by the scan. -/
structure Covering (st : State) : Prop where
  staying : ∀ g ∈ st.goroutines, (st.consumers g.consumer).done = false → st.Due g.client →
    g.pc ≠ .deferred
  covered : ∀ cs, st.Live cs → ∀ client, st.Due client →
    st.Attended cs client ∨ st.Awaits cs client

section Covering

variable {st st' : State}

theorem covering_initial (n : Nat) : Covering (newGRPCConnector n) :=
  ⟨nofun, fun _ hlive => nomatch hlive.1⟩

/-- Where the scan is over, coverage is what it should be. -/
theorem Covering.quiescent (hc : Covering st) (hq : Quiescent st) : st.Covered := by
  intro cs hlive client hclient hdis
  rcases hc.covered cs hlive client ⟨hclient, hdis⟩ with ⟨g, hg, hcs, hcl, hdef, hret⟩ | hwait
  · exact ⟨g, hg, hcs, hcl, hq.started g hg, hdef, hret⟩
  · rw [State.Awaits, hq.finder] at hwait
    exact hwait.elim

/-- No consumer becomes live and no client becomes due. -/
theorem Covering.frame (hc : Covering st) (hlive : ∀ cs, st'.Live cs → st.Live cs)
    (hdone : ∀ cs, (st'.consumers cs).done = false → (st.consumers cs).done = false)
    (hdue : ∀ client, st'.Due client → st.Due client)
    (hstay : ∀ g ∈ st'.goroutines, (st.consumers g.consumer).done = false → st.Due g.client →
      g ∈ st.goroutines ∨ g.pc ≠ .deferred)
    (hcov : ∀ cs, st.Live cs → ∀ client, st.Due client →
      st.Attended cs client ∨ st.Awaits cs client →
      st'.Attended cs client ∨ st'.Awaits cs client) : Covering st' := by
  constructor
  · intro g hg hcs hclient
    rcases hstay g hg (hdone _ hcs) (hdue _ hclient) with hold | hnew
    · exact hc.staying g hold (hdone _ hcs) (hdue _ hclient)
    · exact hnew
  · intro cs hcs client hclient
    exact hcov cs (hlive cs hcs) client (hdue client hclient)
      (hc.covered cs (hlive cs hcs) client (hdue client hclient))

variable {g : Goroutine} {i : Nat}

theorem State.Attended.goto {cs client : Nat} {pc : Pc} (h : st.Attended cs client)
    (hg : st.goroutines[i]? = some g)
    (hpc : g.consumer = cs → g.client = client → g.pc ≠ .deferred →
      pc ≠ .deferred ∧ pc ≠ .returned) : (st.goto i g pc).Attended cs client :=
  exists_mem_set hg h (fun hQ => ⟨hQ.1, hQ.2.1, hpc hQ.1 hQ.2.1 hQ.2.2.1⟩)

variable (hc : Covering st)
include hc

/-- A goroutine goes on, and it does not leave a client that is due. -/
theorem Covering.goto {pc : Pc} (hg : st.goroutines[i]? = some g)
    (hstay : (st.consumers g.consumer).done = false → st.Due g.client → pc ≠ .deferred)
    (hcov : ∀ cs, st.Live cs → g.consumer = cs → st.Due g.client → g.pc ≠ .deferred →
      (st.goto i g pc).Attended cs g.client) : Covering (st.goto i g pc) := by
  refine hc.frame (fun _ => id) (fun _ => id) (fun _ => id) ?_ ?_
  · intro g' hg' hdone hdue
    rcases List.mem_or_eq_of_mem_set hg' with hold | rfl
    · exact Or.inl hold
    · exact Or.inr (hstay hdone hdue)
  · intro cs hlive client hdue
    apply Or.imp_left
    intro hatt
    by_cases hself : g.consumer = cs ∧ g.client = client ∧ g.pc ≠ .deferred
    · obtain ⟨hcs, rfl, hpc⟩ := hself
      exact hcov cs hlive hcs hdue hpc
    · exact hatt.goto hg (fun hcs hcl hpc => absurd ⟨hcs, hcl, hpc⟩ hself)

/-- A goroutine goes on in its loop. -/
theorem Covering.goto_running {pc : Pc} (hg : st.goroutines[i]? = some g) (hpc : pc.Running) :
    Covering (st.goto i g pc) := by
  refine hc.goto hg (fun _ _ => hpc.2.1) ?_
  intro cs _ hcs _ _
  have hlt := (List.getElem?_eq_some_iff.mp hg).1
  exact ⟨{ g with pc := pc }, List.mem_set hlt _, hcs, rfl, hpc.2⟩

/-- Everything that coverage speaks of is the same, up to clients that are no longer due. -/
theorem Covering.quiet (hcalls : st'.calls = st.calls)
    (hdone : ∀ cs, (st'.consumers cs).done = (st.consumers cs).done)
    (hdue : ∀ client, st'.Due client → st.Due client) (hgoroutines : st'.goroutines = st.goroutines)
    (hslots : st'.consumerStates = st.consumerStates) (hfinder : st'.finder = st.finder) :
    Covering st' := by
  refine hc.frame ?_ (fun cs h => (hdone cs).symm.trans h) hdue ?_ ?_
  · intro cs hlive
    exact ⟨hcalls ▸ hlive.1, (hdone cs).symm.trans hlive.2⟩
  · intro g hg _ _
    exact Or.inl (hgoroutines ▸ hg)
  · intro cs _ client _
    simp only [State.Attended, State.Awaits, State.InSlot, hgoroutines, hslots, hfinder]
    exact id

/-- A context that is done stays so. -/
theorem Covering.modifyConsumer (cs : Nat) (f : ConsumerState → ConsumerState)
    (hf : ∀ c, c.done → (f c).done) :
    Covering (st.modifyConsumer cs f) := by
  have hdone : ∀ cs', ((st.modifyConsumer cs f).consumers cs').done = false →
      (st.consumers cs').done = false := by
    intro cs' hlive
    cases hold : (st.consumers cs').done with
    | false => rfl
    | true =>
      rw [(Frame.modifyConsumer cs f hf).done cs' hold] at hlive
      cases hlive
  exact hc.frame (fun cs' hlive => ⟨hlive.1, hdone cs' hlive.2⟩) hdone (fun _ => id)
    (fun _ hg _ _ => Or.inl hg) (fun _ _ _ _ => id)

theorem Covering.addRef (client : Nat) (n : Int) :
    Covering (st.addRef client n) := by
  refine hc.quiet rfl (fun _ => rfl) ?_ rfl rfl rfl
  intro client' hdue
  exact ⟨hdue.1, (st.addRef_same client n client').2.symm.trans hdue.2⟩

theorem Covering.close (client : Nat) : Covering (st.close client) :=
  hc.quiet rfl (fun _ => rfl) (fun _ hdue => ⟨List.mem_of_mem_erase hdue.1, hdue.2⟩) rfl rfl rfl

/-- A call of `Subscribe` goes on without an effect. -/
theorem Covering.setCall {cs : Nat} {call : Call} (hcall : call ≠ .returned) :
    Covering (st.setCall cs call) := by
  refine hc.frame ?_ (fun _ => id) (fun _ => id) (fun _ hg _ _ => Or.inl hg) (fun _ _ _ _ => id)
  intro cs' hlive
  refine ⟨?_, hlive.2⟩
  have hcs := hlive.1
  simp only [State.setCall, Function.update_apply] at hcs
  split at hcs
  · exact absurd hcs hcall
  · exact hcs

theorem Covering.swap (hn : Noted st) {cs : Nat} {state : Option Nat}
    (hcall : st.calls cs = .compareAndSwap i state) (hslot : st.consumerStates[i]? = some state) :
    Covering { st with consumerStates := st.consumerStates.set i (some cs) } := by
  refine hc.frame (fun _ => id) (fun _ => id) (fun _ => id) (fun _ hg _ _ => Or.inl hg) ?_
  intro cs' hlive client _
  apply Or.imp_right
  have hset : ∀ k, st.InSlot cs' k →
      ({ st with consumerStates := st.consumerStates.set i (some cs) } : State).InSlot cs' k :=
    fun k => hn.inSlot_set hcall hslot hlive.2
  unfold State.Awaits
  cases st.finder with
  | idle | register e | disable e => exact id
  | load e c k => exact And.imp_right (hset k)
  | loadDead e c k s => exact And.imp_right (Or.imp_right (hset (k + 1)))

theorem Covering.spawn (hlock : st.Unlocked) (cs : Nat) :
    Covering ({ st with
      goroutines := st.goroutines ++
        st.clients.map (fun client => Goroutine.mk cs client .tryAddDoppler) }.setCall cs
          .returned) := by
  constructor
  · intro g hg hdone hdue
    rcases List.mem_append.mp hg with hg | hg
    · exact hc.staying g hg hdone hdue
    · obtain ⟨client, -, rfl⟩ := List.mem_map.mp hg
      exact nofun
  · intro cs' hlive client hdue
    by_cases hcs : cs' = cs
    · subst hcs
      have hnew : Goroutine.mk cs' client .tryAddDoppler ∈
          st.clients.map (fun client => Goroutine.mk cs' client .tryAddDoppler) :=
        List.mem_map_of_mem hdue.1
      exact Or.inl ⟨_, List.mem_append_right _ hnew, rfl, rfl, nofun, nofun⟩
    · have hold : st.Live cs' := by
        refine ⟨?_, hlive.2⟩
        have hcall := hlive.1
        simp only [State.setCall, Function.update_of_ne hcs] at hcall
        exact hcall
      rcases hc.covered cs' hold client hdue with ⟨g, hg, hatt⟩ | hwait
      · exact Or.inl ⟨g, List.mem_append_left _ hg, hatt⟩
      · rw [State.Awaits, hlock] at hwait
        exact hwait.elim

/-- An event resets `disconnect` of clients that are still attended and that no goroutine is
leaving. -/
theorem Covering.startEvent (hn : Noted st) (hw : Wf (fun done => done = false) st)
    (hlock : st.Unlocked) {uris : List GoString} (huris : uris.Nodup)
    (hok : Readvertised st (.event uris)) : Covering (st.startEvent uris) := by
  have hdue : ∀ client, (st.startEvent uris).Due client → st.Due client ∨
      (client ∈ st.clients ∧ (st.infos client).disconnect = true ∧
        (st.infos client).uri ∈ uris) := by
    intro client hdue
    obtain ⟨hclient, hdis⟩ := hdue
    simp only [State.startEvent, delta_eq hw.distinct huris, readvertise] at hclient hdis
    cases hold : (st.infos client).disconnect with
    | false => exact Or.inl ⟨hclient, hold⟩
    | true =>
      split at hdis
      · next hmem => exact Or.inr ⟨hclient, rfl, hmem.2⟩
      · rw [hold] at hdis
        cases hdis
  constructor
  · intro g hg hdone hclient
    rcases hdue g.client hclient with hold | ⟨hmem, hdis, huri⟩
    · exact hc.staying g hg hdone hold
    · exact (hok g.client hmem hdis huri).1 g hg rfl hdone
  · intro cs hlive client hclient
    apply Or.inl
    rcases hdue client hclient with hold | ⟨hmem, hdis, huri⟩
    · rcases hc.covered cs hlive client hold with hatt | hwait
      · exact hatt
      · rw [State.Awaits, hlock] at hwait
        exact hwait.elim
    · obtain ⟨j, -, hslot⟩ := hn.stored cs (Or.inr hlive.1) hlive.2
      exact (hok client hmem hdis huri).2 _ (List.mem_of_getElem? hslot) cs rfl hlive

theorem Covering.registerDoppler (hn : Noted st) (hw : Wf (fun done => done = false) st) {e : Event}
    (hfinder : st.finder = .register e) (addr : GoString) (e' : Event) :
    Covering (st.registerDoppler addr e') := by
  have hdue : ∀ client, (st.registerDoppler addr e').Due client →
      client = st.nextClient ∨ st.Due client := by
    intro client hdue
    obtain ⟨hclient, hdis⟩ := hdue
    by_cases hnew : client = st.nextClient
    · exact Or.inl hnew
    · refine Or.inr ⟨?_, ?_⟩
      · rcases List.mem_append.mp hclient with hold | hlast
        · exact hold
        · exact absurd (List.mem_singleton.mp hlast) hnew
      · simpa only [State.registerDoppler, Function.update_of_ne hnew] using hdis
  constructor
  · intro g hg hdone hclient
    rcases hdue g.client hclient with hnew | hold
    · exact absurd hnew (hw.held g hg).ne
    · exact hc.staying g hg hdone hold
  · intro cs hlive client hclient
    rcases hdue client hclient with rfl | hold
    · exact Or.inr ⟨rfl, hn.stored cs (Or.inr hlive.1) hlive.2⟩
    · rcases hc.covered cs hlive client hold with hatt | hwait
      · exact Or.inl hatt
      · rw [State.Awaits, hfinder] at hwait
        exact hwait.elim

/-- `handleFinderEvent` goes on. -/
theorem Covering.goOn {finder : Finder}
    (hwait : ∀ cs, st.Live cs → ∀ client, st.Awaits cs client →
      ({ st with finder := finder } : State).Awaits cs client) :
    Covering { st with finder := finder } :=
  hc.frame (fun _ => id) (fun _ => id) (fun _ => id) (fun _ hg _ _ => Or.inl hg)
    (fun cs hlive client _ => Or.imp_right (hwait cs hlive client))

theorem Covering.disableClient {e : Event} (hfinder : st.finder = .disable e) (client : Nat)
    (e' : Event) : Covering (st.disableClient client e') := by
  have hdis : Covering { st.modifyInfo client (fun info => { info with disconnect := true }) with
      finder := .disable e' } := by
    refine hc.frame (fun _ => id) (fun _ => id) ?_ (fun _ hg _ _ => Or.inl hg) ?_
    · intro client' hdue
      refine ⟨hdue.1, ?_⟩
      have hflag := hdue.2
      simp only [State.modifyInfo, Function.update_apply] at hflag
      split at hflag
      · cases hflag
      · exact hflag
    · intro cs _ client' _
      simp only [State.Awaits, hfinder]
      exact id
  unfold State.disableClient
  split
  · exact hdis.close client
  · exact hdis

/-- A goroutine that is refused leaves its client to the one that holds it. -/
theorem Covering.refused (hw : Wf (fun done => done = false) st) (hh : Holders st)
    (hg : st.goroutines[i]? = some g) (hpc : g.pc = .tryAddDoppler)
    (hold : st.uri g ∈ (st.consumers g.consumer).dopplers) :
    Covering (st.goto i g .returned) := by
  refine hc.goto hg nofun ?_
  rintro cs hlive rfl hdue -
  obtain ⟨g', hg', hcs, huri, hhold⟩ := hh g.consumer _ hold
  have hdone : (st.consumers g'.consumer).done = false := by rw [hcs]; exact hlive.2
  -- the URI has one client in the list, so the holder is a goroutine of that client
  have hclient : g.client = g'.client := hw.current g' hg' hhold.2 hdone g.client hdue.1 huri.symm
  have hstay : g'.pc ≠ .deferred := hc.staying g' hg' hdone (hclient ▸ hdue)
  have hrun : ∃ x ∈ (st.goto i g .returned).goroutines, x.consumer = g.consumer ∧
      x.client = g.client ∧ x.pc.Running :=
    exists_mem_set hg ⟨g', hg', hcs, hclient.symm, hhold.1, hstay, hhold.2⟩
      (fun hQ => absurd hpc hQ.2.2.1)
  obtain ⟨x, hx, hxcs, hxcl, hxrun⟩ := hrun
  exact ⟨x, hx, hxcs, hxcl, hxrun.2⟩

theorem Covering.release (hg : st.goroutines[i]? = some g) (hpc : g.pc = .deferred) :
    Covering (st.release i g) := by
  have hgo : Covering (st.goto i g .returned) :=
    hc.goto hg nofun (fun _ _ _ _ hne => absurd hpc hne)
  have hdrop : Covering (st.dropRef i g) :=
    (hgo.addRef g.client (-1)).modifyConsumer g.consumer
      (fun cs => { cs with dopplers := cs.dopplers.erase (st.uri g) }) (fun _ => id)
  unfold State.release
  split
  · exact hdrop.close g.client
  · exact hdrop

theorem covering_step {a : Action} (hn : Noted st) (hw : Wf (fun done => done = false) st)
    (hh : Holders st) (hok : ok st a) (h : step st a = some st') : Covering st' := by
  cases step_cases h with
  | search hold hnew => exact hc.setCall (fun heq => hnew (Or.inr heq))
  | swap hcall hslot => exact (hc.swap hn hcall hslot).setCall nofun
  | spawn hcall hlock => exact hc.spawn hlock _
  | cancel => exact hc.modifyConsumer _ _ (fun _ _ => rfl)
  | die => exact hc.modifyConsumer _ _ (fun _ => id)
  | event hlock => exact hc.startEvent hn hw hlock hok.1 hok.2
  | register hfinder => exact hc.registerDoppler hn hw hfinder _ _
  | registered hfinder =>
    refine hc.goOn ?_
    simp only [State.Awaits, hfinder]
    exact fun _ _ _ => id
  | @scanned e c i hfinder hslot =>
    refine hc.goOn ?_
    intro cs _ client hwait
    simp only [State.Awaits, hfinder] at hwait
    obtain ⟨-, j, hj, hin⟩ := hwait
    rw [List.getElem?_eq_none ((List.getElem?_eq_none_iff.mp hslot).trans hj)] at hin
    cases hin
  | @skip e c i hfinder hslot =>
    refine hc.goOn ?_
    intro cs _ client hwait
    simp only [State.Awaits, hfinder] at hwait
    obtain ⟨hcl, j, hj, hin⟩ := hwait
    refine ⟨hcl, j, ?_, hin⟩
    apply Nat.lt_of_le_of_ne hj
    rintro rfl
    rw [hslot] at hin
    cases hin
  | @load e c i cs' hfinder hslot =>
    refine hc.goOn ?_
    intro cs _ client hwait
    simp only [State.Awaits, hfinder] at hwait
    obtain ⟨hcl, j, hj, hin⟩ := hwait
    refine ⟨hcl, ?_⟩
    rcases Nat.eq_or_lt_of_le hj with rfl | hlt
    · rw [hslot] at hin
      cases hin
      exact Or.inl rfl
    · exact Or.inr ⟨j, hlt, hin⟩
  | @loadDead e c i cs' hfinder =>
    refine hc.frame (fun _ => id) (fun _ => id) (fun _ => id) ?_ ?_
    · intro g hg _ _
      refine (List.mem_append.mp hg).imp_right ?_
      intro hnew
      split at hnew
      · cases hnew
      · rw [List.mem_singleton.mp hnew]
        exact nofun
    · intro cs hlive client _ hcov
      rcases hcov with ⟨g, hg, hatt⟩ | hwait
      · exact Or.inl ⟨g, List.mem_append_left _ hg, hatt⟩
      · simp only [State.Awaits, hfinder] at hwait
        obtain ⟨rfl, rfl | hin⟩ := hwait
        · have hdead : ¬ (st.consumers cs').dead := by
            intro hdead
            cases (hn.dead cs' hdead).symm.trans hlive.2
          refine Or.inl ⟨⟨cs', c, .tryAddDoppler⟩, List.mem_append_right _ ?_, rfl, rfl, nofun,
            nofun⟩
          rw [if_neg hdead]
          exact List.mem_cons_self
        · exact Or.inr ⟨rfl, hin⟩
  | disable hfinder => exact hc.disableClient hfinder _ _
  | handled hfinder =>
    refine hc.frame (fun _ => id) (fun _ => id) (fun _ => id) (fun _ hg _ _ => Or.inl hg) ?_
    intro cs _ client _
    simp only [State.Awaits, hfinder]
    exact id
  | added hg hpc hnew =>
    exact (hc.goto_running hg (by decide)).modifyConsumer _ _ (fun _ => id)
  | refused hg hpc hold => exact hc.refused hw hh hg hpc hold
  | addRef hg hpc => exact (hc.goto_running hg (by decide)).addRef _ _
  | run hg hold hnew => exact hc.goto_running hg hnew
  | @leave i g hg hrun hwhy =>
    have hnot : (st.consumers g.consumer).done = false → ¬ st.Due g.client := by
      intro hdone hdue
      rcases hwhy with hdis | ⟨tried, hpc⟩
      · rw [hdue.2] at hdis
        cases hdis
      · rw [hn.read g (List.mem_of_getElem? hg) tried hpc] at hdone
        cases hdone
    refine hc.goto hg (fun hdone hdue => absurd hdue (hnot hdone)) ?_
    rintro cs hlive rfl hdue -
    exact absurd hdue (hnot hlive.2)
  | release hg hpc => exact hc.release hg hpc

end Covering

/-- In a run that meets the conditions no subscription is lost. -/
theorem no_lost_subscription (n : Nat) (st : State)
    (hst : Reachable step ok (newGRPCConnector n) st) (hq : Quiescent st) : st.Covered := by
  have hinv : Wf (fun done => done = false) st ∧ Noted st ∧ Holders st ∧ Covering st := by
    apply hst.invariant ⟨wf_initial n, noted_initial n, nofun, covering_initial n⟩
    rintro s a s' ⟨hw, hn, hh, hc⟩ hok h
    exact ⟨wf_step hw nofun hok.1 h, noted_step hn h, holders_step hh hw.held h,
      covering_step hc hn hw hh hok h⟩
  exact hinv.2.2.2.quiescent hq

/-- The doppler goes away and comes back while the consumer reads from it. -/
def flappingDoppler : List Action :=
  [.subscribe 0, .call 0, .call 0, .call 0,
   .event [doppler], .finder, .finder, .finder, .finder, .finder, .finder,
   .goroutine 0, .goroutine 0, .goroutine 0, .goroutine 0, .stream 0,
   .event [], .finder, .finder, .finder, .event [doppler], .finder, .finder]

theorem flappingDoppler_covered :
    ∃ st, run (guarded step ok) (newGRPCConnector 1) flappingDoppler = some st ∧
      Quiescent st ∧ st.Live 0 ∧ st.clients = [0] ∧ st.Covered := by
  have hrun : (run (guarded step ok) (newGRPCConnector 1) flappingDoppler).map
      (fun st => (st.finder, decide (st.Live 0), st.clients, st.goroutines)) =
      some (.idle, true, [0], [⟨0, 0, .readStream⟩]) := by decide
  obtain ⟨st, hst, hfinal⟩ := Option.map_eq_some_iff.mp hrun
  simp only [Prod.mk.injEq, decide_eq_true_eq] at hfinal
  obtain ⟨hlock, hlive, hclients, hgoroutines⟩ := hfinal
  have hq : Quiescent st := by
    refine ⟨hlock, ?_, ?_⟩
    · rw [hgoroutines]
      decide
    · rw [hgoroutines]
      decide
  exact ⟨st, hst, hq, hlive, hclients,
    no_lost_subscription 1 st (Reachable.refl.of_guarded hst) hq⟩

/-- The doppler comes back when the goroutine of the consumer has read `disconnect` and is on
its way out. -/
def leavingGoroutine : List (Option Action) :=
  [some (.subscribe 0), some (.call 0), some (.call 0), some (.call 0),
   some (.event [doppler]), some .finder, some .finder, some .finder, none, some .finder,
   some .finder,
   some (.goroutine 0), some (.goroutine 0), some (.goroutine 0), some (.goroutine 0),
   some (.stream 0),
   some (.event []), some .finder, some .finder, some .finder,
   some (.fail 0), some (.goroutine 0), some (.goroutine 0),
   some (.event [doppler]), some .finder, some .finder, some (.goroutine 0)]

/-- The goroutine of a client that has been closed adds the URI before that of its successor. -/
def staleGoroutine : List (Option Action) :=
  [some (.subscribe 0), some (.call 0), some (.call 0), some (.call 0),
   some (.event [doppler]), some .finder, some .finder, some .finder, none, some .finder,
   some .finder,
   some (.event []), some .finder, some .finder, some .finder,
   some (.event [doppler]), some .finder, some .finder, some .finder, none, some .finder,
   some .finder,
   some (.goroutine 0), some (.goroutine 1)]

/-- All goroutines for some client that is due have returned. -/
def State.Deserted (st : State) : Prop :=
  ∃ client ∈ st.clients, (st.infos client).disconnect = false ∧
    ∀ g ∈ st.goroutines, g.client = client → g.pc = .returned

instance (st : State) : Decidable st.Deserted :=
  inferInstanceAs (Decidable (∃ client ∈ st.clients, _))

theorem State.Deserted.not_covered {st : State} {cs : Nat} (h : st.Deserted)
    (hlive : st.Live cs) : ¬ st.Covered := by
  obtain ⟨client, hclient, hdis, hret⟩ := h
  intro hcov
  obtain ⟨g, hg, -, hcl, hrun⟩ := hcov cs hlive client hclient hdis
  exact hrun.2.2 (hret g hg hcl)

/-- Both runs leave the consumer without a goroutine for the doppler's client. -/
theorem lost_subscription :
    (∃ st, run (stepOrScan NoRepeat) (newGRPCConnector maxConnections) leavingGoroutine =
        some st ∧ Reachable step NoRepeat (newGRPCConnector maxConnections) st ∧ Quiescent st ∧
      st.Live 0 ∧ st.Deserted ∧ ¬ st.Covered) ∧
    (∃ st, run (stepOrScan NoRepeat) (newGRPCConnector maxConnections) staleGoroutine =
        some st ∧ Reachable step NoRepeat (newGRPCConnector maxConnections) st ∧ Quiescent st ∧
      st.Live 0 ∧ st.Deserted ∧ ¬ st.Covered) := by
  have hlost : ∀ as, (run (stepOrScan NoRepeat) (newGRPCConnector maxConnections) as).map
        (fun st => (decide (Quiescent st), decide (st.Live 0), decide st.Deserted)) =
        some (true, true, true) →
      ∃ st, run (stepOrScan NoRepeat) (newGRPCConnector maxConnections) as = some st ∧
        Reachable step NoRepeat (newGRPCConnector maxConnections) st ∧ Quiescent st ∧
        st.Live 0 ∧ st.Deserted ∧ ¬ st.Covered := by
    intro as hrun
    obtain ⟨st, hst, hfinal⟩ := Option.map_eq_some_iff.mp hrun
    simp only [Prod.mk.injEq, decide_eq_true_eq] at hfinal
    obtain ⟨hq, hlive, hdesert⟩ := hfinal
    exact ⟨st, hst, reachable_of_stepOrScan (fun _ => trivial) .refl hst, hq, hlive, hdesert,
      hdesert.not_covered hlive⟩
  exact ⟨hlost _ (by decide +kernel), hlost _ (by decide +kernel)⟩

end Loggregator.Plumbing.GrpcConnector
