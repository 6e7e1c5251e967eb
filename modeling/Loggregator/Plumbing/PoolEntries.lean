import Loggregator.Plumbing.GrpcConnector

/-!
# The pool entries of the advertised dopplers

`pool.Close` goes by URI, but it is decided for one client object: by `handleFinderEvent` for a
client that is no longer advertised, and by the last goroutine that leaves one. `Wf` says that
each URI has at most one client in the list and that the goroutines that still run hold that
one. It needs event lists without repetitions, and a URI may be registered only when no
goroutine of an earlier client of that URI is left (`Orderly`). The predicate `P` selects the
consumers whose goroutines matter, by whether their context is done.
-/

namespace Loggregator.Plumbing.GrpcConnector

open Lib

/-- The event that is being handled. -/
def Finder.event : Finder → Option Event
  | .idle => none
  | .register e | .load e _ _ | .loadDead e _ _ _ | .disable e => some e

/-- The new client whose goroutines are being started. -/
def Finder.client : Finder → Option Nat
  | .load _ client _ | .loadDead _ client _ _ => some client
  | _ => none

/-- The URI that is registered next. -/
def Finder.registers : Finder → Option GoString
  | .register e => e.newURIs.head?
  | _ => none

/-- No goroutine for the URI is left, among the consumers that `P` selects. -/
def State.Vacant (P : Bool → Prop) (st : State) (addr : GoString) : Prop :=
  ∀ g ∈ st.goroutines, g.pc ≠ .returned → P (st.consumers g.consumer).done → st.uri g ≠ addr

/-- Event lists have no repetition, and a URI is registered when no goroutine for it is left. -/
def Orderly (P : Bool → Prop) (st : State) : Action → Prop
  | .event uris => uris.Nodup
  | .finder => ∀ addr ∈ st.finder.registers, st.Vacant P addr
  | _ => True

instance (P : Bool → Prop) [DecidablePred P] (st : State) (addr : GoString) :
    Decidable (st.Vacant P addr) :=
  inferInstanceAs (Decidable (∀ g ∈ st.goroutines, _))

instance (P : Bool → Prop) [DecidablePred P] (st : State) (a : Action) :
    Decidable (Orderly P st a) := by
  cases a <;> unfold Orderly <;> infer_instance

/-! ## The list of clients -/

/-- What is left of an event fits the list of clients. -/
structure EventWf (st : State) (e : Event) : Prop where
  nodup : e.newURIs.Nodup
  newURIs : e.newURIs ⊆ e.uris
  new : ∀ addr ∈ e.newURIs, ∀ client ∈ st.clients, (st.infos client).uri ≠ addr
  allocated : ∀ client ∈ e.deadClients, client < st.nextClient
  dead : ∀ client ∈ e.deadClients, (st.infos client).uri ∉ e.uris
  only : ∀ client ∈ e.deadClients, ∀ client' ∈ st.clients,
    (st.infos client').uri = (st.infos client).uri → client' = client

structure Wf (P : Bool → Prop) (st : State) : Prop where
  allocated : ∀ client ∈ st.clients, client < st.nextClient
  held : ∀ g ∈ st.goroutines, g.client < st.nextClient
  distinct : (st.clients.map (fun client => (st.infos client).uri)).Nodup
  current : ∀ g ∈ st.goroutines, g.pc ≠ .returned → P (st.consumers g.consumer).done →
    ∀ client ∈ st.clients, (st.infos client).uri = st.uri g → client = g.client
  event : ∀ e ∈ st.finder.event, EventWf st e
  scanned : ∀ client ∈ st.finder.client, client ∈ st.clients

/-- Nothing is added: neither a client, nor a goroutine, nor a context that is not done. -/
structure Frame (st st' : State) : Prop where
  uri : ∀ client, (st'.infos client).uri = (st.infos client).uri
  nextClient : st'.nextClient = st.nextClient
  clients : st'.clients.Sublist st.clients
  goroutines : ∀ g' ∈ st'.goroutines, ∃ g ∈ st.goroutines, g.consumer = g'.consumer ∧
    g.client = g'.client ∧ (g.pc = .returned → g'.pc = .returned)
  done : ∀ cs, (st.consumers cs).done → (st'.consumers cs).done

theorem State.modifyInfo_uri (st : State) (client : Nat)
    {f : DopplerClientInfo → DopplerClientInfo} (hf : ∀ info, (f info).uri = info.uri) (c : Nat) :
    ((st.modifyInfo client f).infos c).uri = (st.infos c).uri := by
  simp only [State.modifyInfo, Function.update_apply]
  split
  · next hc => rw [hf, hc]
  · rfl

theorem State.addRef_same (st : State) (client : Nat) (n : Int) (c : Nat) :
    ((st.addRef client n).infos c).uri = (st.infos c).uri ∧
      ((st.addRef client n).infos c).disconnect = (st.infos c).disconnect := by
  simp only [State.addRef, State.modifyInfo, Function.update_apply]
  split
  · next hc =>
    subst hc
    exact ⟨rfl, rfl⟩
  · exact ⟨rfl, rfl⟩

theorem State.disableClient_finder (st : State) (client : Nat) (e : Event) :
    (st.disableClient client e).finder = .disable e := by
  unfold State.disableClient
  split <;> rfl

theorem State.release_finder (st : State) (i : Nat) (g : Goroutine) :
    (st.release i g).finder = st.finder := by
  unfold State.release
  split <;> rfl

namespace Frame

variable {st st' st'' : State}

theorem of_eq (hinfos : st'.infos = st.infos) (hnext : st'.nextClient = st.nextClient)
    (hclients : st'.clients = st.clients) (hgoroutines : st'.goroutines = st.goroutines)
    (hconsumers : st'.consumers = st.consumers) : Frame st st' := by
  refine ⟨fun _ => by rw [hinfos], hnext, hclients ▸ .refl _, ?_, fun _ => by
    rw [hconsumers]; exact id⟩
  rw [hgoroutines]
  exact fun g hg => ⟨g, hg, rfl, rfl, id⟩

theorem trans (h : Frame st st') (h' : Frame st' st'') : Frame st st'' := by
  refine ⟨fun c => (h'.uri c).trans (h.uri c), h'.nextClient.trans h.nextClient,
    h'.clients.trans h.clients, ?_, fun cs => h'.done cs ∘ h.done cs⟩
  intro g'' hg''
  obtain ⟨g', hg', hcs', hcl', hpc'⟩ := h'.goroutines g'' hg''
  obtain ⟨g, hg, hcs, hcl, hpc⟩ := h.goroutines g' hg'
  exact ⟨g, hg, hcs.trans hcs', hcl.trans hcl', hpc' ∘ hpc⟩

theorem goto {i : Nat} {g : Goroutine} (hg : st.goroutines[i]? = some g)
    (hpc : g.pc ≠ .returned) (pc : Pc) : Frame st (st.goto i g pc) := by
  refine ⟨fun _ => rfl, rfl, .refl _, ?_, fun _ => id⟩
  intro g' hg'
  rcases List.mem_or_eq_of_mem_set hg' with hold | rfl
  · exact ⟨g', hold, rfl, rfl, id⟩
  · exact ⟨g, List.mem_of_getElem? hg, rfl, rfl, fun h => absurd h hpc⟩

theorem modifyInfo (client : Nat) (f : DopplerClientInfo → DopplerClientInfo)
    (hf : ∀ info, (f info).uri = info.uri) : Frame st (st.modifyInfo client f) :=
  ⟨st.modifyInfo_uri client hf, rfl, .refl _, fun g hg => ⟨g, hg, rfl, rfl, id⟩, fun _ => id⟩

theorem addRef (client : Nat) (n : Int) : Frame st (st.addRef client n) :=
  .modifyInfo client _ (fun _ => rfl)

theorem modifyConsumer (cs : Nat) (f : ConsumerState → ConsumerState)
    (hf : ∀ c, c.done → (f c).done) : Frame st (st.modifyConsumer cs f) := by
  refine ⟨fun _ => rfl, rfl, .refl _, fun g hg => ⟨g, hg, rfl, rfl, id⟩, ?_⟩
  intro cs' hdone
  simp only [State.modifyConsumer, Function.update_apply]
  split
  · next hcs =>
    subst hcs
    exact hf _ hdone
  · exact hdone

theorem close (client : Nat) : Frame st (st.close client) :=
  ⟨fun _ => rfl, rfl, List.erase_sublist, fun g hg => ⟨g, hg, rfl, rfl, id⟩, fun _ => id⟩

theorem disableClient (st : State) (client : Nat) (e : Event) :
    Frame st (st.disableClient client e) := by
  have hdis : Frame st { st.modifyInfo client (fun info => { info with disconnect := true }) with
      finder := .disable e } :=
    (modifyInfo client (fun info => { info with disconnect := true }) (fun _ => rfl)).trans
      (.of_eq rfl rfl rfl rfl rfl)
  unfold State.disableClient
  split
  · exact hdis.trans (.close client)
  · exact hdis

theorem dropRef {i : Nat} {g : Goroutine} (hg : st.goroutines[i]? = some g)
    (hpc : g.pc ≠ .returned) : Frame st (st.dropRef i g) :=
  ((Frame.goto hg hpc .returned).trans (.addRef _ _)).trans
    (modifyConsumer g.consumer (fun cs => { cs with dopplers := cs.dopplers.erase (st.uri g) })
      (fun _ => id))

theorem release {i : Nat} {g : Goroutine} (hg : st.goroutines[i]? = some g)
    (hpc : g.pc ≠ .returned) : Frame st (st.release i g) := by
  unfold State.release
  split
  · exact (dropRef hg hpc).trans (.close _)
  · exact dropRef hg hpc

end Frame

section Wf

variable {P : Bool → Prop} {st st' : State}

theorem wf_initial (n : Nat) : Wf P (newGRPCConnector n) :=
  ⟨nofun, nofun, List.nodup_nil, nofun, nofun, nofun⟩

theorem EventWf.frame {e e' : Event} (he : EventWf st e) (hf : Frame st st')
    (huris : e'.uris = e.uris) (hnew : e'.newURIs = e.newURIs)
    (hdead : e'.deadClients ⊆ e.deadClients) : EventWf st' e' := by
  refine ⟨hnew ▸ he.nodup, hnew ▸ huris ▸ he.newURIs, ?_, ?_, ?_, ?_⟩
  · intro addr haddr client hclient
    rw [hf.uri]
    exact he.new addr (hnew ▸ haddr) client (hf.clients.subset hclient)
  · intro client hclient
    rw [hf.nextClient]
    exact he.allocated client (hdead hclient)
  · intro client hclient
    rw [hf.uri, huris]
    exact he.dead client (hdead hclient)
  · intro client hclient client' hclient'
    rw [hf.uri, hf.uri]
    exact he.only client (hdead hclient) client' (hf.clients.subset hclient')

variable (hw : Wf P st)
include hw

/-- What adds nothing keeps the clients well-formed. -/
theorem Wf.frame (hP : P true → P false) (hf : Frame st st')
    (hevent : ∀ e ∈ st'.finder.event, EventWf st' e)
    (hscan : ∀ client ∈ st'.finder.client, client ∈ st'.clients) : Wf P st' := by
  refine ⟨?_, ?_, ?_, ?_, hevent, hscan⟩
  · intro client hclient
    rw [hf.nextClient]
    exact hw.allocated client (hf.clients.subset hclient)
  · intro g' hg'
    obtain ⟨g, hg, -, hcl, -⟩ := hf.goroutines g' hg'
    rw [hf.nextClient, ← hcl]
    exact hw.held g hg
  · simp only [hf.uri]
    exact hw.distinct.sublist (hf.clients.map _)
  · intro g' hg' hpc' hdone client hclient huri
    obtain ⟨g, hg, hcs, hcl, hpc⟩ := hf.goroutines g' hg'
    have hdone' : P (st.consumers g.consumer).done := by
      rw [← hcs] at hdone
      cases hold : (st.consumers g.consumer).done with
      | true => rwa [hf.done _ hold] at hdone
      | false =>
        cases hnew : (st'.consumers g.consumer).done with
        | true => exact hP (hnew ▸ hdone)
        | false => exact hnew ▸ hdone
    rw [← hcl]
    simp only [State.uri, hf.uri, ← hcl] at huri
    exact hw.current g hg (hpc' ∘ hpc) hdone' client (hf.clients.subset hclient) huri

/-- As long as `handleFinderEvent` does not go on. -/
theorem Wf.frame_same (hP : P true → P false) (hf : Frame st st') (hfinder : st'.finder = st.finder)
    (hclients : st'.clients = st.clients) : Wf P st' := by
  refine hw.frame hP hf ?_ ?_
  · intro e he
    rw [hfinder] at he
    exact (hw.event e he).frame hf rfl rfl (List.Subset.refl _)
  · intro client hclient
    rw [hfinder] at hclient
    rw [hclients]
    exact hw.scanned client hclient

/-- Goroutines are started for clients in the list. -/
theorem Wf.start {l : List Goroutine} (hl : ∀ g ∈ l, g.client ∈ st.clients)
    (hinfos : st'.infos = st.infos) (hnext : st'.nextClient = st.nextClient)
    (hclients : st'.clients = st.clients) (hconsumers : st'.consumers = st.consumers)
    (hgoroutines : st'.goroutines = st.goroutines ++ l)
    (hevent : ∀ e ∈ st'.finder.event, e ∈ st.finder.event)
    (hscan : ∀ client ∈ st'.finder.client, client ∈ st.finder.client) : Wf P st' := by
  refine ⟨?_, ?_, ?_, ?_, ?_, ?_⟩
  · rw [hclients, hnext]
    exact hw.allocated
  · rw [hgoroutines, hnext]
    intro g hg
    rcases List.mem_append.mp hg with hg | hg
    · exact hw.held g hg
    · exact hw.allocated _ (hl g hg)
  · rw [hclients, hinfos]
    exact hw.distinct
  · rw [hgoroutines, hclients, hconsumers, hinfos]
    intro g hg hpc hdone client hclient huri
    simp only [State.uri, hinfos] at huri
    rcases List.mem_append.mp hg with hg | hg
    · exact hw.current g hg hpc hdone client hclient huri
    · exact List.inj_on_of_nodup_map hw.distinct hclient (hl g hg) huri
  · intro e he
    obtain ⟨hnodup, hsub, hnew, hlt, hdead, honly⟩ := hw.event e (hevent e he)
    exact ⟨hnodup, hsub, by rwa [hclients, hinfos], by rwa [hnext], by rwa [hinfos], by
      rwa [hclients, hinfos]⟩
  · intro client hclient
    rw [hclients]
    exact hw.scanned client (hscan client hclient)

/-- `handleFinderEvent` goes on without a change. -/
theorem Wf.goOn {finder : Finder} (hevent : ∀ e ∈ finder.event, e ∈ st.finder.event)
    (hscan : ∀ client ∈ finder.client, client ∈ st.finder.client) :
    Wf P { st with finder := finder } := by
  refine hw.start (l := []) ?_ rfl rfl rfl rfl (List.append_nil _).symm hevent hscan
  intro g hg
  cases hg

theorem Wf.startEvent {uris : List GoString} (huris : uris.Nodup) :
    Wf P (st.startEvent uris) := by
  have huri := readvertise_uri st.infos st.clients uris
  simp only [State.startEvent, delta_eq hw.distinct huris]
  refine ⟨hw.allocated, hw.held, by simpa only [huri] using hw.distinct, ?_, ?_, nofun⟩
  · intro g hg hpc hdone client hclient heq
    simp only [State.uri, huri] at heq
    exact hw.current g hg hpc hdone client hclient heq
  · intro e he
    simp only [Finder.event, Option.mem_def, Option.some.injEq] at he
    subst he
    refine ⟨huris.filter _, List.filter_sublist.subset, ?_, ?_, ?_, ?_⟩
    · intro addr haddr client hclient
      simp only [List.mem_filter, decide_eq_true_eq, List.mem_map, not_exists, not_and] at haddr
      rw [huri]
      exact haddr.2 client hclient
    · intro client hclient
      exact hw.allocated client (List.mem_of_mem_filter hclient)
    · intro client hclient
      simp only [List.mem_filter, decide_eq_true_eq] at hclient
      rw [huri]
      exact hclient.2
    · intro client hclient client' hclient' heq
      rw [huri, huri] at heq
      exact List.inj_on_of_nodup_map hw.distinct hclient' (List.mem_of_mem_filter hclient) heq

/-- A new client is registered under a URI that no client has and no goroutine reads. -/
theorem Wf.registerDoppler {e : Event} {addr : GoString} {newURIs : List GoString}
    (he : EventWf st e) (hnew : e.newURIs = addr :: newURIs) (hvacant : st.Vacant P addr) :
    Wf P (st.registerDoppler addr { e with newURIs := newURIs }) := by
  have hne : ∀ client ∈ st.clients, client ≠ st.nextClient :=
    fun client hclient => (hw.allocated client hclient).ne
  have huri : ∀ client, client ≠ st.nextClient →
      (Function.update st.infos st.nextClient { uri := addr } client).uri =
        (st.infos client).uri := by
    intro client hclient
    rw [Function.update_of_ne hclient]
  have hadd : addr ∈ e.newURIs := by rw [hnew]; exact List.mem_cons_self
  have hnodup := hnew ▸ he.nodup
  rw [List.nodup_cons] at hnodup
  refine ⟨?_, ?_, ?_, ?_, ?_, ?_⟩
  · intro client hclient
    rcases List.mem_append.mp hclient with hclient | hclient
    · exact (hw.allocated client hclient).trans (Nat.lt_succ_self _)
    · rw [List.mem_singleton.mp hclient]
      exact Nat.lt_succ_self _
  · intro g hg
    exact (hw.held g hg).trans (Nat.lt_succ_self _)
  · simp only [State.registerDoppler, List.map_append, List.map_cons, List.map_nil,
      Function.update_self]
    rw [List.map_congr_left (fun client hclient => huri client (hne client hclient)),
      List.nodup_append]
    refine ⟨hw.distinct, List.nodup_singleton _, ?_⟩
    intro u hu v hv
    obtain ⟨client, hclient, rfl⟩ := List.mem_map.mp hu
    rw [List.mem_singleton.mp hv]
    exact he.new addr hadd client hclient
  · intro g hg hpc hdone client hclient heq
    have hgne := (hw.held g hg).ne
    simp only [State.registerDoppler, State.uri, huri _ hgne] at heq
    rcases List.mem_append.mp hclient with hclient | hclient
    · rw [huri _ (hne client hclient)] at heq
      exact hw.current g hg hpc hdone client hclient heq
    · rw [List.mem_singleton.mp hclient, Function.update_self] at heq
      exact absurd heq.symm (hvacant g hg hpc hdone)
  · intro e' he'
    simp only [State.registerDoppler, Finder.event, Option.mem_def, Option.some.injEq] at he'
    subst he'
    refine ⟨hnodup.2, ?_, ?_, ?_, ?_, ?_⟩
    · intro addr' haddr'
      exact he.newURIs (hnew ▸ List.mem_cons_of_mem _ haddr')
    · intro addr' haddr' client hclient
      rcases List.mem_append.mp hclient with hclient | hclient
      · simp only [State.registerDoppler, huri _ (hne client hclient)]
        exact he.new addr' (hnew ▸ List.mem_cons_of_mem _ haddr') client hclient
      · rw [List.mem_singleton.mp hclient]
        simp only [State.registerDoppler, Function.update_self]
        exact fun heq => hnodup.1 (heq ▸ haddr')
    · intro client hclient
      exact (he.allocated client hclient).trans (Nat.lt_succ_self _)
    · intro client hclient
      simp only [State.registerDoppler, huri _ (he.allocated client hclient).ne]
      exact he.dead client hclient
    · intro client hclient client' hclient' heq
      simp only [State.registerDoppler, huri _ (he.allocated client hclient).ne] at heq
      rcases List.mem_append.mp hclient' with hclient' | hclient'
      · rw [huri _ (hne client' hclient')] at heq
        exact he.only client hclient client' hclient' heq
      · rw [List.mem_singleton.mp hclient', Function.update_self] at heq
        exact absurd (heq ▸ he.newURIs hadd) (he.dead client hclient)
  · intro client hclient
    simp only [State.registerDoppler, Finder.client, Option.mem_def, Option.some.injEq] at hclient
    subst hclient
    exact List.mem_append_right _ List.mem_cons_self

/-- Every action that meets the condition keeps the clients well-formed. -/
theorem wf_step {a : Action} (hP : P true → P false) (hok : Orderly P st a)
    (h : step st a = some st') : Wf P st' := by
  cases step_cases h with
  | search | swap => exact hw.frame_same hP (.of_eq rfl rfl rfl rfl rfl) rfl rfl
  | spawn hcall hlock =>
    refine hw.start ?_ rfl rfl rfl rfl rfl (fun _ => id) (fun _ => id)
    intro g hg
    obtain ⟨client, hclient, rfl⟩ := List.mem_map.mp hg
    exact hclient
  | cancel => exact hw.frame_same hP (.modifyConsumer _ _ (fun _ _ => rfl)) rfl rfl
  | die => exact hw.frame_same hP (.modifyConsumer _ _ (fun _ => id)) rfl rfl
  | event => exact hw.startEvent hok
  | @register e addr newURIs hfinder hnew =>
    apply hw.registerDoppler (hw.event e (by rw [hfinder]; rfl)) hnew
    exact hok addr (by simp [hfinder, Finder.registers, hnew])
  | registered hfinder | scanned hfinder => exact hw.goOn (by rw [hfinder]; exact fun _ => id) nofun
  | skip hfinder | load hfinder =>
    exact hw.goOn (by rw [hfinder]; exact fun _ => id) (by rw [hfinder]; exact fun _ => id)
  | @loadDead e client i cs hfinder =>
    refine hw.start ?_ rfl rfl rfl rfl rfl (by rw [hfinder]; exact fun _ => id)
      (by rw [hfinder]; exact fun _ => id)
    intro g hg
    have hclient : client ∈ st.clients := hw.scanned client (by rw [hfinder]; rfl)
    split at hg
    · cases hg
    · rw [List.mem_singleton.mp hg]
      exact hclient
  | @disable e client deadClients hfinder hdead =>
    have hframe := Frame.disableClient st client { e with deadClients := deadClients }
    refine hw.frame hP hframe ?_ ?_
    · intro e' he'
      rw [State.disableClient_finder] at he'
      cases he'
      refine (hw.event e (by rw [hfinder]; rfl)).frame hframe rfl rfl ?_
      rw [hdead]
      exact List.subset_cons_self _ _
    · rw [State.disableClient_finder]
      nofun
  | handled => exact hw.frame hP (.of_eq rfl rfl rfl rfl rfl) nofun nofun
  | added hg hpc =>
    exact hw.frame_same hP ((Frame.goto hg (by simp [hpc]) _).trans
      (.modifyConsumer _ _ (fun _ => id))) rfl rfl
  | refused hg hpc => exact hw.frame_same hP (.goto hg (by simp [hpc]) _) rfl rfl
  | addRef hg hpc =>
    exact hw.frame_same hP ((Frame.goto hg (by simp [hpc]) _).trans (.addRef _ _)) rfl rfl
  | run hg hold => exact hw.frame_same hP (.goto hg hold.2.2 _) rfl rfl
  | leave hg hrun => exact hw.frame_same hP (.goto hg hrun.2.2 _) rfl rfl
  | @release i g hg hpc hlock =>
    have hidle := (State.release_finder st i g).trans hlock
    refine hw.frame hP (.release hg (by simp [hpc])) ?_ ?_
    · rw [hidle]
      nofun
    · rw [hidle]
      nofun

end Wf

/-! ## The entries -/

/-- A client for the URI is in the list and is not to be disconnected. -/
def State.Serves (st : State) (addr : GoString) : Prop :=
  ∃ client ∈ st.clients, (st.infos client).uri = addr ∧ (st.infos client).disconnect = false

/-- The clients in the list have their pool entries, and the advertised URIs have clients. -/
structure Pooled (st : State) : Prop where
  registered : ∀ client ∈ st.clients, Registered st.pool (st.infos client).uri
  advertised : st.Unlocked → ∀ addr ∈ st.advertised, st.Serves addr
  event : ∀ e ∈ st.finder.event, ∀ addr ∈ e.uris, addr ∈ e.newURIs ∨ st.Serves addr
  disabling : ∀ e, st.finder = .disable e → e.newURIs = []

section Pooled

variable {P : Bool → Prop} {st st' : State}

theorem pooled_initial (n : Nat) : Pooled (newGRPCConnector n) := ⟨nofun, nofun, nofun, nofun⟩

variable (hp : Pooled st)
include hp

/-- What neither touches the clients nor the pool. -/
theorem Pooled.same (hclients : st'.clients = st.clients) (hpool : st'.pool = st.pool)
    (hinfos : ∀ client, (st'.infos client).uri = (st.infos client).uri ∧
      (st'.infos client).disconnect = (st.infos client).disconnect)
    (hadvertised : st'.Unlocked → st.Unlocked ∧ st'.advertised = st.advertised)
    (hevent : ∀ e ∈ st'.finder.event, e ∈ st.finder.event)
    (hdisabling : ∀ e, st'.finder = .disable e → e.newURIs = []) : Pooled st' := by
  have hserves : ∀ addr, st'.Serves addr ↔ st.Serves addr := by
    intro addr
    simp only [State.Serves, hclients, hinfos]
  refine ⟨?_, ?_, ?_, hdisabling⟩
  · intro client hclient
    rw [hpool, (hinfos client).1]
    exact hp.registered client (hclients ▸ hclient)
  · intro hlock addr haddr
    obtain ⟨hlock, hadv⟩ := hadvertised hlock
    rw [hserves]
    exact hp.advertised hlock addr (hadv ▸ haddr)
  · intro e he addr haddr
    rw [hserves]
    exact hp.event e (hevent e he) addr haddr

/-- Closing a client that is to be disconnected and is the only one of its URI. -/
theorem Pooled.close {client : Nat} (hnodup : st.clients.Nodup)
    (honly : ∀ client' ∈ st.clients, (st.infos client').uri = (st.infos client).uri →
      client' = client) (hdis : (st.infos client).disconnect = true) :
    Pooled (st.close client) := by
  have hserves : ∀ addr, st.Serves addr → (st.close client).Serves addr := by
    rintro addr ⟨client', hmem, huri, hdis'⟩
    refine ⟨client', (List.mem_erase_of_ne ?_).mpr hmem, huri, hdis'⟩
    rintro rfl
    rw [hdis] at hdis'
    cases hdis'
  refine ⟨?_, ?_, ?_, hp.disabling⟩
  · intro client' hclient'
    obtain ⟨hne, hmem⟩ := hnodup.mem_erase_iff.mp hclient'
    apply (registered_close _ _ _).mpr
    exact ⟨fun heq => hne (honly client' hmem heq), hp.registered client' hmem⟩
  · intro hlock addr haddr
    exact hserves addr (hp.advertised hlock addr haddr)
  · intro e he addr haddr
    exact (hp.event e he addr haddr).imp_right (hserves addr)

/-- What leaves `handleFinderEvent` where it is, too. -/
theorem Pooled.quiet (hclients : st'.clients = st.clients) (hpool : st'.pool = st.pool)
    (hinfos : st'.infos = st.infos) (hadvertised : st'.advertised = st.advertised)
    (hfinder : st'.finder = st.finder) :
    Pooled st' := by
  refine hp.same hclients hpool (fun _ => by rw [hinfos]; exact ⟨rfl, rfl⟩) ?_ ?_ ?_
  · intro hlock
    exact ⟨hfinder.symm.trans hlock, hadvertised⟩
  · rw [hfinder]
    exact fun _ => id
  · rw [hfinder]
    exact hp.disabling

theorem Pooled.startEvent (hw : Wf P st) {uris : List GoString} (huris : uris.Nodup) :
    Pooled (st.startEvent uris) := by
  have huri := readvertise_uri st.infos st.clients uris
  simp only [State.startEvent, delta_eq hw.distinct huris]
  refine ⟨?_, nofun, ?_, nofun⟩
  · intro client hclient
    simp only [huri]
    exact hp.registered client hclient
  · intro e he addr haddr
    cases he
    by_cases hmem : addr ∈ st.clients.map (fun client => (st.infos client).uri)
    · obtain ⟨client, hclient, rfl⟩ := List.mem_map.mp hmem
      refine Or.inr ⟨client, hclient, huri client, ?_⟩
      simp only [readvertise, if_pos (And.intro hclient haddr)]
    · exact Or.inl (List.mem_filter.mpr ⟨haddr, by simpa using hmem⟩)

theorem Pooled.registerDoppler (hw : Wf P st) {e : Event} {addr : GoString}
    {newURIs : List GoString} (he : e ∈ st.finder.event) (hnew : e.newURIs = addr :: newURIs) :
    Pooled (st.registerDoppler addr { e with newURIs := newURIs }) := by
  have hinfos : ∀ client ∈ st.clients,
      Function.update st.infos st.nextClient { uri := addr } client = st.infos client :=
    fun client hclient => Function.update_of_ne (hw.allocated client hclient).ne _ _
  refine ⟨?_, nofun, ?_, nofun⟩
  · intro client hclient
    simp only [State.registerDoppler, registered_register]
    rcases List.mem_append.mp hclient with hclient | hclient
    · rw [hinfos client hclient]
      exact Or.inr (hp.registered client hclient)
    · rw [List.mem_singleton.mp hclient, Function.update_self]
      exact Or.inl rfl
  · intro e' he' addr' haddr'
    cases he'
    rcases hp.event e he addr' haddr' with hin | ⟨client, hclient, huri, hdis⟩
    · rw [hnew] at hin
      rcases List.mem_cons.mp hin with rfl | hin
      · refine Or.inr ⟨st.nextClient, List.mem_append_right _ List.mem_cons_self, ?_⟩
        simp only [State.registerDoppler, Function.update_self, and_self]
      · exact Or.inl hin
    · refine Or.inr ⟨client, List.mem_append_left _ hclient, ?_⟩
      simp only [State.registerDoppler, hinfos client hclient]
      exact ⟨huri, hdis⟩

theorem Pooled.disableClient (hw : Wf P st) {e : Event} {client : Nat} {deadClients : List Nat}
    (hfinder : st.finder = .disable e) (hdead : e.deadClients = client :: deadClients) :
    Pooled (st.disableClient client { e with deadClients := deadClients }) := by
  have he := hw.event e (by rw [hfinder]; rfl)
  have hmem : client ∈ e.deadClients := by rw [hdead]; exact List.mem_cons_self
  have huri := st.modifyInfo_uri client (f := fun info => { info with disconnect := true })
    (fun _ => rfl)
  have hdis : Pooled { st.modifyInfo client (fun info => { info with disconnect := true }) with
      finder := .disable { e with deadClients := deadClients } } := by
    refine ⟨?_, nofun, ?_, ?_⟩
    · intro client' hclient'
      simp only [huri]
      exact hp.registered client' hclient'
    · intro e' he' addr haddr
      cases he'
      refine (hp.event e (by rw [hfinder]; rfl) addr haddr).imp_right ?_
      rintro ⟨client', hclient', rfl, hdis'⟩
      have hne : client' ≠ client := by
        rintro rfl
        exact he.dead client' hmem haddr
      refine ⟨client', hclient', ?_⟩
      simp only [State.modifyInfo, Function.update_of_ne hne]
      exact ⟨trivial, hdis'⟩
    · intro e' he'
      cases he'
      exact hp.disabling e hfinder
  unfold State.disableClient
  split
  · apply hdis.close (List.Nodup.of_map _ hw.distinct)
    · intro client' hclient' heq
      simp only [huri] at heq
      exact he.only client hmem client' hclient' heq
    · simp only [State.modifyInfo, Function.update_self]
  · exact hdis

theorem Pooled.dropRef (i : Nat) (g : Goroutine) : Pooled (st.dropRef i g) :=
  hp.same rfl rfl (st.addRef_same g.client (-1)) (fun hlock => ⟨hlock, rfl⟩) (fun _ => id)
    hp.disabling

theorem Pooled.release (hw : Wf (fun _ => True) st) {i : Nat} {g : Goroutine}
    (hg : st.goroutines[i]? = some g) (hpc : g.pc = .deferred) : Pooled (st.release i g) := by
  have hinfos := st.addRef_same g.client (-1)
  unfold State.release
  split
  · next hclose =>
    apply (hp.dropRef i g).close (List.Nodup.of_map _ hw.distinct)
    · intro client hclient heq
      replace heq := ((hinfos client).1.symm.trans heq).trans (hinfos g.client).1
      exact hw.current g (List.mem_of_getElem? hg) (by simp [hpc]) trivial client hclient heq
    · exact (hinfos g.client).2.trans hclose.2
  · exact hp.dropRef i g

theorem pooled_step {a : Action} (hw : Wf (fun _ => True) st) (hok : Orderly (fun _ => True) st a)
    (h : step st a = some st') : Pooled st' := by
  cases step_cases h with
  | search | swap | spawn | cancel | die => exact hp.quiet rfl rfl rfl rfl rfl
  | event => exact hp.startEvent hw hok
  | register hfinder hnew => exact hp.registerDoppler hw (by rw [hfinder]; rfl) hnew
  | registered hfinder hnew =>
    refine hp.same rfl rfl (fun _ => ⟨rfl, rfl⟩) nofun (by rw [hfinder]; exact fun _ => id) ?_
    intro e he
    cases he
    exact hnew
  | scanned hfinder | skip hfinder | load hfinder | loadDead hfinder =>
    exact hp.same rfl rfl (fun _ => ⟨rfl, rfl⟩) nofun (by rw [hfinder]; exact fun _ => id) nofun
  | disable hfinder hdead => exact hp.disableClient hw hfinder hdead
  | @handled e hfinder hdead =>
    refine ⟨hp.registered, ?_, nofun, nofun⟩
    intro _ addr haddr
    rcases hp.event e (by rw [hfinder]; rfl) addr haddr with hnew | hserves
    · rw [hp.disabling e hfinder] at hnew
      cases hnew
    · exact hserves
  | added | refused => exact hp.quiet rfl rfl rfl rfl rfl
  | @addRef i g =>
    exact hp.same rfl rfl (st.addRef_same g.client 1) (fun hlock => ⟨hlock, rfl⟩) (fun _ => id)
      hp.disabling
  | run | leave => exact hp.quiet rfl rfl rfl rfl rfl
  | release hg hpc => exact hp.release hw hg hpc

end Pooled

/-- In a run with the conditions, the URIs of the last event that was handled have been
registered since they were closed, and the pool has their entries. -/
theorem advertised_keep_entry (n : Nat) (st : State)
    (hst : Reachable step (Orderly (fun _ => True)) (newGRPCConnector n) st) (hlock : st.Unlocked) :
    ∀ addr ∈ st.advertised, Registered st.pool addr ∧ addr ∈ dopplers st.pool := by
  have hinv : Wf (fun _ => True) st ∧ Pooled st := by
    apply hst.invariant ⟨wf_initial n, pooled_initial n⟩
    intro s a s' hs hok h
    exact ⟨wf_step hs.1 (fun _ => trivial) hok h, pooled_step hs.2 hs.1 hok h⟩
  intro addr haddr
  obtain ⟨client, hclient, rfl, -⟩ := hinv.2.advertised hlock addr haddr
  have hreg := hinv.2.registered client hclient
  exact ⟨hreg, (mem_dopplers _ _).mpr hreg⟩

/-- The address of a doppler. -/
def doppler : GoString := str "10.0.0.1:8082"

/-- A consumer subscribes, reads from the doppler, and loses it. The doppler comes back after
the goroutine has left. -/
def orderlyEvents : List Action :=
  [.subscribe 0, .call 0, .call 0, .call 0,
   .event [doppler], .finder, .finder, .finder, .finder, .finder, .finder,
   .goroutine 0, .goroutine 0, .goroutine 0, .goroutine 0, .stream 0,
   .event [], .finder, .finder, .finder, .fail 0, .goroutine 0, .goroutine 0, .goroutine 0,
   .event [doppler], .finder, .finder, .finder, .finder, .finder, .finder]

theorem orderlyEvents_keep_entry :
    ∃ st, run (guarded step (Orderly (fun _ => True))) (newGRPCConnector 1) orderlyEvents =
        some st ∧
      st.pool = [.registerDoppler doppler, .close doppler, .registerDoppler doppler] ∧
      doppler ∈ st.advertised ∧ doppler ∈ dopplers st.pool := by
  have hrun : (run (guarded step (Orderly (fun _ => True))) (newGRPCConnector 1)
      orderlyEvents).map (fun st => (st.pool, st.advertised, decide st.Unlocked)) =
      some ([.registerDoppler doppler, .close doppler, .registerDoppler doppler], [doppler],
        true) := by decide
  obtain ⟨st, hst, hfinal⟩ := Option.map_eq_some_iff.mp hrun
  simp only [Prod.mk.injEq, decide_eq_true_eq] at hfinal
  obtain ⟨hpool, hadvertised, hlock⟩ := hfinal
  have hmem : doppler ∈ st.advertised := by rw [hadvertised]; exact List.mem_cons_self
  exact ⟨st, hst, hpool, hmem,
    (advertised_keep_entry 1 st (Reachable.refl.of_guarded hst) hlock doppler hmem).2⟩

/-- The scan passes over empty slots. -/
theorem reachable_scan {ok : State → Action → Prop} (hok : ∀ st, ok st .finder) {s₀ st : State}
    {e : Event} {client i : Nat} {rest : List (Option Nat)} (hst : Reachable step ok s₀ st)
    (hfinder : st.finder = .load e client i) (hrest : st.consumerStates.drop i = rest)
    (hnone : ∀ slot ∈ rest, slot = none) :
    Reachable step ok s₀ { st with finder := .register e } := by
  have hslot : st.consumerStates[i]? = rest.head? := by rw [← hrest, List.head?_drop]
  induction rest generalizing st i with
  | nil =>
    apply hst.tail (hok st)
    simp only [step, State.stepFinder, hfinder, hslot, List.head?_nil]
  | cons slot rest ih =>
    cases hnone slot List.mem_cons_self
    have hrest' : st.consumerStates.drop (i + 1) = rest := by
      rw [← List.tail_drop, hrest, List.tail_cons]
    have hnext : step st .finder = some { st with finder := .load e client (i + 1) } := by
      simp only [step, State.stepFinder, hfinder, hslot, List.head?_cons]
    have hst' := hst.tail (hok st) hnext
    have hscan := ih hst' rfl hrest' (fun slot hmem => hnone slot (List.mem_cons_of_mem _ hmem))
      (by rw [← hrest', List.head?_drop])
    exact hscan

/-- An action, or a scan over slots that are all empty. -/
def stepOrScan (ok : State → Action → Prop) [∀ st a, Decidable (ok st a)] (st : State) :
    Option Action → Option State
  | some a => guarded step ok st a
  | none =>
    match st.finder with
    | .load e _ i =>
      if ∀ slot ∈ st.consumerStates.drop i, slot = none then
        some { st with finder := .register e }
      else none
    | _ => none

theorem reachable_of_stepOrScan {ok : State → Action → Prop} [∀ st a, Decidable (ok st a)]
    (hok : ∀ st, ok st .finder) {s₀ st st' : State} {as : List (Option Action)}
    (hst : Reachable step ok s₀ st) (hrun : run (stepOrScan ok) st as = some st') :
    Reachable step ok s₀ st' := by
  induction as generalizing st with
  | nil =>
    cases hrun
    exact hst
  | cons a as ih =>
    obtain ⟨st₁, hstep, hrest⟩ := Option.bind_eq_some_iff.mp hrun
    apply ih _ hrest
    cases a with
    | some a =>
      simp only [stepOrScan, guarded] at hstep
      split at hstep
      · next ha => exact hst.tail ha hstep
      · cases hstep
    | none =>
      simp only [stepOrScan] at hstep
      split at hstep
      · next hfinder =>
        split at hstep
        · next hnone =>
          cases hstep
          exact reachable_scan hok hst hfinder rfl hnone
        · cases hstep
      · cases hstep

/-- The lists of the finder events have no repetition. -/
def NoRepeat (_ : State) : Action → Prop
  | .event uris => uris.Nodup
  | _ => True

instance (st : State) (a : Action) : Decidable (NoRepeat st a) := by
  cases a <;> unfold NoRepeat <;> infer_instance

/-- A goroutine that was started for the first client of a doppler takes its reference only
after that client has been closed and the doppler has come back. -/
def lateGoroutine : List (Option Action) :=
  [some (.subscribe 0), some (.call 0), some (.call 0), some (.call 0),
   some (.event [doppler]), some .finder, some .finder, some .finder, none, some .finder,
   some .finder,
   some (.event []), some .finder, some .finder, some .finder,
   some (.event [doppler]), some .finder, some .finder, some .finder, none, some .finder,
   some .finder,
   some (.goroutine 0), some (.goroutine 0), some (.goroutine 0), some (.goroutine 0),
   some (.fail 0), some (.goroutine 0), some (.goroutine 0), some (.goroutine 0)]

/-- A doppler is advertised twice in one event and once in the next. -/
def repeatedUri : List (Option Action) :=
  [some (.event [doppler, doppler]), some .finder, none, some .finder, none, some .finder,
   some .finder, some (.event [doppler]), some .finder, some .finder, some .finder]

/-- The entry of an advertised doppler can be deleted, without a repetition in the events and
without a consumer. -/
theorem advertised_lose_entry :
    (∃ st, Reachable step NoRepeat (newGRPCConnector maxConnections) st ∧ st.Unlocked ∧
      doppler ∈ st.advertised ∧ ¬ Registered st.pool doppler ∧ doppler ∉ dopplers st.pool) ∧
    (∃ st, Reachable step Always (newGRPCConnector maxConnections) st ∧ st.Unlocked ∧
      st.goroutines = [] ∧ doppler ∈ st.advertised ∧ ¬ Registered st.pool doppler ∧
      doppler ∉ dopplers st.pool) := by
  constructor
  · have hrun : (run (stepOrScan NoRepeat) (newGRPCConnector maxConnections)
        lateGoroutine).map (fun st => (st.finder, st.advertised, st.pool)) =
        some (.idle, [doppler], [.close doppler, .registerDoppler doppler, .close doppler,
          .registerDoppler doppler]) := by decide +kernel
    obtain ⟨st, hst, hfinal⟩ := Option.map_eq_some_iff.mp hrun
    simp only [Prod.mk.injEq] at hfinal
    obtain ⟨hlock, hadvertised, hpool⟩ := hfinal
    refine ⟨st, reachable_of_stepOrScan (fun _ => trivial) .refl hst, hlock, ?_, ?_, ?_⟩
    · rw [hadvertised]
      exact List.mem_cons_self
    · simp [hpool, registered_close]
    · simp [hpool, mem_dopplers, registered_close]
  · have hrun : (run (stepOrScan Always) (newGRPCConnector maxConnections)
        repeatedUri).map (fun st => (st.finder, st.goroutines, st.advertised, st.pool)) =
        some (.idle, [], [doppler], [.close doppler, .registerDoppler doppler,
          .registerDoppler doppler]) := by decide +kernel
    obtain ⟨st, hst, hfinal⟩ := Option.map_eq_some_iff.mp hrun
    simp only [Prod.mk.injEq] at hfinal
    obtain ⟨hlock, hnone, hadvertised, hpool⟩ := hfinal
    refine ⟨st, reachable_of_stepOrScan (fun _ => trivial) .refl hst, hlock, hnone, ?_, ?_, ?_⟩
    · rw [hadvertised]
      exact List.mem_cons_self
    · simp [hpool, registered_close]
    · simp [hpool, mem_dopplers, registered_close]

end Loggregator.Plumbing.GrpcConnector
