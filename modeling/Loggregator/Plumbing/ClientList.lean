import Loggregator.Plumbing.PoolEntries
import Mathlib.Data.List.Perm.Basic

/-!
# The list of clients and the finder

`delta` is a difference of multisets: every occurrence of a URI in a finder event takes one
client out of the list of those to be disabled, or makes a new one. After an event the clients
that stay connected have the URIs of the event with the same repetitions (`Matched.idle`), so
they are one for each doppler exactly if the event lists no URI twice.

`RecentLogs` and `ContainerMetrics` ask every client in the list, the ones to be disconnected
included. For these to ask each doppler once, no earlier event may have repeated a URI either.
-/

namespace Loggregator.Plumbing.GrpcConnector

open Lib

/-- The clients that stay connected, with the URI of each, when those in `dead` are disabled. -/
def State.connected (st : State) (dead : List Nat) : List GoString :=
  (st.clients.filter (fun client => client ∉ dead && !(st.infos client).disconnect)).map
    (fun client => (st.infos client).uri)

/-- The clients with `disconnect = false` are one for each URI of the last event. -/
def State.Matches (st : State) : Prop :=
  (st.connected []).Nodup ∧ ∀ uri, uri ∈ st.connected [] ↔ uri ∈ st.advertised

/-- The dopplers that `RecentLogs` and `ContainerMetrics` call: one call for each client in the
list. -/
def State.queries (st : State) : List GoString :=
  st.clients.map (fun client => (st.infos client).uri)

/-- Each advertised doppler is queried exactly once. -/
def State.QueriedOnce (st : State) : Prop := ∀ uri ∈ st.advertised, st.queries.count uri = 1

/-! ## The difference of an event and the list -/

/-- `subtractClient` takes the first client of the URI out of the list. -/
theorem subtractClient_some {infos : Nat → DopplerClientInfo} {remaining : List Nat}
    {uri : GoString} {client : Nat}
    (h : remaining.find? (fun client => (infos client).uri = uri) = some client) :
    ∃ as bs, remaining = as ++ client :: bs ∧ (infos client).uri = uri ∧
      subtractClient infos remaining uri = (as ++ bs, true,
        Function.update infos client { infos client with disconnect := false }) := by
  obtain ⟨huri, as, bs, rfl, has⟩ := List.find?_eq_some_iff_append.mp h
  refine ⟨as, bs, rfl, of_decide_eq_true huri, ?_⟩
  rw [subtractClient, h]
  simp only
  rw [List.eraseP_append_right _ (by simpa using has)]
  simp [of_decide_eq_true huri]

/-- What `delta` finds: the clients that it keeps and the new URIs make up the event, and the
clients that it keeps are connected again. -/
theorem delta_perm (infos : Nat → DopplerClientInfo) {dead : List Nat} (hdead : dead.Nodup)
    (uris : List GoString) :
    (delta infos dead uris).2.1.Sublist dead ∧
    ((dead.filter (fun c => c ∉ (delta infos dead uris).2.1)).map (fun c => (infos c).uri) ++
      (delta infos dead uris).1).Perm uris ∧
    ∀ c, (delta infos dead uris).2.2 c =
      if c ∈ dead ∧ c ∉ (delta infos dead uris).2.1 then { infos c with disconnect := false }
      else infos c := by
  induction uris generalizing infos dead with
  | nil =>
    refine ⟨.refl _, ?_, ?_⟩
    · have hall : ∀ c ∈ dead, ¬ decide (c ∉ dead) = true := by
        intro c hc
        simp [hc]
      rw [delta, List.filter_eq_nil_iff.mpr hall]
      exact .refl _
    · intro c
      rw [if_neg (by simp [delta])]
      rfl
  | cons u uris ih =>
    cases hfind : dead.find? (fun client => (infos client).uri = u) with
    | none =>
      obtain ⟨hsub, hperm, hinfos⟩ := ih infos hdead
      have hd : delta infos dead (u :: uris) = (u :: (delta infos dead uris).1,
          (delta infos dead uris).2.1, (delta infos dead uris).2.2) := by
        rw [delta, subtractClient, hfind]
      rw [hd]
      exact ⟨hsub, List.perm_middle.trans (hperm.cons u), hinfos⟩
    | some client =>
      obtain ⟨as, bs, rfl, huri, hsubtract⟩ := subtractClient_some hfind
      have hnodup := List.nodup_middle.mp hdead
      rw [List.nodup_cons] at hnodup
      -- `client` is kept: the rest of the event works on the list without it
      have hd : delta infos (as ++ client :: bs) (u :: uris) =
          delta (Function.update infos client { infos client with disconnect := false })
            (as ++ bs) uris := by
        rw [delta, hsubtract]
      obtain ⟨hsub, hperm, hinfos⟩ := ih
        (Function.update infos client { infos client with disconnect := false }) hnodup.2
      rw [hd]
      have hkept : client ∉ (delta (Function.update infos client
          { infos client with disconnect := false }) (as ++ bs) uris).2.1 :=
        fun h => hnodup.1 (hsub.subset h)
      refine ⟨hsub.trans ((List.sublist_cons_self client bs).append_left as), ?_, ?_⟩
      · have hrest : ∀ c ∈ as ++ bs, c ≠ client := fun c hc heq => hnodup.1 (heq ▸ hc)
        rw [List.map_congr_left (g := fun c => (infos c).uri)
          (fun c hc => by rw [Function.update_of_ne (hrest c (List.mem_of_mem_filter hc))])]
          at hperm
        refine List.Perm.trans ?_ (hperm.cons u)
        rw [← List.cons_append, ← huri]
        apply List.Perm.append_right
        rw [← List.map_cons (f := fun c => (infos c).uri), ← List.filter_cons_of_pos
          (p := fun c => c ∉ (delta (Function.update infos client
            { infos client with disconnect := false }) (as ++ bs) uris).2.1)
          (decide_eq_true hkept)]
        exact (List.perm_middle.filter _).map _
      · intro c
        rw [hinfos]
        by_cases hc : c = client
        · subst hc
          rw [if_neg (fun h => hnodup.1 h.1), if_pos ⟨by simp, hkept⟩, Function.update_self]
        · rw [Function.update_of_ne hc]
          simp only [List.mem_append, List.mem_cons, hc, false_or]

/-! ## The invariant -/

/-- The list has no client twice, and the clients that stay connected have the URIs of the
event, as often as it lists them. -/
structure Matched (st : State) : Prop where
  nodup : st.clients.Nodup
  allocated : ∀ client ∈ st.clients, client < st.nextClient
  idle : st.Unlocked → (st.connected []).Perm st.advertised
  event : ∀ e ∈ st.finder.event, (st.connected e.deadClients ++ e.newURIs).Perm e.uris
  dead : ∀ e ∈ st.finder.event, e.deadClients.Nodup ∧ ∀ c ∈ e.deadClients, c < st.nextClient
  disabling : ∀ e, st.finder = .disable e → e.newURIs = []

section Matched

variable {st st' : State}

theorem matched_initial (n : Nat) : Matched (newGRPCConnector n) :=
  ⟨List.nodup_nil, nofun, fun _ => .refl _, nofun, nofun, nofun⟩

theorem State.connected_congr (hclients : st'.clients = st.clients)
    (hinfos : ∀ c ∈ st.clients, (st'.infos c).uri = (st.infos c).uri ∧
      (st'.infos c).disconnect = (st.infos c).disconnect) (dead : List Nat) :
    st'.connected dead = st.connected dead := by
  unfold State.connected
  rw [hclients, List.filter_congr (fun c hc => by rw [(hinfos c hc).2]),
    List.map_congr_left (fun c hc => (hinfos c (List.mem_of_mem_filter hc)).1)]

section

variable (hm : Matched st)
include hm

section

variable (hclients : st'.clients = st.clients)
include hclients

/-- What keeps the list and the flags, while `handleFinderEvent` is at the same event. -/
theorem Matched.same (hnext : st'.nextClient = st.nextClient)
    (hinfos : ∀ c, (st'.infos c).uri = (st.infos c).uri ∧
      (st'.infos c).disconnect = (st.infos c).disconnect)
    (hidle : st'.Unlocked → st.Unlocked ∧ st'.advertised = st.advertised)
    (hevent : ∀ e ∈ st'.finder.event, e ∈ st.finder.event)
    (hdisabling : ∀ e, st'.finder = .disable e → e.newURIs = []) : Matched st' := by
  have hconnected := State.connected_congr hclients (fun c _ => hinfos c)
  refine ⟨hclients ▸ hm.nodup, ?_, ?_, ?_, ?_, hdisabling⟩
  · rw [hclients, hnext]
    exact hm.allocated
  · intro hlock
    obtain ⟨hlock, hadv⟩ := hidle hlock
    rw [hconnected, hadv]
    exact hm.idle hlock
  · intro e he
    rw [hconnected]
    exact hm.event e (hevent e he)
  · intro e he
    rw [hnext]
    exact hm.dead e (hevent e he)

/-- What leaves `handleFinderEvent` where it is. -/
theorem Matched.quiet (hnext : st'.nextClient = st.nextClient)
    (hinfos : ∀ c, (st'.infos c).uri = (st.infos c).uri ∧
      (st'.infos c).disconnect = (st.infos c).disconnect)
    (hadvertised : st'.advertised = st.advertised) (hfinder : st'.finder = st.finder) :
    Matched st' := by
  refine hm.same hclients hnext hinfos (fun h => ⟨hfinder.symm.trans h, hadvertised⟩) ?_ ?_
  · rw [hfinder]
    exact fun _ => id
  · rw [hfinder]
    exact hm.disabling

/-- Without a change of the clients. -/
theorem Matched.unchanged (hnext : st'.nextClient = st.nextClient) (hinfos : st'.infos = st.infos)
    (hadvertised : st'.advertised = st.advertised) (hfinder : st'.finder = st.finder) :
    Matched st' :=
  hm.quiet hclients hnext (fun _ => by rw [hinfos]; exact ⟨rfl, rfl⟩) hadvertised hfinder

end

/-- `handleFinderEvent` goes on without a change. -/
theorem Matched.goOn {finder : Finder} {l : List Goroutine} (hlock : finder ≠ .idle)
    (hevent : ∀ e ∈ finder.event, e ∈ st.finder.event)
    (hdisabling : ∀ e, finder = .disable e → e.newURIs = []) :
    Matched { st with finder := finder, goroutines := l } :=
  hm.same rfl rfl (fun _ => ⟨rfl, rfl⟩) (fun h => absurd h hlock) hevent hdisabling

/-- Only a client that is to be disconnected is closed. -/
theorem Matched.close {client : Nat} (hdis : (st.infos client).disconnect = true) :
    Matched (st.close client) := by
  have hconnected : ∀ dead, (st.close client).connected dead = st.connected dead := by
    intro dead
    simp only [State.connected, State.close, hm.nodup.erase_eq_filter, List.filter_filter]
    rw [List.filter_congr]
    intro c _
    by_cases hc : c = client
    · subst hc
      simp [hdis]
    · simp [hc]
  refine ⟨hm.nodup.erase _, fun c hc => hm.allocated c (List.mem_of_mem_erase hc), ?_, ?_,
    hm.dead, hm.disabling⟩
  · rw [hconnected]
    exact hm.idle
  · intro e he
    rw [hconnected]
    exact hm.event e he

theorem Matched.startEvent (uris : List GoString) :
    Matched (st.startEvent uris) := by
  obtain ⟨hsub, hperm, hinfos⟩ := delta_perm st.infos hm.nodup uris
  refine ⟨hm.nodup, hm.allocated, nofun, ?_, ?_, nofun⟩
  · intro e he
    cases he
    refine List.Perm.trans (List.Perm.append_right _ (.of_eq ?_)) hperm
    -- a client that `delta` keeps is connected and has its URI
    unfold State.connected State.startEvent
    have hkept : ∀ c ∈ st.clients, c ∉ (delta st.infos st.clients uris).2.1 →
        (delta st.infos st.clients uris).2.2 c = { st.infos c with disconnect := false } := by
      intro c hc hdead
      rw [hinfos, if_pos ⟨hc, hdead⟩]
    have hfilter : ∀ c ∈ st.clients, (decide (c ∉ (delta st.infos st.clients uris).2.1) &&
        !((delta st.infos st.clients uris).2.2 c).disconnect) =
          decide (c ∉ (delta st.infos st.clients uris).2.1) := by
      intro c hc
      by_cases hdead : c ∈ (delta st.infos st.clients uris).2.1
      · simp [hdead]
      · rw [hkept c hc hdead]
        simp
    rw [List.filter_congr hfilter]
    exact List.map_congr_left (fun c _ => delta_uri st.infos st.clients uris c)
  · intro e he
    cases he
    exact ⟨hm.nodup.sublist hsub, fun c hc => hm.allocated c (hsub.subset hc)⟩

theorem Matched.registerDoppler {e : Event} {addr : GoString} {newURIs : List GoString}
    (he : e ∈ st.finder.event) (hnew : e.newURIs = addr :: newURIs) :
    Matched (st.registerDoppler addr { e with newURIs := newURIs }) := by
  have hne : ∀ c ∈ st.clients, c ≠ st.nextClient := fun c hc => (hm.allocated c hc).ne
  obtain ⟨hdead, halloc⟩ := hm.dead e he
  refine ⟨?_, ?_, nofun, ?_, ?_, nofun⟩
  · rw [State.registerDoppler, List.nodup_append]
    refine ⟨hm.nodup, List.nodup_singleton _, ?_⟩
    intro c hc d hd
    rw [List.mem_singleton.mp hd]
    exact hne c hc
  · intro c hc
    rcases List.mem_append.mp hc with hc | hc
    · exact (hm.allocated c hc).trans (Nat.lt_succ_self _)
    · rw [List.mem_singleton.mp hc]
      exact Nat.lt_succ_self _
  · intro e' he'
    cases he'
    have hconnected : (st.registerDoppler addr { e with newURIs := newURIs }).connected
        e.deadClients = st.connected e.deadClients ++ [addr] := by
      have hold : ∀ c ∈ st.clients, Function.update st.infos st.nextClient { uri := addr } c =
          st.infos c := fun c hc => Function.update_of_ne (hne c hc) _ _
      have hnot : st.nextClient ∉ e.deadClients := fun h => (halloc _ h).false
      simp only [State.connected, State.registerDoppler, List.filter_append, List.map_append]
      rw [List.filter_congr (fun c hc => by rw [hold c hc]),
        List.map_congr_left (fun c hc => by rw [hold c (List.mem_of_mem_filter hc)])]
      simp [hnot]
    rw [hconnected, List.append_assoc, List.singleton_append, ← hnew]
    exact hm.event e he
  · intro e' he'
    cases he'
    exact ⟨hdead, fun c hc => (halloc c hc).trans (Nat.lt_succ_self _)⟩

theorem Matched.disableClient {e : Event} {client : Nat} {rest : List Nat}
    (hfinder : st.finder = .disable e) (hdead : e.deadClients = client :: rest) :
    Matched (st.disableClient client { e with deadClients := rest }) := by
  obtain ⟨hnodup, halloc⟩ := hm.dead e (by rw [hfinder]; rfl)
  rw [hdead, List.nodup_cons] at hnodup
  have hdis : Matched { st.modifyInfo client (fun info => { info with disconnect := true }) with
      finder := .disable { e with deadClients := rest } } := by
    refine ⟨hm.nodup, hm.allocated, nofun, ?_, ?_, ?_⟩
    · intro e' he'
      cases he'
      refine List.Perm.trans (List.Perm.append_right _ (.of_eq ?_))
        (hm.event e (by rw [hfinder]; rfl))
      -- the client leaves the list of those to be disabled as it is disabled
      unfold State.connected
      rw [List.filter_congr (q := fun c => c ∉ e.deadClients && !(st.infos c).disconnect)]
      · exact List.map_congr_left (fun c _ => st.modifyInfo_uri client
          (f := fun info => { info with disconnect := true }) (fun _ => rfl) c)
      · intro c _
        by_cases hc : c = client
        · subst hc
          simp [hdead, State.modifyInfo]
        · simp [hdead, hc, State.modifyInfo]
    · intro e' he'
      cases he'
      exact ⟨hnodup.2, fun c hc => halloc c (hdead ▸ List.mem_cons_of_mem _ hc)⟩
    · intro e' he'
      cases he'
      exact hm.disabling e hfinder
  unfold State.disableClient
  split
  · exact hdis.close (by simp [State.modifyInfo])
  · exact hdis

/-- The deferred block closes only a client that is to be disconnected. -/
theorem Matched.release (i : Nat) (g : Goroutine) :
    Matched (st.release i g) := by
  have hinfos := ((st.goto i g .returned).addRef_same g.client (-1))
  have hdrop : Matched (st.dropRef i g) := hm.quiet rfl rfl hinfos rfl rfl
  unfold State.release
  split
  · next hclose => exact hdrop.close ((hinfos g.client).2.trans hclose.2)
  · exact hdrop

theorem matched_step {a : Action} (h : step st a = some st') : Matched st' := by
  cases step_cases h with
  | search | swap | spawn | cancel | die => exact hm.unchanged rfl rfl rfl rfl rfl
  | event => exact hm.startEvent _
  | register hfinder hnew => exact hm.registerDoppler (by rw [hfinder]; rfl) hnew
  | registered hfinder hnew =>
    refine hm.goOn (by simp) (by rw [hfinder]; exact fun _ => id) ?_
    intro e he
    cases he
    exact hnew
  | scanned hfinder | skip hfinder | load hfinder | loadDead hfinder =>
    exact hm.goOn (by simp) (by rw [hfinder]; exact fun _ => id) (by simp)
  | disable hfinder hdead => exact hm.disableClient hfinder hdead
  | @handled e hfinder hdead =>
    refine ⟨hm.nodup, hm.allocated, ?_, nofun, nofun, nofun⟩
    intro _
    have hperm := hm.event e (by rw [hfinder]; rfl)
    rwa [hdead, hm.disabling e hfinder, List.append_nil] at hperm
  | added | refused => exact hm.unchanged rfl rfl rfl rfl rfl
  | addRef => exact hm.quiet rfl rfl (State.addRef_same _ _ _) rfl rfl
  | run | leave => exact hm.unchanged rfl rfl rfl rfl rfl
  | release => exact hm.release _ _

end

/-- After every event the clients that stay connected are those of the event. -/
theorem matched_reachable {ok : State → Action → Prop} {n : Nat}
    (hst : Reachable step ok (newGRPCConnector n) st) : Matched st :=
  hst.invariant (matched_initial n) (fun _ _ _ hm _ => matched_step hm)

theorem wf_noRepeat {n : Nat} (hst : Reachable step NoRepeat (newGRPCConnector n) st) :
    Wf (fun _ => False) st := by
  refine hst.invariant (wf_initial n) ?_
  intro s a s' hw hok hstep
  refine wf_step hw id ?_ hstep
  cases a with
  | event uris => exact hok
  | finder => exact fun _ _ _ _ _ hdone => hdone.elim
  | _ => trivial

theorem Matched.matches_iff (hm : Matched st) (hlock : st.Unlocked) :
    st.Matches ↔ st.advertised.Nodup := by
  have hperm := hm.idle hlock
  rw [State.Matches, hperm.nodup_iff]
  exact and_iff_left (fun uri => hperm.mem_iff)

end Matched

/-- After every finder event the clients with `disconnect = false` are one for each of its URIs
exactly if it lists no URI twice, and in a run without repetitions each advertised doppler is
queried exactly once. -/
theorem clients_match_iff {n : Nat} {st : State} (hlock : st.Unlocked) :
    (Reachable step Always (newGRPCConnector n) st → (st.Matches ↔ st.advertised.Nodup)) ∧
    (Reachable step NoRepeat (newGRPCConnector n) st → st.Matches ∧ st.QueriedOnce) := by
  refine ⟨fun hst => (matched_reachable hst).matches_iff hlock, ?_⟩
  intro hst
  have hm := matched_reachable hst
  have hperm := hm.idle hlock
  have hdistinct := (wf_noRepeat hst).distinct
  have hsub : (st.connected []).Sublist st.queries := List.filter_sublist.map _
  constructor
  · exact (hm.matches_iff hlock).mpr (hperm.nodup_iff.mp (hdistinct.sublist hsub))
  · intro uri huri
    exact List.count_eq_one_of_mem hdistinct (hsub.subset (hperm.mem_iff.mpr huri))

/-- A doppler leaves while a consumer still reads from it. -/
def lingeringClient : List Action :=
  [.subscribe 0, .call 0, .call 0, .call 0,
   .event [doppler, str "10.0.0.2:8082"], .finder, .finder, .finder, .finder, .finder, .finder,
   .finder, .finder, .finder, .finder,
   .goroutine 1, .goroutine 1,
   .event [doppler], .finder, .finder, .finder]

/-- The client that lingers is queried, but is none of those that stay connected. -/
theorem lingeringClient_matches :
    ∃ st, run (guarded step NoRepeat) (newGRPCConnector 1) lingeringClient = some st ∧
      st.Unlocked ∧ st.queries = [doppler, str "10.0.0.2:8082"] ∧ st.Matches ∧
      st.QueriedOnce := by
  have hrun : (run (guarded step NoRepeat) (newGRPCConnector 1) lingeringClient).map
      (fun st => (decide st.Unlocked, st.queries)) =
      some (true, [doppler, str "10.0.0.2:8082"]) := by decide
  obtain ⟨st, hst, hfinal⟩ := Option.map_eq_some_iff.mp hrun
  simp only [Prod.mk.injEq, decide_eq_true_eq] at hfinal
  obtain ⟨hlock, hqueries⟩ := hfinal
  exact ⟨st, hst, hlock, hqueries,
    (clients_match_iff hlock).2 (Reachable.refl.of_guarded hst)⟩

/-- A finder event that lists a doppler twice makes two clients for it, and both are
queried. -/
theorem repeated_uri_queried_twice :
    ∃ st, Reachable step Always (newGRPCConnector maxConnections) st ∧ st.Unlocked ∧
      st.advertised = [doppler, doppler] ∧ st.queries = [doppler, doppler] ∧ ¬ st.Matches ∧
      ¬ st.QueriedOnce := by
  have hrun : (run (stepOrScan Always) (newGRPCConnector maxConnections)
      (repeatedUri.take 7)).map (fun st => (st.finder, st.advertised, st.queries,
        st.connected [])) =
      some (.idle, [doppler, doppler], [doppler, doppler], [doppler, doppler]) := by
    decide +kernel
  obtain ⟨st, hst, hfinal⟩ := Option.map_eq_some_iff.mp hrun
  simp only [Prod.mk.injEq] at hfinal
  obtain ⟨hlock, hadvertised, hqueries, hconnected⟩ := hfinal
  refine ⟨st, reachable_of_stepOrScan (fun _ => trivial) .refl hst, hlock, hadvertised,
    hqueries, ?_, ?_⟩
  · intro hmatch
    rw [State.Matches, hconnected] at hmatch
    exact absurd hmatch.1 (by decide)
  · intro honce
    rw [State.QueriedOnce, hadvertised, hqueries] at honce
    exact absurd (honce doppler List.mem_cons_self) (by decide)

end Loggregator.Plumbing.GrpcConnector
