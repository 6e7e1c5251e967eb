import Loggregator.SyslogDrainBinder.Elector
import Loggregator.SyslogDrainBinder.Poller

/-!
# The loop of the syslog drain binder

`syslog_drain_binder/main.go`, for any number of binders that share a store. In each turn of its
loop a binder runs for the election or confirms that it is the leader, polls the cloud controller,
and sets the drains. It vacates the leadership after any error. The map of bindings is ranged over
in any order, and `SetMulti` can report an error when it has set some of its nodes.

A binder that sets drains is the leader, or the key of the election has expired since its last
success. The store has only drains of a list that a leader has polled, and after a turn without an
error it has all of the last one.
-/

namespace Loggregator.SyslogDrainBinder.MainLoop

open Lib
open Election (System Elector Held)
open Poller (Reply Outcome)

/-! ## Model -/

/-- What the loop uses of the configuration. The intervals are in seconds. -/
structure Config where
  instanceName : GoString
  updateInterval : UInt64
  drainUrlTtl : UInt64
  cloudControllerAddress : GoString
  pollingBatchSize : Int64

/-- Where a binder is in the loop of `main`. -/
inductive Turn where
  /-- Before the next tick. -/
  | waiting
  /-- In `StayAsLeader` or `RunForElection`. -/
  | electing
  | polling
  /-- In `UpdateDrains`, with the applications that are still to come. -/
  | updating (bindings : AllSyslogDrainBindings) (remaining : List GoString)
  | vacating

/-- The binders, with the electors and the drains in the store. -/
structure State (ι : Type) where
  election : System ι
  turn : ι → Turn
  drains : Dict GoString StoreNode := ∅

/-- The actions: a tick and the operations of the elector, the end of the election, that of `Poll`
with the replies to its requests, `updateAppDrains` with the nodes that were set, the end of
`UpdateDrains` and of `Vacate`, and the expiry of the key of the election or of a drain. -/
inductive Action (ι : Type) where
  | tick (i : ι)
  | store (i : ι) (effect : Bool) (err : Option Election.StoreError)
  | setLeader (i : ι)
  | elected (i : ι)
  | poll (i : ι) (replies : List Reply)
  | setMulti (i : ι) (appId : GoString) (nodes : List StoreNode) (err : Bool)
  | updated (i : ι)
  | vacated (i : ι)
  | expire
  | expireDrain (key : GoString)
  deriving DecidableEq

variable {ι : Type} [DecidableEq ι]

namespace State

/-- A step of the electors. -/
def elect (st : State ι) (a : Election.Action ι) : Option (State ι) :=
  (Election.step st.election a).map (fun election => { st with election := election })

/-- A binder goes on. -/
def goto (st : State ι) (i : ι) (turn : Turn) : State ι :=
  { st with turn := Function.update st.turn i turn }

/-- The call of `Vacate` after an error. -/
def vacate (st : State ι) (i : ι) : Option (State ι) :=
  (st.elect (.vacate i)).map (fun st => st.goto i .vacating)

/-- `SetMulti`, for the nodes that were set. -/
def set (st : State ι) (nodes : List StoreNode) : State ι :=
  { st with drains := nodes.foldl (fun drains node => drains.insert node.key node) st.drains }

end State

section Step

variable (conf : ι → Config)

/-- The result of `Poll` for a binder. -/
def pollFor (i : ι) (replies : List Reply) : Option Outcome :=
  Poller.poll (conf i).cloudControllerAddress (conf i).pollingBatchSize replies

/-- One action. `StayAsLeader` and `RunForElection` return an error just when the elector is not the
leader after them. -/
def step (st : State ι) : Action ι → Option (State ι)
  | .tick i =>
    match st.turn i with
    | .waiting =>
      (st.elect (if (st.election.elector i).isLeader then .stayAsLeader i
        else .runForElection i)).map (fun st => st.goto i .electing)
    | _ => none
  | .store i effect err => st.elect (.store i effect err)
  | .setLeader i => st.elect (.setLeader i)
  | .expire => st.elect .expire
  | .elected i =>
    match st.turn i, (st.election.elector i).pc with
    | .electing, .idle =>
      if (st.election.elector i).isLeader then some (st.goto i .polling) else st.vacate i
    | _, _ => none
  | .poll i replies =>
    match st.turn i, pollFor conf i replies with
    | .polling, some o =>
      match o.err with
      | some _ => st.vacate i
      | none =>
        let drainBindings := filter o.drainURLs
        some (st.goto i (.updating drainBindings drainBindings.keys))
    | _, _ => none
  | .setMulti i appId nodes err =>
    match st.turn i with
    | .updating bindings remaining =>
      match bindings.lookup appId with
      | none => none
      | some binding =>
        let all := updateAppDrains (conf i).drainUrlTtl appId binding
        if appId ∈ remaining ∧ (∀ node ∈ nodes, node ∈ all) ∧
            (if err then all ≠ [] else ∀ node ∈ all, node ∈ nodes) then
          if err then (st.set nodes).vacate i
          else some ((st.set nodes).goto i (.updating bindings (remaining.erase appId)))
        else none
    | _ => none
  | .updated i =>
    match st.turn i with
    | .updating _ [] => some (st.goto i .waiting)
    | _ => none
  | .vacated i =>
    match st.turn i, (st.election.elector i).pc with
    | .vacating, .idle => some (st.goto i .waiting)
    | _, _ => none
  | .expireDrain key => some { st with drains := st.drains.erase key }

/-- The binders at their start, with whatever is at the key of the election. -/
def initial (key : Election.Key) : State ι where
  election :=
    Election.initial (fun i => (conf i).instanceName) (fun i => (conf i).updateInterval) key
  turn _ := .waiting

/-! ## What an action can do -/

/-- An operation of an elector, or the expiry of its key, as an action here and there. -/
inductive Operation : Action ι → Election.Action ι → Prop where
  | store (i : ι) (effect : Bool) (err : Option Election.StoreError) :
      Operation (.store i effect err) (.store i effect err)
  | setLeader (i : ι) : Operation (.setLeader i) (.setLeader i)
  | expire : Operation .expire .expire

/-- The actions by what they change. -/
inductive Step (st : State ι) : Action ι → State ι → Prop where
  | elector {a : Action ι} {ea : Election.Action ι} {election : System ι} (hea : Operation a ea)
      (helection : Election.step st.election ea = some election) :
      Step st a { st with election := election }
  | tick {i : ι} {ea : Election.Action ι} {election : System ι} (hturn : st.turn i = .waiting)
      (hea : ea = .stayAsLeader i ∨ ea = .runForElection i)
      (helection : Election.step st.election ea = some election) :
      Step st (.tick i) (State.goto { st with election := election } i .electing)
  | won {i : ι} (hturn : st.turn i = .electing) (hidle : (st.election.elector i).pc = .idle)
      (hleader : (st.election.elector i).isLeader = true) :
      Step st (.elected i) (st.goto i .polling)
  | failed {a : Action ι} {i : ι} {election : System ι}
      (ha : a = .elected i ∧ st.turn i = .electing ∨
        ∃ replies, a = .poll i replies ∧ st.turn i = .polling)
      (helection : Election.step st.election (.vacate i) = some election) :
      Step st a (State.goto { st with election := election } i .vacating)
  | polled {i : ι} {replies : List Reply} {o : Outcome} (hturn : st.turn i = .polling)
      (hpoll : pollFor conf i replies = some o) (herr : o.err = none) :
      Step st (.poll i replies)
        (st.goto i (.updating (filter o.drainURLs) (filter o.drainURLs).keys))
  | set {i : ι} {appId : GoString} {nodes : List StoreNode} {bindings : AllSyslogDrainBindings}
      {remaining : List GoString} {binding : SyslogDrainBinding}
      (hturn : st.turn i = .updating bindings remaining)
      (hlookup : bindings.lookup appId = some binding)
      (hnodes : ∀ node ∈ nodes, node ∈ updateAppDrains (conf i).drainUrlTtl appId binding)
      (hall : ∀ node ∈ updateAppDrains (conf i).drainUrlTtl appId binding, node ∈ nodes) :
      Step st (.setMulti i appId nodes false)
        ((st.set nodes).goto i (.updating bindings (remaining.erase appId)))
  | setFailed {i : ι} {appId : GoString} {nodes : List StoreNode}
      {bindings : AllSyslogDrainBindings} {remaining : List GoString}
      {binding : SyslogDrainBinding} {election : System ι}
      (hturn : st.turn i = .updating bindings remaining)
      (hlookup : bindings.lookup appId = some binding)
      (hnodes : ∀ node ∈ nodes, node ∈ updateAppDrains (conf i).drainUrlTtl appId binding)
      (helection : Election.step st.election (.vacate i) = some election) :
      Step st (.setMulti i appId nodes true)
        (State.goto { st.set nodes with election := election } i .vacating)
  | updated {i : ι} {bindings : AllSyslogDrainBindings}
      (hturn : st.turn i = .updating bindings []) : Step st (.updated i) (st.goto i .waiting)
  | vacated {i : ι} (hturn : st.turn i = .vacating)
      (hidle : (st.election.elector i).pc = .idle) : Step st (.vacated i) (st.goto i .waiting)
  | expireDrain {key : GoString} :
      Step st (.expireDrain key) { st with drains := st.drains.erase key }

variable {conf} {st st' : State ι}

theorem elect_eq_some {ea : Election.Action ι} (h : st.elect ea = some st') :
    ∃ election, Election.step st.election ea = some election ∧
      st' = { st with election := election } := by
  obtain ⟨election, helection, rfl⟩ := Option.map_eq_some_iff.mp h
  exact ⟨election, helection, rfl⟩

theorem vacate_eq_some {i : ι} (h : st.vacate i = some st') :
    ∃ election, Election.step st.election (.vacate i) = some election ∧
      st' = State.goto { st with election := election } i .vacating := by
  obtain ⟨st₁, hst₁, rfl⟩ := Option.map_eq_some_iff.mp h
  obtain ⟨election, helection, rfl⟩ := elect_eq_some hst₁
  exact ⟨election, helection, rfl⟩

theorem step_cases {a : Action ι} (h : step conf st a = some st') : Step conf st a st' := by
  cases a with
  | tick i =>
    simp only [step] at h
    split at h
    · next hturn =>
      obtain ⟨st₁, hst₁, rfl⟩ := Option.map_eq_some_iff.mp h
      obtain ⟨election, helection, rfl⟩ := elect_eq_some hst₁
      refine .tick hturn ?_ helection
      split
      · exact .inl rfl
      · exact .inr rfl
    · cases h
  | store i effect err =>
    obtain ⟨election, helection, rfl⟩ := elect_eq_some h
    exact .elector (.store i effect err) helection
  | setLeader i =>
    obtain ⟨election, helection, rfl⟩ := elect_eq_some h
    exact .elector (.setLeader i) helection
  | expire =>
    obtain ⟨election, helection, rfl⟩ := elect_eq_some h
    exact .elector .expire helection
  | elected i =>
    simp only [step] at h
    split at h
    · next hturn hidle =>
      split at h
      · next hleader =>
        cases h
        exact .won hturn hidle hleader
      · obtain ⟨election, helection, rfl⟩ := vacate_eq_some h
        exact .failed (.inl ⟨rfl, hturn⟩) helection
    · cases h
  | poll i replies =>
    simp only [step] at h
    split at h
    · next o hturn hpoll =>
      split at h
      · obtain ⟨election, helection, rfl⟩ := vacate_eq_some h
        exact .failed (.inr ⟨replies, rfl, hturn⟩) helection
      · next herr =>
        cases h
        exact .polled hturn hpoll herr
    · cases h
  | setMulti i appId nodes err =>
    simp only [step] at h
    split at h
    · next bindings remaining hturn =>
      split at h
      · cases h
      · next binding hlookup =>
        cases err with
        | true =>
          simp only [if_true] at h
          split at h
          · next hset =>
            obtain ⟨election, helection, rfl⟩ := vacate_eq_some h
            exact .setFailed hturn hlookup hset.2.1 helection
          · cases h
        | false =>
          simp only [Bool.false_eq_true, if_false] at h
          split at h
          · next hset =>
            cases h
            exact .set hturn hlookup hset.2.1 hset.2.2
          · cases h
    · cases h
  | updated i =>
    simp only [step] at h
    split at h
    · next hturn =>
      cases h
      exact .updated hturn
    · cases h
  | vacated i =>
    simp only [step] at h
    split at h
    · next hturn hidle =>
      cases h
      exact .vacated hturn hidle
    · cases h
  | expireDrain key =>
    cases h
    exact .expireDrain

end Step

/-! ## The leader -/

section Leader

variable {s s' : System ι}

/-- An elector whose call has returned makes no operation, so a step that is no call of its own
leaves its flag. -/
theorem elector_of_step {ea : Election.Action ι} (h : Election.step s ea = some s') {i : ι}
    (hidle : (s.elector i).pc = .idle)
    (hown : ea ≠ .runForElection i ∧ ea ≠ .stayAsLeader i ∧ ea ≠ .vacate i) :
    (s'.elector i).pc = .idle ∧ (s'.elector i).isLeader = (s.elector i).isLeader := by
  have hset : ∀ {j : ι} {e : Elector} {key : Election.Key}, i ≠ j →
      s' = { s.set j e with key := key } →
      (s'.elector i).pc = .idle ∧ (s'.elector i).isLeader = (s.elector i).isLeader := by
    rintro j e key hne rfl
    have hsame : (s.set j e).elector i = s.elector i := Function.update_of_ne hne _ _
    exact ⟨(congrArg Elector.pc hsame).trans hidle, congrArg Elector.isLeader hsame⟩
  cases ea with
  | runForElection j =>
    obtain ⟨e, -, rfl⟩ := Option.map_eq_some_iff.mp h
    exact hset (by rintro rfl; exact hown.1 rfl) rfl
  | stayAsLeader j =>
    obtain ⟨e, -, rfl⟩ := Option.map_eq_some_iff.mp h
    exact hset (by rintro rfl; exact hown.2.1 rfl) rfl
  | vacate j =>
    obtain ⟨e, -, rfl⟩ := Option.map_eq_some_iff.mp h
    exact hset (by rintro rfl; exact hown.2.2 rfl) rfl
  | setLeader j =>
    obtain ⟨e, he, rfl⟩ := Option.map_eq_some_iff.mp h
    refine hset ?_ rfl
    rintro rfl
    simp [Elector.setLeader, hidle] at he
  | store j effect err =>
    have hne : i ≠ j := by
      rintro rfl
      simp [Election.step, Elector.operation, hidle] at h
    simp only [Election.step] at h
    split at h
    · cases h
    · split at h
      · obtain ⟨key, -, rfl⟩ := Option.map_eq_some_iff.mp h
        exact hset hne rfl
      · split at h
        · cases h
          exact hset hne rfl
        · cases h
  | expire =>
    simp only [Election.step] at h
    split at h
    · cases h
      exact ⟨hidle, rfl⟩
    · cases h

end Leader

/-- The part of a turn in which the drains are polled and set. -/
def Turn.Leads : Turn → Prop
  | .polling | .updating _ _ => True
  | .waiting | .electing | .vacating => False

/-- A binder polls and sets drains only as the leader. -/
def Led (st : State ι) : Prop :=
  ∀ i, (st.turn i).Leads →
    (st.election.elector i).pc = .idle ∧ (st.election.elector i).isLeader = true

section Led

variable {conf : ι → Config} {st st' : State ι} {key : Election.Key}

/-- A binder goes on, and the electors are as their step leaves them. -/
theorem Led.goto (hl : Led st) {i : ι} {turn : Turn} {election : System ι}
    {drains : Dict GoString StoreNode}
    (hi : turn.Leads → (election.elector i).pc = .idle ∧ (election.elector i).isLeader = true)
    (hothers : ∀ j, j ≠ i → (st.turn j).Leads → (election.elector j).pc = .idle ∧
      (election.elector j).isLeader = (st.election.elector j).isLeader) :
    Led (State.goto { st with election := election, drains := drains } i turn) := by
  intro j hj
  by_cases hji : j = i
  · subst hji
    simp only [State.goto, Function.update_self] at hj
    exact hi hj
  · simp only [State.goto, Function.update_of_ne hji] at hj
    obtain ⟨hpc, hleader⟩ := hothers j hji hj
    exact ⟨hpc, hleader.trans (hl j hj).2⟩

theorem led_step {a : Action ι} (hl : Led st) (h : step conf st a = some st') : Led st' := by
  have hothers : ∀ {ea : Election.Action ι} {election : System ι} {j : ι},
      Election.step st.election ea = some election →
      (ea ≠ .runForElection j ∧ ea ≠ .stayAsLeader j ∧ ea ≠ .vacate j) → (st.turn j).Leads →
      (election.elector j).pc = .idle ∧
        (election.elector j).isLeader = (st.election.elector j).isLeader :=
    fun helection hown hj => elector_of_step helection (hl _ hj).1 hown
  cases step_cases h with
  | elector hea helection =>
    intro i hi
    obtain ⟨hpc, hleader⟩ := hothers helection (by cases hea <;> simp) hi
    exact ⟨hpc, hleader.trans (hl i hi).2⟩
  | tick hturn hea helection =>
    refine hl.goto False.elim ?_
    intro j hji
    refine hothers helection ?_
    rcases hea with rfl | rfl <;> simp [Ne.symm hji]
  | won hturn hidle hleader =>
    exact hl.goto (fun _ => ⟨hidle, hleader⟩) (fun j _ hj => ⟨(hl j hj).1, rfl⟩)
  | failed _ helection =>
    exact hl.goto False.elim (fun j hji => hothers helection (by simp [Ne.symm hji]))
  | @polled i replies o hturn | @set i appId nodes bindings remaining binding hturn =>
    exact hl.goto (fun _ => hl i (by rw [hturn]; trivial)) (fun j _ hj => ⟨(hl j hj).1, rfl⟩)
  | setFailed _ _ _ helection =>
    exact hl.goto False.elim (fun j hji => hothers helection (by simp [Ne.symm hji]))
  | updated | vacated => exact hl.goto False.elim (fun j _ hj => ⟨(hl j hj).1, rfl⟩)
  | expireDrain => exact hl

theorem led_of_reachable (hst : Reachable (step conf) Always (initial conf key) st) : Led st :=
  hst.invariant (P := Led) (fun _ h => h.elim) (fun _ _ _ hl _ hstep => led_step hl hstep)

/-- The electors take the steps of the election. -/
theorem election_step {a : Action ι} (h : step conf st a = some st') :
    st'.election = st.election ∨ ∃ ea, Election.step st.election ea = some st'.election := by
  cases step_cases h with
  | elector _ helection | tick _ _ helection | failed _ helection | setFailed _ _ _ helection =>
    exact .inr ⟨_, helection⟩
  | won | polled | set | updated | vacated | expireDrain => exact .inl rfl

theorem election_of_reachable (hinj : Function.Injective (fun i => (conf i).instanceName))
    (hst : Reachable (step conf) Always (initial conf key) st) :
    Election.Inv (fun i => (conf i).instanceName) st.election := by
  refine hst.invariant (P := fun st => Election.Inv (fun i => (conf i).instanceName) st.election)
    (Election.inv_initial _ _ key) ?_
  intro s a s' hs _ hstep
  obtain hsame | ⟨ea, hea⟩ := election_step hstep
  · rw [hsame]
    exact hs
  · exact hs.step hinj hea

/-- A binder that polls or sets drains has the key, or has lost it to an expiry. -/
theorem held_of_leads (hinj : Function.Injective (fun i => (conf i).instanceName))
    (hst : Reachable (step conf) Always (initial conf key) st) {i : ι} (hi : (st.turn i).Leads) :
    Held st.election.key (conf i).instanceName ∨ (st.election.elector i).expired = true := by
  have hsafe := (election_of_reachable hinj hst).safe i
  rw [← (election_of_reachable hinj hst).name i]
  exact hsafe.claims (.inl (led_of_reachable hst i hi).2)

end Led

/-- A binder sets drains only as the leader, and then it has the key of the election or the key has
expired since its last success. So two binders set drains at the same time only after such an
expiry. -/
theorem writers_elected {conf : ι → Config}
    (hinj : Function.Injective (fun i => (conf i).instanceName)) {key : Election.Key}
    {st : State ι} (hst : Reachable (step conf) Always (initial conf key) st) :
    (∀ i appId nodes err, (step conf st (.setMulti i appId nodes err)).isSome →
      (st.election.elector i).isLeader = true ∧
        (Held st.election.key (conf i).instanceName ∨
          (st.election.elector i).expired = true)) ∧
    ∀ i j appId appId' nodes nodes' err err', i ≠ j →
      (step conf st (.setMulti i appId nodes err)).isSome →
      (step conf st (.setMulti j appId' nodes' err')).isSome →
      (st.election.elector i).expired = true ∨ (st.election.elector j).expired = true := by
  have hleads : ∀ i appId nodes err, (step conf st (.setMulti i appId nodes err)).isSome →
      (st.turn i).Leads := by
    intro i appId nodes err hsome
    obtain ⟨st', hst'⟩ := Option.isSome_iff_exists.mp hsome
    cases step_cases hst' with
    | elector hea => cases hea
    | failed ha => simp at ha
    | set hturn | setFailed hturn =>
      rw [hturn]
      trivial
  refine ⟨?_, ?_⟩
  · intro i appId nodes err hsome
    have hi := hleads i appId nodes err hsome
    exact ⟨(led_of_reachable hst i hi).2, held_of_leads hinj hst hi⟩
  · intro i j appId appId' nodes nodes' err err' hij hsome hsome'
    obtain hheld | hexpired := held_of_leads hinj hst (hleads i appId nodes err hsome)
    · obtain hheld' | hexpired' := held_of_leads hinj hst (hleads j appId' nodes' err' hsome')
      · exact absurd (hinj (Option.some.inj (hheld.symm.trans hheld'))) hij
      · exact .inr hexpired'
    · exact .inl hexpired

/-- Two binders, of which the first one is elected and polls one drain. -/
def twoBinders : Bool → Config
  | true => ⟨str "a", 15, 60, str "cc", 10⟩
  | false => ⟨str "b", 15, 60, str "cc", 10⟩

/-- A page of the cloud controller with one drain of an application. -/
def onePage : Reply :=
  .response 200 (str "\x7b\"results\":\x7b\"app\":\x7b\"hostname\":\"h\"," ++
    str "\"drains\":[\"a:1\"]\x7d\x7d\x7d")

/-- The binder wins the election. -/
def elected (i : Bool) : List (Action Bool) :=
  [.tick i, .store i true none, .setLeader i, .elected i]

/-- It polls. -/
def electedAndPolled (i : Bool) : List (Action Bool) := elected i ++ [.poll i [onePage]]

theorem writers_elected_twoBinders :
    ∃ st, Reachable (step twoBinders) Always (initial twoBinders none) st ∧
      (step twoBinders st (.setMulti true (str "app") [] true)).isSome ∧
      (step twoBinders st (.setMulti false (str "app") [] true)).isSome ∧
      (st.election.elector true).isLeader = true ∧
      ((st.election.elector true).expired = true ∨ (st.election.elector false).expired = true) := by
  obtain ⟨st, hst, h⟩ := exists_reachable_of_run
    (show (run (step twoBinders) (initial twoBinders none)
        (electedAndPolled true ++ .expire :: electedAndPolled false)).map (fun st =>
          ((step twoBinders st (.setMulti true (str "app") [] true)).isSome,
            (step twoBinders st (.setMulti false (str "app") [] true)).isSome)) =
        some (true, true) by decide +kernel)
  obtain ⟨hfirst, hsecond⟩ := Prod.ext_iff.mp h
  have hinj : Function.Injective (fun i => (twoBinders i).instanceName) := by decide
  obtain ⟨hleader, hexpired⟩ := writers_elected hinj hst
  exact ⟨st, hst, hfirst, hsecond, (hleader _ _ _ _ hfirst).1,
    hexpired true false _ _ _ _ _ _ (by decide) hfirst hsecond⟩

/-! ## The drains -/

/-- The node is that of a drain of a list that was polled without an error, with a URL that is kept
by `Filter` and is not blank. -/
def Sourced (conf : ι → Config) (as : List (Action ι)) (node : StoreNode) : Prop :=
  ∃ i replies o appId binding drainURL, .poll i replies ∈ as ∧
    pollFor conf i replies = some o ∧ o.err = none ∧ o.drainURLs.lookup appId = some binding ∧
    drainURL ∈ binding.drainURLs ∧ keepsDrain drainURL = true ∧
    Utf8.trimSpace drainURL ≠ [] ∧
    node = drainNode (conf i).drainUrlTtl appId binding.hostname drainURL

/-- The drains in the store, and those that are being set, are from lists that were polled. -/
structure Accounted (conf : ι → Config) (as : List (Action ι)) (st : State ι) : Prop where
  polled : ∀ i bindings remaining, st.turn i = .updating bindings remaining →
    ∃ replies o, .poll i replies ∈ as ∧ pollFor conf i replies = some o ∧ o.err = none ∧
      bindings = filter o.drainURLs
  stored : ∀ key node, st.drains.lookup key = some node → node.key = key ∧ Sourced conf as node

section Drains

variable {conf : ι → Config} {st st' : State ι} {as : List (Action ι)} {key : Election.Key}

omit [DecidableEq ι] in
/-- `SetMulti` sets its nodes and leaves the other keys. -/
theorem lookup_set (st : State ι) (nodes : List StoreNode) (k : GoString) :
    (∃ node ∈ nodes, node.key = k ∧ (st.set nodes).drains.lookup k = some node) ∨
      (∀ node ∈ nodes, node.key ≠ k) ∧
        (st.set nodes).drains.lookup k = st.drains.lookup k := by
  unfold State.set
  induction nodes generalizing st with
  | nil => exact .inr ⟨nofun, rfl⟩
  | cons n nodes ih =>
    rw [List.foldl_cons]
    obtain ⟨node, hmem, hnode⟩ | ⟨hnone, hold⟩ := ih { st with drains := st.drains.insert n.key n }
    · exact .inl ⟨node, List.mem_cons_of_mem n hmem, hnode⟩
    · simp only [Dict.lookup_insert_ite] at hold
      by_cases hkey : n.key = k
      · rw [if_pos hkey.symm] at hold
        exact .inl ⟨n, List.mem_cons_self, hkey, hold⟩
      · rw [if_neg (Ne.symm hkey)] at hold
        exact .inr ⟨List.forall_mem_cons.mpr ⟨hkey, hnone⟩, hold⟩

omit [DecidableEq ι] in
/-- What `updateAppDrains` sets for an application of a list that was polled and filtered. -/
theorem sourced_of_mem {i : ι} {replies : List Reply} {o : Outcome} (hmem : .poll i replies ∈ as)
    (hpoll : pollFor conf i replies = some o) (herr : o.err = none) {appId : GoString}
    {binding : SyslogDrainBinding} (hlookup : (filter o.drainURLs).lookup appId = some binding)
    {node : StoreNode} (hnode : node ∈ updateAppDrains (conf i).drainUrlTtl appId binding) :
    Sourced conf as node := by
  obtain ⟨b, hb, hhostname, hurls⟩ := lookup_filter hlookup
  obtain ⟨drainURL, hurl, hsome⟩ := List.mem_filterMap.mp hnode
  rw [hurls] at hurl
  obtain ⟨hurl, hkeeps⟩ := List.mem_filter.mp hurl
  split at hsome
  · cases hsome
  · next hblank =>
    rw [hhostname] at hsome
    exact ⟨i, replies, o, appId, b, drainURL, hmem, hpoll, herr, hb, hurl, hkeeps, hblank,
      (Option.some.inj hsome).symm⟩

omit [DecidableEq ι] in
theorem Sourced.concat {node : StoreNode} (h : Sourced conf as node) (a : Action ι) :
    Sourced conf (as ++ [a]) node := by
  obtain ⟨i, replies, o, appId, binding, drainURL, hmem, hrest⟩ := h
  exact ⟨i, replies, o, appId, binding, drainURL, List.mem_append_left _ hmem, hrest⟩

omit [DecidableEq ι] in
theorem Accounted.concat (hc : Accounted conf as st) (a : Action ι) :
    Accounted conf (as ++ [a]) st := by
  refine ⟨?_, ?_⟩
  · intro i bindings remaining hturn
    obtain ⟨replies, o, hmem, hrest⟩ := hc.polled i bindings remaining hturn
    exact ⟨replies, o, List.mem_append_left _ hmem, hrest⟩
  · intro k node hlookup
    obtain ⟨hkey, hsourced⟩ := hc.stored k node hlookup
    exact ⟨hkey, hsourced.concat a⟩

/-- A binder goes on. -/
theorem Accounted.goto (hc : Accounted conf as st) {i : ι} {turn : Turn} {election : System ι}
    (hturn : ∀ bindings remaining, turn = .updating bindings remaining →
      ∃ replies o, .poll i replies ∈ as ∧ pollFor conf i replies = some o ∧ o.err = none ∧
        bindings = filter o.drainURLs) :
    Accounted conf as (State.goto { st with election := election } i turn) := by
  refine ⟨?_, hc.stored⟩
  intro j bindings remaining hj
  by_cases hji : j = i
  · subst hji
    simp only [State.goto, Function.update_self] at hj
    exact hturn bindings remaining hj
  · simp only [State.goto, Function.update_of_ne hji] at hj
    exact hc.polled j bindings remaining hj

omit [DecidableEq ι] in
/-- Nodes of the list that a binder has polled are set. -/
theorem Accounted.set (hc : Accounted conf as st) {i : ι} {bindings : AllSyslogDrainBindings}
    {remaining : List GoString} (hturn : st.turn i = .updating bindings remaining)
    {appId : GoString} {binding : SyslogDrainBinding}
    (hlookup : bindings.lookup appId = some binding) {nodes : List StoreNode}
    (hnodes : ∀ node ∈ nodes, node ∈ updateAppDrains (conf i).drainUrlTtl appId binding) :
    Accounted conf as (st.set nodes) := by
  refine ⟨hc.polled, ?_⟩
  intro k node hnode
  obtain ⟨node', hmem, hkey, hset⟩ | ⟨-, hold⟩ := lookup_set st nodes k
  · cases hset.symm.trans hnode
    obtain ⟨replies, o, hpolled, hpoll, herr, rfl⟩ := hc.polled i bindings remaining hturn
    exact ⟨hkey, sourced_of_mem hpolled hpoll herr hlookup (hnodes node hmem)⟩
  · exact hc.stored k node (hold ▸ hnode)

theorem accounted_step {a : Action ι} (hc : Accounted conf as st)
    (h : step conf st a = some st') : Accounted conf (as ++ [a]) st' := by
  cases step_cases h with
  | elector => exact ⟨(hc.concat a).polled, (hc.concat a).stored⟩
  | tick | won | failed | updated | vacated => exact (hc.concat _).goto nofun
  | @polled i replies o hturn hpoll herr =>
    refine (hc.concat _).goto ?_
    intro bindings remaining heq
    cases heq
    exact ⟨replies, o, List.mem_append_right _ List.mem_cons_self, hpoll, herr, rfl⟩
  | @set i appId nodes bindings remaining binding hturn hlookup hnodes =>
    refine ((hc.set hturn hlookup hnodes).concat _).goto ?_
    intro bindings' remaining' heq
    cases heq
    exact (hc.concat _).polled i bindings remaining hturn
  | setFailed hturn hlookup hnodes => exact ((hc.set hturn hlookup hnodes).concat _).goto nofun
  | @expireDrain k =>
    refine ⟨(hc.concat _).polled, ?_⟩
    intro k' node hnode
    rw [Dict.lookup_erase_ite] at hnode
    split at hnode
    · cases hnode
    · exact (hc.concat _).stored k' node hnode

theorem accounted_of_run (hrun : run (step conf) (initial conf key) as = some st) :
    Accounted conf as st := by
  refine run_invariant (P := Accounted conf) ⟨?_, ?_⟩
    (fun _ _ _ _ _ hc hstep => accounted_step hc hstep) hrun
  · intro i bindings remaining hturn
    cases hturn
  · intro k node hnode
    cases hnode

end Drains

/-- The store has no drain but those of the lists that a leader has polled, under their keys. -/
theorem drains_sourced {conf : ι → Config} {key : Election.Key} {as : List (Action ι)}
    {st : State ι} (hrun : run (step conf) (initial conf key) as = some st) {k : GoString}
    {node : StoreNode} (hnode : st.drains.lookup k = some node) :
    node.key = k ∧ Sourced conf as node :=
  (accounted_of_run hrun).stored k node hnode

/-- The drain is set. -/
def setDrain : Action Bool :=
  .setMulti true (str "app") [drainNode 60 (str "app") (str "h") (str "a:1")] false

/-- One drain is set in the turn of the first binder. -/
def oneDrain : List (Action Bool) := electedAndPolled true ++ [setDrain]

theorem drains_sourced_oneDrain :
    ∃ st node, run (step twoBinders) (initial twoBinders none) oneDrain = some st ∧
      st.drains.lookup (drainNode 60 (str "app") (str "h") (str "a:1")).key = some node ∧
      node.key = (drainNode 60 (str "app") (str "h") (str "a:1")).key ∧
      Sourced twoBinders oneDrain node := by
  have hsome : ((run (step twoBinders) (initial twoBinders none) oneDrain).bind (fun st =>
      st.drains.lookup (drainNode 60 (str "app") (str "h") (str "a:1")).key)).isSome := by
    decide +kernel
  obtain ⟨node, hnode⟩ := Option.isSome_iff_exists.mp hsome
  obtain ⟨st, hrun, hlookup⟩ := Option.bind_eq_some_iff.mp hnode
  exact ⟨st, node, hrun, hlookup, drains_sourced hrun hlookup⟩

/-! ## A turn without an error -/

/-- `Filter` keeps the application of a drain that it keeps. -/
theorem lookup_filter_of_mem {bindings : AllSyslogDrainBindings} {appId : GoString}
    {binding : SyslogDrainBinding} (h : bindings.lookup appId = some binding) {drainURL : GoString}
    (hurl : drainURL ∈ binding.drainURLs) (hkeeps : keepsDrain drainURL = true) :
    ∃ drainURLs, (filter bindings).lookup appId = some ⟨binding.hostname, drainURLs⟩ ∧
      drainURL ∈ drainURLs := by
  have hmem : drainURL ∈ binding.drainURLs.filter keepsDrain :=
    List.mem_filter.mpr ⟨hurl, hkeeps⟩
  refine ⟨binding.drainURLs.filter keepsDrain, ?_, hmem⟩
  rw [filter, Dict.lookup_mergeWith, h, Option.bind_some, filterBinding,
    if_neg (List.ne_nil_of_mem hmem)]
  rfl

/-- At the key of a drain the store has what a binder has set for it, or for another drain of the
application with the same hash. -/
def Holds (conf : ι → Config) (st : State ι) (appId hostname drainURL : GoString) : Prop :=
  ∃ j hostname' drainURL',
    st.drains.lookup (drainKey appId (drainData hostname drainURL)) =
      some (drainNode (conf j).drainUrlTtl appId hostname' drainURL') ∧
    Sha1.sum (drainData hostname' drainURL') = Sha1.sum (drainData hostname drainURL)

/-- The turn in which a binder sets the drains of a list: it has set those of the applications that
are not to come any more, and they are in the store unless they have expired since. -/
def Publishes (conf : ι → Config) (i : ι) (bindings : AllSyslogDrainBindings)
    (as : List (Action ι)) (st : State ι) : Prop :=
  (∃ remaining, st.turn i = .updating bindings remaining ∧
    ∀ appId binding, bindings.lookup appId = some binding → appId ∉ remaining →
      ∀ drainURL ∈ binding.drainURLs, Utf8.trimSpace drainURL ≠ [] →
        .expireDrain (drainKey appId (drainData binding.hostname drainURL)) ∉ as →
        Holds conf st appId binding.hostname drainURL) ∨
  st.turn i = .waiting ∨ st.turn i = .vacating

section Publishes

variable {conf : ι → Config} {st st' : State ι} {as : List (Action ι)} {i : ι}
  {bindings : AllSyslogDrainBindings} {appId hostname drainURL : GoString}

omit [DecidableEq ι] in
/-- A drain that is set, or was there, is there after `SetMulti`. -/
theorem holds_set {j : ι} {appId' : GoString} {binding : SyslogDrainBinding}
    {nodes : List StoreNode}
    (hnodes : ∀ node ∈ nodes, node ∈ updateAppDrains (conf j).drainUrlTtl appId' binding)
    (h : (∃ node ∈ nodes, node.key = drainKey appId (drainData hostname drainURL)) ∨
      Holds conf st appId hostname drainURL) :
    Holds conf (st.set nodes) appId hostname drainURL := by
  obtain ⟨node, hmem, hkey, hset⟩ | ⟨hnone, hold⟩ :=
    lookup_set st nodes (drainKey appId (drainData hostname drainURL))
  · obtain ⟨drainURL', -, hnode⟩ := List.mem_filterMap.mp (hnodes node hmem)
    split at hnode
    · cases hnode
    · cases hnode
      obtain ⟨rfl, hsum⟩ := drainKey_inj hkey
      exact ⟨j, _, _, hset, hsum⟩
  · obtain ⟨node, hmem, hkey⟩ | ⟨j', hostname', drainURL', hlookup, hsum⟩ := h
    · exact absurd hkey (hnone node hmem)
    · exact ⟨j', hostname', drainURL', hold.trans hlookup, hsum⟩

omit [DecidableEq ι] in
/-- What leaves the turn of the binder and deletes no drain. -/
theorem Publishes.frame (hp : Publishes conf i bindings as st) (a : Action ι)
    (hturn : st'.turn i = st.turn i)
    (hdrains : ∀ appId hostname drainURL,
      .expireDrain (drainKey appId (drainData hostname drainURL)) ≠ a →
      Holds conf st appId hostname drainURL → Holds conf st' appId hostname drainURL) :
    Publishes conf i bindings (as ++ [a]) st' := by
  obtain ⟨remaining, hupdating, hset⟩ | hover := hp
  · refine .inl ⟨remaining, hturn.trans hupdating, ?_⟩
    intro appId binding hlookup hdone drainURL hurl hblank hlive
    rw [List.mem_append, List.mem_singleton, not_or] at hlive
    exact hdrains _ _ _ hlive.2 (hset appId binding hlookup hdone drainURL hurl hblank hlive.1)
  · rw [← hturn] at hover
    exact .inr hover

/-- Another binder goes on. -/
theorem goto_turn {j : ι} {turn : Turn} {election : System ι} {drains : Dict GoString StoreNode}
    (hji : i ≠ j) :
    (State.goto { st with election := election, drains := drains } j turn).turn i = st.turn i :=
  Function.update_of_ne hji _ _

theorem goto_turn_self {turn : Turn} {election : System ι} {drains : Dict GoString StoreNode} :
    (State.goto { st with election := election, drains := drains } i turn).turn i = turn :=
  Function.update_self _ _ _

theorem publishes_step {a : Action ι} (hp : Publishes conf i bindings as st)
    (htick : a ≠ .tick i) (h : step conf st a = some st') :
    Publishes conf i bindings (as ++ [a]) st' := by
  -- the binder is not in a part of its turn before it has polled
  have hnot : st.turn i ≠ .electing ∧ st.turn i ≠ .polling := by
    obtain ⟨remaining, hupdating, -⟩ | hover | hover := hp
    · simp [hupdating]
    · simp [hover]
    · simp [hover]
  have hwaits : ∀ j, Publishes conf i bindings (as ++ [a]) (st.goto j .waiting) := by
    intro j
    by_cases hji : i = j
    · subst hji
      exact .inr (.inl goto_turn_self)
    · exact hp.frame _ (goto_turn hji) (fun _ _ _ _ hk => hk)
  cases step_cases h with
  | elector => exact hp.frame _ rfl (fun _ _ _ _ hk => hk)
  | @tick j =>
    refine hp.frame _ (goto_turn ?_) (fun _ _ _ _ hk => hk)
    rintro rfl
    exact htick rfl
  | @won j hturn =>
    refine hp.frame _ (goto_turn ?_) (fun _ _ _ _ hk => hk)
    rintro rfl
    exact hnot.1 hturn
  | @failed a j election ha =>
    refine hp.frame _ (goto_turn ?_) (fun _ _ _ _ hk => hk)
    rintro rfl
    obtain ⟨-, hturn⟩ | ⟨replies, -, hturn⟩ := ha
    · exact hnot.1 hturn
    · exact hnot.2 hturn
  | @polled j replies o hturn =>
    refine hp.frame _ (goto_turn ?_) (fun _ _ _ _ hk => hk)
    rintro rfl
    exact hnot.2 hturn
  | @set j appId nodes bindings' remaining' binding hturn hlookup hnodes hall =>
    by_cases hji : i = j
    · subst hji
      obtain ⟨remaining, hupdating, hset⟩ | hover | hover := hp
      · cases hupdating.symm.trans hturn
        refine .inl ⟨_, goto_turn_self, ?_⟩
        intro appId' binding' hlookup' hdone drainURL hurl hblank hlive
        by_cases happ : appId' = appId
        · subst happ
          cases hlookup.symm.trans hlookup'
          exact holds_set hnodes (.inl ⟨_, hall _ (mem_updateAppDrains hurl hblank), rfl⟩)
        · refine holds_set hnodes (.inr (hset appId' binding' hlookup' ?_ drainURL hurl hblank ?_))
          · exact fun hmem => hdone ((List.mem_erase_of_ne happ).mpr hmem)
          · exact fun hmem => hlive (List.mem_append_left _ hmem)
      · cases hover.symm.trans hturn
      · cases hover.symm.trans hturn
    · exact hp.frame _ (goto_turn hji) (fun _ _ _ _ hk => holds_set hnodes (.inr hk))
  | @setFailed j appId nodes bindings' remaining' binding election hturn hlookup hnodes =>
    by_cases hji : i = j
    · subst hji
      exact .inr (.inr goto_turn_self)
    · exact hp.frame _ (goto_turn hji) (fun _ _ _ _ hk => holds_set hnodes (.inr hk))
  | updated | vacated => exact hwaits _
  | @expireDrain k =>
    refine hp.frame _ rfl ?_
    rintro appId hostname drainURL hne ⟨j, hostname', drainURL', hlookup, hsum⟩
    refine ⟨j, hostname', drainURL', ?_, hsum⟩
    rw [Dict.lookup_erase_ite, if_neg]
    · exact hlookup
    · rintro rfl
      exact hne rfl

end Publishes

/-- A turn that ends without an error has set every drain of the list that was polled. Unless it has
expired, the store has at its key the node that this binder or another one has set for it, or for
a drain of the same application whose data have the same hash. -/
theorem turn_publishes {conf : ι → Config} {st st₁ st₂ st₃ : State ι} {i : ι}
    {replies : List Reply} {o : Outcome} (hpolled : step conf st (.poll i replies) = some st₁)
    (hpoll : pollFor conf i replies = some o) (herr : o.err = none) {as : List (Action ι)}
    (hrun : run (step conf) st₁ as = some st₂) (hturn : .tick i ∉ as)
    (hend : step conf st₂ (.updated i) = some st₃) {appId : GoString}
    {binding : SyslogDrainBinding} (hlookup : o.drainURLs.lookup appId = some binding)
    {drainURL : GoString} (hurl : drainURL ∈ binding.drainURLs)
    (hkeeps : keepsDrain drainURL = true) (hblank : Utf8.trimSpace drainURL ≠ [])
    (hlive : .expireDrain (drainKey appId (drainData binding.hostname drainURL)) ∉ as) :
    ∃ j hostname' drainURL',
      st₃.drains.lookup (drainKey appId (drainData binding.hostname drainURL)) =
        some (drainNode (conf j).drainUrlTtl appId hostname' drainURL') ∧
      Sha1.sum (drainData hostname' drainURL') =
        Sha1.sum (drainData binding.hostname drainURL) := by
  have hstart : st₁.turn i = .updating (filter o.drainURLs) (filter o.drainURLs).keys := by
    simp only [step, hpoll] at hpolled
    split at hpolled
    · next hsome =>
      cases hsome
      simp only [herr] at hpolled
      cases hpolled
      exact Function.update_self _ _ _
    · cases hpolled
  have hpublishes : .tick i ∉ as → Publishes conf i (filter o.drainURLs) as st₂ := by
    refine run_invariant (P := fun as s => .tick i ∉ as →
      Publishes conf i (filter o.drainURLs) as s) ?_ ?_ hrun
    · intro _
      refine .inl ⟨_, hstart, ?_⟩
      intro appId binding hlookup hdone
      exact absurd (AList.lookup_isSome.mp (by rw [hlookup]; rfl)) hdone
    · intro as s a s' _ ih hstep htick
      rw [List.mem_append, List.mem_singleton, not_or] at htick
      exact publishes_step (ih htick.1) (Ne.symm htick.2) hstep
  obtain ⟨drainURLs, hfilter, hmem⟩ := lookup_filter_of_mem hlookup hurl hkeeps
  cases step_cases hend with
  | elector hea => cases hea
  | failed ha => simp at ha
  | @updated _ bindings hdone =>
    obtain ⟨remaining, hupdating, hset⟩ | hover | hover := hpublishes hturn
    · cases hupdating.symm.trans hdone
      exact hset appId _ hfilter List.not_mem_nil drainURL hmem hblank hlive
    · cases hover.symm.trans hdone
    · cases hover.symm.trans hdone

/-- The node of the drain, as it is in the store. -/
def oneNode : StoreNode where
  key := str "/loggregator/v2/services/app/bd1f23e347590c41db12432daf70768a9acec80d"
  value := str "\x7b\"hostname\":\"h\",\"drainURL\":\"a:1\"\x7d"
  ttl := 60

theorem turn_publishes_oneDrain :
    ∃ st st₁ st₂ st₃ o binding, step twoBinders st (.poll true [onePage]) = some st₁ ∧
      pollFor twoBinders true [onePage] = some o ∧ o.err = none ∧
      run (step twoBinders) st₁ [setDrain] = some st₂ ∧
      step twoBinders st₂ (.updated true) = some st₃ ∧
      o.drainURLs.lookup (str "app") = some binding ∧ str "a:1" ∈ binding.drainURLs ∧
      st₃.drains.lookup oneNode.key = some oneNode ∧
      ∃ j hostname' drainURL',
        st₃.drains.lookup (drainKey (str "app") (drainData binding.hostname (str "a:1"))) =
          some (drainNode (twoBinders j).drainUrlTtl (str "app") hostname' drainURL') ∧
        Sha1.sum (drainData hostname' drainURL') =
          Sha1.sum (drainData binding.hostname (str "a:1")) := by
  have hpage : ((pollFor twoBinders true [onePage]).bind (fun o =>
      (o.drainURLs.lookup (str "app")).map (fun b => (o.err, b.drainURLs)))) =
        some (none, [str "a:1"]) := by decide +kernel
  obtain ⟨o, hpoll, ho⟩ := Option.bind_eq_some_iff.mp hpage
  obtain ⟨binding, hlookup, hb⟩ := Option.map_eq_some_iff.mp ho
  obtain ⟨herr, hurls⟩ := Prod.mk.inj hb
  have hurl : str "a:1" ∈ binding.drainURLs := hurls ▸ List.mem_singleton_self _
  have hsome : (run (step twoBinders) (initial twoBinders none)
      (elected true ++ [.poll true [onePage]] ++ [setDrain] ++ [.updated true])).bind
        (fun st => st.drains.lookup oneNode.key) = some oneNode := by
    decide +kernel
  obtain ⟨st₃, hst₃, hnode⟩ := Option.bind_eq_some_iff.mp hsome
  rw [run_concat] at hst₃
  obtain ⟨st₂, hst₂, hend⟩ := Option.bind_eq_some_iff.mp hst₃
  rw [run_append] at hst₂
  obtain ⟨st₁, hst₁, hrun⟩ := Option.bind_eq_some_iff.mp hst₂
  rw [run_concat] at hst₁
  obtain ⟨st, -, hpolled⟩ := Option.bind_eq_some_iff.mp hst₁
  exact ⟨st, st₁, st₂, st₃, o, binding, hpolled, hpoll, herr, hrun, hend, hlookup, hurl, hnode,
    turn_publishes hpolled hpoll herr hrun (by simp [setDrain]) hend hlookup hurl
      (by decide +kernel) (by decide +kernel) (by simp [setDrain])⟩

end Loggregator.SyslogDrainBinder.MainLoop
