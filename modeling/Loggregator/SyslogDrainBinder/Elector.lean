import Loggregator.Lib.Transition
import Loggregator.SyslogDrainBinder.DrainStore
import Mathlib.Logic.Function.Basic

/-!
# The election of the syslog drain binder

`syslog_drain_binder/elector/elector.go`. Any number of electors share one key of the store. The
operations of the store are atomic and can report an error whether or not they had an effect; the
key can expire between any two steps. An elector's flag is set after the operation that decides
it, so it can lag behind.
-/

namespace Loggregator.SyslogDrainBinder.Election

open Lib

/-- `generateNode`, where `ttl` is `uint64(updateInterval.Seconds())`. -/
def generateNode (instanceName : GoString) (ttl : UInt64) : StoreNode where
  key := str "syslog_drain_binder/leader"
  value := instanceName
  ttl := ttl

/-- An error of the store: the elector looks for `storeadapter.ErrorKeyExists` only. -/
inductive StoreError where
  | keyExists
  | other
  deriving DecidableEq

/-- The node at the key of the election. -/
abbrev Key := Option StoreNode

/-- `Create`, when it has an effect. -/
def create (key : Key) (node : StoreNode) : Option Key :=
  match key with
  | none => some (some node)
  | some _ => none

/-- `CompareAndSwap`, when it has an effect; values are compared. -/
def compareAndSwap (key : Key) (oldNode newNode : StoreNode) : Option Key :=
  match key with
  | none => none
  | some node => if node.value = oldNode.value then some (some newNode) else none

/-- `CompareAndDelete`, when it has an effect. -/
def compareAndDelete (key : Key) (node : StoreNode) : Option Key :=
  match key with
  | none => none
  | some node' => if node'.value = node.value then some none else none

/-- Where an elector is. The places after an operation of the store hold the error that it
reported. -/
inductive Pc where
  | idle
  | create
  | created (err : Option StoreError)
  | compareAndSwap
  | swapped (err : Option StoreError)
  | vacate
  | compareAndDelete
  deriving DecidableEq

/-- An elector: its name, the time to live of its node, where it is and its `isLeader`. The code
does not have `expired`: the key has expired since the elector's last successful `Create` or
`CompareAndSwap`. -/
structure Elector where
  instanceName : GoString
  ttl : UInt64
  pc : Pc := .idle
  isLeader : Bool := false
  expired : Bool := false

namespace Elector

variable (e : Elector)

/-- `generateNode` of an elector. -/
def node : StoreNode := generateNode e.instanceName e.ttl

/-- The operation of the store that the elector is about to call, and its effect. -/
def operation (key : Key) : Option (Option Key) :=
  match e.pc with
  | .create => some (Election.create key e.node)
  | .compareAndSwap => some (Election.compareAndSwap key e.node e.node)
  | .compareAndDelete => some (Election.compareAndDelete key e.node)
  | .idle | .created _ | .swapped _ | .vacate => none

/-- The elector after its operation of the store. -/
def reported (err : Option StoreError) : Elector :=
  match e.pc with
  | .create => { e with pc := .created err, expired := e.expired && err.isSome }
  | .compareAndSwap => { e with pc := .swapped err, expired := e.expired && err.isSome }
  | _ => { e with pc := .idle }

/-- The elector after its call of `setLeader`. `RunForElection` tries again when the key is
there. -/
def setLeader : Option Elector :=
  match e.pc with
  | .created none => some { e with pc := .idle, isLeader := true }
  | .created (some .keyExists) => some { e with pc := .create, isLeader := false }
  | .created (some .other) => some { e with pc := .idle, isLeader := false }
  | .swapped err => some { e with pc := .idle, isLeader := err.isNone }
  | .vacate => some { e with pc := .compareAndDelete, isLeader := false }
  | .idle | .create | .compareAndSwap | .compareAndDelete => none

/-- The start of a call, when no other call is going on. -/
def call (pc : Pc) : Option Elector := if e.pc = .idle then some { e with pc := pc } else none

end Elector

/-- The key and the electors. -/
structure System (ι : Type) where
  key : Key := none
  elector : ι → Elector

/-- The steps: the calls of an elector's methods, its operations of the store, its `setLeader`,
and the expiry of the key. -/
inductive Action (ι : Type) where
  | runForElection (i : ι)
  | stayAsLeader (i : ι)
  | vacate (i : ι)
  | store (i : ι) (effect : Bool) (err : Option StoreError)
  | setLeader (i : ι)
  | expire

variable {ι : Type} [DecidableEq ι]

/-- Replace an elector. -/
def System.set (s : System ι) (i : ι) (e : Elector) : System ι :=
  { s with elector := Function.update s.elector i e }

/-- An operation that reports no error had its effect. -/
def step (s : System ι) : Action ι → Option (System ι)
  | .runForElection i => ((s.elector i).call .create).map (s.set i)
  | .stayAsLeader i => ((s.elector i).call .compareAndSwap).map (s.set i)
  | .vacate i => ((s.elector i).call .vacate).map (s.set i)
  | .store i effect err =>
    match (s.elector i).operation s.key with
    | none => none
    | some after =>
      if effect then after.map (fun key => { s.set i ((s.elector i).reported err) with key := key })
      else if err.isSome then some (s.set i ((s.elector i).reported err))
      else none
  | .setLeader i => (s.elector i).setLeader.map (s.set i)
  | .expire =>
    if s.key.isSome then
      some { key := none, elector := fun i => { s.elector i with expired := true } }
    else none

/-- The electors before their first call. -/
def initial (instanceName : ι → GoString) (ttl : ι → UInt64) (key : Key) : System ι where
  key := key
  elector i := { instanceName := instanceName i, ttl := ttl i }

/-! ## Safety -/

/-- The key holds this name. -/
def Held (key : Key) (instanceName : GoString) : Prop :=
  key.map StoreNode.value = some instanceName

instance (key : Key) (instanceName : GoString) : Decidable (Held key instanceName) :=
  inferInstanceAs (Decidable (_ = _))

/-- The elector is the leader, or its next step makes it the leader. -/
def Elector.Claims (e : Elector) : Prop :=
  e.isLeader = true ∨ e.pc = .created none ∨ e.pc = .swapped none

/-- An elector that claims to be the leader holds the key or has lost it to an expiry. It does not
claim it any more when it deletes the key. -/
structure Elector.Safe (e : Elector) (key : Key) : Prop where
  claims : e.Claims → Held key e.instanceName ∨ e.expired = true
  vacated : e.pc = .compareAndDelete → e.isLeader = false

theorem create_eq_some {key key' : Key} {node : StoreNode} (h : create key node = some key') :
    key = none ∧ key' = some node := by
  cases key with
  | none =>
    cases h
    exact ⟨rfl, rfl⟩
  | some _ => cases h

theorem compareAndSwap_eq_some {key key' : Key} {oldNode newNode : StoreNode}
    (h : compareAndSwap key oldNode newNode = some key') :
    Held key oldNode.value ∧ key' = some newNode := by
  cases key with
  | none => cases h
  | some node =>
    simp only [compareAndSwap] at h
    split at h
    · next hvalue =>
      cases h
      exact ⟨congrArg some hvalue, rfl⟩
    · cases h

theorem compareAndDelete_eq_some {key key' : Key} {node : StoreNode}
    (h : compareAndDelete key node = some key') : Held key node.value ∧ key' = none := by
  cases key with
  | none => cases h
  | some node' =>
    simp only [compareAndDelete] at h
    split at h
    · next hvalue =>
      cases h
      exact ⟨congrArg some hvalue, rfl⟩
    · cases h

namespace Elector

variable {key key' : Key} {e e' : Elector} {err : Option StoreError}

/-- The three operations of an elector, when they have an effect. -/
theorem operation_cases (h : e.operation key = some (some key')) :
    (e.pc = .create ∧ key = none ∧ Held key' e.instanceName) ∨
    (e.pc = .compareAndSwap ∧ Held key e.instanceName ∧ Held key' e.instanceName) ∨
    (e.pc = .compareAndDelete ∧ Held key e.instanceName ∧ key' = none) := by
  unfold operation at h
  split at h
  · next hpc =>
    obtain ⟨hkey, rfl⟩ := create_eq_some (Option.some.inj h)
    exact Or.inl ⟨hpc, hkey, rfl⟩
  · next hpc =>
    obtain ⟨hkey, rfl⟩ := compareAndSwap_eq_some (Option.some.inj h)
    exact Or.inr (Or.inl ⟨hpc, hkey, rfl⟩)
  · next hpc =>
    obtain ⟨hkey, rfl⟩ := compareAndDelete_eq_some (Option.some.inj h)
    exact Or.inr (Or.inr ⟨hpc, hkey, rfl⟩)
  all_goals cases h

/-- An operation has no effect on a key that holds another name. -/
theorem operation_own (h : e.operation key = some (some key')) {name : GoString}
    (hname : Held key name) : name = e.instanceName := by
  rcases operation_cases h with ⟨-, hkey, -⟩ | ⟨-, hkey, -⟩ | ⟨-, hkey, -⟩
  · rw [hkey] at hname
    cases hname
  · exact Option.some.inj (hname.symm.trans hkey)
  · exact Option.some.inj (hname.symm.trans hkey)

section

variable (h : e.Safe key)
include h

theorem Safe.frame (hkey : Held key e.instanceName → Held key' e.instanceName) :
    e.Safe key' :=
  ⟨fun hclaims => (h.claims hclaims).imp_left hkey, h.vacated⟩

theorem Safe.call {pc : Pc} (hpc : pc = .create ∨ pc = .compareAndSwap ∨ pc = .vacate)
    (he : e.call pc = some e') :
    e'.Safe key := by
  unfold Elector.call at he
  split at he
  · cases he
    refine ⟨?_, ?_⟩
    · rintro (hleader | hcreated | hswapped)
      · exact h.claims (Or.inl hleader)
      · rcases hpc with rfl | rfl | rfl <;> cases hcreated
      · rcases hpc with rfl | rfl | rfl <;> cases hswapped
    · rintro rfl
      rcases hpc with hpc | hpc | hpc <;> cases hpc
  · cases he

theorem Safe.setLeader (he : e.setLeader = some e') : e'.Safe key := by
  unfold Elector.setLeader at he
  split at he
  · next hpc =>
    cases he
    exact ⟨fun _ => h.claims (Or.inr (Or.inl hpc)), by simp⟩
  · cases he
    exact ⟨by simp [Claims], by simp⟩
  · cases he
    exact ⟨by simp [Claims], by simp⟩
  · next err hpc =>
    cases he
    refine ⟨?_, by simp⟩
    rintro (hleader | hcreated | hswapped)
    · have herr : err = none := Option.isNone_iff_eq_none.mp hleader
      exact h.claims (Or.inr (Or.inr (by rw [hpc, herr])))
    · cases hcreated
    · cases hswapped
  · cases he
    exact ⟨by simp [Claims], by simp⟩
  all_goals cases he

/-- An operation that had no effect has reported an error. -/
theorem Safe.reported_error (herr : err.isSome) : (e.reported err).Safe key := by
  have hne : err ≠ none := Option.isSome_iff_ne_none.mp herr
  unfold reported
  split
  · refine ⟨?_, by simp⟩
    rintro (hleader | hcreated | hswapped)
    · simpa [herr] using h.claims (Or.inl hleader)
    · simp [hne] at hcreated
    · cases hswapped
  · refine ⟨?_, by simp⟩
    rintro (hleader | hcreated | hswapped)
    · simpa [herr] using h.claims (Or.inl hleader)
    · cases hcreated
    · simp [hne] at hswapped
  · refine ⟨?_, by simp⟩
    rintro (hleader | hcreated | hswapped)
    · exact h.claims (Or.inl hleader)
    · cases hcreated
    · cases hswapped

/-- An operation that had an effect, whether or not it has reported an error. -/
theorem Safe.reported_effect (hop : e.operation key = some (some key')) :
    (e.reported err).Safe key' := by
  rcases operation_cases hop with ⟨hpc, -, hkey⟩ | ⟨hpc, -, hkey⟩ | ⟨hpc, -, -⟩
  · rw [reported, hpc]
    exact ⟨fun _ => Or.inl hkey, by simp⟩
  · rw [reported, hpc]
    exact ⟨fun _ => Or.inl hkey, by simp⟩
  · -- the flag was taken back before the key is deleted
    rw [reported, hpc]
    have hleader := h.vacated hpc
    exact ⟨by simp [Claims, hleader], by simp⟩

end

theorem reported_instanceName : (e.reported err).instanceName = e.instanceName := by
  unfold reported
  split <;> rfl

theorem call_instanceName {pc : Pc} (he : e.call pc = some e') :
    e'.instanceName = e.instanceName := by
  unfold call at he
  split at he <;> cases he
  rfl

theorem setLeader_instanceName (he : e.setLeader = some e') :
    e'.instanceName = e.instanceName := by
  unfold setLeader at he
  split at he <;> cases he <;> rfl

end Elector

/-- The electors are safe and keep their names. -/
structure Inv (instanceName : ι → GoString) (s : System ι) : Prop where
  name : ∀ i, (s.elector i).instanceName = instanceName i
  safe : ∀ i, (s.elector i).Safe s.key

section Inv

variable {instanceName : ι → GoString} {s s' : System ι}

omit [DecidableEq ι] in
theorem inv_initial (instanceName : ι → GoString) (ttl : ι → UInt64) (key : Key) :
    Inv instanceName (initial instanceName ttl key) :=
  ⟨fun _ => rfl, fun _ => ⟨by simp [Elector.Claims, initial], by simp [initial]⟩⟩

/-- One elector goes on, and the key is changed in a way that does not concern the others. -/
theorem Inv.set (h : Inv instanceName s) {i : ι} {e : Elector} {key : Key}
    (hname : e.instanceName = (s.elector i).instanceName) (hsafe : e.Safe key)
    (hkey : ∀ j, j ≠ i → Held s.key (instanceName j) → Held key (instanceName j)) :
    Inv instanceName { s.set i e with key := key } := by
  refine ⟨?_, ?_⟩
  · intro j
    change (Function.update s.elector i e j).instanceName = _
    by_cases hj : j = i
    · subst hj
      rw [Function.update_self, hname]
      exact h.name j
    · rw [Function.update_of_ne hj]
      exact h.name j
  · intro j
    change (Function.update s.elector i e j).Safe key
    by_cases hj : j = i
    · subst hj
      rw [Function.update_self]
      exact hsafe
    · rw [Function.update_of_ne hj]
      refine (h.safe j).frame ?_
      rw [h.name j]
      exact hkey j hj

variable (hinj : Function.Injective instanceName)
include hinj

omit [DecidableEq ι] in
/-- Only the elector whose name the key holds has an effect on it. -/
theorem Inv.operation_holder (h : Inv instanceName s) {i j : ι} {key' : Key}
    (hop : (s.elector i).operation s.key = some (some key')) (hheld : Held s.key (instanceName j)) :
    j = i := by
  have hown := Elector.operation_own hop hheld
  rw [h.name i] at hown
  exact hinj hown

theorem Inv.store (h : Inv instanceName s) {i : ι} {effect : Bool} {err : Option StoreError}
    (hstep : step s (.store i effect err) = some s') :
    Inv instanceName s' := by
  simp only [step] at hstep
  split at hstep
  · cases hstep
  · next after hop =>
    split at hstep
    · obtain ⟨key, hkey, rfl⟩ := Option.map_eq_some_iff.mp hstep
      rw [hkey] at hop
      refine h.set Elector.reported_instanceName ((h.safe i).reported_effect hop) ?_
      intro j hj hheld
      exact absurd (h.operation_holder hinj hop hheld) hj
    · split at hstep
      · next herr =>
        cases hstep
        exact h.set Elector.reported_instanceName ((h.safe i).reported_error herr)
          (fun _ _ hj => hj)
      · cases hstep

theorem Inv.step (h : Inv instanceName s) {a : Action ι} (hstep : step s a = some s') :
    Inv instanceName s' := by
  have hcall : ∀ {i : ι} {pc : Pc}, pc = .create ∨ pc = .compareAndSwap ∨ pc = .vacate →
      ((s.elector i).call pc).map (s.set i) = some s' → Inv instanceName s' := by
    intro i pc hpc hstep
    obtain ⟨e, he, rfl⟩ := Option.map_eq_some_iff.mp hstep
    exact h.set (Elector.call_instanceName he) ((h.safe i).call hpc he) (fun _ _ hj => hj)
  cases a with
  | runForElection i => exact hcall (Or.inl rfl) hstep
  | stayAsLeader i => exact hcall (Or.inr (Or.inl rfl)) hstep
  | vacate i => exact hcall (Or.inr (Or.inr rfl)) hstep
  | store i effect err => exact h.store hinj hstep
  | setLeader i =>
    obtain ⟨e, he, rfl⟩ := Option.map_eq_some_iff.mp hstep
    exact h.set (Elector.setLeader_instanceName he) ((h.safe i).setLeader he) (fun _ _ hj => hj)
  | expire =>
    simp only [Election.step] at hstep
    split at hstep
    · cases hstep
      exact ⟨h.name, fun i => ⟨fun _ => Or.inr rfl, (h.safe i).vacated⟩⟩
    · cases hstep

end Inv

/-- The action is an operation of the store in `StayAsLeader` or `Vacate` of this elector. -/
def StaysOrVacates (s : System ι) (i : ι) (a : Action ι) : Prop :=
  (∃ effect err, a = .store i effect err) ∧
    ((s.elector i).pc = .compareAndSwap ∨ (s.elector i).pc = .compareAndDelete)

/-- An elector that is the leader holds the key, or the key has expired since its last successful
`Create` or `CompareAndSwap`. So there are two leaders only after such an expiry. `StayAsLeader`
and `Vacate` do not touch a key that holds another elector's name. -/
theorem leader_holds_key_or_expired (instanceName : ι → GoString) (ttl : ι → UInt64) (key : Key)
    (hinj : Function.Injective instanceName) (s : System ι)
    (hs : Reachable step Always (initial instanceName ttl key) s) :
    (∀ i, (s.elector i).isLeader = true →
      Held s.key (instanceName i) ∨ (s.elector i).expired = true) ∧
    (∀ i j, i ≠ j → (s.elector i).isLeader = true → (s.elector j).isLeader = true →
      (s.elector i).expired = true ∨ (s.elector j).expired = true) ∧
    (∀ i j a s', i ≠ j → Held s.key (instanceName j) → StaysOrVacates s i a →
      step s a = some s' → s'.key = s.key) := by
  have h : Inv instanceName s :=
    hs.invariant (inv_initial instanceName ttl key) (fun _ _ _ h _ hstep => h.step hinj hstep)
  have hleader : ∀ i, (s.elector i).isLeader = true →
      Held s.key (instanceName i) ∨ (s.elector i).expired = true := by
    intro i hi
    rw [← h.name i]
    exact (h.safe i).claims (Or.inl hi)
  refine ⟨hleader, ?_, ?_⟩
  · intro i j hij hi hj
    rcases hleader i hi with hheld | hexpired
    · rcases hleader j hj with hheld' | hexpired
      · exact absurd (hinj (Option.some.inj (hheld.symm.trans hheld'))) hij
      · exact Or.inr hexpired
    · exact Or.inl hexpired
  · rintro i j a s' hij hheld ⟨⟨effect, err, rfl⟩, -⟩ hstep
    simp only [step] at hstep
    split at hstep
    · cases hstep
    · next after hop =>
      split at hstep
      · obtain ⟨key', hkey, rfl⟩ := Option.map_eq_some_iff.mp hstep
        rw [hkey] at hop
        exact absurd (h.operation_holder hinj hop hheld).symm hij
      · split at hstep <;> cases hstep
        rfl

/-- Two leaders after an expiry: the flag of the first one lags behind. -/
theorem two_leaders_after_expiry :
    let instanceName (i : Bool) : GoString := if i then str "a" else str "b"
    ∃ s, Reachable step Always (initial instanceName (fun _ => 15) none) s ∧
      (s.elector true).isLeader = true ∧ (s.elector false).isLeader = true ∧
      Held s.key (str "b") ∧
      ((s.elector true).expired = true ∨ (s.elector false).expired = true) := by
  intro instanceName
  have hrun : (run step (initial instanceName (fun _ => 15) none) [.runForElection true,
      .store true true none, .setLeader true, .expire, .runForElection false,
      .store false true none, .setLeader false]).map (fun s =>
        ((s.elector true).isLeader, (s.elector false).isLeader, decide (Held s.key (str "b")))) =
      some (true, true, true) := by decide +kernel
  obtain ⟨s, hreach, heq⟩ := exists_reachable_of_run hrun
  obtain ⟨hfirst, hsecond, hheld⟩ : (s.elector true).isLeader = true ∧
      (s.elector false).isLeader = true ∧ Held s.key (str "b") := by simpa using heq
  have hinj : Function.Injective instanceName := by decide
  exact ⟨s, hreach, hfirst, hsecond, hheld,
    (leader_holds_key_or_expired instanceName _ none hinj s hreach).2.1 true false (by decide)
      hfirst hsecond⟩

end Loggregator.SyslogDrainBinder.Election
