import Loggregator.Lib.Bytes
import Loggregator.Lib.Dict
import Loggregator.Lib.RoundRobin
import Loggregator.Lib.Transition
import Mathlib.Logic.Function.Basic

/-!
# The pool of connections to dopplers

`plumbing/pool.go`: `RegisterDoppler` makes an array of slots for an address and a goroutine for
each slot that dials until it succeeds and then stores its connection. `Close` takes the array
out of the map and closes the connections that it finds in the slots, one after the other.

The goroutines hold the array and not the address, and `RegisterDoppler` overwrites the entry of
an address. A connection is lost when it is stored after `Close` has passed its slot, or when the
array that it is in is overwritten; nothing else loses one.
-/

namespace Loggregator.Plumbing.Pool

open Lib

/-- A slot: the number of its array and its index. -/
abbrev Slot := Nat × Nat

/-- `connectToDoppler`, by what comes next. -/
inductive Dialer where
  | dial
  | store (conn : Nat)
  | finished
  deriving DecidableEq

/-- A call of `Close` in its loop: the array, the index and the connection it has loaded. -/
structure Closer where
  clients : Nat
  index : Nat := 0
  client : Option Nat := none
  deriving DecidableEq

/-- The pool with its arrays, numbered in the order of the calls of `RegisterDoppler`, and its
goroutines. Connections are numbered in the order in which they are dialed. -/
structure State where
  dopplers : Dict GoString Nat := ∅
  arrays : Nat := 0
  slot : Slot → Option Nat := fun _ => none
  dialer : Slot → Dialer := fun _ => .dial
  conns : Nat := 0
  closers : List Closer := []
  closed : List Nat := []

/-- The actions: the calls under the lock, the result of a dial, the store of a connection, and
the next operation of a call of `Close`. -/
inductive Action where
  | registerDoppler (addr : GoString)
  | dialed (p : Slot) (ok : Bool)
  | store (p : Slot)
  | close (addr : GoString)
  | closer (k : Nat)
  deriving DecidableEq

/-- The next operation in the loop of `Close`: load a slot, or close what was loaded. -/
def Closer.next (st : State) (k : Nat) (call : Closer) : State :=
  match call.client with
  | some conn =>
    { st with
      closers := st.closers.set k { call with index := call.index + 1, client := none }
      closed := conn :: st.closed }
  | none =>
    match st.slot (call.clients, call.index) with
    | none => { st with closers := st.closers.set k { call with index := call.index + 1 } }
    | some conn => { st with closers := st.closers.set k { call with client := some conn } }

/-- One action of a pool of this size. -/
def step (size : Nat) (st : State) : Action → Option State
  | .registerDoppler addr =>
    some { st with dopplers := st.dopplers.insert addr st.arrays, arrays := st.arrays + 1 }
  | .dialed p ok =>
    if p.1 < st.arrays ∧ p.2 < size ∧ st.dialer p = .dial then
      -- after an error the goroutine sleeps and dials again
      if ok then
        some { st with
          dialer := Function.update st.dialer p (.store st.conns)
          conns := st.conns + 1 }
      else some st
    else none
  | .store p =>
    match st.dialer p with
    | .store conn =>
      some { st with
        slot := Function.update st.slot p (some conn)
        dialer := Function.update st.dialer p .finished }
    | _ => none
  | .close addr =>
    match st.dopplers.lookup addr with
    | none => some st
    | some clients =>
      some { st with
        dopplers := st.dopplers.erase addr
        closers := st.closers ++ [{ clients := clients }] }
  | .closer k =>
    st.closers[k]?.bind (fun call =>
      if call.index < size then some (call.next st k) else none)

/-! ## Lost connections -/

/-- The array is in the map. -/
def State.Kept (st : State) (clients : Nat) : Prop := ∃ addr, st.dopplers.lookup addr = some clients

/-- A call of `Close` has not passed the slot yet. -/
def State.Pending (st : State) (p : Slot) : Prop :=
  ∃ call ∈ st.closers, call.clients = p.1 ∧ call.index ≤ p.2

/-- The connection is in a slot from where the pool or a call of `Close` still gets at it, or it
is closed. -/
def State.Accounted (st : State) (conn : Nat) : Prop :=
  conn ∈ st.closed ∨ ∃ p, st.slot p = some conn ∧ (st.Kept p.1 ∨ st.Pending p)

/-- Every goroutine of `connectToDoppler` has returned. -/
def State.Finished (size : Nat) (st : State) : Prop :=
  ∀ clients < st.arrays, ∀ i < size, st.dialer (clients, i) = .finished

/-- The calls of `Close` have returned. -/
def State.Settled (size : Nat) (st : State) : Prop := ∀ call ∈ st.closers, size ≤ call.index

/-- The array that `RegisterDoppler` overwrites has no connection, and a connection is stored
where the pool or a call of `Close` still gets at it. -/
def Safe (st : State) : Action → Prop
  | .registerDoppler addr => ∀ clients, st.dopplers.lookup addr = some clients →
    ∀ i, st.slot (clients, i) = none
  | .store p => st.Kept p.1 ∨ st.Pending p
  | .dialed _ _ | .close _ | .closer _ => True

/-- No connection that is stored is lost. -/
def State.NoLoss (st : State) : Prop := ∀ p conn, st.slot p = some conn → st.Accounted conn

/-! ## Invariants -/

/-- The goroutine of a slot has dialed the connection. -/
def State.Owns (st : State) (p : Slot) (conn : Nat) : Prop :=
  st.slot p = some conn ∨ st.dialer p = .store conn

structure Inv (size : Nat) (st : State) : Prop where
  kept : ∀ clients, st.Kept clients → clients < st.arrays
  keptOnce : ∀ addr addr' clients, st.dopplers.lookup addr = some clients →
    st.dopplers.lookup addr' = some clients → addr = addr'
  closers : ∀ call ∈ st.closers, call.clients < st.arrays ∧ ¬ st.Kept call.clients
  loaded : ∀ call ∈ st.closers, ∀ conn, call.client = some conn →
    st.slot (call.clients, call.index) = some conn
  finished : ∀ p conn, st.slot p = some conn → st.dialer p = .finished
  owner : ∀ p conn, st.Owns p conn → p.1 < st.arrays ∧ p.2 < size ∧ conn < st.conns
  ownerOnce : ∀ p q conn, st.Owns p conn → st.Owns q conn → p = q
  owned : ∀ conn < st.conns, ∃ p, st.Owns p conn
  closed : ∀ conn ∈ st.closed, ∃ p, st.slot p = some conn ∧ ¬ st.Kept p.1

/-- What an action does. -/
inductive Turn (size : Nat) (st : State) : Action → State → Prop where
  | failed {p : Slot} : Turn size st (.dialed p false) st
  | absent {addr : GoString} : Turn size st (.close addr) st
  | registerDoppler {addr : GoString} : Turn size st (.registerDoppler addr)
      { st with dopplers := st.dopplers.insert addr st.arrays, arrays := st.arrays + 1 }
  | dialed {p : Slot} (hp : p.1 < st.arrays ∧ p.2 < size) (hdial : st.dialer p = .dial) :
      Turn size st (.dialed p true)
        { st with
          dialer := Function.update st.dialer p (.store st.conns)
          conns := st.conns + 1 }
  | store {p : Slot} {conn : Nat} (hstore : st.dialer p = .store conn) :
      Turn size st (.store p)
        { st with
          slot := Function.update st.slot p (some conn)
          dialer := Function.update st.dialer p .finished }
  | close {addr : GoString} {clients : Nat} (hkept : st.dopplers.lookup addr = some clients) :
      Turn size st (.close addr)
        { st with
          dopplers := st.dopplers.erase addr
          closers := st.closers ++ [{ clients := clients }] }
  | closed {k : Nat} {call : Closer} {conn : Nat} (hk : st.closers[k]? = some call)
      (hclient : call.client = some conn) :
      Turn size st (.closer k)
        { st with
          closers := st.closers.set k { call with index := call.index + 1, client := none }
          closed := conn :: st.closed }
  | skipped {k : Nat} {call : Closer} (hk : st.closers[k]? = some call)
      (hclient : call.client = none) (hslot : st.slot (call.clients, call.index) = none) :
      Turn size st (.closer k)
        { st with closers := st.closers.set k { call with index := call.index + 1 } }
  | loaded {k : Nat} {call : Closer} {conn : Nat} (hk : st.closers[k]? = some call)
      (hclient : call.client = none)
      (hslot : st.slot (call.clients, call.index) = some conn) :
      Turn size st (.closer k)
        { st with closers := st.closers.set k { call with client := some conn } }

theorem turn_of_step {size : Nat} {st st' : State} {a : Action} (h : step size st a = some st') :
    Turn size st a st' := by
  cases a with
  | registerDoppler addr =>
    cases h
    exact .registerDoppler
  | dialed p ok =>
    simp only [step] at h
    split at h
    · next hp =>
      cases ok with
      | true =>
        cases h
        exact .dialed ⟨hp.1, hp.2.1⟩ hp.2.2
      | false =>
        cases h
        exact .failed
    · cases h
  | store p =>
    simp only [step] at h
    split at h
    · next hstore =>
      cases h
      exact .store hstore
    · cases h
  | close addr =>
    simp only [step] at h
    split at h
    · cases h
      exact .absent
    · next hkept =>
      cases h
      exact .close hkept
  | closer k =>
    obtain ⟨call, hk, hcall⟩ := Option.bind_eq_some_iff.mp h
    split at hcall
    · cases hcall
      unfold Closer.next
      split
      · next hclient => exact .closed hk hclient
      · next hclient =>
        split
        · next hslot => exact .skipped hk hclient hslot
        · next hslot => exact .loaded hk hclient hslot
    · cases hcall

/-! ## Frames -/

section Frames

variable {size : Nat} {st : State} {p q : Slot} {conn : Nat}

theorem kept_insert (addr : GoString) (clients : Nat) :
    ({ st with dopplers := st.dopplers.insert addr st.arrays, arrays := st.arrays + 1 } :
      State).Kept clients ↔
      clients = st.arrays ∨ ∃ addr', addr' ≠ addr ∧ st.dopplers.lookup addr' = some clients := by
  unfold State.Kept
  simp only [Dict.lookup_insert_ite]
  constructor
  · rintro ⟨addr', h⟩
    split at h
    · exact Or.inl (Option.some.inj h).symm
    · next hne => exact Or.inr ⟨addr', hne, h⟩
  · rintro (rfl | ⟨addr', hne, h⟩)
    · exact ⟨addr, if_pos rfl⟩
    · exact ⟨addr', by rw [if_neg hne, h]⟩

/-- Only the array that was under the address leaves the map. -/
theorem kept_erase (hi : Inv size st) {addr : GoString} {taken : Nat}
    (hkept : st.dopplers.lookup addr = some taken) (closers : List Closer) (clients : Nat) :
    ({ st with dopplers := st.dopplers.erase addr, closers := closers } : State).Kept clients ↔
      clients ≠ taken ∧ st.Kept clients := by
  unfold State.Kept
  simp only [Dict.lookup_erase_eq_some]
  constructor
  · rintro ⟨addr', hne, h⟩
    refine ⟨?_, addr', h⟩
    rintro rfl
    exact hne (hi.keptOnce addr' addr clients h hkept)
  · rintro ⟨hne, addr', h⟩
    refine ⟨addr', ?_, h⟩
    rintro rfl
    rw [hkept] at h
    exact hne (Option.some.inj h).symm

/-- A call of `Close` that goes on has no more slots before it than it had. -/
theorem pending_of_set {k : Nat} {call call' : Closer} {closed : List Nat}
    (hk : st.closers[k]? = some call)
    (h : ({ st with closers := st.closers.set k call', closed := closed } : State).Pending p)
    (hclients : call'.clients = call.clients) (hindex : call.index ≤ call'.index) :
    st.Pending p := by
  obtain ⟨c, hc, harray, hle⟩ := h
  rcases List.mem_or_eq_of_mem_set hc with hc | rfl
  · exact ⟨c, hc, harray, hle⟩
  · exact ⟨call, List.mem_of_getElem? hk, hclients ▸ harray, hindex.trans hle⟩

/-- It leaves at most the slot behind that it was at. -/
theorem pending_set {k : Nat} {call call' : Closer} {closed : List Nat}
    (hk : st.closers[k]? = some call) (h : st.Pending p) (hclients : call'.clients = call.clients)
    (hindex : call.clients = p.1 → call.index ≤ p.2 → call'.index ≤ p.2) :
    ({ st with closers := st.closers.set k call', closed := closed } : State).Pending p := by
  refine exists_mem_set hk h ?_
  rintro ⟨harray, hle⟩
  exact ⟨hclients.trans harray, hindex harray hle⟩

/-- A goroutine that has not finished has left its slot empty. -/
theorem Inv.slot_eq_none (hi : Inv size st) (h : st.dialer p ≠ .finished) : st.slot p = none := by
  cases hslot : st.slot p with
  | none => rfl
  | some conn => exact absurd (hi.finished p conn hslot) h

theorem owns_dialed (hi : Inv size st) (hdial : st.dialer p = .dial) :
    ({ st with
        dialer := Function.update st.dialer p (.store st.conns)
        conns := st.conns + 1 } : State).Owns q conn ↔
      st.Owns q conn ∨ q = p ∧ conn = st.conns := by
  simp only [State.Owns, Function.update_apply]
  by_cases hq : q = p
  · have hempty := hi.slot_eq_none (p := p) (by simp [hdial])
    rw [if_pos hq]
    simp [hq, hdial, hempty, eq_comm]
  · simp [hq]

theorem owns_store (hi : Inv size st) {c : Nat} (hstore : st.dialer p = .store c) :
    ({ st with
        slot := Function.update st.slot p (some c)
        dialer := Function.update st.dialer p .finished } : State).Owns q conn ↔
      st.Owns q conn := by
  simp only [State.Owns, Function.update_apply]
  by_cases hq : q = p
  · have hempty := hi.slot_eq_none (p := p) (by simp [hstore])
    rw [if_pos hq, if_pos hq, hq, hstore]
    simp [hempty]
  · rw [if_neg hq, if_neg hq]

/-- A store leaves the connections where they are. -/
theorem slot_store (hi : Inv size st) {c : Nat} (hstore : st.dialer p = .store c)
    (h : st.slot q = some conn) : Function.update st.slot p (some c) q = some conn := by
  rw [Function.update_of_ne, h]
  rintro rfl
  rw [hi.slot_eq_none (by simp [hstore])] at h
  cases h

end Frames

section Inv

variable {size : Nat} {st st' : State} {a : Action}

theorem inv_initial (size : Nat) : Inv size {} := by
  refine ⟨?_, ?_, nofun, nofun, nofun, ?_, ?_, nofun, nofun⟩
  · rintro clients ⟨addr, h⟩
    cases h
  · rintro addr addr' clients h
    cases h
  · rintro p conn (h | h) <;> cases h
  · rintro p q conn (h | h) <;> cases h

section

variable (hi : Inv size st)
include hi

/-- The calls of `Close` go on: one of them has moved. -/
theorem Inv.setCloser {k : Nat} {call call' : Closer} (hk : st.closers[k]? = some call)
    (hclients : call'.clients = call.clients)
    (hloaded : ∀ conn, call'.client = some conn →
      st.slot (call'.clients, call'.index) = some conn) {closed : List Nat}
    (hclosed : ∀ conn ∈ closed, ∃ p, st.slot p = some conn ∧ ¬ st.Kept p.1) :
    Inv size { st with closers := st.closers.set k call', closed := closed } := by
  refine ⟨hi.kept, hi.keptOnce, ?_, ?_, hi.finished, hi.owner, hi.ownerOnce, hi.owned, hclosed⟩
  · intro c hc
    rcases List.mem_or_eq_of_mem_set hc with hc | rfl
    · exact hi.closers c hc
    · rw [hclients]
      exact hi.closers call (List.mem_of_getElem? hk)
  · intro c hc
    rcases List.mem_or_eq_of_mem_set hc with hc | rfl
    · exact hi.loaded c hc
    · exact hloaded

theorem Inv.registerDoppler (addr : GoString) :
    Inv size { st with
      dopplers := st.dopplers.insert addr st.arrays, arrays := st.arrays + 1 } := by
  have hkept : ∀ clients, ({ st with
      dopplers := st.dopplers.insert addr st.arrays, arrays := st.arrays + 1 } :
      State).Kept clients → clients = st.arrays ∨ st.Kept clients := by
    intro clients h
    rcases (kept_insert addr clients).mp h with h | ⟨addr', -, h⟩
    · exact Or.inl h
    · exact Or.inr ⟨addr', h⟩
  refine ⟨?_, ?_, ?_, hi.loaded, hi.finished, ?_, hi.ownerOnce, hi.owned, ?_⟩
  · intro clients h
    rcases hkept clients h with rfl | h
    · exact Nat.lt_succ_self _
    · exact Nat.lt_succ_of_lt (hi.kept clients h)
  · intro addr₁ addr₂ clients h₁ h₂
    rw [Dict.lookup_insert_ite] at h₁ h₂
    split at h₁ <;> split at h₂
    · next h h' => rw [h, h']
    · cases h₁
      exact absurd (hi.kept _ ⟨addr₂, h₂⟩) (Nat.lt_irrefl _)
    · cases h₂
      exact absurd (hi.kept _ ⟨addr₁, h₁⟩) (Nat.lt_irrefl _)
    · exact hi.keptOnce addr₁ addr₂ clients h₁ h₂
  · intro call hcall
    obtain ⟨hlt, hnot⟩ := hi.closers call hcall
    refine ⟨Nat.lt_succ_of_lt hlt, fun h => ?_⟩
    rcases hkept _ h with h | h
    · exact absurd h (Nat.ne_of_lt hlt)
    · exact hnot h
  · intro p conn h
    obtain ⟨hlt, hsize, hconn⟩ := hi.owner p conn h
    exact ⟨Nat.lt_succ_of_lt hlt, hsize, hconn⟩
  · intro conn hconn
    obtain ⟨p, hslot, hnot⟩ := hi.closed conn hconn
    refine ⟨p, hslot, fun h => ?_⟩
    rcases hkept _ h with h | h
    · exact absurd h (Nat.ne_of_lt (hi.owner p conn (Or.inl hslot)).1)
    · exact hnot h

theorem Inv.dialed {p : Slot} (hp : p.1 < st.arrays ∧ p.2 < size) (hdial : st.dialer p = .dial) :
    Inv size { st with
      dialer := Function.update st.dialer p (.store st.conns), conns := st.conns + 1 } := by
  refine ⟨hi.kept, hi.keptOnce, hi.closers, hi.loaded, ?_, ?_, ?_, ?_, hi.closed⟩
  · intro q conn hslot
    show Function.update st.dialer p (.store st.conns) q = .finished
    rw [Function.update_of_ne, hi.finished q conn hslot]
    rintro rfl
    rw [hi.slot_eq_none (by simp [hdial])] at hslot
    cases hslot
  · intro q conn h
    rcases (owns_dialed hi hdial).mp h with h | ⟨rfl, rfl⟩
    · obtain ⟨hlt, hsize, hconn⟩ := hi.owner q conn h
      exact ⟨hlt, hsize, Nat.lt_succ_of_lt hconn⟩
    · exact ⟨hp.1, hp.2, Nat.lt_succ_self _⟩
  · intro q r conn hq hr
    rw [owns_dialed hi hdial] at hq hr
    rcases hq with hq | ⟨hq, rfl⟩ <;> rcases hr with hr | ⟨hr, hconn⟩
    · exact hi.ownerOnce q r conn hq hr
    · rw [hconn] at hq
      exact absurd (hi.owner q _ hq).2.2 (Nat.lt_irrefl _)
    · exact absurd (hi.owner r _ hr).2.2 (Nat.lt_irrefl _)
    · rw [hq, hr]
  · intro conn hconn
    rcases Nat.lt_succ_iff_lt_or_eq.mp hconn with hlt | rfl
    · obtain ⟨q, hq⟩ := hi.owned conn hlt
      exact ⟨q, (owns_dialed hi hdial).mpr (Or.inl hq)⟩
    · exact ⟨p, (owns_dialed hi hdial).mpr (Or.inr ⟨rfl, rfl⟩)⟩

theorem Inv.store {p : Slot} {c : Nat} (hstore : st.dialer p = .store c) :
    Inv size { st with
      slot := Function.update st.slot p (some c)
      dialer := Function.update st.dialer p .finished } := by
  refine ⟨hi.kept, hi.keptOnce, hi.closers, ?_, ?_, ?_, ?_, ?_, ?_⟩
  · intro call hcall conn hclient
    exact slot_store hi hstore (hi.loaded call hcall conn hclient)
  · intro q conn hslot
    change Function.update st.slot p (some c) q = some conn at hslot
    show Function.update st.dialer p .finished q = .finished
    rw [Function.update_apply] at hslot ⊢
    split at hslot
    · next hq => rw [if_pos hq]
    · next hq =>
      rw [if_neg hq]
      exact hi.finished q conn hslot
  · exact fun q conn h => hi.owner q conn ((owns_store hi hstore).mp h)
  · intro q r conn hq hr
    exact hi.ownerOnce q r conn ((owns_store hi hstore).mp hq) ((owns_store hi hstore).mp hr)
  · intro conn hconn
    obtain ⟨q, hq⟩ := hi.owned conn hconn
    exact ⟨q, (owns_store hi hstore).mpr hq⟩
  · intro conn hconn
    obtain ⟨q, hslot, hnot⟩ := hi.closed conn hconn
    exact ⟨q, slot_store hi hstore hslot, hnot⟩

theorem Inv.close {addr : GoString} {taken : Nat} (hkept : st.dopplers.lookup addr = some taken) :
    Inv size { st with
      dopplers := st.dopplers.erase addr
      closers := st.closers ++ [{ clients := taken }] } := by
  have hiff := kept_erase hi hkept (st.closers ++ [{ clients := taken }])
  refine ⟨?_, ?_, ?_, ?_, hi.finished, hi.owner, hi.ownerOnce, hi.owned, ?_⟩
  · exact fun clients h => hi.kept clients ((hiff clients).mp h).2
  · intro addr₁ addr₂ clients h₁ h₂
    exact hi.keptOnce addr₁ addr₂ clients (Dict.lookup_erase_eq_some.mp h₁).2
      (Dict.lookup_erase_eq_some.mp h₂).2
  · intro call hcall
    rcases List.mem_append.mp hcall with hcall | hcall
    · obtain ⟨hlt, hnot⟩ := hi.closers call hcall
      exact ⟨hlt, fun h => hnot ((hiff _).mp h).2⟩
    · rw [List.mem_singleton.mp hcall]
      exact ⟨hi.kept taken ⟨addr, hkept⟩, fun h => ((hiff _).mp h).1 rfl⟩
  · intro call hcall conn hclient
    rcases List.mem_append.mp hcall with hcall | hcall
    · exact hi.loaded call hcall conn hclient
    · rw [List.mem_singleton.mp hcall] at hclient
      cases hclient
  · intro conn hconn
    obtain ⟨p, hslot, hnot⟩ := hi.closed conn hconn
    exact ⟨p, hslot, fun h => hnot ((hiff _).mp h).2⟩

theorem Inv.turn (h : Turn size st a st') : Inv size st' := by
  cases h with
  | failed | absent => exact hi
  | registerDoppler => exact hi.registerDoppler _
  | dialed hp hdial => exact hi.dialed hp hdial
  | store hstore => exact hi.store hstore
  | close hkept => exact hi.close hkept
  | closed hk hclient =>
    have hmem := List.mem_of_getElem? hk
    refine hi.setCloser hk ?_ ?_ ?_
    · rfl
    · rintro c ⟨⟩
    · intro c hc
      rcases List.mem_cons.mp hc with rfl | hc
      · exact ⟨_, hi.loaded _ hmem _ hclient, (hi.closers _ hmem).2⟩
      · exact hi.closed c hc
  | skipped hk hclient hslot =>
    refine hi.setCloser hk ?_ ?_ hi.closed
    · rfl
    · intro c hc
      rw [hclient] at hc
      cases hc
  | loaded hk hclient hslot =>
    refine hi.setCloser hk ?_ ?_ hi.closed
    · rfl
    · rintro c ⟨⟩
      exact hslot

end

theorem inv_of_run {actions : List Action} (h : run (step size) {} actions = some st) :
    Inv size st :=
  (Reachable.refl.of_run h).invariant (inv_initial size)
    (fun _ _ _ hi _ hstep => hi.turn (turn_of_step hstep))

end Inv

/-! ## Losses -/

/-- The connection in the slot is out of reach and still open. -/
structure Lost (st : State) (p : Slot) (conn : Nat) : Prop where
  slot : st.slot p = some conn
  notClosed : conn ∉ st.closed
  notKept : ¬ st.Kept p.1
  notPending : ¬ st.Pending p

section Losses

variable {size : Nat} {st st' : State} {a : Action}

theorem noLoss_iff (hi : Inv size st) : st.NoLoss ↔ ∀ p conn, ¬ Lost st p conn := by
  constructor
  · intro h p conn hlost
    rcases h p conn hlost.slot with hclosed | ⟨q, hq, hreach⟩
    · exact hlost.notClosed hclosed
    · cases hi.ownerOnce q p conn (Or.inl hq) (Or.inl hlost.slot)
      exact hreach.elim hlost.notKept hlost.notPending
  · intro h p conn hslot
    by_contra hnot
    refine h p conn ⟨hslot, fun hclosed => hnot (Or.inl hclosed), ?_, ?_⟩
    · exact fun hkept => hnot (Or.inr ⟨p, hslot, Or.inl hkept⟩)
    · exact fun hpending => hnot (Or.inr ⟨p, hslot, Or.inr hpending⟩)

/-- What is lost stays lost. -/
theorem Lost.turn {p : Slot} {conn : Nat} (hlost : Lost st p conn) (hi : Inv size st)
    (h : Turn size st a st') : Lost st' p conn := by
  obtain ⟨hslot, hopen, hkept, hpending⟩ := hlost
  cases h with
  | failed | absent => exact ⟨hslot, hopen, hkept, hpending⟩
  | @registerDoppler addr =>
    refine ⟨hslot, hopen, ?_, hpending⟩
    rw [kept_insert]
    rintro (h | ⟨addr', -, h⟩)
    · exact absurd h (Nat.ne_of_lt (hi.owner p conn (Or.inl hslot)).1)
    · exact hkept ⟨addr', h⟩
  | dialed => exact ⟨hslot, hopen, hkept, hpending⟩
  | store hstore => exact ⟨slot_store hi hstore hslot, hopen, hkept, hpending⟩
  | close hlookup =>
    refine ⟨hslot, hopen, fun h => hkept ((kept_erase hi hlookup _ _).mp h).2, ?_⟩
    rintro ⟨call, hcall, harray, hle⟩
    rcases List.mem_append.mp hcall with hcall | hcall
    · exact hpending ⟨call, hcall, harray, hle⟩
    · rw [List.mem_singleton.mp hcall] at harray
      exact hkept ⟨_, hlookup.trans (congrArg some harray)⟩
  | closed hk hclient =>
    refine ⟨hslot, ?_, hkept, ?_⟩
    · intro hmem
      rcases List.mem_cons.mp hmem with rfl | hmem
      · -- it would have been pending in the slot where it was loaded from
        have hloaded := hi.loaded _ (List.mem_of_getElem? hk) _ hclient
        cases hi.ownerOnce p _ conn (Or.inl hslot) (Or.inl hloaded)
        exact hpending ⟨_, List.mem_of_getElem? hk, rfl, Nat.le_refl _⟩
      · exact hopen hmem
    · exact fun h => hpending (pending_of_set hk h rfl (Nat.le_succ _))
  | skipped hk =>
    exact ⟨hslot, hopen, hkept, fun h => hpending (pending_of_set hk h rfl (Nat.le_succ _))⟩
  | loaded hk =>
    exact ⟨hslot, hopen, hkept, fun h => hpending (pending_of_set hk h rfl (Nat.le_refl _))⟩

/-- A safe action loses nothing. -/
theorem Lost.of_safe {p : Slot} {conn : Nat} (hlost : Lost st' p conn) (hi : Inv size st)
    (h : Turn size st a st') (hsafe : Safe st a) : Lost st p conn := by
  obtain ⟨hslot, hopen, hkept, hpending⟩ := hlost
  cases h with
  | failed | absent => exact ⟨hslot, hopen, hkept, hpending⟩
  | @registerDoppler addr =>
    refine ⟨hslot, hopen, ?_, hpending⟩
    rintro ⟨addr', h⟩
    by_cases haddr : addr' = addr
    · rw [haddr] at h
      have hempty := hsafe p.1 h p.2
      rw [show st.slot (p.1, p.2) = some conn from hslot] at hempty
      cases hempty
    · exact hkept ((kept_insert addr p.1).mpr (Or.inr ⟨addr', haddr, h⟩))
  | dialed => exact ⟨hslot, hopen, hkept, hpending⟩
  | @store q c hstore =>
    refine ⟨?_, hopen, hkept, hpending⟩
    by_cases hq : p = q
    · rw [hq] at hkept hpending
      exact absurd hsafe (not_or.mpr ⟨hkept, hpending⟩)
    · change Function.update st.slot q (some c) p = some conn at hslot
      rwa [Function.update_of_ne hq] at hslot
  | @close addr clients hlookup =>
    have hne : p.1 ≠ clients := by
      intro heq
      refine hpending ⟨{ clients := clients }, ?_, heq.symm, Nat.zero_le _⟩
      exact List.mem_append_right _ (List.mem_singleton_self _)
    refine ⟨hslot, hopen, fun h => hkept ((kept_erase hi hlookup _ _).mpr ⟨hne, h⟩), ?_⟩
    rintro ⟨call, hcall, hcall'⟩
    exact hpending ⟨call, List.mem_append_left _ hcall, hcall'⟩
  | @closed k call c hk hclient =>
    refine ⟨hslot, fun hmem => hopen (List.mem_cons_of_mem _ hmem), hkept, fun h => ?_⟩
    refine hpending (pending_set hk h rfl ?_)
    intro harray hle
    refine Nat.succ_le_of_lt (Nat.lt_of_le_of_ne hle ?_)
    -- the slot that the call leaves behind is the one of the connection that it closes
    intro hindex
    have hloaded := hi.loaded call (List.mem_of_getElem? hk) c hclient
    rw [harray, hindex, show st.slot (p.1, p.2) = some conn from hslot] at hloaded
    cases hloaded
    exact hopen List.mem_cons_self
  | @skipped k call hk hclient hempty =>
    refine ⟨hslot, hopen, hkept, fun h => ?_⟩
    refine hpending (pending_set hk h rfl ?_)
    intro harray hle
    refine Nat.succ_le_of_lt (Nat.lt_of_le_of_ne hle ?_)
    intro hindex
    rw [harray, hindex, show st.slot (p.1, p.2) = some conn from hslot] at hempty
    cases hempty
  | loaded hk =>
    exact ⟨hslot, hopen, hkept, fun h => hpending (pending_set hk h rfl (fun _ hle => hle))⟩

/-- An action that is not safe loses a connection. -/
theorem lost_of_not_safe (hi : Inv size st) (h : Turn size st a st') (hnot : ¬ Safe st a) :
    ∃ p conn, Lost st' p conn := by
  cases h with
  | @registerDoppler addr =>
    simp only [Safe, not_forall] at hnot
    obtain ⟨clients, hlookup, i, hslot⟩ := hnot
    obtain ⟨conn, hconn⟩ := Option.ne_none_iff_exists'.mp hslot
    refine ⟨(clients, i), conn, hconn, ?_, ?_, ?_⟩
    · intro hclosed
      obtain ⟨q, hq, hnot⟩ := hi.closed conn hclosed
      cases hi.ownerOnce q (clients, i) conn (Or.inl hq) (Or.inl hconn)
      exact hnot ⟨addr, hlookup⟩
    · rw [kept_insert]
      rintro (heq | ⟨addr', hne, h⟩)
      · exact absurd heq (Nat.ne_of_lt (hi.kept clients ⟨addr, hlookup⟩))
      · exact hne (hi.keptOnce addr' addr clients h hlookup)
    · rintro ⟨call, hcall, harray, -⟩
      exact (hi.closers call hcall).2 (harray ▸ ⟨addr, hlookup⟩)
  | @store p c hstore =>
    obtain ⟨hkept, hpending⟩ := not_or.mp hnot
    refine ⟨p, c, Function.update_self p (some c) st.slot, ?_, hkept, hpending⟩
    intro hclosed
    obtain ⟨q, hq, -⟩ := hi.closed c hclosed
    cases hi.ownerOnce q p c (Or.inl hq) (Or.inr hstore)
    rw [hi.slot_eq_none (by simp [hstore])] at hq
    cases hq
  | _ => exact absurd trivial hnot

/-- A run loses no connection exactly if each of its actions is safe. -/
theorem noLoss_run_iff {actions : List Action} (hrun : run (step size) {} actions = some st) :
    st.NoLoss ↔ ¬ Happened (step size) {} (fun _ s a => ¬ Safe s a) actions := by
  rw [noLoss_iff (inv_of_run hrun)]
  refine run_invariant (P := fun actions st => (∀ p conn, ¬ Lost st p conn) ↔
    ¬ Happened (step size) {} (fun _ s a => ¬ Safe s a) actions) ?_ ?_ hrun
  · refine ⟨fun _ => ?_, fun _ p conn hlost => by cases hlost.slot⟩
    rintro ⟨as, a, as', s, heq, -⟩
    cases as <;> cases heq
  · intro as s a s' has ih hstep
    have hi := inv_of_run has
    have hturn := turn_of_step hstep
    rw [happened_concat_iff has, not_or, not_not, ← ih]
    constructor
    · intro h
      refine ⟨fun p conn hlost => h p conn (hlost.turn hi hturn), ?_⟩
      by_contra hnot
      obtain ⟨p, conn, hlost⟩ := lost_of_not_safe hi hturn hnot
      exact h p conn hlost
    · rintro ⟨h, hsafe⟩ p conn hlost
      exact h p conn (hlost.of_safe hi hturn hsafe)

end Losses

/-- Once the goroutines have finished, every connection that was dialed can be reached from the
pool, is closed or is about to be closed, exactly if each action of the run was safe. When the
calls of `Close` have returned, it is one of the first two. -/
theorem pool_keeps_connections_iff (size : Nat) (actions : List Action) (st : State)
    (hrun : run (step size) {} actions = some st) (hdone : st.Finished size) :
    ((∀ conn < st.conns, st.Accounted conn) ↔
      ¬ Happened (step size) {} (fun _ s a => ¬ Safe s a) actions) ∧
    (st.Settled size → ∀ conn, st.Accounted conn ↔
      conn ∈ st.closed ∨ ∃ p, st.slot p = some conn ∧ st.Kept p.1) := by
  have hi := inv_of_run hrun
  constructor
  · rw [← noLoss_run_iff hrun]
    constructor
    · exact fun h p conn hslot => h conn (hi.owner p conn (Or.inl hslot)).2.2
    · intro h conn hconn
      obtain ⟨p, hslot | hstore⟩ := hi.owned conn hconn
      · exact h p conn hslot
      · -- a goroutine that has not stored its connection has not finished
        obtain ⟨hlt, hsize, -⟩ := hi.owner p conn (Or.inr hstore)
        have hfinished := hdone p.1 hlt p.2 hsize
        rw [show st.dialer (p.1, p.2) = .store conn from hstore] at hfinished
        cases hfinished
  · intro hsettled conn
    constructor
    · rintro (h | ⟨p, hslot, h | ⟨call, hcall, -, hle⟩⟩)
      · exact Or.inl h
      · exact Or.inr ⟨p, hslot, h⟩
      · have hsize := (hi.owner p conn (Or.inl hslot)).2.1
        exact absurd (hsettled call hcall) (by omega)
    · rintro (h | ⟨p, hslot, h⟩)
      · exact Or.inl h
      · exact Or.inr ⟨p, hslot, Or.inl h⟩

instance (size : Nat) (st : State) : Decidable (st.Finished size) :=
  inferInstanceAs (Decidable (∀ clients < st.arrays, ∀ i < size,
    st.dialer (clients, i) = .finished))

instance (size : Nat) (st : State) : Decidable (st.Settled size) :=
  inferInstanceAs (Decidable (∀ call ∈ st.closers, size ≤ call.index))

/-- An address is registered, dialed, closed and registered again. -/
def registeredAgain : List Action :=
  [.registerDoppler [1], .dialed (0, 0) false, .dialed (0, 0) true, .store (0, 0), .close [1],
    .closer 0, .closer 0, .registerDoppler [1], .dialed (1, 0) true, .store (1, 0)]

theorem pool_keeps_connections_registeredAgain :
    ∃ st, run (step 1) {} registeredAgain = some st ∧ st.conns = 2 ∧
      ((∀ conn < st.conns, st.Accounted conn) ↔
        ¬ Happened (step 1) {} (fun _ s a => ¬ Safe s a) registeredAgain) := by
  have hfinal : (run (step 1) {} registeredAgain).map (fun st =>
      (st.conns, decide (st.Finished 1))) = some (2, true) := by
    decide
  obtain ⟨st, hst, heq⟩ := Option.map_eq_some_iff.mp hfinal
  simp only [Prod.mk.injEq, decide_eq_true_eq] at heq
  exact ⟨st, hst, heq.1, (pool_keeps_connections_iff 1 registeredAgain st hst heq.2).1⟩

/-- Nothing gets at a connection when the map is empty and the calls of `Close` have returned. -/
theorem not_accounted {size : Nat} {actions : List Action} {st : State} {conn : Nat}
    (hrun : run (step size) {} actions = some st) (hsettled : st.Settled size)
    (hempty : st.dopplers.entries.isEmpty = true) (hopen : conn ∉ st.closed) :
    ¬ st.Accounted conn := by
  rintro (hclosed | ⟨p, hslot, ⟨addr, h⟩ | ⟨call, hcall, -, hle⟩⟩)
  · exact hopen hclosed
  · rw [Dict.lookup_of_isEmpty hempty] at h
    cases h
  · have hsize := ((inv_of_run hrun).owner p conn (Or.inl hslot)).2.1
    exact absurd (hsettled call hcall) (by omega)

/-- The address is closed before the connection is stored. -/
def storedLate : List Action :=
  [.registerDoppler [1], .close [1], .closer 0, .dialed (0, 0) true, .store (0, 0)]

/-- The address is registered a second time before it is closed. -/
def registeredTwice : List Action :=
  [.registerDoppler [1], .dialed (0, 0) true, .store (0, 0), .registerDoppler [1],
    .dialed (1, 0) true, .store (1, 0), .close [1], .closer 0, .closer 0]

/-- A run of which the outcome has been computed loses its first connection. -/
theorem loses_of_outcome {actions : List Action}
    (hfinal : (run (step 1) {} actions).map (fun st =>
      decide (st.Finished 1 ∧ st.Settled 1 ∧ 0 < st.conns ∧
        st.dopplers.entries.isEmpty = true ∧ 0 ∉ st.closed)) = some true) :
    ∃ st, run (step 1) {} actions = some st ∧ st.Finished 1 ∧ st.Settled 1 ∧ 0 < st.conns ∧
      ¬ st.Accounted 0 := by
  obtain ⟨st, hst, heq⟩ := Option.map_eq_some_iff.mp hfinal
  obtain ⟨hfinished, hsettled, hconns, hempty, hopen⟩ := of_decide_eq_true heq
  exact ⟨st, hst, hfinished, hsettled, hconns, not_accounted hst hsettled hempty hopen⟩

theorem pool_loses_connection :
    (∃ st, run (step 1) {} storedLate = some st ∧ st.Finished 1 ∧ st.Settled 1 ∧ 0 < st.conns ∧
      ¬ st.Accounted 0) ∧
    ∃ st, run (step 1) {} registeredTwice = some st ∧ st.Finished 1 ∧ st.Settled 1 ∧
      0 < st.conns ∧ ¬ st.Accounted 0 :=
  ⟨loses_of_outcome (by decide), loses_of_outcome (by decide)⟩

/-! ## Fetching a client -/

/-- What `fetchClient` returns, or the index with which it leaves the array. -/
inductive Fetched where
  | panic (idx : Int64)
  | client (client : Option Nat)
  deriving DecidableEq

/-- The loop of `fetchClient`. The slots are loaded one after the other while the goroutines store
into them: `views i` is the pool when the slot of the iteration `i` is loaded. -/
def fetchFrom (size seed clients : Nat) (views : Nat → State) : List Nat → Fetched
  | [] => .client none
  | i :: rest =>
    let idx := RoundRobin.index size seed i
    if RoundRobin.InRange size idx then
      match (views i).slot (clients, idx.toInt.toNat) with
      | none => fetchFrom size seed clients views rest
      | some client => .client (some client)
    else .panic idx

/-- `fetchClient` for the array of an address, if the map has one. -/
def fetchClient (size seed : Nat) (views : Nat → State) : Option Nat → Fetched
  | none => .client none
  | some clients => fetchFrom size seed clients views (List.range size)

/-- Each view is a later state of the pool. -/
def Successive (size : Nat) (views : Nat → State) : Prop :=
  ∀ i, ∃ actions, run (step size) (views i) actions = some (views (i + 1))

/-- Nothing empties a slot. -/
theorem slot_isSome_of_step {size : Nat} {st st' : State} {a : Action} {p : Slot}
    (h : step size st a = some st') (hslot : (st.slot p).isSome) : (st'.slot p).isSome := by
  cases turn_of_step h with
  | store _ =>
    simp only [Function.update_apply]
    split
    · rfl
    · exact hslot
  | failed | absent | registerDoppler => exact hslot
  | dialed _ _ | close _ | closed _ _ | skipped _ _ _ | loaded _ _ _ => exact hslot

/-- A slot that is found empty has been empty from the first view on. -/
theorem Successive.empty {size : Nat} {views : Nat → State} (hviews : Successive size views)
    {p : Slot} {i : Nat} (h : (views i).slot p = none) : (views 0).slot p = none := by
  have hkept : ∀ i, ((views 0).slot p).isSome → ((views i).slot p).isSome := by
    intro i h₀
    induction i with
    | zero => exact h₀
    | succ i ih =>
      obtain ⟨actions, hrun⟩ := hviews i
      exact (Reachable.refl.of_run hrun).invariant (P := fun st => (st.slot p).isSome) ih
        (fun _ _ _ hp _ hstep => slot_isSome_of_step hstep hp)
  by_contra hne
  have hsome := hkept i (Option.ne_none_iff_isSome.mp hne)
  rw [h] at hsome
  cases hsome

section FetchClient

variable {size seed clients : Nat} {views : Nat → State} {is : List Nat}

/-- `fetchClient` does not leave the array if the indices are in range. -/
theorem fetchFrom_ne_panic (h : ∀ i ∈ is, RoundRobin.InRange size (RoundRobin.index size seed i))
    (idx : Int64) : fetchFrom size seed clients views is ≠ .panic idx := by
  induction is with
  | nil => exact Fetched.noConfusion
  | cons i rest ih =>
    rw [fetchFrom, if_pos (h i (List.mem_cons_self ..))]
    split
    · exact ih (fun j hj => h j (List.mem_cons_of_mem _ hj))
    · exact Fetched.noConfusion

/-- It returns nil only if each slot was empty when it was loaded. -/
theorem slot_eq_none_of_fetchFrom (h : fetchFrom size seed clients views is = .client none) :
    ∀ i ∈ is, (views i).slot (clients, (RoundRobin.index size seed i).toInt.toNat) = none := by
  induction is with
  | nil => simp
  | cons i rest ih =>
    rw [fetchFrom] at h
    split at h
    · split at h
      · next hempty =>
        intro j hj
        obtain rfl | hj := List.mem_cons.mp hj
        · exact hempty
        · exact ih h j hj
      · cases h
    · cases h

end FetchClient

end Loggregator.Plumbing.Pool
