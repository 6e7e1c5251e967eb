import Loggregator.Lib.Transition
import Loggregator.Metron.ConnSlot
import Mathlib.Data.List.Nodup
import Mathlib.Logic.Function.Basic

/-!
# The connection of metron's v1 client

`metron/internal/clientpool/v1/conn_manager.go`. Any number of calls of `Write` run next to
`maintainConn`. An action is one operation on shared state: a load, store or compare-and-swap of
`m.conn`, the increment of `writes`, a `Close`, a send or receive on `m.reset`, or the outcome of
`Send` and `Connect`. The record `closes` holds the calls of `Close`, and `removals` what was taken
out of `m.conn`, each with the connection that the goroutine which took it out works on; the latest
comes first.

The failure path of `Write` stores nil whatever `m.conn` holds. If its connection is no longer
there, it removes another one that nobody closes, or closes its own a second time.
-/

namespace Loggregator.Metron.ConnManager

open Lib

/-- `Write`, by the operation that comes next. -/
inductive Pc where
  | load
  | send (conn : Nat)
  /-- `atomic.StorePointer(&m.conn, nil)`, after `Send` has failed. -/
  | storeNil (conn : Nat)
  | addWrites (conn : Nat)
  | compareAndSwap (conn : Nat)
  | close (conn : Nat) (err : Option WriteError)
  | reset (err : Option WriteError)
  | returned (err : Option WriteError)
  deriving DecidableEq

structure State extends ConnSlot where
  writes : Nat → Int64 := fun _ => 0
  writers : List Pc := []
  closes : List Nat := []
  removals : List (Nat × Nat) := []

/-- The actions: a call of `Write`, its operations and the outcome of its `Send`; the operations
of `maintainConn`, a tick that it waits for and the outcome of its `Connect`. -/
inductive Action where
  | write
  | writer (i : Nat)
  | sent (i : Nat) (ok : Bool)
  | maintain
  | tick
  | connected (ok : Bool)
  deriving DecidableEq

namespace State

/-- A call of `Write` goes on to another operation. -/
def goto (st : State) (i : Nat) (pc : Pc) : State := { st with writers := st.writers.set i pc }

/-- What is taken out of `m.conn` by a goroutine that works on the connection `holder`. -/
def removed (st : State) (holder : Nat) : List (Nat × Nat) :=
  (st.conn.map (fun old => (old, holder))).toList

/-- `Write` stores nil in `m.conn`. -/
def storeNil (st : State) (holder : Nat) : State :=
  { st with conn := none, removals := st.removed holder ++ st.removals }

/-- The next operation of `Write`. -/
def stepWriter (maxWrites : Int64) (st : State) (i : Nat) : Pc → Option State
  | .load =>
    match st.conn with
    | none => some (st.goto i (.returned (some .noConnection)))
    | some conn => some (st.goto i (.send conn))
  | .storeNil conn => some ((st.storeNil conn).goto i (.close conn (some .send)))
  | .addWrites conn =>
    let writes := st.writes conn + 1
    some ({ st with writes := Function.update st.writes conn writes }.goto i
      (if maxWrites ≤ writes then .compareAndSwap conn else .returned none))
  | .compareAndSwap conn =>
    if st.conn = some conn then some ((st.storeNil conn).goto i (.close conn none))
    else some (st.goto i (.returned none))
  | .close conn err => some ({ st with closes := conn :: st.closes }.goto i (.reset err))
  | .reset err =>
    if st.reset < resetCapacity then
      some ({ st with reset := st.reset + 1 }.goto i (.returned err))
    else none
  | .send _ | .returned _ => none

/-- An action of `maintainConn`, which stores its connection whatever `m.conn` holds. -/
def stepMaintain (st : State) (a : MaintainAction) : Option State :=
  (st.toConnSlot.step a).map (fun slot =>
    { st with
      toConnSlot := slot
      removals := (st.maintain.stored.elim [] st.removed) ++ st.removals })

end State

/-- One action. -/
def step (maxWrites : Int64) (st : State) : Action → Option State
  | .write => some { st with writers := st.writers ++ [.load] }
  | .writer i => st.writers[i]?.bind (st.stepWriter maxWrites i)
  | .sent i ok =>
    st.writers[i]?.bind (fun
      | .send conn => some (st.goto i (if ok then .addWrites conn else .storeNil conn))
      | _ => none)
  | .maintain => st.stepMaintain .next
  | .tick => st.stepMaintain .tick
  | .connected ok => st.stepMaintain (.connected ok)

/-! ## The lifecycle of a connection -/

/-- The connection that a call of `Write` works on. -/
def Pc.conn : Pc → Option Nat
  | .send conn | .storeNil conn | .addWrites conn | .compareAndSwap conn | .close conn _ =>
    some conn
  | .load | .reset _ | .returned _ => none

/-- The connection that a call of `Write` closes next. -/
def Pc.closing : Pc → Option Nat
  | .close conn _ => some conn
  | _ => none

/-- The connection whose `Send` has failed, when nil is stored next. -/
def Pc.storing : Pc → Option Nat
  | .storeNil conn => some conn
  | _ => none

/-- A call of `Write` is about to close the connection. -/
def State.Closing (st : State) (conn : Nat) : Prop := ∃ pc ∈ st.writers, pc.closing = some conn

/-- The connection was obtained from `Connect` and has not been closed. -/
def State.Open (st : State) (conn : Nat) : Prop := conn < st.connections ∧ conn ∉ st.closes

/-- Each connection is closed at most once, whoever removes one closes it, and at most one is
open without being about to be closed. -/
structure State.Safe (st : State) : Prop where
  closedOnce : st.closes.Nodup
  removed : ∀ p ∈ st.removals, p.1 = p.2 ∧ (p.1 ∈ st.closes ∨ st.Closing p.1)
  unique : ∀ c d, st.Open c → ¬ st.Closing c → st.Open d → ¬ st.Closing d → c = d

/-- `Write` stores nil only while `m.conn` still is the connection whose `Send` failed. -/
def Own (st : State) : Action → Prop
  | .writer i => ∀ conn ∈ st.writers[i]?.bind Pc.storing, st.conn = some conn
  | _ => True

instance (st : State) : ∀ a : Action, Decidable (Own st a)
  | .writer i =>
    inferInstanceAs (Decidable (∀ conn ∈ st.writers[i]?.bind Pc.storing, st.conn = some conn))
  | .write | .sent _ _ | .maintain | .tick | .connected _ => isTrue trivial

/-- Every connection is in its place, and each is closed by one call of `Write`, the one that has
taken it out. -/
structure Inv (st : State) : Prop where
  placed : st.toConnSlot.Placed (· ∈ st.closes) st.Closing
  held : ∀ pc ∈ st.writers, ∀ c ∈ pc.conn, c < st.connections ∧ st.maintain ≠ .store c
  once : (st.closes ++ st.writers.filterMap Pc.closing).Nodup
  removed : ∀ p ∈ st.removals, p.1 = p.2 ∧ (p.1 ∈ st.closes ∨ st.Closing p.1)

section Inv

variable {st st' : State} {i : Nat} {pc pc' : Pc}

theorem inv_initial : Inv {} :=
  ⟨⟨nofun, nofun, nofun, by simp [State.Closing], by simp, nofun⟩, nofun, List.nodup_nil, nofun⟩

theorem closing_iff_mem {c : Nat} : st.Closing c ↔ c ∈ st.writers.filterMap Pc.closing :=
  List.mem_filterMap.symm

variable (hi : Inv st)
include hi

theorem Inv.safe : st.Safe :=
  ⟨hi.once.of_append_left, hi.removed, fun _ _ hc hc' hd hd' =>
    hi.placed.unique hc.1 hc.2 hc' hd.1 hd.2 hd'⟩

/-- The calls of `Write` hold what they held when one of them goes on with the connection that it
has, or with none. -/
theorem Inv.held_goto (hconn : ∀ c ∈ pc'.conn, c < st.connections ∧ st.maintain ≠ .store c) :
    ∀ pc ∈ st.writers.set i pc', ∀ c ∈ pc.conn, c < st.connections ∧ st.maintain ≠ .store c := by
  intro p hp
  rcases List.mem_or_eq_of_mem_set hp with hp | rfl
  · exact hi.held p hp
  · exact hconn

/-- A call of `Write` goes on without a change of `m.conn` and without a `Close`. -/
theorem Inv.move (hpc : st.writers[i]? = some pc) (pc' : Pc) (hold : pc.closing = none)
    (hnew : pc'.closing = none)
    (hconn : ∀ c ∈ pc'.conn, c < st.connections ∧ st.maintain ≠ .store c) (writes : Nat → Int64)
    (reset : Nat) :
    Inv { st.goto i pc' with writes := writes, reset := reset } := by
  have hset := filterMap_set_none (f := Pc.closing) pc' hpc hold hnew
  have hclosing : ∀ c, (st.goto i pc').Closing c ↔ st.Closing c := by
    intro c
    rw [closing_iff_mem, closing_iff_mem, State.goto, hset]
  refine ⟨(hi.placed.congr (fun _ => Iff.rfl) hclosing).setReset reset, hi.held_goto hconn, ?_, ?_⟩
  · show (st.closes ++ (st.writers.set i pc').filterMap Pc.closing).Nodup
    rw [hset]
    exact hi.once
  · exact fun p hp => (hi.removed p hp).imp_right (Or.imp_right (hclosing p.1).mpr)

/-- A call of `Write` takes its own connection out of `m.conn` and is about to close it. -/
theorem Inv.remove (hpc : st.writers[i]? = some pc) (hold : pc.closing = none) {conn : Nat}
    (hconn : pc.conn = some conn) (hcur : st.conn = some conn) (err : Option WriteError) :
    Inv ((st.storeNil conn).goto i (.close conn err)) := by
  obtain ⟨-, hopen, hnot⟩ := hi.placed.current conn hcur
  have hset := filterMap_set_some (f := Pc.closing) (.close conn err) hpc hold rfl
  have hclosing : ∀ c, ((st.storeNil conn).goto i (.close conn err)).Closing c ↔
      c = conn ∨ st.Closing c := by
    intro c
    rw [closing_iff_mem, closing_iff_mem, or_comm, ← List.mem_singleton, ← List.mem_append]
    exact hset.mem_iff
  refine ⟨(hi.placed.remove hcur).congr (fun _ => Iff.rfl) hclosing, hi.held_goto ?_, ?_, ?_⟩
  · intro c hc
    cases hc
    exact hi.held pc (List.mem_of_getElem? hpc) conn hconn
  · refine (hset.append_left st.closes).nodup_iff.mpr ?_
    rw [← List.append_assoc, List.nodup_append_comm, List.singleton_append, List.nodup_cons,
      List.mem_append, ← closing_iff_mem]
    exact ⟨not_or.mpr ⟨hopen, hnot⟩, hi.once⟩
  · intro p hp
    simp only [State.goto, State.storeNil, State.removed, hcur, Option.map_some,
      Option.toList_some, List.singleton_append, List.mem_cons] at hp
    rcases hp with rfl | hp
    · exact ⟨rfl, .inr ((hclosing conn).mpr (.inl rfl))⟩
    · exact (hi.removed p hp).imp_right (Or.imp_right (fun h => (hclosing p.1).mpr (.inr h)))

/-- A call of `Write` closes the connection that it has taken out. -/
theorem Inv.close {conn : Nat} {err : Option WriteError}
    (hpc : st.writers[i]? = some (.close conn err)) :
    Inv ({ st with closes := conn :: st.closes }.goto i (.reset err)) := by
  have hset : (st.writers.filterMap Pc.closing).Perm
      ((st.writers.set i (.reset err)).filterMap Pc.closing ++ [conn]) := by
    obtain ⟨hlt, hget⟩ := List.getElem?_eq_some_iff.mp hpc
    have hback := filterMap_set_some (f := Pc.closing) (l := st.writers.set i (.reset err))
      (.close conn err) (List.getElem?_set_self hlt) rfl rfl
    rwa [List.set_set, ← hget, List.set_getElem_self] at hback
  have honce : (conn :: st.closes ++
      (st.writers.set i (.reset err)).filterMap Pc.closing).Nodup := by
    refine List.Perm.nodup_iff ?_ |>.mp hi.once
    refine (hset.append_left st.closes).trans ?_
    rw [← List.append_assoc]
    exact List.perm_append_singleton _ _
  have hclosing : ∀ c, ({ st with closes := conn :: st.closes }.goto i (.reset err)).Closing c ↔
      c ≠ conn ∧ st.Closing c := by
    intro c
    rw [closing_iff_mem, closing_iff_mem, hset.mem_iff, List.mem_append, List.mem_singleton]
    constructor
    · intro hc
      refine ⟨?_, .inl hc⟩
      rintro rfl
      exact (List.nodup_cons.mp honce).1 (List.mem_append_right _ hc)
    · rintro ⟨hne, hc | hc⟩
      · exact hc
      · exact absurd hc hne
  refine ⟨?_, hi.held_goto nofun, honce, ?_⟩
  · exact (hi.placed.close ⟨_, List.mem_of_getElem? hpc, rfl⟩).congr (fun _ => List.mem_cons)
      hclosing
  · intro p hp
    obtain ⟨hown, h | h⟩ := hi.removed p hp
    · exact ⟨hown, .inl (List.mem_cons_of_mem _ h)⟩
    · by_cases hne : p.1 = conn
      · exact ⟨hown, .inl (List.mem_cons.mpr (.inl hne))⟩
      · exact ⟨hown, .inr ((hclosing p.1).mpr ⟨hne, h⟩)⟩

/-- `maintainConn` stores its connection only where there is none. -/
theorem inv_stepMaintain {a : MaintainAction} (h : st.stepMaintain a = some st') :
    Inv st' := by
  obtain ⟨slot, hslot, rfl⟩ := Option.map_eq_some_iff.mp h
  have hmoves := ConnSlot.moves_of_step hslot
  have hremovals : st.maintain.stored.elim [] st.removed = [] := by
    cases hm : st.maintain with
    | store conn =>
      rw [Maintain.stored, Option.elim_some, State.removed, (hi.placed.store conn hm).1]
      rfl
    | _ => rfl
  refine ⟨hi.placed.moves hmoves, ?_, hi.once, ?_⟩
  · exact fun pc hpc c hc => hmoves.ne_store (hi.held pc hpc c hc).1
  · simp only [hremovals, List.nil_append]
    exact hi.removed

theorem inv_stepWriter {maxWrites : Int64} (hpc : st.writers[i]? = some pc)
    (hown : ∀ conn ∈ pc.storing, st.conn = some conn)
    (h : st.stepWriter maxWrites i pc = some st') : Inv st' := by
  have hheld := hi.held pc (List.mem_of_getElem? hpc)
  cases pc with
  | load =>
    simp only [State.stepWriter] at h
    split at h
    · cases h
      exact hi.move hpc _ rfl rfl (by simp [Pc.conn]) _ _
    · next conn hcur =>
      cases h
      refine hi.move hpc _ rfl rfl ?_ _ _
      intro c hc
      cases hc
      refine ⟨(hi.placed.current conn hcur).1, ?_⟩
      intro hstore
      cases hcur.symm.trans (hi.placed.store conn hstore).1
  | send conn => cases h
  | storeNil conn =>
    cases h
    exact hi.remove hpc rfl rfl (hown conn rfl) _
  | addWrites conn =>
    cases h
    refine hi.move hpc _ rfl (by split <;> rfl) ?_ _ _
    intro c hc
    split at hc
    · exact hheld c hc
    · cases hc
  | compareAndSwap conn =>
    simp only [State.stepWriter] at h
    split at h
    · next hcur =>
      cases h
      exact hi.remove hpc rfl rfl hcur _
    · cases h
      exact hi.move hpc _ rfl rfl (by simp [Pc.conn]) _ _
  | close conn err =>
    cases h
    exact hi.close hpc
  | reset err =>
    simp only [State.stepWriter] at h
    split at h <;> cases h
    exact hi.move hpc _ rfl rfl (by simp [Pc.conn]) _ _
  | returned err => cases h

theorem inv_step {maxWrites : Int64} {a : Action} (hok : Own st a)
    (h : step maxWrites st a = some st') : Inv st' := by
  cases a with
  | write =>
    cases h
    have hclosing : ∀ c, ({ st with writers := st.writers ++ [.load] } : State).Closing c ↔
        st.Closing c := by
      intro c
      simp [State.Closing, Pc.closing]
    refine ⟨hi.placed.congr (fun _ => Iff.rfl) hclosing, ?_, ?_, ?_⟩
    · intro pc hpc
      rcases List.mem_append.mp hpc with hpc | hpc
      · exact hi.held pc hpc
      · rw [List.mem_singleton.mp hpc]
        exact nofun
    · show (st.closes ++ (st.writers ++ [Pc.load]).filterMap Pc.closing).Nodup
      rw [List.filterMap_append, List.filterMap_cons_none (by rfl), List.filterMap_nil,
        List.append_nil]
      exact hi.once
    · simpa only [hclosing] using hi.removed
  | writer i =>
    obtain ⟨pc, hpc, hstep⟩ := Option.bind_eq_some_iff.mp h
    refine inv_stepWriter hi hpc ?_ hstep
    intro conn hconn
    exact hok conn (by rw [hpc]; exact hconn)
  | sent i ok =>
    obtain ⟨pc, hpc, hstep⟩ := Option.bind_eq_some_iff.mp h
    have hheld := hi.held pc (List.mem_of_getElem? hpc)
    cases pc with
    | send conn =>
      cases hstep
      cases ok with
      | true => exact hi.move hpc (.addWrites conn) rfl rfl hheld _ _
      | false => exact hi.move hpc (.storeNil conn) rfl rfl hheld _ _
    | _ => cases hstep
  | maintain | tick | connected => exact inv_stepMaintain hi h

end Inv

/-! ## The failure path -/

theorem step_close (maxWrites : Int64) {st : State} {i conn : Nat} {err : Option WriteError}
    (hpc : st.writers[i]? = some (.close conn err)) :
    step maxWrites st (.writer i) =
      some ({ st with closes := conn :: st.closes }.goto i (.reset err)) := by
  rw [step, hpc]
  rfl

/-- A call of `Write` closes a connection that has been closed. -/
theorem unsafe_of_closed (maxWrites : Int64) {st : State} {i conn : Nat} {err : Option WriteError}
    (hpc : st.writers[i]? = some (.close conn err)) (hclosed : conn ∈ st.closes) :
    ∃ as st', run (step maxWrites) st as = some st' ∧ ¬ st'.Safe := by
  refine ⟨[.writer i], _, run_cons (step_close maxWrites hpc), ?_⟩
  intro hsafe
  exact (List.nodup_cons.mp hsafe.closedOnce).1 hclosed

/-- Two calls of `Write` are about to close the same connection. -/
theorem unsafe_of_closers (maxWrites : Int64) {st : State} {i j conn : Nat}
    {err err' : Option WriteError} (hne : i ≠ j) (hi : st.writers[i]? = some (.close conn err))
    (hj : st.writers[j]? = some (.close conn err')) :
    ∃ as st', run (step maxWrites) st as = some st' ∧ ¬ st'.Safe := by
  have hj' : ({ st with closes := conn :: st.closes }.goto i (.reset err)).writers[j]? =
      some (.close conn err') := (List.getElem?_set_ne hne).trans hj
  obtain ⟨as, st', hrun, hunsafe⟩ := unsafe_of_closed maxWrites hj' List.mem_cons_self
  exact ⟨.writer i :: as, st', (run_cons (step_close maxWrites hi)).trans hrun, hunsafe⟩

/-- Storing nil over another connection, or over nil, leads to a wrong removal or to a second
`Close`. -/
theorem Inv.unsafe_of_not_own {maxWrites : Int64} {st st' : State} {a : Action} (hi : Inv st)
    (hown : ¬ Own st a) (h : step maxWrites st a = some st') :
    ∃ as st'', run (step maxWrites) st' as = some st'' ∧ ¬ st''.Safe := by
  cases a with
  | writer i =>
    simp only [Own, not_forall] at hown
    obtain ⟨conn, hconn, hne⟩ := hown
    obtain ⟨pc, hpc, hstore⟩ := Option.bind_eq_some_iff.mp hconn
    have hlt := (List.getElem?_eq_some_iff.mp hpc).1
    cases pc with
    | storeNil c =>
      cases hstore
      simp only [step, hpc, Option.bind_some, State.stepWriter, Option.some.injEq] at h
      subst h
      cases hcur : st.conn with
      | some d =>
        refine ⟨[], _, rfl, ?_⟩
        intro hsafe
        have hremoved := hsafe.removed (d, conn)
          (by simp [State.goto, State.storeNil, State.removed, hcur])
        exact hne (hcur.trans (congrArg some hremoved.1))
      | none =>
        -- the connection was taken out by another call, which has closed it or will
        obtain ⟨hclt, hstore⟩ := hi.held _ (List.mem_of_getElem? hpc) conn rfl
        have hclose : ((st.storeNil conn).goto i (.close conn (some .send))).writers[i]? =
            some (.close conn (some .send)) := List.getElem?_set_self hlt
        rcases hi.placed.accounted conn hclt with h | h | h | ⟨pc, hpc', hclosing⟩
        · rw [hcur] at h
          cases h
        · exact absurd h hstore
        · exact unsafe_of_closed maxWrites hclose h
        · cases pc with
          | close c err =>
            cases hclosing
            obtain ⟨j, hj⟩ := List.getElem?_of_mem hpc'
            have hij : i ≠ j := by
              rintro rfl
              rw [hpc] at hj
              cases hj
            exact unsafe_of_closers maxWrites hij hclose
              ((List.getElem?_set_ne hij).trans hj)
          | _ => cases hclosing
    | _ => cases hstore
  | _ => exact absurd trivial hown

/-- As long as `Write` stores nil only in place of its own connection, each connection is closed
at most once, by the call that takes it out, and at most one is open without being about to be
closed. The first time it stores nil otherwise, this can be broken. -/
theorem connections_closed_once (maxWrites : Int64) {st : State}
    (hst : Reachable (step maxWrites) Own {} st) :
    st.Safe ∧ ∀ a st', ¬ Own st a → step maxWrites st a = some st' →
      ∃ as st'', run (step maxWrites) st' as = some st'' ∧ ¬ st''.Safe := by
  have hi : Inv st := hst.invariant inv_initial (fun _ _ _ hi hok => inv_step hi hok)
  exact ⟨hi.safe, fun a st' hown hstep => hi.unsafe_of_not_own hown hstep⟩

/-- A connection is made. One call of `Write` fails and another recycles the next connection
after its first write. -/
def orderlyWrites : List Action :=
  [.maintain, .maintain, .maintain, .connected true, .maintain,
   .write, .writer 0, .sent 0 false, .writer 0, .writer 0, .writer 0,
   .tick, .maintain, .connected true, .maintain,
   .write, .writer 1, .sent 1 true, .writer 1, .writer 1, .writer 1, .writer 1]

theorem orderlyWrites_safe :
    ∃ st, run (guarded (step 1) Own) {} orderlyWrites = some st ∧ st.closes = [1, 0] ∧
      st.removals = [(1, 1), (0, 0)] ∧ st.Safe := by
  have hrun : (run (guarded (step 1) Own) {} orderlyWrites).map
      (fun st => (st.closes, st.removals)) = some ([1, 0], [(1, 1), (0, 0)]) := by decide
  obtain ⟨st, hst, hfinal⟩ := Option.map_eq_some_iff.mp hrun
  simp only [Prod.mk.injEq] at hfinal
  exact ⟨st, hst, hfinal.1, hfinal.2,
    (connections_closed_once 1 (Reachable.refl.of_guarded hst)).1⟩

/-- Two calls of `Write` fail on one connection. Before the second stores nil, `maintainConn` has
put a new connection in place. -/
def lateFailure : List Action :=
  [.maintain, .maintain, .maintain, .connected true, .maintain,
   .write, .write, .writer 0, .writer 1, .sent 0 false, .sent 1 false,
   .writer 0, .writer 0, .writer 0,
   .maintain, .maintain, .connected true, .maintain,
   .writer 1, .writer 1, .writer 1,
   .maintain, .maintain, .connected true, .maintain]

/-- The first connection is closed twice, the second is removed and never closed, and it stays
open next to the third. -/
theorem lateFailure_loses_connection :
    ∃ st, run (step 100000) {} lateFailure = some st ∧ ¬ st.closes.Nodup ∧
      (1, 0) ∈ st.removals ∧ st.conn = some 2 ∧ st.Open 1 ∧ st.Open 2 ∧
      (∀ conn, ¬ st.Closing conn) ∧ ¬ st.Safe := by
  have hrun : (run (step 100000) {} lateFailure).map
      (fun st => (st.closes, st.removals, st.conn, st.connections, st.writers)) =
      some ([0, 0], [(1, 0), (0, 0)], some 2, 3,
        [.returned (some .send), .returned (some .send)]) := by decide
  obtain ⟨st, hst, hfinal⟩ := Option.map_eq_some_iff.mp hrun
  simp only [Prod.mk.injEq] at hfinal
  obtain ⟨hcloses, hremovals, hconn, hconnections, hwriters⟩ := hfinal
  have hdouble : ¬ st.closes.Nodup := by
    rw [hcloses]
    decide
  have hopen : ∀ c, c = 1 ∨ c = 2 → st.Open c := by
    rintro c (rfl | rfl) <;> simp [State.Open, hconnections, hcloses]
  have hclosing : ∀ conn, ¬ st.Closing conn := by
    intro conn
    simp [State.Closing, hwriters, Pc.closing]
  exact ⟨st, hst, hdouble, by simp [hremovals], hconn, hopen 1 (Or.inl rfl),
    hopen 2 (Or.inr rfl), hclosing, fun hsafe => hdouble hsafe.closedOnce⟩

end Loggregator.Metron.ConnManager
