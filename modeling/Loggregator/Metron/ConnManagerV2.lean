import Loggregator.Lib.Transition
import Loggregator.Metron.ConnSlot
import Mathlib.Logic.Function.Basic

/-!
# The connection of metron's v2 client

`metron/internal/clientpool/v2/conn_manager.go`, with the one goroutine of `Transponder.Start`
that calls `Write`. Unlike the first version, `Write` stores nil without a comparison when it
recycles a connection. With one writer that is safe: only the writer takes a connection out of
`m.conn`, and `maintainConn` stores one only where it has found none.

An action is one operation on shared state, as in the first version. `State.log` records what
happens to the connections.
-/

namespace Loggregator.Metron.ConnManagerV2

open Lib

/-- What happens to a connection: it is stored in `m.conn`, a `Send` on it returns, it is taken
out of `m.conn`, or it is closed. A store comes with what `m.conn` held before. -/
inductive Event where
  | install (conn : Nat) (old : Option Nat)
  | send (conn : Nat) (ok : Bool)
  | detach (old : Option Nat)
  | close (conn : Nat)
  deriving DecidableEq

/-- The connection that an event is about. -/
def Event.conn : Event → Option Nat
  | .install conn _ | .send conn _ | .close conn => some conn
  | .detach old => old

/-- `Write`, by the operation that comes next. -/
inductive Pc where
  | load
  | send (conn : Nat)
  | addWrites (conn : Nat)
  /-- `atomic.StorePointer(&m.conn, nil)`, after a failed `Send` or to recycle. -/
  | storeNil (conn : Nat) (err : Option WriteError)
  | close (conn : Nat) (err : Option WriteError)
  | reset (err : Option WriteError)
  | returned (err : Option WriteError)
  deriving DecidableEq

structure State extends ConnSlot where
  writes : Nat → Int64 := fun _ => 0
  writer : Pc := .returned none
  log : List Event := []

/-- The actions: the next call of `Write`, its operations and the outcome of its `Send`; the
operations of `maintainConn`, a tick that it waits for and the outcome of its `Connect`. -/
inductive Action where
  | write
  | writer
  | sent (ok : Bool)
  | maintain
  | tick
  | connected (ok : Bool)
  deriving DecidableEq

namespace State

/-- The next operation of `Write`. -/
def stepWriter (maxWrites : Int64) (st : State) : Option State :=
  match st.writer with
  | .load =>
    match st.conn with
    | none => some { st with writer := .returned (some .noConnection) }
    | some conn => some { st with writer := .send conn }
  | .addWrites conn =>
    let writes := st.writes conn + 1
    some { st with
      writes := Function.update st.writes conn writes
      writer := if maxWrites ≤ writes then .storeNil conn none else .returned none }
  | .storeNil conn err =>
    some { st with conn := none, writer := .close conn err, log := st.log ++ [.detach st.conn] }
  | .close conn err => some { st with writer := .reset err, log := st.log ++ [.close conn] }
  | .reset err =>
    if st.reset < resetCapacity then
      some { st with reset := st.reset + 1, writer := .returned err }
    else none
  | .send _ | .returned _ => none

/-- An action of `maintainConn`, which stores its connection whatever `m.conn` holds. -/
def stepMaintain (st : State) (a : MaintainAction) : Option State :=
  (st.toConnSlot.step a).map (fun slot =>
    { st with
      toConnSlot := slot
      log := st.log ++ (st.maintain.stored.map (fun conn => .install conn st.conn)).toList })

end State

/-- One action. -/
def step (maxWrites : Int64) (st : State) : Action → Option State
  | .write =>
    match st.writer with
    | .returned _ => some { st with writer := .load }
    | _ => none
  | .writer => st.stepWriter maxWrites
  | .sent ok =>
    match st.writer with
    | .send conn =>
      some { st with
        writer := if ok then .addWrites conn else .storeNil conn (some .send)
        log := st.log ++ [.send conn ok] }
    | _ => none
  | .maintain => st.stepMaintain .next
  | .tick => st.stepMaintain .tick
  | .connected ok => st.stepMaintain (.connected ok)

/-! ## The lifecycle of a connection -/

/-- The connection was obtained from `Connect` and has not been closed. -/
def State.Open (st : State) (conn : Nat) : Prop :=
  conn < st.connections ∧ .close conn ∉ st.log

/-- `Write` has taken the connection out of `m.conn` and is about to close it. -/
def State.Closing (st : State) (conn : Nat) : Prop := ∃ err, st.writer = .close conn err

/-- What an event finds: a connection is stored where there is none; a `Send` is tried on a
connection that is not closed and on which none has failed; a connection is closed once, after
it was taken out. -/
def Legal (before : List Event) : Event → Prop
  | .install _ old => old = none
  | .send conn _ => .send conn false ∉ before ∧ .close conn ∉ before
  | .detach old => old.isSome = true
  | .close conn => .detach (some conn) ∈ before ∧ .close conn ∉ before

structure Lifecycle (maxWrites : Int64) (st : State) : Prop where
  history : EachTime Legal st.log
  /-- So it is with the `Send` that is under way. -/
  sending : ∀ c, st.writer = .send c → Legal st.log (.send c true)
  closedOnce : ∀ c, st.log.count (.close c) ≤ 1
  /-- What is closed, or about to be, is not in `m.conn`. -/
  detached : ∀ c, .close c ∈ st.log ∨ st.Closing c → st.conn ≠ some c
  successes : ∀ c, (st.log.count (.send c true) : Int) ≤ maxWrites.toInt
  single : ∀ c d, st.Open c → ¬ st.Closing c → st.Open d → ¬ st.Closing d → c = d

/-- The connection in `m.conn` that `Write` works on. -/
def Pc.working : Pc → Option Nat
  | .send conn | .addWrites conn | .storeNil conn _ => some conn
  | .load | .close _ _ | .reset _ | .returned _ => none

/-- A successful `Send` that is not counted yet. -/
def Pc.uncounted (pc : Pc) (conn : Nat) : Int := if pc = .addWrites conn then 1 else 0

/-- `Write` is about to take the connection out. -/
def Pc.Storing (pc : Pc) (conn : Nat) : Prop := ∃ err, pc = .storeNil conn err

structure Inv (maxWrites : Int64) (st : State) : Prop where
  placed : st.toConnSlot.Placed (fun c => .close c ∈ st.log) st.Closing
  /-- Nothing has happened yet to a connection that `maintainConn` is about to store. -/
  fresh : ∀ c, st.maintain = .store c → ∀ e ∈ st.log, e.conn ≠ some c
  known : ∀ e ∈ st.log, ∀ c ∈ e.conn, c < st.connections
  working : ∀ c, st.writer.working = some c → st.conn = some c
  detached : ∀ c, st.Closing c → .detach (some c) ∈ st.log
  counted : ∀ c, (st.log.count (.send c true) : Int) = (st.writes c).toInt + st.writer.uncounted c
  bounded : ∀ c, (st.writes c).toInt ≤ maxWrites.toInt ∧
    (st.conn = some c → ¬ st.writer.Storing c → (st.writes c).toInt < maxWrites.toInt)
  failed : ∀ c, .send c false ∈ st.log → st.conn = some c → st.writer.Storing c
  history : EachTime Legal st.log

section Inv

variable {maxWrites : Int64} {st st' : State}

theorem inv_initial (hmax : 1 ≤ maxWrites.toInt) : Inv maxWrites {} where
  placed := ⟨nofun, nofun, nofun, by simp [State.Closing], by simp, nofun⟩
  fresh := nofun
  known := nofun
  working := nofun
  detached := by rintro c ⟨err, ⟨⟩⟩
  counted _ := rfl
  bounded c := ⟨by show (0 : Int) ≤ _; omega, nofun⟩
  failed := nofun
  history := .nil

theorem Inv.lifecycle (hi : Inv maxWrites st) : Lifecycle maxWrites st := by
  refine ⟨hi.history, ?_, ?_, ?_, ?_, ?_⟩
  · intro c hpc
    have hconn : st.conn = some c := hi.working c (by rw [hpc]; rfl)
    refine ⟨fun hfailed => ?_, (hi.placed.current c hconn).2.1⟩
    obtain ⟨err, hstoring⟩ := hi.failed c hfailed hconn
    rw [hpc] at hstoring
    cases hstoring
  · exact fun c => hi.history.count_le_one (fun _ hlegal => hlegal.2)
  · rintro c (hclosed | hclosing) hconn
    · exact (hi.placed.current c hconn).2.1 hclosed
    · exact (hi.placed.current c hconn).2.2 hclosing
  · intro c
    have hcounted := hi.counted c
    have hbounded := hi.bounded c
    unfold Pc.uncounted at hcounted
    split at hcounted
    · next hpc =>
      -- the connection is attached, so that the counter is below the limit
      have hlt := hbounded.2 (hi.working c (by rw [hpc]; rfl)) (by rw [hpc]; rintro ⟨err, ⟨⟩⟩)
      omega
    · omega
  · exact fun _ _ hc hc' hd hd' => hi.placed.unique hc.1 hc.2 hc' hd.1 hd.2 hd'

/-- An operation that neither counts, takes out nor closes a connection comes next. -/
def Pc.quiet : Pc → Bool
  | .load | .send _ | .reset _ | .returned _ => true
  | .addWrites _ | .storeNil _ _ | .close _ _ => false

theorem Pc.not_closing_of_quiet {pc : Pc} (h : pc.quiet = true) (c : Nat) :
    ¬ ∃ err, pc = .close c err := by
  rintro ⟨err, rfl⟩
  cases h

theorem Pc.not_storing_of_quiet {pc : Pc} (h : pc.quiet = true) (c : Nat) : ¬ pc.Storing c := by
  rintro ⟨err, rfl⟩
  cases h

theorem Pc.uncounted_of_quiet {pc : Pc} (h : pc.quiet = true) (c : Nat) : pc.uncounted c = 0 := by
  refine if_neg ?_
  rintro rfl
  cases h

section

variable (hi : Inv maxWrites st)
include hi

/-- `Write` was not about to close a connection and is not. -/
theorem Inv.placed_of_not_closing (hold : ∀ c, ¬ st.Closing c) {closing : Nat → Prop}
    (hnew : ∀ c, ¬ closing c) {log : List Event} (hlog : ∀ c, .close c ∈ log ↔ .close c ∈ st.log) :
    st.toConnSlot.Placed (fun c => .close c ∈ log) closing :=
  hi.placed.congr hlog (fun c => iff_of_false (hnew c) (hold c))

/-- `Write` goes on to another operation, and nothing happens to a connection. -/
theorem Inv.move (hold : st.writer.quiet = true) {pc : Pc} (hnew : pc.quiet = true)
    (hworking : ∀ c, pc.working = some c → st.conn = some c) (reset : Nat) :
    Inv maxWrites { st with writer := pc, reset := reset } where
  placed := (hi.placed_of_not_closing (Pc.not_closing_of_quiet hold)
    (Pc.not_closing_of_quiet hnew) (fun _ => Iff.rfl)).setReset reset
  fresh := hi.fresh
  known := hi.known
  working := hworking
  detached c hclosing := absurd hclosing (Pc.not_closing_of_quiet hnew c)
  counted c := by
    rw [Pc.uncounted_of_quiet hnew, hi.counted c, Pc.uncounted_of_quiet hold]
  bounded c :=
    ⟨(hi.bounded c).1, fun hconn _ => (hi.bounded c).2 hconn (Pc.not_storing_of_quiet hold c)⟩
  failed c hfailed hconn := absurd (hi.failed c hfailed hconn) (Pc.not_storing_of_quiet hold c)
  history := hi.history

/-- There is no fresh connection while there is one in `m.conn`. -/
theorem Inv.fresh_of_conn {conn : Nat} (hconn : st.conn = some conn) {log : List Event} (c : Nat)
    (hc : st.maintain = .store c) : ∀ e ∈ log, e.conn ≠ some c := by
  cases hconn.symm.trans (hi.placed.store c hc).1

theorem Inv.known_concat {e : Event} (he : ∀ c ∈ e.conn, c < st.connections) :
    ∀ e' ∈ st.log ++ [e], ∀ c ∈ e'.conn, c < st.connections := by
  intro e' he'
  rcases List.mem_append.mp he' with he' | he'
  · exact hi.known e' he'
  · rw [List.mem_singleton.mp he']
    exact he

/-- `Send` returns. -/
theorem Inv.sent {conn : Nat} (hpc : st.writer = .send conn) (ok : Bool) :
    Inv maxWrites { st with
      writer := if ok then .addWrites conn else .storeNil conn (some .send)
      log := st.log ++ [.send conn ok] } := by
  have hconn : st.conn = some conn := hi.working conn (by rw [hpc]; rfl)
  have hquiet : st.writer.quiet = true := by rw [hpc]; rfl
  obtain ⟨hlt, hopen, -⟩ := hi.placed.current conn hconn
  have hunfailed : .send conn false ∉ st.log := fun hfailed =>
    Pc.not_storing_of_quiet hquiet conn (hi.failed conn hfailed hconn)
  have hnot : ∀ c, ¬ ∃ err, (if ok then .addWrites conn else .storeNil conn (some .send)) =
      Pc.close c err := by
    rintro c ⟨err, hclosing⟩
    cases ok <;> cases hclosing
  refine ⟨hi.placed_of_not_closing (Pc.not_closing_of_quiet hquiet) hnot (by simp),
    hi.fresh_of_conn hconn, hi.known_concat ?_, ?_, fun c hc => absurd hc (hnot c), ?_, ?_, ?_, ?_⟩
  · rintro c ⟨⟩
    exact hlt
  · intro c hc
    cases ok <;> cases hc <;> exact hconn
  · intro c
    have hcounted := hi.counted c
    rw [Pc.uncounted_of_quiet hquiet] at hcounted
    rw [List.count_append, Int.natCast_add, hcounted]
    cases ok with
    | false => simp [Pc.uncounted]
    | true =>
      by_cases hc : conn = c
      · simp [Pc.uncounted, hc]
      · simp [Pc.uncounted, hc]
  · intro c
    refine ⟨(hi.bounded c).1, fun hc _ => (hi.bounded c).2 hc (Pc.not_storing_of_quiet hquiet c)⟩
  · intro c hfailed hc
    rw [hconn] at hc
    cases hc
    cases ok with
    | false => exact ⟨some .send, rfl⟩
    | true => simp [hunfailed] at hfailed
  · exact hi.history.concat ⟨hunfailed, hopen⟩

end

/-- The counter of a connection in use does not overflow. -/
theorem toInt_succ {n limit : Int64} (h : n.toInt < limit.toInt) :
    (n + 1).toInt = n.toInt + 1 := by
  have hlo := n.le_toInt
  have hhi := limit.toInt_lt
  rw [Int64.toInt_add]
  show (n.toInt + 1).bmod (2 ^ 64) = _
  rw [Int.bmod_eq_of_le] <;> omega

/-- The successful `Send` is counted. -/
theorem Inv.addWrites (hi : Inv maxWrites st) {conn : Nat} (hpc : st.writer = .addWrites conn)
    {pc : Pc} (hnext : pc = if maxWrites ≤ st.writes conn + 1 then .storeNil conn none
      else .returned none) :
    Inv maxWrites { st with
      writes := Function.update st.writes conn (st.writes conn + 1)
      writer := pc } := by
  have hconn : st.conn = some conn := hi.working conn (by rw [hpc]; rfl)
  have hnot : ∀ c, ¬ st.writer.Storing c := by
    rintro c ⟨err, h⟩
    rw [hpc] at h
    cases h
  have hlt := (hi.bounded conn).2 hconn (hnot conn)
  have hsucc := toInt_succ hlt
  have hclosing : ∀ c, ¬ st.Closing c := by
    rintro c ⟨err, h⟩
    rw [hpc] at h
    cases h
  have hclosing' : ∀ c, ¬ ∃ err, pc = .close c err := by
    rintro c ⟨err, h⟩
    rw [hnext] at h
    split at h <;> cases h
  refine ⟨hi.placed_of_not_closing hclosing hclosing' (fun _ => Iff.rfl), hi.fresh, hi.known, ?_,
    fun c hc => absurd hc (hclosing' c), ?_, ?_, ?_, hi.history⟩
  · intro c hc
    rw [hnext] at hc
    split at hc <;> cases hc
    exact hconn
  · intro c
    have hnone : pc.uncounted c = 0 := by
      refine if_neg ?_
      rw [hnext]
      split <;> exact nofun
    show (st.log.count (.send c true) : Int) =
      (Function.update st.writes conn (st.writes conn + 1) c).toInt + pc.uncounted c
    rw [hi.counted c, hpc, hnone, Function.update_apply]
    by_cases hc : c = conn
    · simp [Pc.uncounted, hc, hsucc]
    · simp [Pc.uncounted, hc, Ne.symm hc]
  · intro c
    show (Function.update st.writes conn (st.writes conn + 1) c).toInt ≤ maxWrites.toInt ∧
      (st.conn = some c → ¬ pc.Storing c →
        (Function.update st.writes conn (st.writes conn + 1) c).toInt < maxWrites.toInt)
    rw [Function.update_apply]
    by_cases hc : c = conn
    · rw [if_pos hc, hsucc]
      refine ⟨by omega, fun _ hstoring => ?_⟩
      rw [hnext, hc] at hstoring
      split at hstoring
      · exact absurd ⟨none, rfl⟩ hstoring
      · next hmax =>
        rw [Int64.le_iff_toInt_le, hsucc] at hmax
        omega
    · rw [if_neg hc]
      refine ⟨(hi.bounded c).1, fun hcur _ => ?_⟩
      rw [hconn] at hcur
      exact absurd (Option.some.inj hcur).symm hc
  · exact fun c hfailed hcur => absurd (hi.failed c hfailed hcur) (hnot c)

/-- `Write` takes its connection out of `m.conn`. -/
theorem Inv.storeNil (hi : Inv maxWrites st) {conn : Nat} {err : Option WriteError}
    (hpc : st.writer = .storeNil conn err) :
    Inv maxWrites { st with
      conn := none, writer := .close conn err, log := st.log ++ [.detach st.conn] } := by
  have hconn : st.conn = some conn := hi.working conn (by rw [hpc]; rfl)
  refine ⟨(hi.placed.remove hconn).congr (by simp) ?_, hi.fresh_of_conn hconn, hi.known_concat ?_,
    nofun, ?_, ?_, ?_, ?_, ?_⟩
  · intro c
    constructor
    · rintro ⟨err', ⟨⟩⟩
      exact .inl rfl
    · rintro (rfl | ⟨err', h⟩)
      · exact ⟨err, rfl⟩
      · cases hpc.symm.trans h
  · rw [Event.conn, hconn]
    rintro c ⟨⟩
    exact (hi.placed.current conn hconn).1
  · rintro c ⟨err', ⟨⟩⟩
    simp [hconn]
  · intro c
    have hcounted := hi.counted c
    rw [hpc] at hcounted
    simpa [Pc.uncounted, List.count_append, List.count_singleton] using hcounted
  · exact fun c => ⟨(hi.bounded c).1, nofun⟩
  · exact fun _ _ => nofun
  · exact hi.history.concat (by rw [Legal, hconn]; rfl)

/-- `Write` closes the connection that it has taken out. -/
theorem Inv.close (hi : Inv maxWrites st) {conn : Nat} {err : Option WriteError}
    (hpc : st.writer = .close conn err) :
    Inv maxWrites { st with writer := .reset err, log := st.log ++ [.close conn] } := by
  have hclosing : st.Closing conn := ⟨err, hpc⟩
  have hdetached := hi.detached conn hclosing
  refine ⟨(hi.placed.close hclosing).congr (by simp [or_comm]) ?_, ?_, hi.known_concat ?_, nofun,
    ?_, ?_, ?_, ?_, hi.history.concat ⟨hdetached, hi.placed.apart conn hclosing⟩⟩
  · intro c
    constructor
    · rintro ⟨err', ⟨⟩⟩
    · rintro ⟨hne, err', h⟩
      cases hpc.symm.trans h
      exact absurd rfl hne
  · intro c hc e he
    rcases List.mem_append.mp he with he | he
    · exact hi.fresh c hc e he
    · rw [List.mem_singleton.mp he]
      rintro ⟨⟩
      exact (hi.placed.store conn hc).2.2.2 hclosing
  · rintro c ⟨⟩
    exact hi.known _ hdetached conn rfl
  · rintro c ⟨err', ⟨⟩⟩
  · intro c
    have hcounted := hi.counted c
    rw [hpc] at hcounted
    simpa [Pc.uncounted, List.count_append, List.count_singleton] using hcounted
  · intro c
    refine ⟨(hi.bounded c).1, fun hc _ => (hi.bounded c).2 hc ?_⟩
    rw [hpc]
    rintro ⟨err', ⟨⟩⟩
  · intro c hfailed hc
    have hstoring := hi.failed c (by simpa using hfailed) hc
    rw [hpc] at hstoring
    obtain ⟨err', ⟨⟩⟩ := hstoring

/-- `maintainConn` stores its connection where there is none. -/
theorem Inv.stored (hmax : 1 ≤ maxWrites.toInt) (hi : Inv maxWrites st) {conn : Nat}
    (hm : st.maintain = .store conn) :
    Inv maxWrites { st with
      conn := some conn
      maintain := .checkConnectionTimer
      log := st.log ++ [.install conn st.conn] } := by
  obtain ⟨hnone, hlt, -⟩ := hi.placed.store conn hm
  have hfresh := hi.fresh conn hm
  refine ⟨(hi.placed.moves (.stored hm)).congr (by simp) (fun _ => Iff.rfl), nofun,
    hi.known_concat ?_, ?_, fun c hc => List.mem_append_left _ (hi.detached c hc), ?_, ?_, ?_,
    hi.history.concat hnone⟩
  · rintro c ⟨⟩
    exact hlt
  · intro c hc
    cases hnone.symm.trans (hi.working c hc)
  · intro c
    simpa [List.count_append, List.count_singleton] using hi.counted c
  · intro c
    refine ⟨(hi.bounded c).1, ?_⟩
    rintro ⟨⟩ -
    -- nothing was sent on it yet
    have hzero : st.log.count (.send conn true) = 0 :=
      List.count_eq_zero.mpr (fun hmem => hfresh _ hmem rfl)
    have hcounted := hi.counted conn
    have huncounted : 0 ≤ st.writer.uncounted conn := by
      unfold Pc.uncounted
      split <;> decide
    rw [hzero] at hcounted
    show (st.writes conn).toInt < maxWrites.toInt
    omega
  · rintro c hfailed ⟨⟩
    exact absurd rfl (hfresh (.send conn false) (by simpa using hfailed))

theorem inv_stepMaintain (hmax : 1 ≤ maxWrites.toInt) {a : MaintainAction} (hi : Inv maxWrites st)
    (h : st.stepMaintain a = some st') : Inv maxWrites st' := by
  obtain ⟨slot, hslot, rfl⟩ := Option.map_eq_some_iff.mp h
  have hmoves := ConnSlot.moves_of_step hslot
  have hplaced := hi.placed.moves hmoves
  cases hmoves with
  | other hold hnew =>
    rw [hold, Option.map_none, Option.toList_none, List.append_nil]
    refine ⟨hplaced, ?_, hi.known, hi.working, hi.detached, hi.counted, hi.bounded, hi.failed,
      hi.history⟩
    rintro c rfl
    cases hnew
  | connected hm =>
    have hold : st.maintain.stored = none := by rw [hm]; rfl
    rw [hold, Option.map_none, Option.toList_none, List.append_nil]
    refine ⟨hplaced, ?_, ?_, hi.working, hi.detached, hi.counted, hi.bounded, hi.failed,
      hi.history⟩
    · rintro c ⟨⟩ e he hc
      exact Nat.lt_irrefl _ (hi.known e he _ hc)
    · exact fun e he c hc => Nat.lt_succ_of_lt (hi.known e he c hc)
  | stored hm =>
    rw [hm]
    exact hi.stored hmax hm

theorem inv_stepWriter (hi : Inv maxWrites st) (h : st.stepWriter maxWrites = some st') :
    Inv maxWrites st' := by
  unfold State.stepWriter at h
  cases hpc : st.writer with
  | load =>
    have hquiet : st.writer.quiet = true := by rw [hpc]; rfl
    simp only [hpc] at h
    split at h
    · cases h
      exact hi.move hquiet rfl (by simp [Pc.working]) _
    · next conn hconn =>
      cases h
      refine hi.move hquiet rfl ?_ _
      rintro c ⟨⟩
      exact hconn
  | send conn => simp only [hpc] at h; cases h
  | addWrites conn =>
    simp only [hpc] at h
    cases h
    exact hi.addWrites hpc rfl
  | storeNil conn err =>
    simp only [hpc] at h
    cases h
    exact hi.storeNil hpc
  | close conn err =>
    simp only [hpc] at h
    cases h
    exact hi.close hpc
  | reset err =>
    simp only [hpc] at h
    split at h <;> cases h
    exact hi.move (by rw [hpc]; rfl) rfl (by simp [Pc.working]) _
  | returned err => simp only [hpc] at h; cases h

theorem inv_step (hmax : 1 ≤ maxWrites.toInt) {a : Action} (hi : Inv maxWrites st)
    (h : step maxWrites st a = some st') : Inv maxWrites st' := by
  cases a with
  | write =>
    simp only [step] at h
    split at h
    · next hpc =>
      cases h
      exact hi.move (by rw [hpc]; rfl) rfl (by simp [Pc.working]) _
    · cases h
  | writer => exact inv_stepWriter hi h
  | sent ok =>
    simp only [step] at h
    split at h
    · next hpc =>
      cases h
      exact hi.sent hpc ok
    · cases h
  | maintain | tick | connected => exact inv_stepMaintain hmax hi h

end Inv

/-- With one writer every connection goes through its lifecycle, whatever fails and however the
goroutines interleave. -/
theorem single_writer_lifecycle (maxWrites : Int64) (hmax : 1 ≤ maxWrites.toInt) (st : State)
    (hst : Reachable (step maxWrites) Always {} st) : Lifecycle maxWrites st := by
  have hi : Inv maxWrites st :=
    hst.invariant (inv_initial hmax) (fun _ _ _ hi _ h => inv_step hmax hi h)
  exact hi.lifecycle

/-- The first connection is recycled after two writes, and `maintainConn` stores the second one
before the first is closed. A `Send` on the second one fails. -/
def recycledAndFailed : List Action :=
  [.maintain, .maintain, .maintain, .connected true, .maintain,
    .write, .writer, .sent true, .writer,
    .write, .writer, .sent true, .writer, .writer,
    .tick, .maintain, .connected true, .maintain, .writer, .writer,
    .write, .writer, .sent false, .writer, .writer]

theorem single_writer_lifecycle_recycled :
    ∃ st, Reachable (step 2) Always {} st ∧ st.log =
        [.install 0 none, .send 0 true, .send 0 true, .detach (some 0), .install 1 none, .close 0,
          .send 1 false, .detach (some 1), .close 1] ∧ Lifecycle 2 st := by
  have hrun : (run (step 2) {} recycledAndFailed).map State.log =
      some [.install 0 none, .send 0 true, .send 0 true, .detach (some 0), .install 1 none,
        .close 0, .send 1 false, .detach (some 1), .close 1] := by
    decide
  obtain ⟨st, hreach, hlog⟩ := exists_reachable_of_run hrun
  exact ⟨st, hreach, hlog, single_writer_lifecycle 2 (by decide) st hreach⟩

end Loggregator.Metron.ConnManagerV2
