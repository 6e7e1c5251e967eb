import Loggregator.Lib.Transition
import Mathlib.Logic.Function.Basic

/-!
# The connection of a syslog writer

`sinks/syslogwriter/syslog_writer.go`: `Connect` closes the connection that is there, dials another
one and starts a goroutine that reads from it. When the read fails the goroutine calls `Close` of
the writer, which closes the connection that the writer has by then.

A mutex makes `Write` and `Close` one step each. `Connect` holds it while it dials, so it is taken
apart: what does not need the mutex can go on meanwhile. Connections are numbered in the order in
which they are dialed.
-/

namespace Loggregator.Doppler.SyslogConn

open Lib

/-- `Connect` while it holds the mutex: before the dial and after it. -/
inductive Stage where
  | dial
  | install (c : Nat)
  deriving DecidableEq

/-- What `Dial` returns: an error, a connection, or one that is not a TCP connection. -/
inductive Dialed where
  | failed
  | tcp
  | notTcp
  deriving DecidableEq

/-- The goroutine of `watchConnection`: it reads, its read has failed and it is about to call
`Close`, or it has returned. -/
inductive Watcher where
  | absent
  | reading
  | closing
  | returned
  deriving DecidableEq

/-- The goroutine has not returned. -/
def Watcher.pending : Watcher → Bool
  | .reading | .closing => true
  | .absent | .returned => false

/-- Who closes a connection. -/
inductive Closer where
  | connect
  | close
  | watcher (c : Nat)
  deriving DecidableEq

inductive Event where
  | installed (c : Nat)
  | wrote (conn : Option Nat)
  | closed (closer : Closer) (c : Nat)
  | endedByPeer (c : Nat)
  deriving DecidableEq

/-- The writer with its connections, their watchers and the history. -/
structure State where
  conn : Option Nat := none
  mu : Option Stage := none
  dialed : Nat := 0
  watcher : Nat → Watcher := fun _ => .absent
  closed : Nat → Bool := fun _ => false
  ended : Nat → Bool := fun _ => false
  log : List Event := []

/-- The calls of `Connect`, `Write` and `Close` by any goroutines, the steps of a watcher, and the
peer of a connection. -/
inductive Action where
  | connect
  | dialed (r : Dialed)
  | install
  | write
  | close
  | readFails (c : Nat)
  | watcherCloses (c : Nat)
  | peerEnds (c : Nat)
  deriving DecidableEq

/-- `conn.Close()` and `w.conn = nil`, if there is a connection. -/
def State.closeConn (st : State) (closer : Closer) : State :=
  match st.conn with
  | none => st
  | some c =>
    { st with
      conn := none
      closed := Function.update st.closed c true
      log := st.log ++ [.closed closer c] }

/-- One step. -/
def step (st : State) : Action → Option State
  | .connect =>
    if st.mu = none then some { st.closeConn .connect with mu := some .dial } else none
  | .dialed r =>
    if st.mu = some .dial then
      match r with
      | .tcp => some { st with mu := some (.install st.dialed), dialed := st.dialed + 1 }
      | .failed | .notTcp => some { st with mu := none }
    else none
  | .install =>
    match st.mu with
    | some (.install c) =>
      some { st with
        conn := some c
        mu := none
        watcher := Function.update st.watcher c .reading
        log := st.log ++ [.installed c] }
    | _ => none
  | .write => if st.mu = none then some { st with log := st.log ++ [.wrote st.conn] } else none
  | .close => if st.mu = none then some (st.closeConn .close) else none
  | .readFails c =>
    -- the read returns once the connection is closed by either side
    if st.watcher c = .reading ∧ (st.closed c = true ∨ st.ended c = true) then
      some { st with watcher := Function.update st.watcher c .closing }
    else none
  | .watcherCloses c =>
    if st.watcher c = .closing ∧ st.mu = none then
      some { st.closeConn (.watcher c) with
        watcher := Function.update st.watcher c .returned }
    else none
  | .peerEnds c =>
    if c < st.dialed ∧ st.ended c = false then
      some { st with
        ended := Function.update st.ended c true
        log := st.log ++ [.endedByPeer c] }
    else none

/-! ## Who may close a connection -/

/-- A watcher closes its own connection, after the peer has ended it. -/
def OwnOnly (before : List Event) : Event → Prop
  | .closed (.watcher w) c => w = c ∧ .endedByPeer c ∈ before
  | .closed .connect _ | .closed .close _ | .installed _ | .wrote _ | .endedByPeer _ => True

/-- A watcher calls `Close` while the writer has another connection than its own. -/
def Stale (_ : List Action) (st : State) (a : Action) : Prop :=
  ∃ c c', a = .watcherCloses c ∧ st.conn = some c' ∧ c' ≠ c

/-- `Connect` installs a connection while a watcher of an earlier one has not returned. -/
def Hasty (_ : List Action) (st : State) (a : Action) : Prop :=
  a = .install ∧ ∃ c, (st.watcher c).pending = true

/-! ## What a step does -/

section Steps

variable {st st' : State} {a : Action}

/-- What a step can be, with its condition. -/
inductive Taken (st : State) : Action → State → Prop where
  | connect (hmu : st.mu = none) :
      Taken st .connect { st.closeConn .connect with mu := some .dial }
  | dialed (hmu : st.mu = some .dial) :
      Taken st (.dialed .tcp)
        { st with mu := some (.install st.dialed), dialed := st.dialed + 1 }
  | notDialed (r : Dialed) (hr : r ≠ .tcp) (hmu : st.mu = some .dial) :
      Taken st (.dialed r) { st with mu := none }
  | install (c : Nat) (hmu : st.mu = some (.install c)) :
      Taken st .install
        { st with
          conn := some c
          mu := none
          watcher := Function.update st.watcher c .reading
          log := st.log ++ [.installed c] }
  | write (hmu : st.mu = none) : Taken st .write { st with log := st.log ++ [.wrote st.conn] }
  | close (hmu : st.mu = none) : Taken st .close (st.closeConn .close)
  | readFails (c : Nat) (hreading : st.watcher c = .reading)
      (hfails : st.closed c = true ∨ st.ended c = true) :
      Taken st (.readFails c) { st with watcher := Function.update st.watcher c .closing }
  | watcherCloses (c : Nat) (hclosing : st.watcher c = .closing) (hmu : st.mu = none) :
      Taken st (.watcherCloses c)
        { st.closeConn (.watcher c) with watcher := Function.update st.watcher c .returned }
  | peerEnds (c : Nat) :
      Taken st (.peerEnds c)
        { st with
          ended := Function.update st.ended c true
          log := st.log ++ [.endedByPeer c] }

theorem taken_of_step (h : step st a = some st') : Taken st a st' := by
  cases a with
  | connect =>
    obtain ⟨hmu, ⟨⟩⟩ := Option.ite_none_right_eq_some.mp h
    exact .connect hmu
  | dialed r =>
    obtain ⟨hmu, h⟩ := Option.ite_none_right_eq_some.mp h
    cases r with
    | tcp =>
      cases h
      exact .dialed hmu
    | failed =>
      cases h
      exact .notDialed .failed nofun hmu
    | notTcp =>
      cases h
      exact .notDialed .notTcp nofun hmu
  | install =>
    simp only [step] at h
    split at h
    · next c hmu =>
      cases h
      exact .install c hmu
    · cases h
  | write =>
    obtain ⟨hmu, ⟨⟩⟩ := Option.ite_none_right_eq_some.mp h
    exact .write hmu
  | close =>
    obtain ⟨hmu, ⟨⟩⟩ := Option.ite_none_right_eq_some.mp h
    exact .close hmu
  | readFails c =>
    obtain ⟨hc, ⟨⟩⟩ := Option.ite_none_right_eq_some.mp h
    exact .readFails c hc.1 hc.2
  | watcherCloses c =>
    obtain ⟨hc, ⟨⟩⟩ := Option.ite_none_right_eq_some.mp h
    exact .watcherCloses c hc.1 hc.2
  | peerEnds c =>
    obtain ⟨-, ⟨⟩⟩ := Option.ite_none_right_eq_some.mp h
    exact .peerEnds c

theorem closeConn_eq (st : State) (closer : Closer) :
    (st.conn = none ∧ st.closeConn closer = st) ∨
    ∃ c, st.conn = some c ∧ st.closeConn closer =
      { st with
        conn := none
        closed := Function.update st.closed c true
        log := st.log ++ [.closed closer c] } := by
  unfold State.closeConn
  cases st.conn with
  | none => exact Or.inl ⟨rfl, rfl⟩
  | some c => exact Or.inr ⟨c, rfl, rfl⟩

@[simp] theorem closeConn_conn (closer : Closer) : (st.closeConn closer).conn = none := by
  obtain ⟨hconn, heq⟩ | ⟨c, -, heq⟩ := closeConn_eq st closer
  · rw [heq, hconn]
  · rw [heq]

@[simp] theorem closeConn_mu (closer : Closer) : (st.closeConn closer).mu = st.mu := by
  obtain ⟨-, heq⟩ | ⟨c, -, heq⟩ := closeConn_eq st closer <;> rw [heq]

@[simp] theorem closeConn_dialed (closer : Closer) :
    (st.closeConn closer).dialed = st.dialed := by
  obtain ⟨-, heq⟩ | ⟨c, -, heq⟩ := closeConn_eq st closer <;> rw [heq]

@[simp] theorem closeConn_watcher (closer : Closer) :
    (st.closeConn closer).watcher = st.watcher := by
  obtain ⟨-, heq⟩ | ⟨c, -, heq⟩ := closeConn_eq st closer <;> rw [heq]

@[simp] theorem closeConn_ended (closer : Closer) : (st.closeConn closer).ended = st.ended := by
  obtain ⟨-, heq⟩ | ⟨c, -, heq⟩ := closeConn_eq st closer <;> rw [heq]

/-- What is closed stays closed, and the connection that was there is closed. -/
theorem closeConn_closed_iff (closer : Closer) (c : Nat) :
    (st.closeConn closer).closed c = true ↔ st.closed c = true ∨ st.conn = some c := by
  obtain ⟨hconn, heq⟩ | ⟨c', hconn, heq⟩ := closeConn_eq st closer
  · rw [heq, hconn]
    simp
  · rw [heq, hconn]
    by_cases hc : c = c'
    · simp [hc]
    · simp [Function.update_of_ne hc, Ne.symm hc]

/-- What closing the connection adds to the history. -/
def State.closing (st : State) (closer : Closer) : List Event :=
  match st.conn with
  | none => []
  | some c => [.closed closer c]

theorem closeConn_log (closer : Closer) :
    (st.closeConn closer).log = st.log ++ st.closing closer := by
  unfold State.closing
  obtain ⟨hconn, heq⟩ | ⟨c, hconn, heq⟩ := closeConn_eq st closer
  · rw [heq, hconn, List.append_nil]
  · rw [heq, hconn]

/-- What a step adds to the history. -/
def State.emitted (st : State) : Action → List Event
  | .connect => st.closing .connect
  | .dialed _ | .readFails _ => []
  | .install =>
    match st.mu with
    | some (.install c) => [.installed c]
    | _ => []
  | .write => [.wrote st.conn]
  | .close => st.closing .close
  | .watcherCloses c => st.closing (.watcher c)
  | .peerEnds c => [.endedByPeer c]

theorem step_log (h : step st a = some st') : st'.log = st.log ++ st.emitted a := by
  cases taken_of_step h with
  | connect => exact closeConn_log .connect
  | dialed | notDialed r => exact (List.append_nil _).symm
  | install c hmu => simp only [State.emitted, hmu]
  | write => rfl
  | close => exact closeConn_log .close
  | readFails c => exact (List.append_nil _).symm
  | watcherCloses c => exact closeConn_log (.watcher c)
  | peerEnds c => rfl

end Steps

/-! ## Invariants -/

structure Inv (st : State) : Prop where
  idle : st.mu ≠ none → st.conn = none
  dialed : ∀ c, st.mu = some (.install c) → c < st.dialed ∧ st.watcher c = .absent
  unborn : ∀ c, st.dialed ≤ c → st.watcher c = .absent
  watched : ∀ c, st.conn = some c → st.watcher c ≠ .absent
  closed : ∀ c, st.closed c = true ↔ st.watcher c ≠ .absent ∧ st.conn ≠ some c
  failed : ∀ c, st.watcher c = .closing → st.closed c = true ∨ st.ended c = true
  ended : ∀ c, st.ended c = true → .endedByPeer c ∈ st.log

section Invariants

variable {st st' : State} {a : Action}

theorem inv_initial : Inv {} where
  idle h := absurd rfl h
  dialed := nofun
  unborn _ _ := rfl
  watched := nofun
  closed c := by simp
  failed := nofun
  ended := nofun

theorem Inv.closeConn (hi : Inv st) (closer : Closer) : Inv (st.closeConn closer) where
  idle _ := closeConn_conn closer
  dialed := by simpa using hi.dialed
  unborn := by simpa using hi.unborn
  watched := by simp
  closed := by
    intro c
    rw [closeConn_closed_iff, hi.closed c, closeConn_watcher, closeConn_conn]
    constructor
    · rintro (⟨hw, -⟩ | hconn)
      · exact ⟨hw, nofun⟩
      · exact ⟨hi.watched c hconn, nofun⟩
    · rintro ⟨hw, -⟩
      by_cases hconn : st.conn = some c
      · exact Or.inr hconn
      · exact Or.inl ⟨hw, hconn⟩
  failed := by
    intro c hc
    rw [closeConn_watcher] at hc
    rw [closeConn_closed_iff, closeConn_ended]
    rcases hi.failed c hc with hclosed | hended
    · exact Or.inl (Or.inl hclosed)
    · exact Or.inr hended
  ended := by
    intro c hc
    rw [closeConn_ended] at hc
    rw [closeConn_log]
    exact List.mem_append_left _ (hi.ended c hc)

/-- A started watcher may go on to another stage, to `closing` only after its read has failed. -/
theorem Inv.update_watcher (hi : Inv st) {c : Nat} {w : Watcher} (hc : st.watcher c ≠ .absent)
    (hw : w ≠ .absent) (hfail : w = .closing → st.closed c = true ∨ st.ended c = true) :
    Inv { st with watcher := Function.update st.watcher c w } where
  idle := hi.idle
  dialed := by
    intro c' hmu
    have hne : c' ≠ c := by
      rintro rfl
      exact hc (hi.dialed c' hmu).2
    simpa only [Function.update_of_ne hne] using hi.dialed c' hmu
  unborn := by
    intro c' hc'
    have hne : c' ≠ c := by
      rintro rfl
      exact hc (hi.unborn c' hc')
    simpa only [Function.update_of_ne hne] using hi.unborn c' hc'
  watched := by
    intro c' hconn
    by_cases hne : c' = c
    · simpa only [hne, Function.update_self] using hw
    · simpa only [Function.update_of_ne hne] using hi.watched c' hconn
  closed := by
    intro c'
    by_cases hne : c' = c
    · simp only [hne, Function.update_self, hi.closed c, ne_eq, hc, hw]
    · simpa only [Function.update_of_ne hne] using hi.closed c'
  failed := by
    intro c' hc'
    by_cases hne : c' = c
    · simp only [hne, Function.update_self] at hc' ⊢
      exact hfail hc'
    · simp only [Function.update_of_ne hne] at hc'
      exact hi.failed c' hc'
  ended := hi.ended

/-- The dialed connection becomes the connection of the writer, with its watcher. -/
theorem Inv.install (hi : Inv st) {c : Nat} (hmu : st.mu = some (.install c)) :
    Inv { st with
      conn := some c
      mu := none
      watcher := Function.update st.watcher c .reading
      log := st.log ++ [.installed c] } where
  idle h := absurd rfl h
  dialed := nofun
  unborn := by
    intro c' hc'
    have hne : c' ≠ c := Nat.ne_of_gt (Nat.lt_of_lt_of_le (hi.dialed c hmu).1 hc')
    simpa only [Function.update_of_ne hne] using hi.unborn c' hc'
  watched := by
    intro c' hconn
    cases hconn
    simp only [Function.update_self]
    exact nofun
  closed := by
    intro c'
    have hnone : st.conn = none := hi.idle (by rw [hmu]; nofun)
    by_cases hne : c' = c
    · simp [hne, hi.closed c, (hi.dialed c hmu).2]
    · simp [Function.update_of_ne hne, hi.closed c', hnone, Ne.symm hne]
  failed := by
    intro c' hc'
    by_cases hne : c' = c
    · simp only [hne, Function.update_self] at hc'
      cases hc'
    · simp only [Function.update_of_ne hne] at hc'
      exact hi.failed c' hc'
  ended c' hc' := List.mem_append_left _ (hi.ended c' hc')

theorem Inv.peerEnds (hi : Inv st) (c : Nat) :
    Inv { st with
      ended := Function.update st.ended c true
      log := st.log ++ [.endedByPeer c] } where
  idle := hi.idle
  dialed := hi.dialed
  unborn := hi.unborn
  watched := hi.watched
  closed := hi.closed
  failed := by
    intro c' hc'
    by_cases hne : c' = c
    · simp [hne]
    · simpa only [Function.update_of_ne hne] using hi.failed c' hc'
  ended := by
    intro c' hc'
    by_cases hne : c' = c
    · simp [hne]
    · simp only [Function.update_of_ne hne] at hc'
      exact List.mem_append_left _ (hi.ended c' hc')

/-- The mutex is taken by a call of `Connect`, or given back. -/
theorem Inv.set_mu (hi : Inv st) {mu : Option Stage} (hidle : mu ≠ none → st.conn = none)
    (hmu : ∀ c, mu ≠ some (.install c)) : Inv { st with mu := mu } where
  idle := hidle
  dialed c h := absurd h (hmu c)
  unborn := hi.unborn
  watched := hi.watched
  closed := hi.closed
  failed := hi.failed
  ended := hi.ended

theorem Inv.of_step (hi : Inv st) (h : step st a = some st') : Inv st' := by
  cases taken_of_step h with
  | connect =>
    exact (hi.closeConn .connect).set_mu (fun _ => closeConn_conn .connect) nofun
  | dialed hmu =>
    exact {
      idle := fun _ => hi.idle (by rw [hmu]; nofun)
      dialed := by
        intro c hc
        cases hc
        exact ⟨Nat.lt_succ_self _, hi.unborn _ (Nat.le_refl _)⟩
      unborn := fun c hc => hi.unborn c (Nat.le_of_succ_le hc)
      watched := hi.watched
      closed := hi.closed
      failed := hi.failed
      ended := hi.ended }
  | notDialed r => exact hi.set_mu (fun h => absurd rfl h) nofun
  | install c hmu => exact hi.install hmu
  | write => exact { hi with ended := fun c hc => List.mem_append_left _ (hi.ended c hc) }
  | close => exact hi.closeConn .close
  | readFails c hreading hfails =>
    exact hi.update_watcher (by rw [hreading]; nofun) nofun (fun _ => hfails)
  | watcherCloses c hclosing =>
    have hstarted : (st.closeConn (.watcher c)).watcher c ≠ .absent := by
      rw [closeConn_watcher, hclosing]
      nofun
    simpa only [closeConn_watcher] using
      (hi.closeConn (.watcher c)).update_watcher (w := .returned) hstarted nofun nofun
  | peerEnds c => exact hi.peerEnds c

theorem inv_of_run {as : List Action} (h : run step {} as = some st) : Inv st := by
  refine run_invariant (P := fun _ st => Inv st) inv_initial ?_ h
  intro as s a s' _ hi hstep
  exact hi.of_step hstep

end Invariants

/-! ## Watchers and the connections they close -/

section Watchers

variable {st st' : State} {a : Action} {as : List Action}

theorem eachTime_closing_iff (closer : Closer) :
    EachTime OwnOnly (st.log ++ st.closing closer) ↔
      EachTime OwnOnly st.log ∧ ∀ c, st.conn = some c → OwnOnly st.log (.closed closer c) := by
  unfold State.closing
  cases st.conn with
  | none => simp
  | some c =>
    rw [eachTime_concat_iff]
    simp

/-- A watcher that gets to close the connection closes its own one only after the peer. -/
theorem Inv.ended_of_closing (hi : Inv st) {c : Nat} (hc : st.watcher c = .closing)
    (hconn : st.conn = some c) : .endedByPeer c ∈ st.log := by
  rcases hi.failed c hc with hclosed | hended
  · exact absurd hconn ((hi.closed c).mp hclosed).2
  · exact hi.ended c hended

theorem eachTime_watcherCloses_iff (hi : Inv st) {c : Nat} (hc : st.watcher c = .closing) :
    EachTime OwnOnly (st.log ++ st.closing (.watcher c)) ↔
      EachTime OwnOnly st.log ∧ ¬ Stale as st (.watcherCloses c) := by
  rw [eachTime_closing_iff]
  refine and_congr_right fun _ => ?_
  constructor
  · rintro h ⟨w, c', ha, hconn, hne⟩
    cases ha
    exact hne (h c' hconn).1.symm
  · intro h c' hconn
    have heq : c' = c := by
      by_contra hne
      exact h ⟨c, c', rfl, hconn, hne⟩
    subst heq
    exact ⟨rfl, hi.ended_of_closing hc hconn⟩

/-- A step breaks the rule exactly when a watcher calls `Close` too late. -/
theorem eachTime_step_iff (as : List Action) (hi : Inv st) (h : step st a = some st') :
    EachTime OwnOnly st'.log ↔ EachTime OwnOnly st.log ∧ ¬ Stale as st a := by
  have other (hne : ∀ c, a ≠ .watcherCloses c) : ¬ Stale as st a := by
    rintro ⟨c, c', ha, -⟩
    exact hne c ha
  rw [step_log h]
  cases a with
  | connect =>
    simp only [State.emitted, eachTime_closing_iff, OwnOnly, other nofun]
    simp
  | dialed r =>
    simp only [State.emitted, List.append_nil, other nofun, not_false_iff, and_true]
  | install =>
    simp only [State.emitted, other nofun, not_false_iff, and_true]
    split
    · simp only [eachTime_concat_iff, OwnOnly, and_true]
    · rw [List.append_nil]
  | write => simp only [State.emitted, eachTime_concat_iff, OwnOnly, other nofun, not_false_iff]
  | close =>
    simp only [State.emitted, eachTime_closing_iff, OwnOnly, other nofun]
    simp
  | readFails c =>
    simp only [State.emitted, List.append_nil, other nofun, not_false_iff, and_true]
  | watcherCloses c =>
    cases taken_of_step h with
    | watcherCloses _ hclosing => exact eachTime_watcherCloses_iff hi hclosing
  | peerEnds c =>
    simp only [State.emitted, eachTime_concat_iff, OwnOnly, other nofun, not_false_iff]

theorem ownOnly_iff_not_stale (h : run step {} as = some st) :
    EachTime OwnOnly st.log ↔ ¬ Happened step {} Stale as := by
  refine run_invariant (P := fun as st => EachTime OwnOnly st.log ↔ ¬ Happened step {} Stale as)
    ?_ ?_ h
  · refine iff_of_true EachTime.nil ?_
    rintro ⟨before, a, after, s, heq, -⟩
    cases before <;> cases heq
  · intro as s a s' hrun ih hstep
    rw [eachTime_step_iff as (inv_of_run hrun) hstep, ih, happened_concat_iff hrun, not_or]

theorem exists_step_watcherCloses {c c' : Nat} (hw : st.watcher c = .closing)
    (hmu : st.mu = none) (hconn : st.conn = some c') :
    ∃ st', step st (.watcherCloses c) = some st' ∧
      st'.log = st.log ++ [.closed (.watcher c) c'] := by
  refine ⟨_, if_pos ⟨hw, hmu⟩, ?_⟩
  simp only [closeConn_log, State.closing, hconn]

/-- Once the writer has another connection, what is left of the old watcher closes it. -/
theorem Inv.exists_run_closing (hi : Inv st) {c c' : Nat} (hconn : st.conn = some c')
    (hne : c ≠ c') (hc : (st.watcher c).pending = true) :
    ∃ more st', run step st more = some st' ∧
      st'.log = st.log ++ [.closed (.watcher c) c'] := by
  have hmu : st.mu = none := by
    by_contra h
    rw [hi.idle h] at hconn
    cases hconn
  cases hw : st.watcher c with
  | absent | returned => rw [hw] at hc; cases hc
  | closing =>
    obtain ⟨st', hst', hlog⟩ := exists_step_watcherCloses hw hmu hconn
    exact ⟨[.watcherCloses c], st', run_cons hst', hlog⟩
  | reading =>
    -- the connection was closed when the writer gave it up, so the read fails
    have hclosed : st.closed c = true := by
      refine (hi.closed c).mpr ⟨by rw [hw]; nofun, ?_⟩
      rw [hconn]
      exact fun h => hne (Option.some.inj h).symm
    have hfails : step st (.readFails c) =
        some { st with watcher := Function.update st.watcher c .closing } :=
      if_pos ⟨hw, Or.inl hclosed⟩
    have hclosing : { st with
        watcher := Function.update st.watcher c .closing : State }.watcher c = .closing :=
      Function.update_self c _ _
    obtain ⟨st', hst', hlog⟩ := exists_step_watcherCloses hclosing hmu hconn
    exact ⟨[.readFails c, .watcherCloses c], st', (run_cons hfails).trans (run_cons hst'), hlog⟩

/-- Only the watcher of the connection that the writer has is still running. -/
def Settled (st : State) : Prop :=
  ∀ c', st.conn = some c' → ∀ c, c ≠ c' → (st.watcher c).pending = false

theorem Settled.not_stale (hs : Settled st) (h : step st a = some st') : ¬ Stale as st a := by
  rintro ⟨c, c', rfl, hconn, hne⟩
  cases taken_of_step h with
  | watcherCloses _ hclosing =>
    have hpending := hs c' hconn c (Ne.symm hne)
    rw [hclosing] at hpending
    cases hpending

/-- Closing the connection leaves none for a watcher to close. -/
theorem settled_of_conn_eq_none (h : st.conn = none) : Settled st := by
  intro c' hconn
  rw [h] at hconn
  cases hconn

theorem Settled.of_step (hs : Settled st) (h : step st a = some st')
    (hasty : ¬ Hasty as st a) : Settled st' := by
  cases taken_of_step h with
  | connect => exact settled_of_conn_eq_none (closeConn_conn .connect)
  | dialed | notDialed r => exact hs
  | install c =>
    intro c' hconn c'' hne
    cases hconn
    simp only [Function.update_of_ne hne]
    by_contra hpending
    exact hasty ⟨rfl, c'', Bool.of_not_eq_false hpending⟩
  | write => exact hs
  | close => exact settled_of_conn_eq_none (closeConn_conn .close)
  | readFails c hreading =>
    intro c' hconn c'' hne
    have hpending := hs c' hconn c'' hne
    have hother : c'' ≠ c := by
      rintro rfl
      rw [hreading] at hpending
      cases hpending
    simpa only [Function.update_of_ne hother] using hpending
  | watcherCloses c => exact settled_of_conn_eq_none (closeConn_conn (.watcher c))
  | peerEnds c => exact hs

/-- If `Connect` installs a connection only when the watchers before it have returned, no watcher
calls `Close` too late. -/
theorem not_stale_of_not_hasty (h : run step {} as = some st)
    (hasty : ¬ Happened step {} Hasty as) : ¬ Happened step {} Stale as := by
  have joint : ¬ Happened step {} Hasty as → Settled st ∧ ¬ Happened step {} Stale as := by
    refine run_invariant (P := fun as st => ¬ Happened step {} Hasty as →
      Settled st ∧ ¬ Happened step {} Stale as) ?_ ?_ h
    · intro _
      refine ⟨nofun, ?_⟩
      rintro ⟨before, a, after, s, heq, -⟩
      cases before <;> cases heq
    · intro as s a s' hrun ih hstep hasty
      rw [happened_concat_iff hrun, not_or] at hasty
      rw [happened_concat_iff hrun, not_or]
      obtain ⟨hsettled, hstale⟩ := ih hasty.1
      exact ⟨hsettled.of_step hstep hasty.2, hstale, hsettled.not_stale hstep⟩
  exact (joint hasty).2

/-- Watchers close only their own connections, once the peer has ended them, as long as none calls
`Close` after the writer has got another connection. That is so if every watcher returns before
the next connection is installed. If one has not, nothing else is needed for it to close the
connection that the writer has then. -/
theorem watchers_own_iff (as : List Action) (st : State) (h : run step {} as = some st) :
    (EachTime OwnOnly st.log ↔ ¬ Happened step {} Stale as) ∧
    (¬ Happened step {} Hasty as → EachTime OwnOnly st.log) ∧
    ∀ c c', st.conn = some c' → c ≠ c' → (st.watcher c).pending = true →
      ∃ more st', run step st more = some st' ∧
        st'.log = st.log ++ [.closed (.watcher c) c'] := by
  refine ⟨ownOnly_iff_not_stale h, ?_, ?_⟩
  · intro hasty
    exact (ownOnly_iff_not_stale h).mpr (not_stale_of_not_hasty h hasty)
  · intro c c' hconn hne hc
    exact (inv_of_run h).exists_run_closing hconn hne hc

theorem watchers_own_reconnected :
    ∃ st, run step {} [.connect, .dialed .tcp, .install, .connect, .dialed .tcp, .install] =
        some st ∧
      st.conn = some 1 ∧ st.ended 1 = false ∧
      ∃ more st', run step st more = some st' ∧
        st'.log = st.log ++ [.closed (.watcher 0) 1] := by
  refine ⟨_, rfl, rfl, rfl, ?_⟩
  exact (watchers_own_iff [.connect, .dialed .tcp, .install, .connect, .dialed .tcp, .install] _
    rfl).2.2 0 1 rfl (by decide) rfl

/-- The watcher of the first connection is woken by the second `Connect` and closes the second
connection; the next `Write` finds none. -/
theorem watcher_closes_successor :
    ∃ st, run step {} [.connect, .dialed .tcp, .install, .connect, .dialed .tcp, .install,
        .readFails 0, .watcherCloses 0, .write] = some st ∧
      st.log = [.installed 0, .closed .connect 0, .installed 1, .closed (.watcher 0) 1,
        .wrote none] ∧
      ¬ EachTime OwnOnly st.log := by
  refine ⟨_, rfl, rfl, ?_⟩
  intro h
  have hown := h [.installed 0, .closed .connect 0, .installed 1] (.closed (.watcher 0) 1)
    [.wrote none] rfl
  exact absurd hown.1 (by decide)

end Watchers

end Loggregator.Doppler.SyslogConn
