import Mathlib.Logic.Basic

/-!
# One connection that is kept up

What the connection managers of metron's two clients share: `m.conn`, the channel `m.reset`, and
`maintainConn`, which connects again when it finds nothing in `m.conn`
(`metron/internal/clientpool/v1/conn_manager.go` and `v2/conn_manager.go`). Connections are
numbered as `Connect` returns them.

`maintainConn` closes nothing, so that it keeps every connection in its place, whatever the calls of
`Write` do next to it.
-/

namespace Loggregator.Metron

/-- What `Write` returns other than nil: its own error, or that of `Send`. -/
inductive WriteError where
  | noConnection
  | send
  deriving DecidableEq

/-- `maintainConn`, by the operation that comes next. -/
inductive Maintain where
  | reset
  | checkConnectionTimer
  | load
  | connect
  | store (conn : Nat)
  deriving DecidableEq

/-- The connection that `maintainConn` is about to store. -/
def Maintain.stored : Maintain → Option Nat
  | .store conn => some conn
  | _ => none

/-- The actions of `maintainConn`: its next operation, a tick that it waits for and the outcome of
its `Connect`. -/
inductive MaintainAction where
  | next
  | tick
  | connected (ok : Bool)

/-- What both managers keep. -/
structure ConnSlot where
  conn : Option Nat := none
  /-- The number of values in the channel `m.reset`. -/
  reset : Nat := 0
  maintain : Maintain := .reset
  /-- The number of connections that `Connect` has returned. -/
  connections : Nat := 0

/-- The capacity of `m.reset`. -/
def resetCapacity : Nat := 100

namespace ConnSlot

/-- The next operation of `maintainConn`. -/
def stepMaintain (s : ConnSlot) : Option ConnSlot :=
  match s.maintain with
  | .reset =>
    if s.reset < resetCapacity then
      some { s with reset := s.reset + 1, maintain := .checkConnectionTimer }
    else none
  | .checkConnectionTimer =>
    if 0 < s.reset then some { s with reset := s.reset - 1, maintain := .load } else none
  | .load => some { s with maintain := if s.conn = none then .connect else .checkConnectionTimer }
  | .connect => none
  | .store conn => some { s with conn := some conn, maintain := .checkConnectionTimer }

def step (s : ConnSlot) : MaintainAction → Option ConnSlot
  | .next => s.stepMaintain
  | .tick => if s.maintain = .checkConnectionTimer then some { s with maintain := .load } else none
  | .connected ok =>
    if s.maintain = .connect then
      if ok then
        some { s with maintain := .store s.connections, connections := s.connections + 1 }
      else some { s with maintain := .checkConnectionTimer }
    else none

/-- What an action of `maintainConn` can do: go on without a connection in its hands, get one from
`Connect`, or store the one that it has. -/
inductive Moves (s : ConnSlot) : ConnSlot → Prop where
  | other {m : Maintain} {reset : Nat} (hold : s.maintain.stored = none) (hnew : m.stored = none)
      (hconnect : m = .connect → s.conn = none) :
      Moves s { s with reset := reset, maintain := m }
  | connected (hm : s.maintain = .connect) :
      Moves s { s with maintain := .store s.connections, connections := s.connections + 1 }
  | stored {conn : Nat} (hm : s.maintain = .store conn) :
      Moves s { s with conn := some conn, maintain := .checkConnectionTimer }

variable {s s' : ConnSlot}

theorem moves_of_step {a : MaintainAction} (h : s.step a = some s') : Moves s s' := by
  cases a with
  | next =>
    unfold step stepMaintain at h
    cases hm : s.maintain with
    | reset | checkConnectionTimer =>
      simp only [hm] at h
      split at h <;> cases h
      exact .other (by rw [hm]; rfl) rfl nofun
    | load =>
      simp only [hm] at h
      cases h
      refine .other (by rw [hm]; rfl) (by split <;> rfl) ?_
      intro hconnect
      split at hconnect
      · assumption
      · cases hconnect
    | connect => simp only [hm] at h; cases h
    | store conn =>
      simp only [hm] at h
      cases h
      exact .stored hm
  | tick =>
    simp only [step] at h
    split at h <;> cases h
    next hm => exact .other (by rw [hm]; rfl) rfl nofun
  | connected ok =>
    simp only [step] at h
    split at h
    · next hm =>
      cases ok with
      | true =>
        cases h
        exact .connected hm
      | false =>
        cases h
        exact .other (by rw [hm]; rfl) rfl nofun
    · cases h

/-- What was held next to `maintainConn` is not what it stores after an action. -/
theorem Moves.ne_store (h : Moves s s') {c : Nat} (hc : c < s.connections) :
    c < s'.connections ∧ s'.maintain ≠ .store c := by
  cases h with
  | other _ hnew =>
    refine ⟨hc, ?_⟩
    rintro rfl
    cases hnew
  | connected =>
    refine ⟨Nat.lt_succ_of_lt hc, ?_⟩
    rintro ⟨⟩
    exact Nat.lt_irrefl _ hc
  | stored => exact ⟨hc, nofun⟩

/-- Every connection is in `m.conn`, held by `maintainConn`, closed, or about to be closed by a
call of `Write`, and in one of these places only. -/
structure Placed (s : ConnSlot) (closed closing : Nat → Prop) : Prop where
  current : ∀ c, s.conn = some c → c < s.connections ∧ ¬ closed c ∧ ¬ closing c
  store : ∀ c, s.maintain = .store c →
    s.conn = none ∧ c < s.connections ∧ ¬ closed c ∧ ¬ closing c
  connect : s.maintain = .connect → s.conn = none
  known : ∀ c, closed c ∨ closing c → c < s.connections
  apart : ∀ c, closing c → ¬ closed c
  accounted : ∀ c < s.connections,
    s.conn = some c ∨ s.maintain = .store c ∨ closed c ∨ closing c

namespace Placed

variable {closed closing closed' closing' : Nat → Prop}

variable (h : Placed s closed closing)
include h

/-- At most one connection is open without being about to be closed. -/
theorem unique {c d : Nat} (hc : c < s.connections) (hc' : ¬ closed c) (hc'' : ¬ closing c)
    (hd : d < s.connections) (hd' : ¬ closed d) (hd'' : ¬ closing d) : c = d := by
  have hplace : ∀ c < s.connections, ¬ closed c → ¬ closing c →
      s.conn = some c ∨ s.maintain = .store c := by
    intro c hlt hopen hnot
    rcases h.accounted c hlt with h | h | h | h
    · exact .inl h
    · exact .inr h
    · exact absurd h hopen
    · exact absurd h hnot
  rcases hplace c hc hc' hc'' with h₁ | h₁ <;> rcases hplace d hd hd' hd'' with h₂ | h₂
  · exact Option.some.inj (h₁.symm.trans h₂)
  · cases h₁.symm.trans (h.store d h₂).1
  · cases h₂.symm.trans (h.store c h₁).1
  · exact Maintain.store.inj (h₁.symm.trans h₂)

theorem congr (hclosed : ∀ c, closed' c ↔ closed c) (hclosing : ∀ c, closing' c ↔ closing c) :
    Placed s closed' closing' := by
  rw [funext (fun c => propext (hclosed c)), funext (fun c => propext (hclosing c))]
  exact h

theorem setReset (reset : Nat) :
    Placed { s with reset := reset } closed closing :=
  ⟨h.current, h.store, h.connect, h.known, h.apart, h.accounted⟩

/-- An action of `maintainConn`. -/
theorem moves (hs : Moves s s') : Placed s' closed closing := by
  cases hs with
  | other hold hnew hconnect =>
    refine ⟨h.current, ?_, hconnect, h.known, h.apart, ?_⟩
    · rintro c rfl
      cases hnew
    · intro c hc
      rcases h.accounted c hc with h | h | h
      · exact .inl h
      · rw [h] at hold
        cases hold
      · exact .inr (.inr h)
  | connected hm =>
    have hnone := h.connect hm
    have hfresh : ¬ (closed s.connections ∨ closing s.connections) :=
      fun hc => Nat.lt_irrefl _ (h.known _ hc)
    refine ⟨?_, ?_, nofun, fun c hc => Nat.lt_succ_of_lt (h.known c hc), h.apart, ?_⟩
    · intro c hc
      cases hnone.symm.trans hc
    · rintro c ⟨⟩
      exact ⟨hnone, Nat.lt_succ_self _, not_or.mp hfresh⟩
    · intro c hc
      rcases Nat.lt_succ_iff_lt_or_eq.mp hc with hlt | rfl
      · rcases h.accounted c hlt with h | h | h
        · exact .inl h
        · cases hm.symm.trans h
        · exact .inr (.inr h)
      · exact .inr (.inl rfl)
  | stored hm =>
    obtain ⟨hnone, hplace⟩ := h.store _ hm
    refine ⟨?_, nofun, nofun, h.known, h.apart, ?_⟩
    · rintro c ⟨⟩
      exact hplace
    · intro c hc
      rcases h.accounted c hc with h | h | h
      · cases hnone.symm.trans h
      · cases hm.symm.trans h
        exact .inl rfl
      · exact .inr (.inr h)

/-- `Write` takes the connection out of `m.conn`, to close it. -/
theorem remove {conn : Nat} (hconn : s.conn = some conn) :
    Placed { s with conn := none } closed (fun c => c = conn ∨ closing c) := by
  obtain ⟨hlt, hopen, hnot⟩ := h.current conn hconn
  refine ⟨nofun, ?_, fun _ => rfl, ?_, ?_, ?_⟩
  · intro c hc
    cases hconn.symm.trans (h.store c hc).1
  · rintro c (hc | rfl | hc)
    · exact h.known c (.inl hc)
    · exact hlt
    · exact h.known c (.inr hc)
  · rintro c (rfl | hc)
    · exact hopen
    · exact h.apart c hc
  · intro c hc
    rcases h.accounted c hc with h | h | h | h
    · exact .inr (.inr (.inr (.inl (Option.some.inj (h.symm.trans hconn)))))
    · exact .inr (.inl h)
    · exact .inr (.inr (.inl h))
    · exact .inr (.inr (.inr (.inr h)))

/-- `Write` closes the connection that it has taken out. -/
theorem close {conn : Nat} (hconn : closing conn) :
    Placed s (fun c => c = conn ∨ closed c) (fun c => c ≠ conn ∧ closing c) := by
  -- what is in another place is not this connection
  have hopen : ∀ c, ¬ closed c ∧ ¬ closing c →
      ¬ (c = conn ∨ closed c) ∧ ¬ (c ≠ conn ∧ closing c) := by
    rintro c ⟨hclosed, hclosing⟩
    refine ⟨?_, fun hc => hclosing hc.2⟩
    rintro (rfl | hc)
    · exact hclosing hconn
    · exact hclosed hc
  refine ⟨?_, ?_, h.connect, ?_, ?_, ?_⟩
  · exact fun c hc => (h.current c hc).imp_right (hopen c)
  · exact fun c hc => (h.store c hc).imp_right (And.imp_right (hopen c))
  · rintro c ((rfl | hc) | ⟨-, hc⟩)
    · exact h.known c (.inr hconn)
    · exact h.known c (.inl hc)
    · exact h.known c (.inr hc)
  · rintro c ⟨hne, hc⟩ (heq | hclosed)
    · exact hne heq
    · exact h.apart c hc hclosed
  · intro c hc
    rcases h.accounted c hc with h | h | h | h
    · exact .inl h
    · exact .inr (.inl h)
    · exact .inr (.inr (.inl (.inr h)))
    · by_cases heq : c = conn
      · exact .inr (.inr (.inl (.inl heq)))
      · exact .inr (.inr (.inr ⟨heq, h⟩))

end Placed

end ConnSlot

end Loggregator.Metron
