import Loggregator.Lib.Totals
import Loggregator.Lib.Transition
import Loggregator.Plumbing.Envelope

/-!
# Counters of a component's own metrics

`metricemitter/counter.go` and `Client.pulse`. A counter is a word that any number of goroutines
add to. `WithEnvelope` swaps the word out, hands it to a callback in an envelope, and adds it back
when the callback fails. Nothing that was added is lost or sent twice, however these overlap.
-/

namespace Loggregator.MetricEmitter

open Lib

/-- `Counter` without its word. The tags are one map for all its envelopes. -/
structure Counter where
  name : GoString
  sourceID : GoString
  tags : Option DeprecatedTagsRef
  deriving DecidableEq

/-- `Counter.toEnvelope`, at a time. -/
def Counter.toEnvelope (m : Counter) (now : Int64) (delta : UInt64) : V2.Envelope where
  timestamp := now
  sourceId := m.sourceID
  deprecatedTags := m.tags
  message := some (.counter { name := m.name, value := some (.delta delta) })

/-- The delta that an envelope reports. -/
def reportedDelta (e : V2.Envelope) : UInt64 := (e.getCounter.map V2.Counter.getDelta).getD 0

@[simp] theorem reportedDelta_toEnvelope (m : Counter) (now : Int64) (delta : UInt64) :
    reportedDelta (m.toEnvelope now delta) = delta := rfl

/-- A goroutine that calls `WithEnvelope`, by the operation that comes next: the swap, the return
of the callback for an envelope made at some time, or the addition after it has failed. -/
inductive Pc where
  | swap
  | callback (d : UInt64) (now : Int64)
  | restore (d : UInt64)
  deriving DecidableEq

/-- The delta that a call holds. -/
def Pc.held : Pc → UInt64
  | .swap => 0
  | .callback d _ | .restore d => d

/-- The word and the goroutines, with the increments that are complete and the envelopes whose
callback succeeded. -/
structure State where
  delta : UInt64 := 0
  threads : List Pc := []
  increments : List UInt64 := []
  sent : List V2.Envelope := []

inductive Action where
  | increment (c : UInt64)
  | spawn
  | swap (i : Nat) (now : Int64)
  | returned (i : Nat) (ok : Bool)
  | restore (i : Nat)
  deriving DecidableEq

/-- `Increment`. -/
def State.increment (st : State) (c : UInt64) : State :=
  { st with delta := st.delta + c, increments := st.increments ++ [c] }

/-- One atomic step of `Increment` or `WithEnvelope`. -/
def step (m : Counter) (st : State) : Action → Option State
  | .increment c => some (st.increment c)
  | .spawn => some { st with threads := st.threads ++ [.swap] }
  | .swap i now =>
    match st.threads[i]? with
    | some .swap =>
      some { st with delta := 0, threads := st.threads.set i (.callback st.delta now) }
    | _ => none
  | .returned i ok =>
    match st.threads[i]? with
    | some (.callback d now) =>
      if ok then
        some { st with
          threads := st.threads.set i .swap
          sent := st.sent ++ [m.toEnvelope now d] }
      else some { st with threads := st.threads.set i (.restore d) }
    | _ => none
  | .restore i =>
    match st.threads[i]? with
    | some (.restore d) =>
      some { st with delta := st.delta + d, threads := st.threads.set i .swap }
    | _ => none

/-- What was added is what was sent, what is held and what is there. -/
def Conserved (st : State) : Prop :=
  sum64 st.increments =
    sum64 (st.sent.map reportedDelta) + sum64 (st.threads.map Pc.held) + st.delta

section Conserved

variable {m : Counter} {st st' : State}

/-- A goroutine goes on, and the sum of the deltas that are held changes with it. -/
theorem held_set {i : Nat} {pc : Pc} (hi : st.threads[i]? = some pc) (pc' : Pc) :
    sum64 ((st.threads.set i pc').map Pc.held) + pc.held =
      sum64 (st.threads.map Pc.held) + pc'.held :=
  sum64_set Pc.held hi pc'

theorem Conserved.increment (h : Conserved st) (c : UInt64) : Conserved (st.increment c) := by
  unfold Conserved at h ⊢
  simp only [State.increment, sum64_append, sum64_cons, sum64_nil, h]
  rw [UInt64.add_zero, UInt64.add_assoc]

theorem Conserved.step {a : Action} (h : Conserved st) (hstep : step m st a = some st') :
    Conserved st' := by
  unfold Conserved at h ⊢
  cases a with
  | increment c =>
    cases hstep
    exact Conserved.increment h c
  | spawn =>
    cases hstep
    simp only [List.map_append, List.map_cons, List.map_nil, sum64_append, sum64_cons, sum64_nil,
      Pc.held, UInt64.add_zero, h]
  | swap i now =>
    simp only [MetricEmitter.step] at hstep
    split at hstep
    · next hi =>
      cases hstep
      have hset := held_set hi (.callback st.delta now)
      simp only [Pc.held, UInt64.add_zero] at hset
      simp only [hset, UInt64.add_zero, h]
      exact UInt64.add_assoc _ _ _
    · cases hstep
  | returned i ok =>
    simp only [MetricEmitter.step] at hstep
    split at hstep
    · next d now hi =>
      split at hstep
      · cases hstep
        have hset := held_set hi .swap
        simp only [Pc.held, UInt64.add_zero] at hset
        rw [h, ← hset]
        simp only [List.map_append, List.map_cons, List.map_nil, sum64_append, sum64_cons,
          sum64_nil, reportedDelta_toEnvelope, UInt64.add_zero]
        ac_rfl
      · cases hstep
        -- the call holds the same delta as before
        have hset := UInt64.add_left_inj d |>.mp (held_set hi (.restore d))
        rw [h, hset]
    · cases hstep
  | restore i =>
    simp only [MetricEmitter.step] at hstep
    split at hstep
    · next d hi =>
      cases hstep
      have hset := held_set hi .swap
      simp only [Pc.held, UInt64.add_zero] at hset
      show sum64 st.increments = sum64 (st.sent.map reportedDelta) +
        sum64 ((st.threads.set i .swap).map Pc.held) + (st.delta + d)
      rw [h, ← hset]
      ac_rfl
    · cases hstep

/-! ### Counters of another component -/

/-- The steps of `WithEnvelope`. -/
def Action.emits : Action → Bool
  | .increment _ => false
  | .spawn | .swap _ _ | .returned _ _ | .restore _ => true

/-- A step of the goroutine that sends the counter, while a component adds to it. -/
def emit (m : Counter) (st : State) (a : Action) : Option State :=
  if a.emits then step m st a else none

theorem step_of_emit {a : Action} (h : emit m st a = some st') :
    MetricEmitter.step m st a = some st' := by
  unfold emit at h
  split at h
  · exact h
  · cases h

theorem increments_of_emit {a : Action} (h : emit m st a = some st') :
    st'.increments = st.increments := by
  have hstep := step_of_emit h
  cases a with
  | increment c => cases h
  | spawn =>
    cases h
    rfl
  | swap i now | restore i =>
    simp only [MetricEmitter.step] at hstep
    split at hstep <;> cases hstep
    rfl
  | returned i ok =>
    simp only [MetricEmitter.step] at hstep
    split at hstep
    · split at hstep <;> cases hstep <;> rfl
    · cases hstep

/-- `Increment(1)`, if there is something to count. -/
def State.count (st : State) (counted : Prop) [Decidable counted] : State :=
  if counted then st.increment 1 else st

theorem sum64_increments_count (st : State) (counted : Prop) [Decidable counted] :
    sum64 (st.count counted).increments =
      if counted then sum64 st.increments + 1 else sum64 st.increments := by
  unfold State.count
  split
  · simp [State.increment]
  · rfl

theorem Conserved.count (h : Conserved st) (counted : Prop) [Decidable counted] :
    Conserved (st.count counted) := by
  unfold State.count
  split
  · exact h.increment 1
  · exact h

end Conserved

/-- At every moment the increments are in the envelopes that were sent, in the calls that have
taken the delta and not finished, or in the delta. -/
theorem increments_conserved (m : Counter) (st : State) (hst : Reachable (step m) Always {} st) :
    sum64 st.increments =
      sum64 (st.sent.map reportedDelta) + sum64 (st.threads.map Pc.held) + st.delta :=
  hst.invariant (P := Conserved) rfl (fun _ _ _ h _ hstep => h.step hstep)

/-- Two goroutines send at the same time. One of them fails and adds its delta to increments that
came in between. -/
theorem increments_conserved_overlap :
    ∃ st, Reachable (step ⟨[], [], none⟩) Always {} st ∧ st.increments = [3, 4] ∧
      st.sent.map reportedDelta = [4] ∧ st.delta = 3 ∧
      sum64 st.increments =
        sum64 (st.sent.map reportedDelta) + sum64 (st.threads.map Pc.held) + st.delta := by
  have hrun : (run (step ⟨[], [], none⟩) {} [.spawn, .spawn, .increment 3, .swap 0 0, .increment 4,
      .swap 1 0, .returned 0 false, .returned 1 true, .restore 0]).map (fun st =>
        (st.increments, st.sent.map reportedDelta, st.delta)) = some ([3, 4], [4], 3) := by decide
  obtain ⟨st, hreach, hfinal⟩ := exists_reachable_of_run hrun
  simp only [Prod.mk.injEq] at hfinal
  exact ⟨st, hreach, hfinal.1, hfinal.2.1, hfinal.2.2, increments_conserved _ st hreach⟩

/-! ## The pulse of a client -/

/-- `Client.pulse` for one counter: whether it has a sender, and the counter with the one goroutine
that calls `WithEnvelope`. -/
structure Pulse where
  senderClient : Bool := false
  state : State := { threads := [.swap] }

/-- The increments, and the steps of `pulse`: `Sender` is called for a tick when there is no
sender, and `WithEnvelope` when there is one. -/
inductive PulseAction where
  | increment (c : UInt64)
  | sender (ok : Bool)
  | swap (now : Int64)
  | returned (ok : Bool)
  | restore

def pulseStep (m : Counter) (p : Pulse) : PulseAction → Option Pulse
  | .increment c => (step m p.state (.increment c)).map (fun st => { p with state := st })
  | .sender ok =>
    if p.senderClient = false ∧ p.state.threads = [.swap] then
      some { p with senderClient := ok }
    else none
  | .swap now =>
    if p.senderClient then (step m p.state (.swap 0 now)).map (fun st => { p with state := st })
    else none
  | .returned ok => (step m p.state (.returned 0 ok)).map (fun st => { p with state := st })
  | .restore =>
    (step m p.state (.restore 0)).map (fun st => { senderClient := false, state := st })

/-- A client's counter takes the steps of a counter. -/
theorem reachable_state_of_pulse {m : Counter} {p : Pulse}
    (hp : Reachable (pulseStep m) Always {} p) : Reachable (step m) Always {} p.state := by
  have hfirst : step m {} .spawn = some { threads := [.swap] } := rfl
  refine hp.invariant (P := fun p => Reachable (step m) Always {} p.state)
    (.tail .refl trivial hfirst) ?_
  intro p a p' hp _ hstep
  cases a with
  | sender ok =>
    simp only [pulseStep] at hstep
    split at hstep
    · cases hstep
      exact hp
    · cases hstep
  | swap now =>
    simp only [pulseStep] at hstep
    split at hstep
    · obtain ⟨st, hst, rfl⟩ := Option.map_eq_some_iff.mp hstep
      exact hp.tail trivial hst
    · cases hstep
  | increment c =>
    cases hstep
    exact hp.tail (a := .increment c) trivial rfl
  | returned ok | restore =>
    obtain ⟨st, hst, rfl⟩ := Option.map_eq_some_iff.mp hstep
    exact hp.tail trivial hst

/-- Between two pulses everything that was added is sent or waits for the next one. -/
theorem pulse_reports_all {m : Counter} {p : Pulse}
    (hp : Reachable (pulseStep m) Always {} p) (hidle : p.state.threads = [.swap]) :
    sum64 p.state.increments = sum64 (p.state.sent.map reportedDelta) + p.state.delta := by
  have hconserved : Conserved p.state := (reachable_state_of_pulse hp).invariant rfl
    (fun _ _ _ h _ hstep => h.step hstep)
  rw [Conserved, hidle] at hconserved
  rw [hconserved]
  simp only [List.map_cons, List.map_nil, sum64_cons, sum64_nil, Pc.held, UInt64.add_zero]

end Loggregator.MetricEmitter
