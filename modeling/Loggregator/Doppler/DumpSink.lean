import Loggregator.Lib.Ring
import Loggregator.Lib.Transition
import Loggregator.Plumbing.Envelope

/-!
# The sink of recent logs

`sinks/dump/dump_sink.go`. `Run` writes the log messages that it receives into a ring, and
`Dump` reads the ring from the element after the one written last.
-/

namespace Loggregator.Doppler

open Lib

/-- `DumpSink`: the ring of the messages, which is nil for the buffer size 0. -/
structure DumpSink where
  messageRing : Option (RingList (Option Events.Envelope))

namespace DumpSink

/-- `NewDumpSink`. -/
def newDumpSink (bufferSize : UInt32) : DumpSink := ⟨RingList.new none bufferSize.toNat⟩

/-- `addMsg`; `Next` panics on a nil ring. -/
def addMsg (d : DumpSink) (msg : Events.Envelope) : Option DumpSink :=
  d.messageRing.map (fun messageRing => ⟨some (messageRing.next.set (some msg))⟩)

/-- `Dump`; elements that were never written are skipped. -/
def dump (d : DumpSink) : Option (List Events.Envelope) :=
  d.messageRing.map (fun messageRing => messageRing.next.toList.filterMap id)

/-- A turn of the loop of `Run` that receives a message. -/
def receive (d : DumpSink) (msg : Events.Envelope) : Option DumpSink :=
  if msg.eventType ≠ .logMessage then some d else d.addMsg msg

/-- The sink, and whether `Run` has returned. -/
structure State where
  sink : DumpSink
  returned : Bool := false

/-- What happens to a sink: `Run` receives a message, it returns because its input is closed or
because the timer fired, and somebody calls `Dump`. -/
inductive Action where
  | receive (msg : Events.Envelope)
  | closed
  | inactive
  | dump

/-- The action is no call of `Dump`. -/
def Action.changes : Action → Bool
  | .dump => false
  | _ => true

/-- The effect of an action; there is none after a panic. -/
def step (st : State) : Action → Option State
  | .receive msg =>
    if st.returned then none else (st.sink.receive msg).map (fun sink => { st with sink := sink })
  | .closed | .inactive => if st.returned then none else some { st with returned := true }
  | .dump => (st.sink.dump).map (fun _ => st)

/-- The log messages that `Run` received. -/
def logMessages (actions : List Action) : List Events.Envelope :=
  actions.filterMap (fun
    | .receive msg => if msg.eventType = .logMessage then some msg else none
    | _ => none)

/-- The ring after these log messages. -/
def Holds (bufferSize : Nat) (messages : List Events.Envelope) (d : DumpSink) : Prop :=
  ∃ messageRing, d.messageRing = some messageRing ∧ messageRing.window =
    (List.replicate bufferSize none ++ messages.map some).drop messages.length

section Holds

variable {bufferSize : Nat} {messages : List Events.Envelope} {d d' : DumpSink}

theorem holds_newDumpSink {bufferSize : UInt32} (hsize : 1 ≤ bufferSize) :
    Holds bufferSize.toNat [] (newDumpSink bufferSize) := by
  have hpos : 1 ≤ bufferSize.toNat := UInt32.le_iff_toNat_le.mp hsize
  obtain ⟨n, hn⟩ := Nat.exists_eq_add_of_le' hpos
  have hnew : RingList.new none (n + 1) = some (⟨none, List.replicate n none⟩ :
    RingList (Option Events.Envelope)) := rfl
  refine ⟨_, by rw [newDumpSink, hn]; exact hnew, ?_⟩
  rw [RingList.window_new hnew, hn]
  simp

theorem Holds.addMsg (hpos : 1 ≤ bufferSize) (h : Holds bufferSize messages d)
    {msg : Events.Envelope} (hadd : d.addMsg msg = some d') :
    Holds bufferSize (messages ++ [msg]) d' := by
  obtain ⟨messageRing, hring, hwindow⟩ := h
  rw [DumpSink.addMsg, hring] at hadd
  cases hadd
  refine ⟨_, rfl, ?_⟩
  have hne : List.replicate bufferSize (none : Option Events.Envelope) ≠ [] := by
    rw [ne_eq, List.replicate_eq_nil_iff]
    omega
  have hwrite := RingList.window_write hne (l := messages.map some)
    (by rw [hwindow, List.length_map]) (some msg)
  rw [hwrite]
  simp

/-- The elements that were not written yet stand before the messages. -/
theorem Holds.dump (h : Holds bufferSize messages d) :
    d.dump = some (messages.rtake (min messages.length bufferSize)) := by
  obtain ⟨messageRing, hring, hwindow⟩ := h
  rw [DumpSink.dump, hring, Option.map_some]
  change some (messageRing.window.filterMap id) = _
  have hlength : messages.length - min messages.length bufferSize =
      messages.length - bufferSize := by omega
  rw [hwindow, List.drop_append, List.filterMap_append, List.length_replicate,
    List.drop_replicate, ← List.map_drop, List.rtake, hlength]
  simp

end Holds

/-- Every action keeps the ring in step with the messages. -/
theorem Holds.step {bufferSize : Nat} (hpos : 1 ≤ bufferSize) {actions : List Action}
    {st st' : State} {a : Action} (h : Holds bufferSize (logMessages actions) st.sink)
    (hstep : step st a = some st') :
    Holds bufferSize (logMessages (actions ++ [a])) st'.sink := by
  rw [logMessages, List.filterMap_append]
  change Holds bufferSize (logMessages actions ++ _) st'.sink
  cases a with
  | receive msg =>
    simp only [DumpSink.step] at hstep
    split at hstep
    · cases hstep
    · obtain ⟨sink, hsink, rfl⟩ := Option.map_eq_some_iff.mp hstep
      rw [receive] at hsink
      by_cases htype : msg.eventType = .logMessage
      · rw [if_neg (not_not_intro htype)] at hsink
        simpa [htype] using h.addMsg hpos hsink
      · rw [if_pos htype] at hsink
        cases hsink
        simpa [htype] using h
  | closed | inactive =>
    simp only [DumpSink.step] at hstep
    split at hstep
    · cases hstep
    · cases hstep
      simpa using h
  | dump =>
    obtain ⟨_, -, rfl⟩ := Option.map_eq_some_iff.mp hstep
    simpa using h

/-- The ring is in step with the messages after every run. -/
theorem holds_of_run {bufferSize : UInt32} (hsize : 1 ≤ bufferSize) {actions : List Action}
    {st : State} (hrun : run step ⟨newDumpSink bufferSize, false⟩ actions = some st) :
    Holds bufferSize.toNat (logMessages actions) st.sink := by
  refine run_invariant (P := fun actions st => Holds bufferSize.toNat (logMessages actions) st.sink)
    ?_ ?_ hrun
  · exact holds_newDumpSink hsize
  · intro actions st a st' _ h hstep
    exact h.step (UInt32.le_iff_toNat_le.mp hsize) hstep

/-- A sink whose ring is not nil receives every message. -/
theorem Holds.receive {bufferSize : Nat} {messages : List Events.Envelope} {d : DumpSink}
    (h : Holds bufferSize messages d) (msg : Events.Envelope) : (d.receive msg).isSome := by
  obtain ⟨messageRing, hring, -⟩ := h
  unfold DumpSink.receive DumpSink.addMsg
  split
  · rfl
  · rw [hring]
    rfl

/-- The run goes the same way without its calls of `Dump`. -/
theorem run_without_dumps {st st' : State} {actions : List Action}
    (hrun : run step st actions = some st') :
    run step st (actions.filter Action.changes) = some st' := by
  induction actions generalizing st with
  | nil => exact hrun
  | cons a actions ih =>
    rw [run] at hrun
    obtain ⟨st₁, ha, hrest⟩ := Option.bind_eq_some_iff.mp hrun
    cases a with
    | dump =>
      obtain ⟨_, -, rfl⟩ := Option.map_eq_some_iff.mp ha
      exact ih hrest
    | receive msg | closed | inactive =>
      rw [List.filter_cons_of_pos rfl, run_cons ha]
      exact ih hrest

/-- `Dump` returns the log messages that were received last, as many as fit, in the order in
which they came. The calls of `Dump` in a run have no effect on it, and a sink that runs can
receive every message. -/
theorem dump_eq_last_logMessages (bufferSize : UInt32) (hsize : 1 ≤ bufferSize)
    (actions : List Action) (st : State)
    (hrun : run step ⟨newDumpSink bufferSize, false⟩ actions = some st) :
    st.sink.dump = some ((logMessages actions).rtake
      (min (logMessages actions).length bufferSize.toNat)) ∧
    run step ⟨newDumpSink bufferSize, false⟩ (actions.filter Action.changes) = some st ∧
    (st.returned = false → ∀ msg, (step st (.receive msg)).isSome) := by
  have hholds := holds_of_run hsize hrun
  refine ⟨hholds.dump, run_without_dumps hrun, ?_⟩
  intro hreturned msg
  rw [step, hreturned, if_neg (by simp), Option.isSome_map]
  exact hholds.receive msg

/-- A ring of two elements after three log messages and a call of `Dump`. -/
theorem dump_last_two_of_three :
    let log (t : Int64) : Events.Envelope := { eventType := .logMessage, timestamp := t }
    let actions : List Action := [.receive (log 1), .receive (log 2), .dump,
      .receive { eventType := .error }, .receive (log 3)]
    ∃ st, run step ⟨newDumpSink 2, false⟩ actions = some st ∧
      st.sink.dump = some [log 2, log 3] := by
  intro log actions
  refine ⟨_, rfl, ?_⟩
  have hdump := dump_eq_last_logMessages 2 (by decide) actions _ rfl
  exact hdump.1.trans rfl

end DumpSink

end Loggregator.Doppler
