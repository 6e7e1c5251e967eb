import Loggregator.Lib.Bytes
import Loggregator.Lib.Dict
import Loggregator.Lib.Transition

/-!
# The gauges of metron's connections

`metron/internal/clientpool/v1/pusher_fetcher.go` and `v2/sender_fetcher.go` with
`healthendpoint/registrar.go` and the gauges that `startHealthEndpoint` of `metron/main.go`
registers. `Fetch` dials a doppler and opens a stream on the connection. It raises one gauge after
the first and another after the second, and the closer that it returns lowers both.

If the stream cannot be opened, `Fetch` closes the connection and leaves the gauge of connections
as it is, and there is no closer to lower it. So that gauge is ahead by the number of fetches that
failed there.
-/

namespace Loggregator.Metron.Fetchers

open Lib

/-! ## The registrar -/

/-- `healthendpoint.Registrar`. The fetchers add and subtract ones only, and so the value of a
gauge is a whole number. -/
structure Registrar where
  gauges : Dict GoString Int

namespace Registrar

/-- `Inc` and `Dec`; the error is the text of the panic. -/
def add (method : GoString) (n : Int) (h : Registrar) (name : GoString) :
    Except GoString Registrar :=
  match h.gauges.lookup name with
  | some g => .ok ⟨h.gauges.insert name (g + n)⟩
  | none => .error (method ++ str " called for unknown health metric: " ++ name)

def inc : Registrar → GoString → Except GoString Registrar := add (str "Inc") 1

def dec : Registrar → GoString → Except GoString Registrar := add (str "Dec") (-1)

def Registered (h : Registrar) (name : GoString) : Prop := (h.gauges.lookup name).isSome

instance (h : Registrar) (name : GoString) : Decidable (h.Registered name) :=
  inferInstanceAs (Decidable (_ = _))

/-- What a gauge shows. -/
def value (h : Registrar) (name : GoString) : Int := (h.gauges.lookup name).getD 0

/-- A gauge that is registered is changed and no other, and no gauge is lost. -/
theorem add_spec {h : Registrar} {name : GoString} (hname : h.Registered name)
    (method : GoString) (n : Int) :
    ∃ h', h.add method n name = .ok h' ∧
      (∀ x, h.Registered x → h'.Registered x) ∧
      ∀ x, h'.value x = h.value x + if x = name then n else 0 := by
  obtain ⟨g, hg⟩ := Option.isSome_iff_exists.mp hname
  refine ⟨⟨h.gauges.insert name (g + n)⟩, ?_, ?_, ?_⟩
  · rw [add, hg]
  · intro x hx
    rw [Registered, Dict.lookup_insert_ite]
    split
    · rfl
    · exact hx
  · intro x
    rw [value, value, Dict.lookup_insert_ite]
    split
    · next heq =>
      rw [heq, hg]
      rfl
    · rw [Int.add_zero]

end Registrar

/-! ## Fetch and Close -/

/-- The two clients. -/
inductive Version where
  | v1
  | v2
  deriving DecidableEq

/-- The gauge of all connections. -/
def connections : GoString := str "dopplerConnections"

/-- The gauge of the streams of a client. -/
def Version.streams : Version → GoString
  | .v1 => str "dopplerV1Streams"
  | .v2 => str "dopplerV2Streams"

/-- A connection that was dialed: before a stream is opened on it, with its stream, and after
`Close`, which ends the stream too. -/
inductive Phase where
  | dialed
  | streaming
  | closed
  deriving DecidableEq

structure Conn where
  version : Version
  phase : Phase
  deriving DecidableEq

def Conn.isOpen (c : Conn) : Bool := c.phase != .closed

/-- The connection has an open stream of a client. -/
def Conn.hasStream (v : Version) (c : Conn) : Bool := c.phase == .streaming && c.version == v

/-- The registrar, and the connections in the order in which they were dialed. -/
structure State where
  health : Registrar
  conns : List Conn := []

/-- `grpc.Dial` succeeds. -/
def State.dialed (st : State) (v : Version) : State :=
  { st with conns := st.conns ++ [⟨v, .dialed⟩] }

/-- A connection goes on to another phase. -/
def State.goto (st : State) (v : Version) (conn : Nat) (phase : Phase) : State :=
  { st with conns := st.conns.set conn ⟨v, phase⟩ }

/-- The errors of `Fetch`. -/
def dialError (addr err : GoString) : GoString :=
  str "error dialing ingestor stream to " ++ addr ++ str ": " ++ err

def streamError (addr err : GoString) : GoString :=
  str "error establishing ingestor stream to " ++ addr ++ str ": " ++ err

/-- `Fetch` with the outcomes of `grpc.Dial` and of the call that opens the stream. The result is
an error or the closer, which is known by its connection. -/
def fetch (v : Version) (st : State) (addr : GoString) (dial stream : Except GoString Unit) :
    Except GoString (Except GoString Nat × State) :=
  match dial with
  | .error err => .ok (.error (dialError addr err), st)
  | .ok () => do
    let conn := st.conns.length
    let st := st.dialed v
    let health ← st.health.inc connections
    match stream with
    | .error err =>
      -- `conn.Close()`, and no `Dec`
      .ok (.error (streamError addr err), { st with health := health }.goto v conn .closed)
    | .ok () => do
      let health ← health.inc v.streams
      .ok (.ok conn, { st with health := health }.goto v conn .streaming)

/-- `Close` of a `decrementingCloser`, with what `Close` of its connection returns. -/
def close (v : Version) (st : State) (conn : Nat) (err : Option GoString) :
    Except GoString (Option GoString × State) := do
  let health ← st.health.dec connections
  let health ← health.dec v.streams
  .ok (err, { st with health := health }.goto v conn .closed)

/-- `PusherFetcher.Fetch`. -/
def PusherFetcher.fetch := Fetchers.fetch .v1

/-- `decrementingCloser.Close` of the v1 client. -/
def PusherFetcher.close := Fetchers.close .v1

/-- `SenderFetcher.Fetch`. -/
def SenderFetcher.fetch := Fetchers.fetch .v2

/-- `decrementingCloser.Close` of the v2 client. -/
def SenderFetcher.close := Fetchers.close .v2

/-- A call of `Fetch` with its outcomes, or of `Close` on the closer for a connection. -/
inductive Action where
  | fetch (v : Version) (addr : GoString) (dial stream : Except GoString Unit)
  | close (conn : Nat) (err : Option GoString)

def State.fetch (st : State) : Version → GoString → Except GoString Unit → Except GoString Unit →
    Except GoString (Except GoString Nat × State)
  | .v1 => PusherFetcher.fetch st
  | .v2 => SenderFetcher.fetch st

def State.close (st : State) : Version → Nat → Option GoString →
    Except GoString (Option GoString × State)
  | .v1 => PusherFetcher.close st
  | .v2 => SenderFetcher.close st

/-- One call. A closer is there from the time the stream was opened, and it is closed at most
once. -/
def step (st : State) : Action → Option State
  | .fetch v addr dial stream => (st.fetch v addr dial stream).toOption.map Prod.snd
  | .close conn err =>
    match st.conns[conn]? with
    | some ⟨v, .streaming⟩ => (st.close v conn err).toOption.map Prod.snd
    | _ => none

/-- The gauges that `startHealthEndpoint` registers. -/
def initial : State where
  health := ⟨((∅ : Dict GoString Int).insert connections 0).insert Version.v1.streams 0
    |>.insert Version.v2.streams 0⟩

/-! ## What the gauges show -/

/-- The connections that were dialed and not yet closed. -/
def State.openConns (st : State) : Nat := st.conns.countP Conn.isOpen

/-- The streams of a client that were opened and not yet closed. -/
def State.openStreams (st : State) (v : Version) : Nat := st.conns.countP (Conn.hasStream v)

/-- The gauges show what is open. -/
def State.Truthful (st : State) : Prop :=
  st.health.value connections = st.openConns ∧
    ∀ v : Version, st.health.value v.streams = st.openStreams v

/-- The connection was dialed and the stream could not be opened. -/
def Action.streamFails : Action → Bool
  | .fetch _ _ (.ok _) (.error _) => true
  | .fetch _ _ (.ok _) (.ok _) | .fetch _ _ (.error _) _ | .close _ _ => false

/-- The gauge of connections is ahead by `failures`, and those of streams are right. -/
structure Balanced (failures : Nat) (st : State) : Prop where
  registered : st.health.Registered connections ∧ ∀ v : Version, st.health.Registered v.streams
  connections : st.health.value connections = st.openConns + failures
  streams : ∀ v : Version, st.health.value v.streams = st.openStreams v

theorem balanced_initial : Balanced 0 initial := by
  refine ⟨⟨?_, ?_⟩, ?_, ?_⟩
  · decide
  · intro v
    cases v <;> decide
  · decide
  · intro v
    cases v <;> decide

theorem streams_ne_connections (v : Version) : v.streams ≠ connections := by
  cases v <;> decide

theorem streams_inj {v w : Version} : v.streams = w.streams ↔ v = w := by
  cases v <;> cases w <;> decide

/-! ## One call -/

section Fetch

variable {v : Version} {st : State} {addr : GoString} {h₁ h₂ : Registrar}

theorem goto_dialed (phase : Phase) :
    { st.dialed v with health := h₁ }.goto v st.conns.length phase =
      ⟨h₁, st.conns ++ [⟨v, phase⟩]⟩ := by
  simp [State.dialed, State.goto]

theorem fetch_streamFails (hconns : st.health.inc connections = .ok h₁) (err : GoString) :
    fetch v st addr (.ok ()) (.error err) =
      .ok (.error (streamError addr err), ⟨h₁, st.conns ++ [⟨v, .closed⟩]⟩) := by
  rw [← goto_dialed]
  simp only [fetch, State.dialed, hconns]
  rfl

theorem fetch_opens (hconns : st.health.inc connections = .ok h₁)
    (hstreams : h₁.inc v.streams = .ok h₂) :
    fetch v st addr (.ok ()) (.ok ()) =
      .ok (.ok st.conns.length, ⟨h₂, st.conns ++ [⟨v, .streaming⟩]⟩) := by
  rw [← goto_dialed]
  simp only [fetch, State.dialed, hconns]
  show (do let health ← h₁.inc v.streams; _) = _
  rw [hstreams]
  rfl

end Fetch

/-- A fetch always returns, and the gauge of connections gets ahead if the stream fails. -/
theorem fetch_spec {n : Nat} {st : State} (h : Balanced n st) (v : Version) (addr : GoString)
    (dial stream : Except GoString Unit) :
    ∃ r st', fetch v st addr dial stream = .ok (r, st') ∧
      Balanced (n + (Action.fetch v addr dial stream).streamFails.toNat) st' := by
  cases dial with
  | error err => exact ⟨_, st, rfl, h⟩
  | ok =>
    obtain ⟨⟨hconns, hstreams⟩, hopen, hstreaming⟩ := h
    obtain ⟨h₁, hinc, hkept, hvalue⟩ := Registrar.add_spec hconns (str "Inc") 1
    cases stream with
    | error err =>
      refine ⟨_, _, fetch_streamFails hinc err, ⟨hkept _ hconns, fun w => hkept _ (hstreams w)⟩,
        ?_, fun w => ?_⟩
      · simp only [hvalue, hopen, State.openConns]
        simp [Conn.isOpen, Action.streamFails]
        omega
      · simp only [hvalue, if_neg (streams_ne_connections w), hstreaming, State.openStreams]
        simp [Conn.hasStream]
    | ok =>
      obtain ⟨h₂, hinc', hkept', hvalue'⟩ := Registrar.add_spec (hkept _ (hstreams v)) (str "Inc") 1
      refine ⟨_, _, fetch_opens hinc hinc',
        ⟨hkept' _ (hkept _ hconns), fun w => hkept' _ (hkept _ (hstreams w))⟩, ?_, fun w => ?_⟩
      · simp only [hvalue', hvalue, if_neg (streams_ne_connections v).symm, hopen, State.openConns]
        simp [Conn.isOpen, Action.streamFails]
        omega
      · simp only [hvalue', hvalue, if_neg (streams_ne_connections w), hstreaming, streams_inj,
          State.openStreams]
        by_cases hw : w = v
        · simp [Conn.hasStream, hw]
        · simp [Conn.hasStream, hw, Ne.symm hw]

/-- A closer that has not been closed lowers both gauges. -/
theorem close_spec {n : Nat} {st : State} (h : Balanced n st) {v : Version} {conn : Nat}
    (hconn : st.conns[conn]? = some ⟨v, .streaming⟩) (err : Option GoString) :
    ∃ st', close v st conn err = .ok (err, st') ∧ Balanced n st' := by
  obtain ⟨⟨hconns, hstreams⟩, hopen, hstreaming⟩ := h
  obtain ⟨h₁, hdec, hkept, hvalue⟩ := Registrar.add_spec hconns (str "Dec") (-1)
  obtain ⟨h₂, hdec', hkept', hvalue'⟩ := Registrar.add_spec (hkept _ (hstreams v)) (str "Dec") (-1)
  refine ⟨{ st with health := h₂ }.goto v conn .closed, ?_,
    ⟨hkept' _ (hkept _ hconns), fun w => hkept' _ (hkept _ (hstreams w))⟩, ?_, fun w => ?_⟩
  · simp only [close, Registrar.dec, hdec]
    show (do let health ← h₁.add (str "Dec") (-1) v.streams; _) = _
    rw [hdec']
    rfl
  · have hcount : st.conns.countP Conn.isOpen =
        (st.conns.set conn ⟨v, .closed⟩).countP Conn.isOpen + 1 :=
      (countP_set_add (p := Conn.isOpen) ⟨v, .closed⟩ hconn).symm
    simp only [State.goto, State.openConns, hvalue', hvalue, hopen, hcount,
      if_neg (streams_ne_connections v).symm]
    simp
    omega
  · have hcount : st.conns.countP (Conn.hasStream w) =
        (st.conns.set conn ⟨v, .closed⟩).countP (Conn.hasStream w) + (v == w).toNat :=
      (countP_set_add (p := Conn.hasStream w) ⟨v, .closed⟩ hconn).symm
    simp only [State.goto, State.openStreams, hvalue', hvalue, hstreaming, hcount, streams_inj,
      if_neg (streams_ne_connections w)]
    by_cases hw : w = v
    · simp [hw]
    · simp [hw, Ne.symm hw]

theorem State.fetch_eq (st : State) (v : Version) : st.fetch v = Fetchers.fetch v st := by
  cases v <;> rfl

theorem State.close_eq (st : State) (v : Version) : st.close v = Fetchers.close v st := by
  cases v <;> rfl

theorem Balanced.of_step {n : Nat} {st st' : State} {a : Action} (h : Balanced n st)
    (hstep : step st a = some st') : Balanced (n + a.streamFails.toNat) st' := by
  cases a with
  | fetch v addr dial stream =>
    obtain ⟨r, st₁, hfetch, hbalanced⟩ := fetch_spec h v addr dial stream
    rw [step, State.fetch_eq, hfetch] at hstep
    cases hstep
    exact hbalanced
  | close conn err =>
    rw [step] at hstep
    split at hstep
    · next v hconn =>
      obtain ⟨st₁, hclose, hbalanced⟩ := close_spec h hconn err
      rw [State.close_eq, hclose] at hstep
      cases hstep
      exact hbalanced
    · cases hstep

/-- A call of `Fetch` is possible at any time, and `Close` on a closer that is not closed. -/
theorem Balanced.step_isSome {n : Nat} {st : State} (h : Balanced n st) :
    (∀ v addr dial stream, (step st (.fetch v addr dial stream)).isSome) ∧
    ∀ conn err v, st.conns[conn]? = some ⟨v, .streaming⟩ → (step st (.close conn err)).isSome := by
  constructor
  · intro v addr dial stream
    obtain ⟨r, st₁, hfetch, -⟩ := fetch_spec h v addr dial stream
    rw [step, State.fetch_eq, hfetch]
    rfl
  · intro conn err v hconn
    obtain ⟨st₁, hclose, -⟩ := close_spec h hconn err
    simp only [step, hconn, State.close_eq, hclose]
    rfl

/-! ## Histories -/

theorem balanced_of_run {as : List Action} {st : State} (h : run step initial as = some st) :
    Balanced (as.countP Action.streamFails) st := by
  refine run_invariant (P := fun as st => Balanced (as.countP Action.streamFails) st)
    balanced_initial ?_ h
  intro as s a s' _ hs hstep
  have hnext := hs.of_step hstep
  rw [List.countP_append, List.countP_singleton]
  cases ha : a.streamFails <;> simpa [ha] using hnext

/-- For every history of `Fetch` on both fetchers, with any outcome of dialing and of opening the
stream, and of `Close` on their closers, each at most once: no call panics, the gauges of streams
show the open streams, and that of connections shows the open connections and one for each fetch
that failed to open its stream. So the gauges are right exactly if there was none. -/
theorem gauges_truthful_iff {as : List Action} {st : State} (h : run step initial as = some st) :
    (st.Truthful ↔ ∀ a ∈ as, a.streamFails = false) ∧
    st.health.value connections = st.openConns + as.countP Action.streamFails ∧
    (∀ v : Version, st.health.value v.streams = st.openStreams v) ∧
    (∀ v addr dial stream, (step st (.fetch v addr dial stream)).isSome) ∧
    ∀ conn err v, st.conns[conn]? = some ⟨v, .streaming⟩ →
      (step st (.close conn err)).isSome := by
  have hbalanced := balanced_of_run h
  refine ⟨?_, hbalanced.connections, hbalanced.streams, hbalanced.step_isSome⟩
  have hzero : (∀ a ∈ as, a.streamFails = false) ↔ as.countP Action.streamFails = 0 := by
    simp [List.countP_eq_zero]
  rw [State.Truthful, hbalanced.connections, hzero]
  constructor
  · rintro ⟨hconns, -⟩
    omega
  · intro hnone
    rw [hnone]
    exact ⟨Int.add_zero _, hbalanced.streams⟩

/-- Fetches of both clients, one of which cannot dial, and a `Close`. -/
def fetchesAndClose : List Action :=
  [.fetch .v1 (str "a:1") (.ok ()) (.ok ()), .fetch .v2 (str "a:1") (.ok ()) (.ok ()),
    .fetch .v1 (str "b:1") (.error (str "timeout")) (.ok ()), .close 0 none]

theorem gauges_truthful_fetchesAndClose :
    ∃ st, run step initial fetchesAndClose = some st ∧ st.openConns = 1 ∧ st.Truthful := by
  have hrun : (run step initial fetchesAndClose).map State.openConns = some 1 := by decide
  obtain ⟨st, hst, hopen⟩ := Option.map_eq_some_iff.mp hrun
  refine ⟨st, hst, hopen, (gauges_truthful_iff hst).1.mpr ?_⟩
  simp [fetchesAndClose, Action.streamFails]

/-- A fetch that dials and fails to open its stream leaves nothing open and the gauge at one. -/
theorem gauges_not_truthful :
    ∃ st, run step initial [.fetch .v1 (str "a:1") (.ok ()) (.error (str "eof"))] = some st ∧
      st.openConns = 0 ∧ st.health.value connections = 1 ∧ ¬ st.Truthful := by
  have hrun : (run step initial [.fetch .v1 (str "a:1") (.ok ()) (.error (str "eof"))]).map
      (fun st => (st.openConns, st.health.value connections)) = some (0, 1) := by decide
  obtain ⟨st, hst, hfinal⟩ := Option.map_eq_some_iff.mp hrun
  obtain ⟨hopen, hvalue⟩ := Prod.mk.inj hfinal
  refine ⟨st, hst, hopen, hvalue, ?_⟩
  intro htrue
  have hconns := htrue.1
  rw [hopen, hvalue] at hconns
  cases hconns

end Loggregator.Metron.Fetchers
