import Loggregator.Lib.Bytes
import Loggregator.Lib.Handoff
import Loggregator.Lib.Transition
import Loggregator.MetricEmitter.Counter

/-!
# The streams of the traffic controller

`StreamHandler.ServeHTTP` and `FirehoseHandler.ServeHTTP`, which subscribe to the dopplers, with
`serveWS` and the websocket handler below them. A goroutine of `serveWS` takes messages from the
subscription and hands them over an unbuffered channel; the handler writes them to the websocket
until the client goes away, its keep-alive expires, a write fails or the channel is closed. A
message that the handler does not take within five seconds ends the goroutine, and the client is
counted as a slow consumer.

Time is left open: a timer may fire whenever its select is waiting. Any number of connections run
at the same time and share the counters, which a goroutine of the metric client sends and sets
back.
-/

namespace Loggregator.TrafficController.WebsocketStream

open Lib

/-- The handler a connection belongs to. -/
inductive Endpoint where
  | firehose
  | stream
  deriving DecidableEq

/-- Why a handler returns. -/
inductive Exit where
  | unavailable
  | notWebsocket
  | clientWentAway
  | keepAliveExpired
  | sourceEnded
  | writeFailed
  deriving DecidableEq

/-- The code and the message of the close frame: what `runWebsocketUntilClosed` returns. Without a
websocket there is none. -/
def Exit.closeFrame : Exit → Option (Nat × GoString)
  | .unavailable | .notWebsocket => none
  | .clientWentAway | .sourceEnded | .writeFailed => some (1000, [])
  | .keepAliveExpired =>
    some (1008, str "Client did not respond to ping before keep-alive timeout expired.")

/-- Where a handler is; `leave` is before its deferred functions. -/
inductive Handler where
  | subscribe
  | upgrade
  | select
  | write (message : GoString)
  | count
  | leave (exit : Exit)
  | returned (exit : Exit)
  deriving DecidableEq

/-- Where the goroutine of `serveWS` is. -/
inductive Producer where
  | notStarted
  | receive
  | offer (message : GoString)
  | slow
  | close
  | ended
  deriving DecidableEq

/-- A connection. The code does not have the last seven fields: whether `Subscribe` and `Upgrade`
have returned an error, the messages that `recv` returned, those the handler took, those it wrote,
the one it could not write and the one it did not take. -/
structure Conn where
  endpoint : Endpoint
  handler : Handler := .subscribe
  producer : Producer := .notStarted
  wentAway : Bool := false
  expired : Bool := false
  subscribeErr : Bool := false
  upgradeErr : Bool := false
  received : List GoString := []
  handed : List GoString := []
  written : List GoString := []
  failed : List GoString := []
  lost : List GoString := []

/-- The steps of a connection. -/
inductive ConnAction where
  | subscribe (ok : Bool)
  | upgrade (ok : Bool)
  | receive (resp : Option GoString)
  | receiveErr
  | handOver
  | timeout
  | countSlow
  | close
  | readErr
  | keepAliveEnds
  | seeWentAway
  | seeExpired
  | seeClosed
  | write (ok : Bool)
  | count
  | leave
  deriving DecidableEq

/-- `serveWS` has started the keep-alive and the reader of the websocket. -/
def Handler.upgraded : Handler → Bool
  | .subscribe | .upgrade => false
  | .leave exit | .returned exit => exit.closeFrame.isSome
  | _ => true

namespace Conn

/-- The effect of a step. -/
def step (c : Conn) : ConnAction → Option Conn
  | .subscribe ok =>
    match c.handler with
    | .subscribe =>
      if ok then some { c with handler := .upgrade, producer := .receive }
      else some { c with handler := .leave .unavailable, subscribeErr := true }
    | _ => none
  | .upgrade ok =>
    match c.handler with
    | .upgrade =>
      if ok then some { c with handler := .select }
      else some { c with handler := .leave .notWebsocket, upgradeErr := true }
    | _ => none
  | .receive resp =>
    match c.producer, resp with
    | .receive, none => some c
    | .receive, some m => some { c with producer := .offer m, received := c.received ++ [m] }
    | _, _ => none
  | .receiveErr =>
    match c.producer with
    | .receive => some { c with producer := .close }
    | _ => none
  | .handOver =>
    match c.producer, c.handler with
    | .offer m, .select =>
      some { c with producer := .receive, handler := .write m, handed := c.handed ++ [m] }
    | _, _ => none
  | .timeout =>
    match c.producer with
    | .offer m => some { c with producer := .slow, lost := [m] }
    | _ => none
  | .countSlow =>
    match c.producer with
    | .slow => some { c with producer := .close }
    | _ => none
  | .close =>
    match c.producer with
    | .close => some { c with producer := .ended }
    | _ => none
  | .readErr => if c.handler.upgraded then some { c with wentAway := true } else none
  | .keepAliveEnds => if c.handler.upgraded then some { c with expired := true } else none
  | .seeWentAway =>
    match c.handler with
    | .select => if c.wentAway then some { c with handler := .leave .clientWentAway } else none
    | _ => none
  | .seeExpired =>
    match c.handler with
    | .select => if c.expired then some { c with handler := .leave .keepAliveExpired } else none
    | _ => none
  | .seeClosed =>
    match c.handler, c.producer with
    | .select, .ended => some { c with handler := .leave .sourceEnded }
    | _, _ => none
  | .write ok =>
    match c.handler with
    | .write m =>
      if ok then some { c with handler := .count, written := c.written ++ [m] }
      else some { c with handler := .leave .writeFailed, failed := [m] }
    | _ => none
  | .count =>
    match c.handler with
    | .count => some { c with handler := .select }
    | _ => none
  | .leave =>
    match c.handler with
    | .leave exit => some { c with handler := .returned exit }
    | _ => none

end Conn

/-- The two handlers and the websocket server, with the connections. Each handler has a counter of
its messages and the number of its open connections. -/
structure State where
  conns : List Conn := []
  egressMetric : Endpoint → MetricEmitter.State := fun _ => {}
  counter : Endpoint → Int64 := fun _ => 0
  slowConsumerMetric : MetricEmitter.State := {}

/-- The counters that the constructors make. -/
structure Counters where
  egress : Endpoint → MetricEmitter.Counter
  slowConsumer : MetricEmitter.Counter

inductive Action where
  | connect (endpoint : Endpoint)
  | emitEgress (endpoint : Endpoint) (a : MetricEmitter.Action)
  | emitSlowConsumer (a : MetricEmitter.Action)
  | conn (i : Nat) (a : ConnAction)
  deriving DecidableEq

/-- What a step counts besides its effect on the connection. -/
def State.update (st : State) (i : Nat) (c : Conn) (a : ConnAction) : State :=
  { conns := st.conns.set i c
    egressMetric := fun e => (st.egressMetric e).count (a = .count ∧ c.endpoint = e)
    counter := fun e => if a = .leave ∧ c.endpoint = e then st.counter e - 1 else st.counter e
    slowConsumerMetric := st.slowConsumerMetric.count (a = .countSlow) }

/-- A step of the traffic controller. -/
def step (counters : Counters) (st : State) : Action → Option State
  | .connect endpoint => some { st with
      conns := st.conns ++ [{ endpoint := endpoint }]
      counter := fun e => if endpoint = e then st.counter e + 1 else st.counter e }
  | .emitEgress endpoint a =>
    (MetricEmitter.emit (counters.egress endpoint) (st.egressMetric endpoint) a).map
      (fun metric => { st with egressMetric := Function.update st.egressMetric endpoint metric })
  | .emitSlowConsumer a =>
    (MetricEmitter.emit counters.slowConsumer st.slowConsumerMetric a).map
      (fun metric => { st with slowConsumerMetric := metric })
  | .conn i a =>
    match st.conns[i]? with
    | none => none
    | some c => (c.step a).map (fun c' => st.update i c' a)

/-! ## One connection -/

/-- What a step does to its connection, with the place it is taken at. -/
inductive Conn.Moves (c : Conn) : ConnAction → Conn → Prop where
  | unavailable (hhandler : c.handler = .subscribe) :
      Moves c (.subscribe false) { c with handler := .leave .unavailable, subscribeErr := true }
  | subscribe (hhandler : c.handler = .subscribe) :
      Moves c (.subscribe true) { c with handler := .upgrade, producer := .receive }
  | notWebsocket (hhandler : c.handler = .upgrade) :
      Moves c (.upgrade false) { c with handler := .leave .notWebsocket, upgradeErr := true }
  | upgrade (hhandler : c.handler = .upgrade) :
      Moves c (.upgrade true) { c with handler := .select }
  | receiveNil (hproducer : c.producer = .receive) : Moves c (.receive none) c
  | receive (hproducer : c.producer = .receive) (m : GoString) :
      Moves c (.receive (some m))
        { c with producer := .offer m, received := c.received ++ [m] }
  | receiveErr (hproducer : c.producer = .receive) :
      Moves c .receiveErr { c with producer := .close }
  | handOver {m : GoString} (hproducer : c.producer = .offer m) (hhandler : c.handler = .select) :
      Moves c .handOver
        { c with producer := .receive, handler := .write m, handed := c.handed ++ [m] }
  | timeout {m : GoString} (hproducer : c.producer = .offer m) :
      Moves c .timeout { c with producer := .slow, lost := [m] }
  | countSlow (hproducer : c.producer = .slow) : Moves c .countSlow { c with producer := .close }
  | close (hproducer : c.producer = .close) : Moves c .close { c with producer := .ended }
  | readErr : Moves c .readErr { c with wentAway := true }
  | keepAliveEnds : Moves c .keepAliveEnds { c with expired := true }
  | seeWentAway (hhandler : c.handler = .select) (haway : c.wentAway = true) :
      Moves c .seeWentAway { c with handler := .leave .clientWentAway }
  | seeExpired (hhandler : c.handler = .select) (hexpired : c.expired = true) :
      Moves c .seeExpired { c with handler := .leave .keepAliveExpired }
  | seeClosed (hhandler : c.handler = .select) (hproducer : c.producer = .ended) :
      Moves c .seeClosed { c with handler := .leave .sourceEnded }
  | write {m : GoString} (hhandler : c.handler = .write m) :
      Moves c (.write true) { c with handler := .count, written := c.written ++ [m] }
  | writeFails {m : GoString} (hhandler : c.handler = .write m) :
      Moves c (.write false) { c with handler := .leave .writeFailed, failed := [m] }
  | count (hhandler : c.handler = .count) : Moves c .count { c with handler := .select }
  | leave {exit : Exit} (hhandler : c.handler = .leave exit) :
      Moves c .leave { c with handler := .returned exit }

theorem Conn.moves_of_step {c c' : Conn} {a : ConnAction} (hstep : c.step a = some c') :
    c.Moves a c' := by
  cases a with
  | subscribe ok | upgrade ok | write ok =>
    simp only [Conn.step] at hstep
    split at hstep
    · next hhandler =>
      cases ok with
      | false | true =>
        cases hstep
        constructor
        exact hhandler
    · cases hstep
  | receive resp =>
    simp only [Conn.step] at hstep
    split at hstep
    · next hproducer =>
      cases hstep
      exact .receiveNil hproducer
    · next m hproducer =>
      cases hstep
      exact .receive hproducer m
    · cases hstep
  | handOver | seeClosed =>
    simp only [Conn.step] at hstep
    split at hstep
    · next hfirst hsecond =>
      cases hstep
      constructor <;> assumption
    · cases hstep
  | readErr | keepAliveEnds =>
    simp only [Conn.step] at hstep
    split at hstep <;> cases hstep
    constructor
  | seeWentAway | seeExpired =>
    simp only [Conn.step] at hstep
    split at hstep
    · next hhandler =>
      split at hstep
      · next hseen =>
        cases hstep
        constructor <;> assumption
      · cases hstep
    · cases hstep
  | receiveErr | timeout | countSlow | close | count | leave =>
    simp only [Conn.step] at hstep
    split at hstep
    · next hplace =>
      cases hstep
      constructor
      exact hplace
    · cases hstep

/-- The message the goroutine holds. -/
def Producer.holding : Producer → List GoString
  | .offer m => [m]
  | _ => []

/-- The message the handler is writing. -/
def Handler.writing : Handler → List GoString
  | .write m => [m]
  | _ => []

/-- What the handler does after its loop. -/
def Handler.exit : Handler → Option Exit
  | .leave exit | .returned exit => some exit
  | _ => none

/-- The goroutine is past its loop. -/
def Producer.stopped : Producer → Bool
  | .slow | .close | .ended => true
  | _ => false

/-- What has happened when a handler leaves for this reason. -/
def Conn.Reason (c : Conn) : Exit → Prop
  | .unavailable => c.subscribeErr = true
  | .notWebsocket => c.upgradeErr = true
  | .clientWentAway => c.wentAway = true
  | .keepAliveExpired => c.expired = true
  | .sourceEnded => c.producer = .ended
  | .writeFailed => c.failed ≠ []

/-- The goroutine goes on, and the channel was not closed before. -/
theorem Conn.Reason.producer {c : Conn} {e : Exit} (h : c.Reason e) (hended : c.producer ≠ .ended)
    (p : Producer) (received lost : List GoString) :
    { c with producer := p, received := received, lost := lost }.Reason e := by
  cases e with
  | sourceEnded => exact absurd h hended
  | _ => exact h

/-- What holds of a connection at every moment. -/
structure Conn.Sound (c : Conn) : Prop where
  received : c.received = c.handed ++ c.producer.holding ++ c.lost
  handed : c.handed = c.written ++ c.handler.writing ++ c.failed
  /-- A message is lost only where the goroutine stops, and it is one message. -/
  lost : c.lost ≠ [] → c.producer.stopped = true ∧ c.lost.length = 1
  failed : c.failed ≠ [] → c.handler.exit = some .writeFailed ∧ c.failed.length = 1
  reason : ∀ e, c.handler.exit = some e → c.Reason e
  subscribing : c.handler = .subscribe → c.producer = .notStarted

namespace Conn.Sound

variable {c c' : Conn} {a : ConnAction}

theorem start (endpoint : Endpoint) : ({ endpoint := endpoint } : Conn).Sound := by
  constructor <;> simp [Producer.holding, Handler.writing, Handler.exit]

theorem lost_eq_nil (h : c.Sound) (hloops : c.producer.stopped = false) : c.lost = [] := by
  by_contra hne
  rw [(h.lost hne).1] at hloops
  cases hloops

theorem failed_eq_nil (h : c.Sound) (hexit : c.handler.exit = none) : c.failed = [] := by
  by_contra hne
  rw [(h.failed hne).1] at hexit
  cases hexit

theorem writing_eq_nil (_ : c.Sound) (hexit : c.handler.exit.isSome) : c.handler.writing = [] := by
  cases hhandler : c.handler with
  | write m =>
    rw [hhandler] at hexit
    cases hexit
  | _ => rfl

variable (h : c.Sound)
include h

theorem handler_ne_subscribe (hstarted : c.producer ≠ .notStarted) :
    c.handler ≠ .subscribe := fun hsub => hstarted (h.subscribing hsub)

/-- The goroutine goes to another place. -/
theorem setProducer {p : Producer} {received lost : List GoString}
    (hstarted : c.producer ≠ .notStarted) (hended : c.producer ≠ .ended)
    (hreceived : received = c.handed ++ p.holding ++ lost)
    (hlost : lost ≠ [] → p.stopped = true ∧ lost.length = 1) :
    { c with producer := p, received := received, lost := lost }.Sound :=
  { h with
    received := hreceived
    lost := hlost
    reason := fun e he => (h.reason e he).producer hended p received lost
    subscribing := fun hsub => absurd hsub (h.handler_ne_subscribe hstarted) }

/-- The handler goes to another place of its loop. -/
theorem setHandler {p : Handler} (hexit : c.handler.exit = none)
    (hwriting : p.writing = c.handler.writing) (hexit' : p.exit = none) (hsub : p ≠ .subscribe) :
    { c with handler := p }.Sound :=
  { h with
    handed := by rw [hwriting, ← h.handed]
    failed := fun hne => absurd (h.failed_eq_nil hexit) hne
    reason := fun e he => absurd (hexit'.symm.trans he) nofun
    subscribing := fun he => absurd he hsub }

/-- The handler leaves its loop, for a reason that holds. -/
theorem leaves {e : Exit} (hexit : c.handler.exit = none) (hwriting : c.handler.writing = [])
    (hreason : c.Reason e) :
    { c with handler := .leave e }.Sound := by
  have hhanded := h.handed
  rw [hwriting] at hhanded
  exact { h with
    handed := hhanded
    failed := fun hne => absurd (h.failed_eq_nil hexit) hne
    reason := by
      rintro e' ⟨⟩
      cases e <;> exact hreason
    subscribing := nofun }

theorem receive (hproducer : c.producer = .receive) (m : GoString) :
    { c with producer := .offer m, received := c.received ++ [m] }.Sound := by
  have hlost := h.lost_eq_nil (by rw [hproducer]; rfl)
  exact h.setProducer (by rw [hproducer]; nofun) (by rw [hproducer]; nofun)
    (by rw [h.received, hproducer, hlost]; simp [Producer.holding]) (fun hne => absurd hlost hne)

/-- The two sides meet. -/
theorem handOver {m : GoString} (hproducer : c.producer = .offer m)
    (hhandler : c.handler = .select) :
    { c with producer := .receive, handler := .write m, handed := c.handed ++ [m] }.Sound := by
  have hlost := h.lost_eq_nil (by rw [hproducer]; rfl)
  have hfailed := h.failed_eq_nil (by rw [hhandler]; rfl)
  have hreceived := h.received
  have hhanded := h.handed
  rw [hproducer, hlost, List.append_nil] at hreceived
  rw [hhandler, hfailed, List.append_nil] at hhanded
  exact { h with
    received := by
      rw [hreceived, hlost]
      simp [Producer.holding]
    handed := by
      rw [hhanded, hfailed]
      simp [Handler.writing]
    lost := fun hne => absurd hlost hne
    failed := fun hne => absurd hfailed hne
    reason := nofun
    subscribing := nofun }

theorem timeout {m : GoString} (hproducer : c.producer = .offer m) :
    { c with producer := .slow, lost := [m] }.Sound := by
  have hlost := h.lost_eq_nil (by rw [hproducer]; rfl)
  exact h.setProducer (by rw [hproducer]; nofun) (by rw [hproducer]; nofun)
    (by rw [h.received, hproducer, hlost]; simp [Producer.holding]) (fun _ => ⟨rfl, rfl⟩)

theorem write {m : GoString} (hhandler : c.handler = .write m) :
    { c with handler := .count, written := c.written ++ [m] }.Sound := by
  have hfailed := h.failed_eq_nil (by rw [hhandler]; rfl)
  have hhanded := h.handed
  rw [hhandler, hfailed, List.append_nil] at hhanded
  exact { h with
    handed := by
      rw [hhanded, hfailed]
      simp [Handler.writing]
    failed := fun hne => absurd hfailed hne
    reason := nofun
    subscribing := nofun }

theorem writeFails {m : GoString} (hhandler : c.handler = .write m) :
    { c with handler := .leave .writeFailed, failed := [m] }.Sound := by
  have hfailed := h.failed_eq_nil (by rw [hhandler]; rfl)
  have hhanded := h.handed
  rw [hhandler, hfailed, List.append_nil] at hhanded
  exact { h with
    handed := by
      rw [hhanded]
      simp [Handler.writing]
    failed := fun _ => ⟨rfl, rfl⟩
    reason := by
      rintro e ⟨⟩
      exact List.cons_ne_nil _ _
    subscribing := nofun }

theorem returns {e : Exit} (hhandler : c.handler = .leave e) :
    { c with handler := .returned e }.Sound := by
  have hexit : (Handler.returned e).exit = c.handler.exit := by rw [hhandler]; rfl
  have hwriting : (Handler.returned e).writing = c.handler.writing := by rw [hhandler]; rfl
  exact { h with
    handed := by rw [hwriting, ← h.handed]
    failed := fun hne => by rw [hexit]; exact h.failed hne
    reason := by
      rintro e' ⟨⟩
      have hreason := h.reason e (by rw [hhandler]; rfl)
      cases e <;> exact hreason
    subscribing := nofun }

theorem subscribe (hhandler : c.handler = .subscribe) :
    { c with handler := .upgrade, producer := .receive }.Sound := by
  have hnot := h.subscribing hhandler
  have hlost := h.lost_eq_nil (by rw [hnot]; rfl)
  have hreceived := h.received
  have hhanded := h.handed
  rw [hnot] at hreceived
  rw [hhandler] at hhanded
  exact { h with
    received := hreceived
    handed := hhanded
    lost := fun hne => absurd hlost hne
    failed := fun hne => absurd (h.failed_eq_nil (by rw [hhandler]; rfl)) hne
    reason := nofun
    subscribing := nofun }

/-- A flag is set that is a reason to leave. -/
theorem flag (wentAway expired subscribeErr upgradeErr : Bool) :
    { c with
      wentAway := c.wentAway || wentAway
      expired := c.expired || expired
      subscribeErr := c.subscribeErr || subscribeErr
      upgradeErr := c.upgradeErr || upgradeErr }.Sound := by
  refine { h with reason := ?_ }
  intro e he
  have hreason := h.reason e he
  cases e with
  | sourceEnded | writeFailed => exact hreason
  | _ => exact Bool.or_eq_true_iff.mpr (Or.inl hreason)

/-- Every step of a connection keeps it sound. -/
theorem moves (hmoves : c.Moves a c') : c'.Sound := by
  cases hmoves with
  | unavailable hhandler =>
    have hflag := h.flag false false true false
    simp only [Bool.or_false, Bool.or_true] at hflag
    exact hflag.leaves (by rw [hhandler]; rfl) (by rw [hhandler]; rfl) rfl
  | subscribe hhandler => exact h.subscribe hhandler
  | notWebsocket hhandler =>
    have hflag := h.flag false false false true
    simp only [Bool.or_false, Bool.or_true] at hflag
    exact hflag.leaves (by rw [hhandler]; rfl) (by rw [hhandler]; rfl) rfl
  | upgrade hhandler =>
    exact h.setHandler (by rw [hhandler]; rfl) (by rw [hhandler]; rfl) rfl nofun
  | receiveNil => exact h
  | receive hproducer m => exact h.receive hproducer m
  | receiveErr hproducer | countSlow hproducer | close hproducer =>
    exact h.setProducer (by rw [hproducer]; nofun) (by rw [hproducer]; nofun)
      (by rw [h.received, hproducer]; rfl) (fun hne => ⟨rfl, (h.lost hne).2⟩)
  | handOver hproducer hhandler => exact h.handOver hproducer hhandler
  | timeout hproducer => exact h.timeout hproducer
  | readErr => simpa using h.flag true false false false
  | keepAliveEnds => simpa using h.flag false true false false
  | seeWentAway hhandler haway =>
    exact h.leaves (by rw [hhandler]; rfl) (by rw [hhandler]; rfl) haway
  | seeExpired hhandler hexpired =>
    exact h.leaves (by rw [hhandler]; rfl) (by rw [hhandler]; rfl) hexpired
  | seeClosed hhandler hproducer =>
    exact h.leaves (by rw [hhandler]; rfl) (by rw [hhandler]; rfl) hproducer
  | write hhandler => exact h.write hhandler
  | writeFails hhandler => exact h.writeFails hhandler
  | count hhandler =>
    exact h.setHandler (by rw [hhandler]; rfl) (by rw [hhandler]; rfl) rfl nofun
  | leave hhandler => exact h.returns hhandler

end Conn.Sound

/-! ## What is counted -/

/-- The handler has not run its deferred functions. -/
def Conn.open (c : Conn) : Nat :=
  match c.handler with
  | .returned _ => 0
  | _ => 1

/-- The handler has written a message and not counted it. -/
def Conn.writtenUncounted (c : Conn) : Nat :=
  match c.handler with
  | .count => 1
  | _ => 0

/-- The goroutine has given up on a message and not counted the slow consumer. -/
def Conn.slowUncounted (c : Conn) : Nat :=
  match c.producer with
  | .slow => 1
  | _ => 0

/-- What a step of a connection changes of the numbers that are counted. -/
structure Conn.Counts (c : Conn) (a : ConnAction) (c' : Conn) : Prop where
  endpoint : c'.endpoint = c.endpoint
  written : c'.written.length + c.writtenUncounted =
    c.written.length + c'.writtenUncounted + (if a = .count then 1 else 0)
  lost : c'.lost.length + c.slowUncounted =
    c.lost.length + c'.slowUncounted + (if a = .countSlow then 1 else 0)
  isOpen : c.open = c'.open + (if a = .leave then 1 else 0)

/-- The step changes nothing that is counted. -/
theorem Conn.Counts.same {c c' : Conn} {a : ConnAction} (hendpoint : c'.endpoint = c.endpoint)
    (hwritten : c'.written = c.written) (hlost : c'.lost = c.lost)
    (hwrittenUncounted : c'.writtenUncounted = c.writtenUncounted)
    (hslowUncounted : c'.slowUncounted = c.slowUncounted) (hopen : c'.open = c.open)
    (ha : a ≠ .count ∧ a ≠ .countSlow ∧ a ≠ .leave) : c.Counts a c' := by
  refine ⟨hendpoint, ?_, ?_, ?_⟩
  · rw [hwritten, hwrittenUncounted, if_neg ha.1, Nat.add_zero]
  · rw [hlost, hslowUncounted, if_neg ha.2.1, Nat.add_zero]
  · rw [hopen, if_neg ha.2.2, Nat.add_zero]

theorem Conn.Sound.counts {c c' : Conn} {a : ConnAction} (h : c.Sound)
    (hmoves : c.Moves a c') : c.Counts a c' := by
  cases hmoves with
  | unavailable hhandler | notWebsocket hhandler | upgrade hhandler | seeWentAway hhandler
  | seeExpired hhandler | seeClosed hhandler =>
    exact .same rfl rfl rfl (by simp [writtenUncounted, hhandler]) rfl
      (by simp [Conn.open, hhandler]) (by decide)
  | subscribe hhandler =>
    have hnot := h.subscribing hhandler
    exact .same rfl rfl rfl (by simp [writtenUncounted, hhandler]) (by simp [slowUncounted, hnot])
      (by simp [Conn.open, hhandler]) (by decide)
  | receiveNil => exact .same rfl rfl rfl rfl rfl rfl (by decide)
  | receive hproducer m =>
    exact .same rfl rfl rfl rfl (by simp [slowUncounted, hproducer]) rfl ⟨nofun, nofun, nofun⟩
  | receiveErr hproducer | close hproducer =>
    exact .same rfl rfl rfl rfl (by simp [slowUncounted, hproducer]) rfl (by decide)
  | handOver hproducer hhandler =>
    exact .same rfl rfl rfl (by simp [writtenUncounted, hhandler])
      (by simp [slowUncounted, hproducer]) (by simp [Conn.open, hhandler]) (by decide)
  | timeout hproducer =>
    have hlost := h.lost_eq_nil (by rw [hproducer]; rfl)
    exact ⟨rfl, by simp [writtenUncounted], by simp [slowUncounted, hproducer, hlost],
      by simp [Conn.open]⟩
  | countSlow hproducer =>
    exact ⟨rfl, by simp [writtenUncounted], by simp [slowUncounted, hproducer],
      by simp [Conn.open]⟩
  | readErr | keepAliveEnds => exact .same rfl rfl rfl rfl rfl rfl (by decide)
  | write hhandler =>
    exact ⟨rfl, by simp [writtenUncounted, hhandler], by simp [slowUncounted],
      by simp [Conn.open, hhandler]⟩
  | writeFails hhandler =>
    exact .same rfl rfl rfl (by simp [writtenUncounted, hhandler]) rfl
      (by simp [Conn.open, hhandler]) (by decide)
  | count hhandler | leave hhandler =>
    exact ⟨rfl, by simp [writtenUncounted, hhandler], by simp [slowUncounted],
      by simp [Conn.open, hhandler]⟩

/-- A number of the connections of one endpoint. -/
def Conn.at (endpoint : Endpoint) (number : Conn → Nat) (c : Conn) : Nat :=
  if c.endpoint = endpoint then number c else 0

/-- The counters against all connections: what was added to them over the whole run, and that each
increment is in the delta or has been sent. -/
structure State.Counted (st : State) : Prop where
  egress : ∀ endpoint,
    sum64 (st.egressMetric endpoint).increments +
        UInt64.ofNat (st.conns.map (Conn.at endpoint Conn.writtenUncounted)).sum =
      UInt64.ofNat (st.conns.map (Conn.at endpoint (fun c => c.written.length))).sum
  slow : sum64 st.slowConsumerMetric.increments +
      UInt64.ofNat (st.conns.map Conn.slowUncounted).sum =
    UInt64.ofNat (st.conns.map (fun c => c.lost.length)).sum
  count : ∀ endpoint,
    st.counter endpoint = Int64.ofNat (st.conns.map (Conn.at endpoint Conn.open)).sum
  egressConserved : ∀ endpoint, MetricEmitter.Conserved (st.egressMetric endpoint)
  slowConserved : MetricEmitter.Conserved st.slowConsumerMetric

section Server

variable {counters : Counters} {st st' : State}

theorem counted_initial : ({} : State).Counted where
  egress _ := rfl
  slow := rfl
  count _ := rfl
  egressConserved _ := rfl
  slowConserved := rfl

theorem State.Counted.connect (h : st.Counted) (endpoint : Endpoint) :
    { st with
      conns := st.conns ++ [({ endpoint := endpoint } : Conn)]
      counter := fun e => if endpoint = e then st.counter e + 1 else st.counter e }.Counted := by
  refine { h with egress := ?_, slow := ?_, count := ?_ }
  · intro e
    simpa [Conn.at, Conn.writtenUncounted] using h.egress e
  · simpa [Conn.slowUncounted] using h.slow
  · intro e
    by_cases hendpoint : endpoint = e
    · simp [Conn.at, Conn.open, hendpoint, h.count e, Int64.ofNat_add]
    · simp [Conn.at, hendpoint, h.count e]

/-- A step of a connection. -/
theorem State.Counted.conn (h : st.Counted) {i : Nat} {c c' : Conn} {a : ConnAction}
    (hc : st.conns[i]? = some c) (hcounts : c.Counts a c') : (st.update i c' a).Counted := by
  refine ⟨?_, ?_, ?_, fun e => (h.egressConserved e).count _, h.slowConserved.count _⟩
  · intro endpoint
    have hegress := counter_set (p := a = .count ∧ c'.endpoint = endpoint)
      (b := c') hc ((h.egress endpoint).trans (UInt64.zero_add _).symm) ?_
    · rw [State.update, MetricEmitter.sum64_increments_count]
      exact hegress.trans (UInt64.zero_add _)
    · have hwritten := hcounts.written
      simp only [Conn.at, hcounts.endpoint]
      by_cases hendpoint : c.endpoint = endpoint
      · simpa [hendpoint] using hwritten
      · simp [hendpoint]
  · have hslow := counter_set hc (h.slow.trans (UInt64.zero_add _).symm) hcounts.lost
    rw [State.update, MetricEmitter.sum64_increments_count]
    exact hslow.trans (UInt64.zero_add _)
  · intro endpoint
    have hopen : Conn.at endpoint Conn.open c = Conn.at endpoint Conn.open c' +
        (if a = .leave ∧ c'.endpoint = endpoint then 1 else 0) := by
      simp only [Conn.at, hcounts.endpoint]
      by_cases hendpoint : c.endpoint = endpoint
      · simpa [hendpoint] using hcounts.isOpen
      · simp [hendpoint]
    have hsum := sum_map_set_add (Conn.at endpoint Conn.open) c' hc
    simp only [State.update, h.count endpoint]
    split at hopen
    · next hleaves =>
      have hsucc : (st.conns.map (Conn.at endpoint Conn.open)).sum =
          ((st.conns.set i c').map (Conn.at endpoint Conn.open)).sum + 1 := by omega
      rw [if_pos hleaves, hsucc, Int64.ofNat_add]
      exact Int64.add_sub_cancel _ _
    · next hleaves =>
      rw [if_neg hleaves]
      congr 1
      omega

/-- What a step of a connection is. -/
theorem step_conn {i : Nat} {a : ConnAction} (hstep : step counters st (.conn i a) = some st') :
    ∃ c c', st.conns[i]? = some c ∧ c.Moves a c' ∧ st' = st.update i c' a := by
  simp only [step] at hstep
  split at hstep
  · cases hstep
  · next c hc =>
    obtain ⟨c', hc', rfl⟩ := Option.map_eq_some_iff.mp hstep
    exact ⟨c, c', hc, Conn.moves_of_step hc', rfl⟩

/-- In every reachable state the connections are sound and the counters are right. -/
theorem sound_of_reachable (hst : Reachable (step counters) Always {} st) :
    (∀ c ∈ st.conns, c.Sound) ∧ st.Counted := by
  refine hst.invariant (P := fun st => (∀ c ∈ st.conns, c.Sound) ∧ st.Counted)
    ⟨fun _ hc => absurd hc List.not_mem_nil, counted_initial⟩ ?_
  rintro st a st' ⟨hsound, hcounted⟩ - hstep
  cases a with
  | connect endpoint =>
    cases hstep
    refine ⟨?_, hcounted.connect endpoint⟩
    intro c hc
    rcases List.mem_append.mp hc with hc | hc
    · exact hsound c hc
    · rw [List.mem_singleton.mp hc]
      exact .start endpoint
  | emitEgress endpoint a =>
    obtain ⟨metric, hemit, rfl⟩ := Option.map_eq_some_iff.mp hstep
    refine ⟨hsound, { hcounted with egress := ?_, egressConserved := ?_ }⟩
    · intro e
      simp only [Function.update_apply]
      split
      · next he =>
        rw [MetricEmitter.increments_of_emit hemit, ← he]
        exact hcounted.egress e
      · exact hcounted.egress e
    · intro e
      simp only [Function.update_apply]
      split
      · exact (hcounted.egressConserved endpoint).step (MetricEmitter.step_of_emit hemit)
      · exact hcounted.egressConserved e
  | emitSlowConsumer a =>
    obtain ⟨metric, hemit, rfl⟩ := Option.map_eq_some_iff.mp hstep
    refine ⟨hsound, { hcounted with slow := ?_, slowConserved := ?_ }⟩
    · rw [MetricEmitter.increments_of_emit hemit]
      exact hcounted.slow
    · exact hcounted.slowConserved.step (MetricEmitter.step_of_emit hemit)
  | conn i a =>
    obtain ⟨c, c', hc, hmoves, rfl⟩ := step_conn hstep
    have hconn := hsound c (List.mem_of_getElem? hc)
    refine ⟨?_, hcounted.conn hc (hconn.counts hmoves)⟩
    intro d hd
    rcases List.mem_or_eq_of_mem_set hd with hd | rfl
    · exact hsound d hd
    · exact hconn.moves hmoves

def exampleCounters : Counters where
  egress _ := { name := str "egress", sourceID := str "trafficcontroller", tags := none }
  slowConsumer :=
    { name := str "doppler_proxy.slow_consumer", sourceID := str "trafficcontroller", tags := none }

/-- A client is sent two messages, which the metric client reports, and goes away while a third one
waits. -/
def leavingClient : List Action :=
  [.connect .stream, .conn 0 (.subscribe true), .conn 0 (.receive (some (str "a"))),
    .conn 0 (.upgrade true), .conn 0 .handOver, .conn 0 (.receive none),
    .conn 0 (.receive (some (str "b"))), .conn 0 (.write true), .conn 0 .count, .conn 0 .handOver,
    .conn 0 (.write true), .conn 0 .count, .emitEgress .stream .spawn,
    .emitEgress .stream (.swap 0 0), .emitEgress .stream (.returned 0 true), .conn 0 .readErr,
    .conn 0 (.receive (some (str "c"))), .conn 0 .seeWentAway]

theorem leavingClient_outcome : ∃ st c, Reachable (step exampleCounters) Always {} st ∧
    st.conns[0]? = some c ∧ c.written = [str "a", str "b"] ∧ c.producer = .offer (str "c") ∧
    c.handler = .leave .clientWentAway ∧ (st.egressMetric .stream).delta = 0 ∧
    sum64 (st.egressMetric .stream).increments = 2 := by
  have hrun : (run (step exampleCounters) {} leavingClient).map
      (fun st => (st.conns[0]?.map (fun c => (c.written, c.producer, c.handler)),
        (st.egressMetric .stream).delta, sum64 (st.egressMetric .stream).increments)) =
      some (some ([str "a", str "b"], .offer (str "c"), .leave .clientWentAway), 0, 2) := by decide
  obtain ⟨st, hst, hfinal⟩ := exists_reachable_of_run hrun
  obtain ⟨hconns, hegress⟩ := Prod.mk.inj hfinal
  obtain ⟨c, hc, heq⟩ := Option.map_eq_some_iff.mp hconns
  simp only [Prod.mk.injEq] at heq hegress
  exact ⟨st, c, hst, hc, heq.1, heq.2.1, heq.2.2, hegress⟩

/-- For any number of connections and every interleaving: a client is sent the messages of its
subscription from the first one on, without a gap; at most two more have been received, of which
one waits for the handler or was given up and one is being written or could not be; a handler that
leaves has the reason it says, and where the subscription has ended the client was sent everything
but the message that was given up. -/
theorem stream_delivers (hst : Reachable (step counters) Always {} st) {c : Conn}
    (hc : c ∈ st.conns) :
    c.received = c.written ++ (c.handler.writing ++ c.failed) ++ (c.producer.holding ++ c.lost) ∧
    (c.handler.writing ++ c.failed).length ≤ 1 ∧ (c.producer.holding ++ c.lost).length ≤ 1 ∧
    (∀ exit, c.handler.exit = some exit → c.Reason exit) ∧
    (c.handler.exit = some .sourceEnded → c.received = c.written ++ c.lost) := by
  have h := (sound_of_reachable hst).1 c hc
  have hreceived : c.received =
      c.written ++ (c.handler.writing ++ c.failed) ++ (c.producer.holding ++ c.lost) := by
    rw [h.received, h.handed]
    simp only [List.append_assoc]
  refine ⟨hreceived, ?_, ?_, h.reason, ?_⟩
  · by_cases hfailed : c.failed = []
    · rw [hfailed, List.append_nil]
      cases c.handler <;> simp [Handler.writing]
    · obtain ⟨hexit, hlength⟩ := h.failed hfailed
      rw [h.writing_eq_nil (by rw [hexit]; rfl), List.nil_append, hlength]
  · by_cases hlost : c.lost = []
    · rw [hlost, List.append_nil]
      cases c.producer <;> simp [Producer.holding]
    · obtain ⟨hstopped, hlength⟩ := h.lost hlost
      have hholding : c.producer.holding = [] := by
        cases hproducer : c.producer with
        | offer m =>
          rw [hproducer] at hstopped
          cases hstopped
        | _ => rfl
      rw [hholding, List.nil_append, hlength]
  · intro hexit
    have hfailed : c.failed = [] := by
      by_contra hne
      rw [(h.failed hne).1] at hexit
      cases hexit
    rw [hreceived, hfailed, h.writing_eq_nil (by rw [hexit]; rfl),
      show c.producer = .ended from h.reason _ hexit]
    simp [Producer.holding]

theorem stream_delivers_leavingClient : ∃ c : Conn, c.written = [str "a", str "b"] ∧
    c.handler.exit = some .clientWentAway ∧ c.Reason .clientWentAway ∧
    c.received = c.written ++ (c.handler.writing ++ c.failed) ++
      (c.producer.holding ++ c.lost) := by
  obtain ⟨st, c, hst, hc, hwritten, -, hhandler, -⟩ := leavingClient_outcome
  have h := stream_delivers hst (List.mem_of_getElem? hc)
  have hexit : c.handler.exit = some .clientWentAway := by rw [hhandler]; rfl
  exact ⟨c, hwritten, hexit, h.2.2.2.1 _ hexit, h.1⟩

/-- The handler has left, and the goroutine holds the message `m` or has given it up. -/
structure Conn.Abandoned (c : Conn) (m : GoString) (received written : List GoString) : Prop where
  exit : c.handler.exit.isSome
  received : c.received = received
  written : c.written = written
  message : c.producer = .offer m ∨ c.producer.stopped = true ∧ c.lost = [m]

/-- How often the goroutine has counted its client as slow, at this place. -/
def Producer.slowCounted : Producer → Nat
  | .close | .ended => 1
  | _ => 0

section Abandoned

variable {c c' : Conn} {a : ConnAction} {m : GoString} {received written : List GoString}

variable (h : c.Abandoned m received written)
include h

theorem Conn.Abandoned.producer_ne :
    c.producer ≠ .receive ∧ c.producer ≠ .notStarted := by
  rcases h.message with hoffer | ⟨hstopped, -⟩
  · rw [hoffer]
    exact ⟨nofun, nofun⟩
  · constructor <;> intro hp <;> rw [hp] at hstopped <;> cases hstopped

/-- The handler has left its loop, so that a place in the loop is not where it is. -/
theorem Conn.Abandoned.false_of_loop (hloop : c.handler.exit = none) : False := by
  have hexit := h.exit
  rw [hloop] at hexit
  cases hexit

/-- A handler that has left does not come back to its select, so the goroutine can only give up. -/
theorem Conn.Abandoned.moves (hmoves : c.Moves a c') :
    c'.Abandoned m received written ∧ c'.producer.slowCounted =
      c.producer.slowCounted + (if a = .countSlow then 1 else 0) := by
  cases hmoves with
  | unavailable hhandler | subscribe hhandler | notWebsocket hhandler | upgrade hhandler
  | handOver _ hhandler | seeWentAway hhandler | seeExpired hhandler | seeClosed hhandler
  | write hhandler | writeFails hhandler | count hhandler =>
    exact (h.false_of_loop (by rw [hhandler]; rfl)).elim
  | receiveNil hproducer | receive hproducer | receiveErr hproducer =>
    exact absurd hproducer h.producer_ne.1
  | timeout hproducer =>
    have hm := h.message
    rw [hproducer] at hm
    rcases hm with hm | ⟨hstopped, -⟩
    · cases hm
      exact ⟨{ h with message := Or.inr ⟨rfl, rfl⟩ }, by rw [hproducer]; rfl⟩
    · cases hstopped
  | countSlow hproducer | close hproducer =>
    have hm := h.message
    rw [hproducer] at hm
    rcases hm with hm | ⟨-, hlost⟩
    · cases hm
    · exact ⟨{ h with message := Or.inr ⟨rfl, hlost⟩ }, by rw [hproducer]; rfl⟩
  | readErr | keepAliveEnds => exact ⟨{ h with }, rfl⟩
  | leave hhandler => exact ⟨{ h with exit := rfl }, rfl⟩

/-- A step of the server. -/
theorem abandoned_step {i : Nat} (hc : st.conns[i]? = some c) {a : Action}
    (hstep : step counters st a = some st') :
    ∃ c', st'.conns[i]? = some c' ∧ c'.Abandoned m received written ∧
      c.producer.slowCounted + [a].count (.conn i .countSlow) = c'.producer.slowCounted := by
  cases a with
  | connect endpoint =>
    cases hstep
    exact ⟨c, by rw [List.getElem?_append_left (List.getElem?_eq_some_iff.mp hc).1, hc], h, rfl⟩
  | emitEgress | emitSlowConsumer =>
    obtain ⟨metric, -, rfl⟩ := Option.map_eq_some_iff.mp hstep
    exact ⟨c, hc, h, rfl⟩
  | conn j a =>
    obtain ⟨d, d', hd, hmoves, rfl⟩ := step_conn hstep
    by_cases hij : j = i
    · subst hij
      cases hd.symm.trans hc
      obtain ⟨h', hcount⟩ := h.moves hmoves
      refine ⟨d', List.getElem?_set_self (List.getElem?_eq_some_iff.mp hd).1, h', ?_⟩
      rw [hcount]
      simp [List.count_singleton]
    · refine ⟨c, by rw [State.update, List.getElem?_set_ne hij, hc], h, ?_⟩
      simp [hij]

end Abandoned

/-- The step that adds one to the counter of slow consumers. -/
def Action.countsSlow : Action → Bool
  | .conn _ .countSlow => true
  | _ => false

theorem slow_increments_step {a : Action} (hstep : step counters st a = some st') :
    st'.slowConsumerMetric.increments =
      st.slowConsumerMetric.increments ++ List.replicate (if a.countsSlow then 1 else 0) 1 := by
  cases a with
  | connect endpoint =>
    cases hstep
    exact (List.append_nil _).symm
  | emitEgress endpoint a =>
    obtain ⟨metric, -, rfl⟩ := Option.map_eq_some_iff.mp hstep
    exact (List.append_nil _).symm
  | emitSlowConsumer a =>
    obtain ⟨metric, hemit, rfl⟩ := Option.map_eq_some_iff.mp hstep
    exact (MetricEmitter.increments_of_emit hemit).trans (List.append_nil _).symm
  | conn i a =>
    obtain ⟨c, c', -, -, rfl⟩ := step_conn hstep
    by_cases ha : a = .countSlow
    · subst ha
      rfl
    · have hnot : (Action.conn i a).countsSlow = false := by
        cases a <;> first | rfl | exact absurd rfl ha
      simp [State.update, MetricEmitter.State.count, ha, hnot]

/-- The handler has left while the goroutine holds a message: whatever all connections do from then
on, this one receives and writes no further message, and when its goroutine stops it has given the
message up. By then the client has been counted as a slow consumer, once. -/
theorem abandoned_slow {i : Nat} {c : Conn} (hc : st.conns[i]? = some c) {m : GoString}
    (hproducer : c.producer = .offer m) (hexit : c.handler.exit.isSome) {as : List Action}
    (hrun : run (step counters) st as = some st') :
    (∃ c', st'.conns[i]? = some c' ∧ c'.received = c.received ∧ c'.written = c.written ∧
      (c'.producer = .offer m ∨ c'.producer.stopped = true ∧ c'.lost = [m]) ∧
      as.count (.conn i .countSlow) =
        if c'.producer = .close ∨ c'.producer = .ended then 1 else 0) ∧
    st'.slowConsumerMetric.increments =
      st.slowConsumerMetric.increments ++ List.replicate (as.countP Action.countsSlow) 1 := by
  have hfinal := run_invariant (P := fun as st' =>
    (∃ c', st'.conns[i]? = some c' ∧ c'.Abandoned m c.received c.written ∧
      as.count (.conn i .countSlow) = c'.producer.slowCounted) ∧
    st'.slowConsumerMetric.increments =
      st.slowConsumerMetric.increments ++ List.replicate (as.countP Action.countsSlow) 1)
    ⟨⟨c, hc, ⟨hexit, rfl, rfl, Or.inl hproducer⟩, by rw [hproducer]; rfl⟩,
      (List.append_nil _).symm⟩ ?_ hrun
  · obtain ⟨⟨c', hc', h, hcount⟩, hincrements⟩ := hfinal
    refine ⟨⟨c', hc', h.received, h.written, h.message, ?_⟩, hincrements⟩
    rw [hcount]
    cases c'.producer <;> rfl
  · rintro as st₁ a st₂ - ⟨⟨c₁, hc₁, h₁, hcount⟩, hincrements⟩ hstep
    refine ⟨?_, ?_⟩
    · obtain ⟨c₂, hc₂, h₂, hcount₂⟩ := abandoned_step h₁ hc₁ hstep
      exact ⟨c₂, hc₂, h₂, by rw [List.count_append, hcount, hcount₂]⟩
    · rw [slow_increments_step hstep, hincrements, List.append_assoc, List.countP_append,
        List.countP_singleton, List.replicate_add]

/-- The goroutine gives up and counts the client. -/
theorem abandoned_slow_leavingClient : ∃ (st st' : State) (c' : Conn),
    run (step exampleCounters) st [.conn 0 .timeout, .conn 0 .countSlow] = some st' ∧
    st'.conns[0]? = some c' ∧ c'.written = [str "a", str "b"] ∧
    st'.slowConsumerMetric.increments = st.slowConsumerMetric.increments ++ [1] := by
  obtain ⟨st, c, -, hc, hwritten, hproducer, hhandler, -⟩ := leavingClient_outcome
  have hlt := (List.getElem?_eq_some_iff.mp hc).1
  have hgiveUp : step exampleCounters st (.conn 0 .timeout) =
      some (st.update 0 { c with producer := .slow, lost := [str "c"] } .timeout) := by
    simp only [step, hc, Conn.step, hproducer, Option.map_some]
  have hrun : ∃ st', run (step exampleCounters) st [.conn 0 .timeout, .conn 0 .countSlow] =
      some st' := by
    rw [run_cons hgiveUp]
    simp [run, step, Conn.step, State.update, hlt]
  obtain ⟨st', hrun⟩ := hrun
  obtain ⟨⟨c', hc', -, hwritten', -⟩, hincrements⟩ :=
    abandoned_slow hc hproducer (by rw [hhandler]; rfl) hrun
  exact ⟨st, st', c', hrun, hc', hwritten'.trans hwritten, hincrements⟩

/-- Over a whole run the counters were given the messages that the connections of each endpoint
have written, and the connections that gave a message up, but for what is about to be counted; the
numbers of connections are those that have not returned; and no connection is counted as slow
twice. -/
theorem stream_counts (hst : Reachable (step counters) Always {} st) :
    st.Counted ∧ ∀ c ∈ st.conns, c.lost.length ≤ 1 := by
  obtain ⟨hsound, hcounted⟩ := sound_of_reachable hst
  refine ⟨hcounted, ?_⟩
  intro c hc
  by_cases hlost : c.lost = []
  · rw [hlost]
    exact Nat.zero_le 1
  · exact Nat.le_of_eq ((hsound c hc).lost hlost).2

theorem stream_counts_leavingClient : ∃ st : State, (st.egressMetric .stream).delta = 0 ∧
    sum64 (st.egressMetric .stream).increments = 2 ∧ st.Counted ∧
    ∀ c ∈ st.conns, c.lost.length ≤ 1 := by
  obtain ⟨st, c, hst, -, -, -, -, hdelta, hegress⟩ := leavingClient_outcome
  exact ⟨st, hdelta, hegress, stream_counts hst⟩

end Server

end Loggregator.TrafficController.WebsocketStream
