import Loggregator.Lib.Handoff
import Loggregator.Lib.Transition
import Loggregator.MetricEmitter.Counter
import Loggregator.Rlp.SourceFilter

/-!
# The egress server of the reverse log proxy

`rlp/internal/egress/server.go` over `rlp/internal/ingress/receiver.go`. Each call of `Receiver`
subscribes to the dopplers and starts `consumeReceiver`, which takes payloads from the
subscription, converts them and puts them into a buffer, or drops them when it is full; the call
itself sends what is in the buffer. Any number of calls run at the same time and share the two
counters and the gauge of the server. `Alert` adds to a counter too, and a goroutine of the metric
client sends the counters and sets them back.

The converter is an interface in the source, and so a parameter here. `consumerState.Recv`
chooses between a payload and the end of its context; nothing writes to its channel of errors.
-/

namespace Loggregator.Rlp.Egress

open Lib

variable {ε : Type}

/-- `EnvelopeConverter.Convert`. -/
abbrev EnvelopeConverter (ε : Type) := GoString → Bool → Option ε

/-- The capacity of the buffer of a call. -/
def bufferCapacity : Nat := 10000

/-- The check of `Receiver`: a type filter without a source id. -/
def typeFilterOnly (r : EgressRequest) : Bool :=
  match r.filter with
  | none => false
  | some filter => filter.sourceId = [] && filter.message.isSome

def errTypeFilter : GoString :=
  str "invalid request: cannot have type filter without source id"

def errSubscription : GoString := str "unable to setup subscription"

/-- `io.ErrUnexpectedEOF`. -/
def errUnexpectedEOF : GoString := str "unexpected EOF"

/-- Where a call of `Receiver` is; `leave` is before its deferred functions. -/
inductive Pc (ε : Type) where
  | subscribe
  | range
  | send (e : ε)
  | count
  | leave (err : Option GoString)
  | returned (err : Option GoString)
  deriving DecidableEq

/-- Where the goroutine of `consumeReceiver` is. -/
inductive Consumer (ε : Type) where
  | notStarted
  | receive
  | offer (e : ε)
  | count
  | close
  | cancel
  | ended
  deriving DecidableEq

/-- A call of `Receiver`. The code does not have the last five fields: the payloads that the
dopplers sent and those that `rx` returned, the history of the buffer, the envelopes that were
sent and the one that could not be. -/
structure Call (ε : Type) where
  req : EgressRequest
  pc : Pc ε
  consumer : Consumer ε := .notStarted
  canceled : Bool := false
  data : List GoString := []
  buffer : List ε := []
  closed : Bool := false
  pushed : List GoString := []
  taken : List GoString := []
  handoff : Handoff ε := {}
  sent : List ε := []
  unsent : List ε := []

/-- `Server`, with the calls of its method `Receiver`, the numbers that `Alert` was called with and
whether the context is done. -/
structure State (ε : Type) where
  calls : List (Call ε) := []
  egressMetric : MetricEmitter.State := {}
  droppedMetric : MetricEmitter.State := {}
  subscriptionCount : Int := 0
  alerts : List Int64 := []
  done : Bool := false

/-- The counters that `NewServer` makes. -/
structure Counters where
  egress : MetricEmitter.Counter
  dropped : MetricEmitter.Counter

/-- The steps of a call and of its goroutines. -/
inductive CallAction where
  | subscribe (ok : Bool)
  | watch
  | clientGone
  | push (payload : GoString)
  | receive
  | receiveDone
  | offer
  | countDropped
  | close
  | cancel
  | take
  | rangeEnds
  | send (ok : Bool)
  | count
  | leave
  deriving DecidableEq

inductive Action where
  | receiver (req : EgressRequest)
  | alert (missed : Int64)
  | emitEgress (a : MetricEmitter.Action)
  | emitDropped (a : MetricEmitter.Action)
  | stop
  | call (i : Nat) (a : CallAction)
  deriving DecidableEq

namespace Call

variable (convert : EnvelopeConverter ε) (bufferSize : Nat) (c : Call ε)

/-- A call after the check of its request. -/
def start (req : EgressRequest) : Call ε where
  req := req
  pc := if typeFilterOnly req then .leave (some errTypeFilter) else .subscribe

/-- A payload goes from a doppler's stream into the channel of the subscription. -/
def push (payload : GoString) : Call ε :=
  { c with data := c.data ++ [payload], pushed := c.pushed ++ [payload] }

/-- `rx` returns; an envelope that cannot be converted is an error. -/
def received (payload : GoString) (data : List GoString) : Call ε :=
  { c with
    data := data
    taken := c.taken ++ [payload]
    consumer := match convert payload c.req.usePreferredTags with
      | some e => .offer e
      | none => .close }

/-- The select of `consumeReceiver`. -/
def offer (e : ε) : Call ε :=
  if c.buffer.length < bufferCapacity then
    { c with
      buffer := c.buffer ++ [e]
      handoff := c.handoff.offer e true
      consumer := .receive }
  else
    { c with
      handoff := c.handoff.offer e false
      consumer := .count }

/-- The loop over the buffer takes an envelope. -/
def take (e : ε) (buffer : List ε) : Call ε :=
  { c with pc := .send e, buffer := buffer, handoff := c.handoff.receive e }

/-- The effect of a step on its call, where `done` is the context of the server. -/
def step (done : Bool) : CallAction → Option (Call ε)
  | .subscribe ok =>
    match c.pc with
    | .subscribe =>
      if ok then some { c with pc := .range, consumer := .receive }
      else some { c with pc := .leave (some errSubscription) }
    | _ => none
  | .watch => if done then some { c with canceled := true } else none
  | .clientGone => some { c with canceled := true }
  | .push payload =>
    match c.consumer with
    | .notStarted => none
    | _ => if c.data.length < bufferSize then some (c.push payload) else none
  | .receive =>
    match c.consumer, c.data with
    | .receive, payload :: data => some (c.received convert payload data)
    | _, _ => none
  | .receiveDone =>
    match c.consumer with
    | .receive => if c.canceled then some { c with consumer := .close } else none
    | _ => none
  | .offer =>
    match c.consumer with
    | .offer e => some (c.offer e)
    | _ => none
  | .countDropped =>
    match c.consumer with
    | .count => some { c with consumer := .receive }
    | _ => none
  | .close =>
    match c.consumer with
    | .close => some { c with closed := true, consumer := .cancel }
    | _ => none
  | .cancel =>
    match c.consumer with
    | .cancel => some { c with canceled := true, consumer := .ended }
    | _ => none
  | .take =>
    match c.pc, c.buffer with
    | .range, e :: buffer => some (c.take e buffer)
    | _, _ => none
  | .rangeEnds =>
    match c.pc, c.buffer with
    | .range, [] => if c.closed then some { c with pc := .leave none } else none
    | _, _ => none
  | .send ok =>
    match c.pc with
    | .send e =>
      if ok then some { c with pc := .count, sent := c.sent ++ [e] }
      else some { c with pc := .leave (some errUnexpectedEOF), unsent := [e] }
    | _ => none
  | .count =>
    match c.pc with
    | .count => some { c with pc := .range }
    | _ => none
  | .leave =>
    match c.pc with
    | .leave err => some { c with pc := .returned err, canceled := true }
    | _ => none

end Call

/-- What a step counts besides its effect on the call. -/
def State.update (st : State ε) (i : Nat) (c : Call ε) (a : CallAction) : State ε :=
  { st with
    calls := st.calls.set i c
    egressMetric := st.egressMetric.count (a = .count)
    droppedMetric := st.droppedMetric.count (a = .countDropped)
    subscriptionCount :=
      if a = .leave then st.subscriptionCount - 1 else st.subscriptionCount }

/-- A step of the server. -/
def step (counters : Counters) (convert : EnvelopeConverter ε) (bufferSize : Nat) (st : State ε) :
    Action → Option (State ε)
  | .receiver req => some { st with
      calls := st.calls ++ [.start req]
      subscriptionCount := st.subscriptionCount + 1 }
  | .alert missed => some { st with
      droppedMetric := st.droppedMetric.increment missed.toUInt64
      alerts := st.alerts ++ [missed] }
  | .emitEgress a =>
    (MetricEmitter.emit counters.egress st.egressMetric a).map
      (fun metric => { st with egressMetric := metric })
  | .emitDropped a =>
    (MetricEmitter.emit counters.dropped st.droppedMetric a).map
      (fun metric => { st with droppedMetric := metric })
  | .stop => some { st with done := true }
  | .call i a =>
    match st.calls[i]? with
    | none => none
    | some c => (c.step convert bufferSize st.done a).map (fun c' => st.update i c' a)

/-! ## One call -/

/-- What a step does to its call, with the place it is taken at. -/
inductive Call.Moves (convert : EnvelopeConverter ε) (c : Call ε) : CallAction → Call ε → Prop where
  | subscribeFails (hpc : c.pc = .subscribe) :
      Moves convert c (.subscribe false) { c with pc := .leave (some errSubscription) }
  | subscribe (hpc : c.pc = .subscribe) :
      Moves convert c (.subscribe true) { c with pc := .range, consumer := .receive }
  | watch : Moves convert c .watch { c with canceled := true }
  | clientGone : Moves convert c .clientGone { c with canceled := true }
  | push (hstarted : c.consumer ≠ .notStarted) (payload : GoString) :
      Moves convert c (.push payload) (c.push payload)
  | receive (hconsumer : c.consumer = .receive) {payload : GoString} {data : List GoString}
      (hdata : c.data = payload :: data) :
      Moves convert c .receive (c.received convert payload data)
  | receiveDone (hconsumer : c.consumer = .receive) (hcanceled : c.canceled = true) :
      Moves convert c .receiveDone { c with consumer := .close }
  | offer {e : ε} (hconsumer : c.consumer = .offer e) : Moves convert c .offer (c.offer e)
  | countDropped (hconsumer : c.consumer = .count) :
      Moves convert c .countDropped { c with consumer := .receive }
  | close (hconsumer : c.consumer = .close) :
      Moves convert c .close { c with closed := true, consumer := .cancel }
  | cancel (hconsumer : c.consumer = .cancel) :
      Moves convert c .cancel { c with canceled := true, consumer := .ended }
  | take (hpc : c.pc = .range) {e : ε} {buffer : List ε} (hbuffer : c.buffer = e :: buffer) :
      Moves convert c .take (c.take e buffer)
  | rangeEnds (hpc : c.pc = .range) (hbuffer : c.buffer = []) (hclosed : c.closed = true) :
      Moves convert c .rangeEnds { c with pc := .leave none }
  | send {e : ε} (hpc : c.pc = .send e) :
      Moves convert c (.send true) { c with pc := .count, sent := c.sent ++ [e] }
  | sendFails {e : ε} (hpc : c.pc = .send e) :
      Moves convert c (.send false)
        { c with pc := .leave (some errUnexpectedEOF), unsent := [e] }
  | count (hpc : c.pc = .count) : Moves convert c .count { c with pc := .range }
  | leave {err : Option GoString} (hpc : c.pc = .leave err) :
      Moves convert c .leave { c with pc := .returned err, canceled := true }

theorem Call.moves_of_step {convert : EnvelopeConverter ε} {bufferSize : Nat} {c c' : Call ε}
    {done : Bool} {a : CallAction} (hstep : c.step convert bufferSize done a = some c') :
    c.Moves convert a c' := by
  cases a with
  | subscribe ok =>
    simp only [Call.step] at hstep
    split at hstep
    · next hpc =>
      cases ok with
      | false =>
        cases hstep
        exact .subscribeFails hpc
      | true =>
        cases hstep
        exact .subscribe hpc
    · cases hstep
  | watch =>
    simp only [Call.step] at hstep
    split at hstep
    · cases hstep
      exact .watch
    · cases hstep
  | clientGone =>
    cases hstep
    exact .clientGone
  | push payload =>
    simp only [Call.step] at hstep
    split at hstep
    · cases hstep
    · next hstarted =>
      split at hstep
      · cases hstep
        exact .push hstarted payload
      · cases hstep
  | receiveDone =>
    simp only [Call.step] at hstep
    split at hstep
    · next hconsumer =>
      split at hstep
      · next hcanceled =>
        cases hstep
        exact .receiveDone hconsumer hcanceled
      · cases hstep
    · cases hstep
  | rangeEnds =>
    simp only [Call.step] at hstep
    split at hstep
    · next hpc hbuffer =>
      split at hstep
      · next hclosed =>
        cases hstep
        exact .rangeEnds hpc hbuffer hclosed
      · cases hstep
    · cases hstep
  | send ok =>
    simp only [Call.step] at hstep
    split at hstep
    · next hpc =>
      cases ok with
      | false =>
        cases hstep
        exact .sendFails hpc
      | true =>
        cases hstep
        exact .send hpc
    · cases hstep
  | receive | take =>
    simp only [Call.step] at hstep
    split at hstep
    · next hplace hqueue =>
      cases hstep
      constructor <;> assumption
    · cases hstep
  | offer | countDropped | close | cancel | count | leave =>
    simp only [Call.step] at hstep
    split at hstep
    · next hplace =>
      cases hstep
      constructor
      exact hplace
    · cases hstep

/-- The envelope that the consumer has converted and not offered yet. -/
def Consumer.holding : Consumer ε → List ε
  | .offer e => [e]
  | _ => []

/-- The envelope that the call has taken from the buffer and not sent yet. -/
def Pc.sending : Pc ε → List ε
  | .send e => [e]
  | _ => []

/-- The consumer goes on with its loop. -/
def Consumer.loops : Consumer ε → Bool
  | .receive | .offer _ | .count => true
  | _ => false

/-- The consumer has closed the buffer. -/
def Consumer.hasClosed : Consumer ε → Bool
  | .cancel | .ended => true
  | _ => false

/-- What the call does after its loop. -/
def Pc.result : Pc ε → Option (Option GoString)
  | .leave err | .returned err => some err
  | _ => none

/-- What holds of a call at every moment. -/
structure Call.Sound (convert : EnvelopeConverter ε) (c : Call ε) : Prop where
  pushed : c.taken ++ c.data = c.pushed
  converted : c.taken.filterMap (fun payload => convert payload c.req.usePreferredTags) =
    c.handoff.offered.map Prod.fst ++ c.consumer.holding
  /-- Only the last payload can be one that does not convert, and the loop ends there. -/
  convertible : ∀ before payload after, c.taken = before ++ payload :: after →
    convert payload c.req.usePreferredTags = none → after = [] ∧ c.consumer.loops = false
  buffered : c.handoff.Explains c.buffer
  received : c.handoff.received = c.sent ++ c.unsent ++ c.pc.sending
  bounded : c.buffer.length ≤ bufferCapacity
  unsent : c.unsent ≠ [] → c.pc.result = some (some errUnexpectedEOF)
  closed : c.closed = c.consumer.hasClosed
  /-- The consumer ends its loop with the context or at a payload that does not convert. -/
  stopped : c.consumer = .close ∨ c.consumer.hasClosed = true →
    c.canceled = true ∨ ∃ payload ∈ c.taken, convert payload c.req.usePreferredTags = none
  ended : c.consumer = .ended → c.canceled = true
  finished : c.pc.result = some none → c.closed = true ∧ c.buffer = []
  returned : ∀ err, c.pc = .returned err → c.canceled = true
  notStarted : c.consumer = .notStarted →
    c.pushed = [] ∧ c.handoff.offered = [] ∧ (c.pc = .subscribe ∨ c.pc.result.isSome)
  subscribing : c.pc = .subscribe → c.consumer = .notStarted

namespace Call.Sound

variable {convert : EnvelopeConverter ε} {bufferSize : Nat} {c c' : Call ε}

theorem start (req : EgressRequest) : (Call.start req : Call ε).Sound convert where
  pushed := rfl
  converted := rfl
  convertible := by
    intro before payload after htaken
    cases before <;> cases htaken
  buffered := rfl
  received := by
    rw [Call.start]
    split <;> rfl
  bounded := Nat.zero_le _
  unsent := fun h => absurd rfl h
  closed := rfl
  stopped := by rintro (h | h) <;> cases h
  ended := nofun
  finished := by
    rw [Call.start]
    split
    · intro h
      cases h
    · nofun
  returned := by
    intro err
    rw [Call.start]
    split <;> nofun
  notStarted := by
    intro _
    refine ⟨rfl, rfl, ?_⟩
    rw [Call.start]
    split
    · exact Or.inr rfl
    · exact Or.inl rfl
  subscribing := fun _ => rfl

section

variable (h : c.Sound convert)
include h

/-- The context ends. -/
theorem cancel : { c with canceled := true }.Sound convert :=
  { h with
    stopped := fun _ => Or.inl rfl
    ended := fun _ => rfl
    returned := fun _ _ => rfl }

theorem unsent_eq_nil (hpc : c.pc.result = none) : c.unsent = [] := by
  by_contra hne
  rw [h.unsent hne] at hpc
  cases hpc

/-- Before the goroutine starts nothing has been taken. -/
theorem taken_eq_nil (hnot : c.consumer = .notStarted) : c.taken = [] := by
  have hpushed := h.pushed
  rw [(h.notStarted hnot).1] at hpushed
  exact (List.append_eq_nil_iff.mp hpushed).1

/-- `Receive` returns an error. -/
theorem subscribeFails (hpc : c.pc = .subscribe) :
    { c with pc := .leave (some errSubscription) }.Sound convert := by
  have hnot := h.subscribing hpc
  have hreceived := h.received
  rw [hpc] at hreceived
  exact { h with
    received := hreceived
    unsent := fun hne => absurd (h.unsent_eq_nil (by rw [hpc]; rfl)) hne
    finished := nofun
    returned := nofun
    notStarted := fun _ => ⟨(h.notStarted hnot).1, (h.notStarted hnot).2.1, Or.inr rfl⟩
    subscribing := nofun }

/-- `Receive` returns, and the goroutine starts. -/
theorem subscribe (hpc : c.pc = .subscribe) :
    { c with pc := .range, consumer := .receive }.Sound convert := by
  have hnot := h.subscribing hpc
  have hreceived := h.received
  have hconverted := h.converted
  have hclosed := h.closed
  rw [hpc] at hreceived
  rw [hnot] at hconverted hclosed
  exact { h with
    converted := hconverted
    convertible := by
      intro before payload after heq
      rw [h.taken_eq_nil hnot] at heq
      cases before <;> cases heq
    received := hreceived
    unsent := fun hne => absurd (h.unsent_eq_nil (by rw [hpc]; rfl)) hne
    closed := hclosed
    stopped := by rintro (hc | hc) <;> cases hc
    ended := nofun
    finished := nofun
    returned := nofun
    notStarted := nofun
    subscribing := nofun }

theorem push (hstarted : c.consumer ≠ .notStarted) (payload : GoString) :
    (c.push payload).Sound convert :=
  { h with
    pushed := by rw [Call.push, ← List.append_assoc, h.pushed]
    notStarted := fun hnot => absurd hnot hstarted }

/-- The consumer runs, so the call has subscribed. -/
theorem pc_ne_subscribe (hstarted : c.consumer ≠ .notStarted) :
    c.pc ≠ .subscribe := fun hpc => hstarted (h.subscribing hpc)

/-- While the consumer loops every payload has been converted. -/
theorem convertible_of_loops (hloops : c.consumer.loops = true) {payload : GoString}
    (hmem : payload ∈ c.taken) :
    convert payload c.req.usePreferredTags ≠ none := by
  intro hnone
  obtain ⟨before, after, heq⟩ := List.append_of_mem hmem
  have hstops := (h.convertible before payload after heq hnone).2
  rw [hloops] at hstops
  cases hstops

/-- A payload is taken; it is converted or it ends the loop. -/
theorem receive (hconsumer : c.consumer = .receive) {payload : GoString} {data : List GoString}
    (hdata : c.data = payload :: data) :
    (c.received convert payload data).Sound convert := by
  have hstarted : c.consumer ≠ .notStarted := by rw [hconsumer]; nofun
  have hpushed := h.pushed
  have hclosed := h.closed
  have hconverted := h.converted
  rw [hdata] at hpushed
  rw [hconsumer] at hclosed hconverted
  have hbefore : ∀ payload' ∈ c.taken, convert payload' c.req.usePreferredTags ≠ none :=
    fun _ hmem => h.convertible_of_loops (by rw [hconsumer]; rfl) hmem
  have hlast : ∀ before payload' after, c.taken ++ [payload] = before ++ payload' :: after →
      convert payload' c.req.usePreferredTags = none → after = [] ∧ payload' = payload := by
    intro before payload' after heq hnone
    rcases List.eq_nil_or_concat after with rfl | ⟨after, last, rfl⟩
    · exact ⟨rfl, (List.cons.inj (List.append_inj' heq rfl).2).1.symm⟩
    · rw [List.concat_eq_append, ← List.cons_append, ← List.append_assoc] at heq
      have htaken := (List.append_inj' heq rfl).1
      exact absurd hnone (hbefore payload' (by rw [htaken]; simp))
  exact { h with
    pushed := by
      rw [Call.received, List.append_assoc]
      exact hpushed
    converted := by
      rw [Call.received, List.filterMap_append, hconverted]
      cases hconvert : convert payload c.req.usePreferredTags <;>
        simp [hconvert, Consumer.holding]
    convertible := by
      intro before payload' after heq hnone
      obtain ⟨hafter, rfl⟩ := hlast before payload' after heq hnone
      refine ⟨hafter, ?_⟩
      simp only [Call.received, show convert payload' c.req.usePreferredTags = none from hnone]
      rfl
    closed := by
      simp only [Call.received]
      split <;> exact hclosed
    stopped := by
      simp only [Call.received]
      split
      · rintro (hc | hc) <;> cases hc
      · next hnone => exact fun _ => Or.inr ⟨payload, by simp, hnone⟩
    ended := by
      simp only [Call.received]
      split <;> nofun
    notStarted := by
      simp only [Call.received]
      split <;> nofun
    subscribing := fun hpc => absurd hpc (h.pc_ne_subscribe hstarted) }

/-- The consumer goes on to another place with what it holds. -/
theorem setConsumer {p : Consumer ε} {closed canceled : Bool} (hstarted : c.consumer ≠ .notStarted)
    (hp : p ≠ .notStarted) (hholding : p.holding = c.consumer.holding)
    (hloops : c.consumer.loops = false → p.loops = false) (hclosed : closed = p.hasClosed)
    (hclosed' : c.closed = true → closed = true) (hcanceled : c.canceled = true → canceled = true)
    (hstopped : p = .close ∨ p.hasClosed = true →
      canceled = true ∨ ∃ payload ∈ c.taken, convert payload c.req.usePreferredTags = none)
    (hended : p = .ended → canceled = true) :
    { c with consumer := p, closed := closed, canceled := canceled }.Sound convert :=
  { h with
    converted := by rw [hholding, ← h.converted]
    convertible := fun before payload after heq hnone =>
      (h.convertible before payload after heq hnone).imp_right hloops
    closed := hclosed
    stopped := hstopped
    ended := hended
    finished := fun hpc => (h.finished hpc).imp_left hclosed'
    returned := fun err hpc => hcanceled (h.returned err hpc)
    notStarted := fun hnot => absurd hnot hp
    subscribing := fun hpc => absurd hpc (h.pc_ne_subscribe hstarted) }

/-- `rx` returns the error of the context. -/
theorem receiveDone (hconsumer : c.consumer = .receive) (hcanceled : c.canceled = true) :
    { c with consumer := .close }.Sound convert :=
  h.setConsumer (by rw [hconsumer]; nofun) nofun (by rw [hconsumer]; rfl) (fun _ => rfl)
    (by rw [h.closed, hconsumer]; rfl) id id (fun _ => Or.inl hcanceled) nofun

end

variable {e : ε}

variable (h : c.Sound convert)
include h

/-- The consumer has offered its envelope. -/
theorem offered (hconsumer : c.consumer = .offer e) {p : Consumer ε}
    (hp : p = .receive ∨ p = .count) {buffer : List ε} {keep : Bool}
    (hbuffered : (c.handoff.offer e keep).Explains buffer)
    (hbounded : buffer.length ≤ bufferCapacity) :
    { c with buffer := buffer, handoff := c.handoff.offer e keep, consumer := p }.Sound
      convert := by
  have hstarted : c.consumer ≠ .notStarted := by rw [hconsumer]; nofun
  have hclosed := h.closed
  have hconverted := h.converted
  rw [hconsumer] at hclosed hconverted
  rcases hp with rfl | rfl <;> exact { h with
    converted := by
      rw [hconverted]
      simp [Consumer.holding]
    convertible := fun before payload after heq hnone => absurd hnone
      (h.convertible_of_loops (by rw [hconsumer]; rfl) (by rw [heq]; simp))
    buffered := hbuffered
    received := h.received
    bounded := hbounded
    closed := hclosed
    stopped := by rintro (hc | hc) <;> cases hc
    ended := nofun
    finished := fun hpc => by
      have hfinished := (h.finished hpc).1
      rw [hclosed] at hfinished
      cases hfinished
    notStarted := nofun
    subscribing := fun hpc => absurd hpc (h.pc_ne_subscribe hstarted) }

/-- The buffer takes the envelope in or is full. -/
theorem offer (hconsumer : c.consumer = .offer e) :
    (c.offer e).Sound convert := by
  rw [Call.offer]
  split
  · next hroom =>
    exact h.offered hconsumer (Or.inl rfl) (h.buffered.keep e)
      (by rw [List.length_append]; exact hroom)
  · exact h.offered hconsumer (Or.inr rfl) (h.buffered.drop e) h.bounded

theorem countDropped (hconsumer : c.consumer = .count) :
    { c with consumer := .receive }.Sound convert :=
  h.setConsumer (by rw [hconsumer]; nofun) nofun (by rw [hconsumer]; rfl)
    (by rw [hconsumer]; nofun) (by rw [h.closed, hconsumer]; rfl) id id
    (by rintro (hc | hc) <;> cases hc) nofun

theorem close (hconsumer : c.consumer = .close) :
    { c with closed := true, consumer := .cancel }.Sound convert :=
  h.setConsumer (by rw [hconsumer]; nofun) nofun (by rw [hconsumer]; rfl) (fun _ => rfl) rfl
    (fun _ => rfl) id (fun _ => h.stopped (Or.inl hconsumer)) nofun

theorem consumerCancels (hconsumer : c.consumer = .cancel) :
    { c with canceled := true, consumer := .ended }.Sound convert :=
  h.setConsumer (by rw [hconsumer]; nofun) nofun (by rw [hconsumer]; rfl) (fun _ => rfl)
    (by rw [h.closed, hconsumer]; rfl) id (fun _ => rfl) (fun _ => Or.inl rfl) (fun _ => rfl)

/-- An envelope in the buffer was put there by the consumer. -/
theorem started_of_range (hpc : c.pc ≠ .subscribe) (hresult : c.pc.result = none) :
    c.consumer ≠ .notStarted := by
  intro hnot
  rcases (h.notStarted hnot).2.2 with hsub | hres
  · exact hpc hsub
  · rw [hresult] at hres
    cases hres

theorem take (hpc : c.pc = .range) {buffer : List ε} (hbuffer : c.buffer = e :: buffer) :
    (c.take e buffer).Sound convert := by
  have hstarted := h.started_of_range (by rw [hpc]; nofun) (by rw [hpc]; rfl)
  have hreceived := h.received
  have hbuffered := h.buffered
  have hbounded := h.bounded
  rw [hpc] at hreceived
  rw [hbuffer] at hbuffered hbounded
  exact { h with
    buffered := hbuffered.receive
    received := by
      rw [Call.take, Handoff.received_receive, hreceived]
      simp [Pc.sending]
    bounded := Nat.le_of_succ_le hbounded
    unsent := fun hne => absurd (h.unsent_eq_nil (by rw [hpc]; rfl)) hne
    finished := nofun
    returned := nofun
    notStarted := fun hnot => absurd hnot hstarted
    subscribing := nofun }

/-- The call goes on in its loop or leaves it. -/
theorem setPc {p : Pc ε} {sent unsent : List ε} (hloop : c.pc ≠ .subscribe ∧ c.pc.result = none)
    (hp : p ≠ .subscribe ∧ ∀ err, p ≠ .returned err)
    (hreceived : sent ++ unsent ++ p.sending = c.sent ++ c.unsent ++ c.pc.sending)
    (hunsent : unsent = c.unsent ∨ p.result = some (some errUnexpectedEOF))
    (hfinished : p.result = some none → c.closed = true ∧ c.buffer = []) :
    { c with pc := p, sent := sent, unsent := unsent }.Sound convert :=
  { h with
    received := h.received.trans hreceived.symm
    unsent := fun hne =>
      hunsent.resolve_left (fun heq => hne (heq.trans (h.unsent_eq_nil hloop.2)))
    finished := hfinished
    returned := fun err hpc => absurd hpc (hp.2 err)
    notStarted := fun hnot => absurd hnot (h.started_of_range hloop.1 hloop.2)
    subscribing := fun hpc => absurd hpc hp.1 }

theorem rangeEnds (hpc : c.pc = .range) (hbuffer : c.buffer = []) (hclosed : c.closed = true) :
    { c with pc := .leave none }.Sound convert :=
  h.setPc (by rw [hpc]; exact ⟨nofun, rfl⟩) ⟨nofun, nofun⟩ (by rw [hpc]; rfl) (Or.inl rfl)
    (fun _ => ⟨hclosed, hbuffer⟩)

theorem send (hpc : c.pc = .send e) :
    { c with pc := .count, sent := c.sent ++ [e] }.Sound convert := by
  have hunsent := h.unsent_eq_nil (by rw [hpc]; rfl)
  exact h.setPc (by rw [hpc]; exact ⟨nofun, rfl⟩) ⟨nofun, nofun⟩
    (by rw [hunsent, hpc]; simp [Pc.sending]) (Or.inl rfl) nofun

theorem sendFails (hpc : c.pc = .send e) :
    { c with pc := .leave (some errUnexpectedEOF), unsent := [e] }.Sound convert := by
  have hunsent := h.unsent_eq_nil (by rw [hpc]; rfl)
  exact h.setPc (by rw [hpc]; exact ⟨nofun, rfl⟩) ⟨nofun, nofun⟩
    (by rw [hunsent, hpc]; simp [Pc.sending]) (Or.inr rfl) nofun

theorem count (hpc : c.pc = .count) :
    { c with pc := .range }.Sound convert :=
  h.setPc (by rw [hpc]; exact ⟨nofun, rfl⟩) ⟨nofun, nofun⟩ (by rw [hpc]; rfl) (Or.inl rfl) nofun

theorem leave {err : Option GoString} (hpc : c.pc = .leave err) :
    { c with pc := .returned err, canceled := true }.Sound convert := by
  have hreceived := h.received
  have hunsent := h.unsent
  have hfinished := h.finished
  rw [hpc] at hreceived hunsent hfinished
  exact { h with
    received := hreceived
    unsent := hunsent
    stopped := fun _ => Or.inl rfl
    ended := fun _ => rfl
    finished := hfinished
    returned := fun _ _ => rfl
    notStarted := fun hnot =>
      ⟨(h.notStarted hnot).1, (h.notStarted hnot).2.1, Or.inr rfl⟩
    subscribing := nofun }

/-- Every step of a call keeps it sound. -/
theorem moves {a : CallAction} (hmoves : c.Moves convert a c') :
    c'.Sound convert := by
  cases hmoves with
  | subscribeFails hpc => exact h.subscribeFails hpc
  | subscribe hpc => exact h.subscribe hpc
  | watch | clientGone => exact h.cancel
  | push hstarted payload => exact h.push hstarted payload
  | receive hconsumer hdata => exact h.receive hconsumer hdata
  | receiveDone hconsumer hcanceled => exact h.receiveDone hconsumer hcanceled
  | offer hconsumer => exact h.offer hconsumer
  | countDropped hconsumer => exact h.countDropped hconsumer
  | close hconsumer => exact h.close hconsumer
  | cancel hconsumer => exact h.consumerCancels hconsumer
  | take hpc hbuffer => exact h.take hpc hbuffer
  | rangeEnds hpc hbuffer hclosed => exact h.rangeEnds hpc hbuffer hclosed
  | send hpc => exact h.send hpc
  | sendFails hpc => exact h.sendFails hpc
  | count hpc => exact h.count hpc
  | leave hpc => exact h.leave hpc

end Call.Sound

/-! ## The server -/

section Server

variable {counters : Counters} {convert : EnvelopeConverter ε} {bufferSize : Nat} {st st' : State ε}

variable {a : CallAction}

theorem step_call {i : Nat} (hstep : step counters convert bufferSize st (.call i a) = some st') :
    ∃ c c', st.calls[i]? = some c ∧ c.Moves convert a c' ∧ st' = st.update i c' a := by
  simp only [step] at hstep
  split at hstep
  · cases hstep
  · next c hc =>
    obtain ⟨c', hc', rfl⟩ := Option.map_eq_some_iff.mp hstep
    exact ⟨c, c', hc, Call.moves_of_step hc', rfl⟩

/-- The call has not run its deferred functions. -/
def Call.open (c : Call ε) : Nat :=
  match c.pc with
  | .returned _ => 0
  | _ => 1

/-- The call has sent an envelope and not counted it. -/
def Call.sentUncounted (c : Call ε) : Nat :=
  match c.pc with
  | .count => 1
  | _ => 0

/-- The consumer has dropped an envelope and not counted it. -/
def Call.droppedUncounted (c : Call ε) : Nat :=
  match c.consumer with
  | .count => 1
  | _ => 0

/-- What a step of a call changes of the numbers that the server counts. -/
structure Call.Counts (c : Call ε) (a : CallAction) (c' : Call ε) : Prop where
  sent : c'.sent.length + c.sentUncounted =
    c.sent.length + c'.sentUncounted + (if a = .count then 1 else 0)
  dropped : c'.handoff.dropped + c.droppedUncounted =
    c.handoff.dropped + c'.droppedUncounted + (if a = .countDropped then 1 else 0)
  isOpen : c.open = c'.open + (if a = .leave then 1 else 0)

/-- The step changes nothing that is counted. -/
theorem Call.Counts.same {c c' : Call ε} (hsent : c'.sent = c.sent)
    (hdropped : c'.handoff.dropped = c.handoff.dropped)
    (hsentUncounted : c'.sentUncounted = c.sentUncounted)
    (hdroppedUncounted : c'.droppedUncounted = c.droppedUncounted) (hopen : c'.open = c.open)
    (ha : a ≠ .count ∧ a ≠ .countDropped ∧ a ≠ .leave) : c.Counts a c' := by
  constructor
  · rw [hsent, hsentUncounted, if_neg ha.1, Nat.add_zero]
  · rw [hdropped, hdroppedUncounted, if_neg ha.2.1, Nat.add_zero]
  · rw [hopen, if_neg ha.2.2, Nat.add_zero]

theorem Call.Sound.counts {c c' : Call ε} (h : c.Sound convert) (hmoves : c.Moves convert a c') :
    c.Counts a c' := by
  cases hmoves with
  | subscribeFails hpc =>
    exact .same rfl rfl (by simp [sentUncounted, hpc]) rfl (by simp [Call.open, hpc]) (by decide)
  | subscribe hpc =>
    have hnot := h.subscribing hpc
    exact .same rfl rfl (by simp [sentUncounted, hpc]) (by simp [droppedUncounted, hnot])
      (by simp [Call.open, hpc]) (by decide)
  | watch | clientGone => exact .same rfl rfl rfl rfl rfl (by decide)
  | push => exact .same rfl rfl rfl rfl rfl ⟨nofun, nofun, nofun⟩
  | @receive hconsumer payload data =>
    refine .same rfl rfl rfl ?_ rfl (by decide)
    simp only [Call.received, droppedUncounted, hconsumer]
    cases convert payload c.req.usePreferredTags <;> rfl
  | receiveDone hconsumer =>
    exact .same rfl rfl rfl (by simp [droppedUncounted, hconsumer]) rfl (by decide)
  | offer hconsumer =>
    rw [Call.offer]
    split
    · refine .same rfl ?_ rfl (by simp [droppedUncounted, hconsumer]) rfl (by decide)
      simp [Handoff.dropped_offer]
    · constructor
      · simp [sentUncounted]
      · simp [droppedUncounted, hconsumer, Handoff.dropped_offer]
      · simp [Call.open]
  | countDropped hconsumer =>
    constructor
    · simp [sentUncounted]
    · simp [droppedUncounted, hconsumer]
    · simp [Call.open]
  | close hconsumer | cancel hconsumer =>
    exact .same rfl rfl rfl (by simp [droppedUncounted, hconsumer]) rfl (by decide)
  | take hpc =>
    exact .same rfl rfl (by simp [Call.take, sentUncounted, hpc]) rfl
      (by simp [Call.take, Call.open, hpc]) (by decide)
  | rangeEnds hpc =>
    exact .same rfl rfl (by simp [sentUncounted, hpc]) rfl (by simp [Call.open, hpc]) (by decide)
  | send hpc =>
    constructor
    · simp [sentUncounted, hpc]
    · simp [droppedUncounted]
    · simp [Call.open, hpc]
  | sendFails hpc =>
    exact .same rfl rfl (by simp [sentUncounted, hpc]) rfl (by simp [Call.open, hpc]) (by decide)
  | count hpc | leave hpc =>
    constructor
    · simp [sentUncounted, hpc]
    · simp [droppedUncounted]
    · simp [Call.open, hpc]

/-- The counters and the gauge against all calls: what was added to the counters over the whole
run, and that each increment is in the delta or has been sent. -/
structure State.Counted (st : State ε) : Prop where
  egress : sum64 st.egressMetric.increments +
      UInt64.ofNat (st.calls.map Call.sentUncounted).sum =
    UInt64.ofNat (st.calls.map (fun c => c.sent.length)).sum
  dropped : sum64 st.droppedMetric.increments +
      UInt64.ofNat (st.calls.map Call.droppedUncounted).sum =
    sum64 (st.alerts.map Int64.toUInt64) +
      UInt64.ofNat (st.calls.map (fun c => c.handoff.dropped)).sum
  subscriptions : st.subscriptionCount = (st.calls.map Call.open).sum
  egressConserved : MetricEmitter.Conserved st.egressMetric
  droppedConserved : MetricEmitter.Conserved st.droppedMetric

theorem counted_initial : ({} : State ε).Counted where
  egress := rfl
  dropped := rfl
  subscriptions := rfl
  egressConserved := rfl
  droppedConserved := rfl

theorem State.Counted.receiver (h : st.Counted) (req : EgressRequest) :
    { st with
      calls := st.calls ++ [Call.start req]
      subscriptionCount := st.subscriptionCount + 1 }.Counted := by
  have hopen : (Call.start req : Call ε).open = 1 := by
    rw [Call.start]
    split <;> rfl
  have hsent : (Call.start req : Call ε).sentUncounted = 0 := by
    rw [Call.start]
    split <;> rfl
  have hconcat : ∀ f : Call ε → Nat,
      ((st.calls ++ [Call.start req]).map f).sum = (st.calls.map f).sum + f (.start req) := by
    intro f
    simp
  refine { h with egress := ?_, dropped := ?_, subscriptions := ?_ }
  · rw [hconcat, hconcat, hsent]
    exact h.egress
  · rw [hconcat, hconcat]
    exact h.dropped
  · simp only [hconcat, hopen, h.subscriptions]
    rfl

/-- A step of a call. -/
theorem State.Counted.call (h : st.Counted) {i : Nat} {c c' : Call ε} (hc : st.calls[i]? = some c)
    (hcounts : c.Counts a c') : (st.update i c' a).Counted := by
  refine ⟨?_, ?_, ?_, h.egressConserved.count _, h.droppedConserved.count _⟩
  · have hegress := counter_set hc (h.egress.trans (UInt64.zero_add _).symm) hcounts.sent
    rw [UInt64.zero_add] at hegress
    rw [State.update, MetricEmitter.sum64_increments_count]
    exact hegress
  · rw [State.update, MetricEmitter.sum64_increments_count]
    exact counter_set hc h.dropped hcounts.dropped
  · have hsum := sum_map_set_add Call.open c' hc
    have hopen := hcounts.isOpen
    have hcount := h.subscriptions
    simp only [State.update]
    split at hopen <;> split <;> first | omega | contradiction

/-- `Alert`. -/
theorem State.Counted.alert (h : st.Counted) (missed : Int64) :
    { st with
      droppedMetric := st.droppedMetric.increment missed.toUInt64
      alerts := st.alerts ++ [missed] }.Counted := by
  refine { h with dropped := ?_, droppedConserved := h.droppedConserved.increment _ }
  have hdropped := h.dropped
  simp only [MetricEmitter.State.increment, List.map_append, List.map_cons, List.map_nil,
    sum64_append, sum64_cons, sum64_nil, UInt64.add_zero]
  rw [UInt64.add_assoc, UInt64.add_comm missed.toUInt64, ← UInt64.add_assoc, hdropped]
  ac_rfl

/-- In every reachable state the calls are sound and the numbers are right. -/
theorem sound_of_reachable (hst : Reachable (step counters convert bufferSize) Always {} st) :
    (∀ c ∈ st.calls, c.Sound convert) ∧ st.Counted := by
  refine hst.invariant (P := fun st => (∀ c ∈ st.calls, c.Sound convert) ∧ st.Counted)
    ⟨fun _ hc => absurd hc List.not_mem_nil, counted_initial⟩ ?_
  rintro st a st' ⟨hsound, hcounted⟩ - hstep
  cases a with
  | receiver req =>
    cases hstep
    refine ⟨?_, hcounted.receiver req⟩
    intro c hc
    rcases List.mem_append.mp hc with hc | hc
    · exact hsound c hc
    · rw [List.mem_singleton.mp hc]
      exact .start req
  | alert missed =>
    cases hstep
    exact ⟨hsound, hcounted.alert missed⟩
  | emitEgress a =>
    obtain ⟨metric, hemit, rfl⟩ := Option.map_eq_some_iff.mp hstep
    refine ⟨hsound, { hcounted with egress := ?_, egressConserved := ?_ }⟩
    · rw [MetricEmitter.increments_of_emit hemit]
      exact hcounted.egress
    · exact hcounted.egressConserved.step (MetricEmitter.step_of_emit hemit)
  | emitDropped a =>
    obtain ⟨metric, hemit, rfl⟩ := Option.map_eq_some_iff.mp hstep
    refine ⟨hsound, { hcounted with dropped := ?_, droppedConserved := ?_ }⟩
    · rw [MetricEmitter.increments_of_emit hemit]
      exact hcounted.dropped
    · exact hcounted.droppedConserved.step (MetricEmitter.step_of_emit hemit)
  | stop =>
    cases hstep
    exact ⟨hsound, { hcounted with }⟩
  | call i a =>
    obtain ⟨c, c', hc, hmoves, rfl⟩ := step_call hstep
    have hcall := hsound c (List.mem_of_getElem? hc)
    refine ⟨?_, hcounted.call hc (hcall.counts hmoves)⟩
    intro d hd
    rcases List.mem_or_eq_of_mem_set hd with hd | rfl
    · exact hsound d hd
    · exact hcall.moves hmoves

/-- A converter that takes every payload but the empty one. -/
def nonEmpty : EnvelopeConverter GoString :=
  fun payload _ => if payload = [] then none else some payload

def exampleCounters : Counters where
  egress := { name := str "egress", sourceID := str "rlp", tags := none }
  dropped := { name := str "dropped", sourceID := str "rlp", tags := none }

/-- A client is sent one envelope, which the metric client reports, and the second payload does not
convert. `Alert` is called once. -/
def oneClient : List Action :=
  [.receiver ⟨[], none, false⟩, .call 0 (.subscribe true), .call 0 (.push (str "a")),
    .call 0 (.push []), .call 0 .receive, .call 0 .offer, .call 0 .take, .call 0 (.send true),
    .call 0 .count, .emitEgress .spawn, .emitEgress (.swap 0 0), .emitEgress (.returned 0 true),
    .alert 3, .call 0 .receive, .call 0 .close, .call 0 .cancel, .call 0 .rangeEnds,
    .call 0 .leave]

theorem oneClient_outcome : ∃ st c, Reachable (step exampleCounters nonEmpty 1000) Always {} st ∧
    c ∈ st.calls ∧ c.sent = [str "a"] ∧ c.pc = .returned none ∧ st.egressMetric.delta = 0 ∧
    sum64 st.egressMetric.increments = 1 ∧ sum64 st.droppedMetric.increments = 3 := by
  have hrun : (run (step exampleCounters nonEmpty 1000) {} oneClient).map
      (fun st => (st.calls.map (fun c => (c.sent, c.pc)), st.egressMetric.delta,
        sum64 st.egressMetric.increments, sum64 st.droppedMetric.increments)) =
      some ([([str "a"], .returned none)], 0, 1, 3) := by decide
  obtain ⟨st, hst, hfinal⟩ := exists_reachable_of_run hrun
  simp only [Prod.mk.injEq] at hfinal
  obtain ⟨hcalls, hmetrics⟩ := hfinal
  have hmem : ([str "a"], Pc.returned none) ∈ st.calls.map (fun c => (c.sent, c.pc)) := by
    rw [hcalls]
    exact List.mem_singleton_self _
  obtain ⟨c, hc, heq⟩ := List.mem_map.mp hmem
  exact ⟨st, c, hst, hc, (Prod.mk.inj heq).1, (Prod.mk.inj heq).2, hmetrics⟩

/-- For every converter, every number of calls and every interleaving: what a client has been
sent, is being sent or has waiting is a subsequence of the converted payloads, in their order;
every converted payload is accounted for; and only the last payload can be one that does not
convert. -/
theorem receiver_forwards (hst : Reachable (step counters convert bufferSize) Always {} st)
    {c : Call ε} (hc : c ∈ st.calls) :
    let conversion := fun payload => convert payload c.req.usePreferredTags
    (c.sent ++ c.unsent ++ c.pc.sending ++ c.buffer).Sublist (c.taken.filterMap conversion) ∧
    (c.taken.filterMap conversion).length = c.sent.length + c.unsent.length +
      c.pc.sending.length + c.buffer.length + c.consumer.holding.length + c.handoff.dropped ∧
    c.taken ++ c.data = c.pushed ∧
    (∀ before payload after, c.taken = before ++ payload :: after →
      conversion payload = none → after = []) ∧
    c.buffer.length ≤ bufferCapacity := by
  intro conversion
  have h := (sound_of_reachable hst).1 c hc
  have hkept : c.sent ++ c.unsent ++ c.pc.sending ++ c.buffer = c.handoff.kept := by
    rw [← h.received]
    exact h.buffered
  have hlength := h.buffered.length
  have hreceived := congrArg List.length h.received
  have hconverted : c.taken.filterMap conversion =
      c.handoff.offered.map Prod.fst ++ c.consumer.holding := h.converted
  simp only [List.length_append] at hreceived
  refine ⟨?_, ?_, h.pushed, ?_, h.bounded⟩
  · rw [hkept, hconverted]
    exact c.handoff.kept_sublist.trans (List.sublist_append_left _ _)
  · rw [hconverted, List.length_append, List.length_map]
    omega
  · intro before payload after heq hnone
    exact (h.convertible before payload after heq hnone).1

theorem receiver_forwards_oneClient : ∃ c : Call GoString, c.sent = [str "a"] ∧
    (c.sent ++ c.unsent ++ c.pc.sending ++ c.buffer).Sublist
      (c.taken.filterMap (fun payload => nonEmpty payload c.req.usePreferredTags)) := by
  obtain ⟨st, c, hst, hc, hsent, -⟩ := oneClient_outcome
  exact ⟨c, hsent, (receiver_forwards hst hc).1⟩

/-- The steps of the consumer. -/
def CallAction.ofConsumer : CallAction → Bool
  | .receive | .receiveDone | .offer | .countDropped | .close | .cancel => true
  | _ => false

/-- Once the context has ended, the consumer comes to its end by steps of its own. -/
theorem Call.consumer_ends {c : Call ε} (hcanceled : c.canceled = true)
    (hstarted : c.consumer ≠ .notStarted) (done : Bool) :
    ∃ as c', as.length ≤ 5 ∧ (∀ a ∈ as, a.ofConsumer = true) ∧
      run (Call.step convert bufferSize · done ·) c as = some c' ∧ c'.consumer = .ended := by
  cases hconsumer : c.consumer with
  | notStarted => exact absurd hconsumer hstarted
  | ended => exact ⟨[], c, by simp, by simp, rfl, hconsumer⟩
  | cancel =>
    refine ⟨[.cancel], { c with canceled := true, consumer := .ended }, by decide, by decide, ?_,
      rfl⟩
    simp [run, Call.step, hconsumer]
  | close =>
    refine ⟨[.close, .cancel], { c with closed := true, canceled := true, consumer := .ended },
      by decide, by decide, ?_, rfl⟩
    simp [run, Call.step, hconsumer]
  | receive =>
    refine ⟨[.receiveDone, .close, .cancel],
      { c with closed := true, canceled := true, consumer := .ended },
      by decide, by decide, ?_, rfl⟩
    simp [run, Call.step, hconsumer, hcanceled]
  | count =>
    refine ⟨[.countDropped, .receiveDone, .close, .cancel],
      { c with closed := true, canceled := true, consumer := .ended },
      by decide, by decide, ?_, rfl⟩
    simp [run, Call.step, hconsumer, hcanceled]
  | offer e =>
    by_cases hroom : c.buffer.length < bufferCapacity
    · refine ⟨[.offer, .receiveDone, .close, .cancel],
        { c.offer e with closed := true, canceled := true, consumer := .ended },
        by decide, by decide, ?_, rfl⟩
      simp [run, Call.step, Call.offer, hconsumer, hcanceled, hroom]
    · refine ⟨[.offer, .countDropped, .receiveDone, .close, .cancel],
        { c.offer e with closed := true, canceled := true, consumer := .ended },
        by decide, by decide, ?_, rfl⟩
      simp [run, Call.step, Call.offer, hconsumer, hcanceled, hroom]

/-- When `Receiver` has returned, its context has ended and the goroutine of `consumeReceiver`
ends without waiting for anybody. If it returned no error, the client was sent everything that
was put into the buffer. -/
theorem receiver_returned (hst : Reachable (step counters convert bufferSize) Always {} st)
    {c : Call ε} (hc : c ∈ st.calls) {err : Option GoString} (hreturned : c.pc = .returned err) :
    c.canceled = true ∧
    (err = none → c.sent = c.handoff.kept ∧ c.closed = true) ∧
    (c.consumer ≠ .notStarted → ∃ as c', as.length ≤ 5 ∧ (∀ a ∈ as, a.ofConsumer = true) ∧
      run (Call.step convert bufferSize · st.done ·) c as = some c' ∧ c'.consumer = .ended) := by
  have h := (sound_of_reachable hst).1 c hc
  have hcanceled := h.returned err hreturned
  refine ⟨hcanceled, ?_, fun hstarted => Call.consumer_ends hcanceled hstarted st.done⟩
  rintro rfl
  obtain ⟨hclosed, hbuffer⟩ := h.finished (by rw [hreturned]; rfl)
  have hunsent : c.unsent = [] := by
    by_contra hne
    have hresult := h.unsent hne
    rw [hreturned] at hresult
    cases hresult
  have hbuffered : c.handoff.received ++ c.buffer = c.handoff.kept := h.buffered
  rw [h.received, hunsent, hbuffer, hreturned] at hbuffered
  refine ⟨?_, hclosed⟩
  simpa [Pc.sending] using hbuffered

theorem receiver_returned_oneClient : ∃ c : Call GoString, c.pc = .returned none ∧
    c.canceled = true ∧ c.sent = c.handoff.kept := by
  obtain ⟨st, c, hst, hc, -, hpc, -⟩ := oneClient_outcome
  have h := receiver_returned hst hc hpc
  exact ⟨c, hpc, h.1, (h.2.1 rfl).1⟩

/-- Over a whole run the counters were given the envelopes that all calls have sent and dropped,
but for those that a goroutine is about to count, and what `Alert` was told; and the gauge shows
the calls that have not returned. -/
theorem server_counts (hst : Reachable (step counters convert bufferSize) Always {} st) :
    st.Counted :=
  (sound_of_reachable hst).2

/-- The delta of the first counter has been sent, and is zero again. -/
theorem server_counts_oneClient : ∃ st : State GoString, st.egressMetric.delta = 0 ∧
    sum64 st.egressMetric.increments = 1 ∧ sum64 st.droppedMetric.increments = 3 ∧
    st.Counted := by
  obtain ⟨st, c, hst, -, -, -, hdelta, hegress, hdropped⟩ := oneClient_outcome
  exact ⟨st, hdelta, hegress, hdropped, server_counts hst⟩

end Server

end Loggregator.Rlp.Egress
