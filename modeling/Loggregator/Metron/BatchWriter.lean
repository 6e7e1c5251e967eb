import Loggregator.Lib.Handoff
import Loggregator.Lib.LengthPrefix
import Loggregator.Lib.Transition

/-!
# The writer of batches

`metron/internal/egress/v1/writer.go`. Any number of goroutines call `Writer.Write`, which appends a
message to the buffer. A message that does not fit takes the buffer with it: a goroutine tries at
most five times to write the batch, and drops it after that. The goroutine of the timer writes what
is in the buffer, and tries again later if it cannot. It holds the lock while it writes.
-/

namespace Loggregator.Metron.BatchWriter

open Lib LengthPrefix

/-! ## Model -/

/-- `maxOverflowTries`. -/
def maxOverflowTries : Nat := 5

/-- `minBufferCapacity`. -/
def minBufferCapacity : Nat := 1024

/-- A message with the counters that are to be sent with it. -/
structure Entry (γ : Type) where
  message : GoString
  chainers : List γ
  deriving DecidableEq

/-- What is passed to the output: the bytes, the number of messages and the counters. The code does
not have `entries`: what they are of. -/
structure Batch (γ : Type) where
  bytes : GoString := []
  count : UInt64 := 0
  chainers : List γ := []
  entries : List (Entry γ) := []
  deriving DecidableEq

/-- A batch that has been taken out of the buffer. -/
inductive Status where
  /-- Its goroutine is before `retryWrites`. -/
  | started
  /-- In `outWriter.Write`, after a number of tries that have failed. -/
  | trying (i : Nat)
  | delivered
  | dropped
  deriving DecidableEq

/-- The goroutine of `flushOnTimer`: it waits for the timer or for the lock, or it is in
`outWriter.Write`. -/
inductive Flusher where
  | idle
  | locking
  | writing
  deriving DecidableEq

/-- A call of `outWriter.Write` that has returned. -/
structure Call (γ : Type) where
  bytes : GoString
  chainers : List γ
  ok : Bool
  deriving DecidableEq

/-- The writer. `buffer` are the fields of `msgBuffer` and `chainers`; `armed` and `tick` are the
timer, which runs or has sent on its channel; `batches` are what was taken out of the buffer, oldest
first; `calls` and `drops` are the records of the calls of `outWriter.Write` and `Drop`, and the
others are the counters of the same names. -/
structure State (γ : Type) where
  buffer : Batch γ := {}
  armed : Bool := false
  tick : Bool := false
  flusher : Flusher := .idle
  stopping : Bool := false
  batches : List (Batch γ × Status) := []
  calls : List (Call γ) := []
  drops : List UInt32 := []
  sentMessages : UInt64 := 0
  sentMessageCount : UInt64 := 0
  retryCount : UInt64 := 0
  deriving DecidableEq

/-- The actions: a call of `Write`, the expiry of the timer, the goroutine of `flushOnTimer` and the
return of its write, the goroutines of the batches and the return of their writes, and a call of
`Stop` and its end. -/
inductive Action (γ : Type) where
  | write (entry : Entry γ)
  | fire
  | receive
  | lock
  | flushed (ok : Bool)
  | start (i : Nat)
  | tried (i : Nat) (ok : Bool)
  | stop
  | stopped
  deriving DecidableEq

variable {γ : Type}

/-- `prefixMessage`. -/
def prefixMessage (msgBytes : GoString) : GoString := pack msgBytes

/-- `messageBuffer.Write`, with the counters. -/
def Batch.write (b : Batch γ) (entry : Entry γ) : Batch γ where
  bytes := b.bytes ++ prefixMessage entry.message
  count := b.count + 1
  chainers := b.chainers ++ entry.chainers
  entries := b.entries ++ [entry]

namespace State

/-- `msgBufferLock` is free. `Write` holds it within one action. -/
def Unlocked (st : State γ) : Prop := st.flusher ≠ .writing ∧ st.stopping = false

instance (st : State γ) : Decidable st.Unlocked := inferInstanceAs (Decidable (_ ∧ _))

/-- `Writer.Write`. -/
def write (capacity : Nat) (st : State γ) (entry : Entry γ) : State γ :=
  if st.buffer.bytes.length + (prefixMessage entry.message).length > capacity then
    { st with batches := st.batches ++ [(st.buffer.write entry, .started)], buffer := {} }
  else
    { st with
      armed := st.armed || st.buffer.count == 0
      buffer := st.buffer.write entry }

/-- A call of `outWriter.Write` returns, and `flushWrite` counts what was sent. -/
def flushWrite (st : State γ) (b : Batch γ) (ok : Bool) : State γ :=
  { st with
    calls := st.calls ++ [⟨b.bytes, b.chainers, ok⟩]
    sentMessages := if ok then st.sentMessages + b.count else st.sentMessages
    sentMessageCount := if ok then st.sentMessageCount + b.count else st.sentMessageCount }

/-- The rest of `flushBuffer`. -/
def flushed (st : State γ) (ok : Bool) : State γ :=
  let st' := { st.flushWrite st.buffer ok with flusher := .idle }
  if ok then { st' with batches := st.batches ++ [(st.buffer, .delivered)], buffer := {} }
  else { st' with retryCount := st.retryCount + 1, armed := true }

/-- The rest of a turn of `retryWrites`, and `Drop` after the last one. -/
def tried (st : State γ) (k : Nat) (b : Batch γ) (i : Nat) (ok : Bool) : State γ :=
  let st' := st.flushWrite b ok
  if ok then { st' with batches := st.batches.set k (b, .delivered) }
  else if i + 1 < maxOverflowTries then
    { st' with retryCount := st.retryCount + 1, batches := st.batches.set k (b, .trying (i + 1)) }
  else
    { st' with
      drops := st.drops ++ [UInt32.ofNat b.count.toNat]
      batches := st.batches.set k (b, .dropped) }

end State

/-- One action, for a buffer of a capacity. -/
def step (capacity : Nat) (st : State γ) : Action γ → Option (State γ)
  | .write entry => if st.Unlocked then some (st.write capacity entry) else none
  | .fire => if st.armed then some { st with armed := false, tick := true } else none
  | .receive =>
    if st.flusher = .idle ∧ st.tick then some { st with flusher := .locking, tick := false }
    else none
  | .lock =>
    if st.flusher = .locking ∧ st.stopping = false then
      if st.buffer.count = 0 then some { st with flusher := .idle }
      else some { st with flusher := .writing }
    else none
  | .flushed ok => if st.flusher = .writing then some (st.flushed ok) else none
  | .start k =>
    match st.batches[k]? with
    | some (b, .started) => some { st with batches := st.batches.set k (b, .trying 0) }
    | _ => none
  | .tried k ok =>
    match st.batches[k]? with
    | some (b, .trying i) => some (st.tried k b i ok)
    | _ => none
  | .stop => if st.Unlocked then some { st with stopping := true, armed := false } else none
  | .stopped =>
    if st.stopping = true ∧ ∀ b ∈ st.batches, ∀ i < maxOverflowTries, b.2 ≠ .trying i then
      some { st with stopping := false }
    else none

/-- `NewWriter`, and its error for a buffer that is too small. -/
def newWriter (capacity : Nat) : Option (State γ) :=
  if capacity < minBufferCapacity then none else some {}

/-! ## What an action can do -/

/-- The actions by what they change. -/
inductive Step (capacity : Nat) (st : State γ) : Action γ → State γ → Prop where
  | overflow {entry : Entry γ} (hlock : st.Unlocked)
      (hfull : capacity < st.buffer.bytes.length + (prefixMessage entry.message).length) :
      Step capacity st (.write entry)
        { st with batches := st.batches ++ [(st.buffer.write entry, .started)], buffer := {} }
  | append {entry : Entry γ} (hlock : st.Unlocked)
      (hfits : st.buffer.bytes.length + (prefixMessage entry.message).length ≤ capacity) :
      Step capacity st (.write entry)
        { st with armed := st.armed || st.buffer.count == 0, buffer := st.buffer.write entry }
  | fire (harmed : st.armed = true) :
      Step capacity st .fire { st with armed := false, tick := true }
  | receive (hidle : st.flusher = .idle) (htick : st.tick = true) :
      Step capacity st .receive { st with flusher := .locking, tick := false }
  | unlock (hlocking : st.flusher = .locking) (hempty : st.buffer.count = 0) :
      Step capacity st .lock { st with flusher := .idle }
  | lock (hlocking : st.flusher = .locking) (hbuffer : st.buffer.count ≠ 0) :
      Step capacity st .lock { st with flusher := .writing }
  | flushed {ok : Bool} (hwriting : st.flusher = .writing) :
      Step capacity st (.flushed ok) (st.flushed ok)
  | start {k : Nat} {b : Batch γ} (hk : st.batches[k]? = some (b, .started)) :
      Step capacity st (.start k) { st with batches := st.batches.set k (b, .trying 0) }
  | tried {k i : Nat} {b : Batch γ} {ok : Bool} (hk : st.batches[k]? = some (b, .trying i)) :
      Step capacity st (.tried k ok) (st.tried k b i ok)
  | stop (hlock : st.Unlocked) :
      Step capacity st .stop { st with stopping := true, armed := false }
  | stopped : Step capacity st .stopped { st with stopping := false }

section Cases

variable {capacity : Nat} {st st' : State γ}

theorem step_cases {a : Action γ} (h : step capacity st a = some st') :
    Step capacity st a st' := by
  cases a with
  | write entry =>
    simp only [step, State.write] at h
    split at h
    · next hlock =>
      split at h
      · next hfull =>
        cases h
        exact .overflow hlock hfull
      · next hfits =>
        cases h
        exact .append hlock (Nat.le_of_not_lt hfits)
    · cases h
  | fire =>
    simp only [step] at h
    split at h
    · next harmed =>
      cases h
      exact .fire harmed
    · cases h
  | receive =>
    simp only [step] at h
    split at h
    · next hreceive =>
      cases h
      exact .receive hreceive.1 hreceive.2
    · cases h
  | lock =>
    simp only [step] at h
    split at h
    · next hlock =>
      split at h
      · next hempty =>
        cases h
        exact .unlock hlock.1 hempty
      · next hbuffer =>
        cases h
        exact .lock hlock.1 hbuffer
    · cases h
  | flushed ok =>
    simp only [step] at h
    split at h
    · next hwriting =>
      cases h
      exact .flushed hwriting
    · cases h
  | start k =>
    simp only [step] at h
    split at h
    · next b hk =>
      cases h
      exact .start hk
    · cases h
  | tried k ok =>
    simp only [step] at h
    split at h
    · next b i hk =>
      cases h
      exact .tried hk
    · cases h
  | stop =>
    simp only [step] at h
    split at h
    · next hlock =>
      cases h
      exact .stop hlock
    · cases h
  | stopped =>
    simp only [step] at h
    split at h
    · cases h
      exact .stopped
    · cases h

end Cases

/-! ## Batches and their messages -/

/-- The fields of a batch are those of its entries. -/
structure Batch.Sound (b : Batch γ) : Prop where
  bytes : b.bytes = packAll (b.entries.map Entry.message)
  count : b.count = UInt64.ofNat b.entries.length
  chainers : b.chainers = b.entries.flatMap Entry.chainers

theorem Batch.sound_empty : Batch.Sound ({} : Batch γ) := ⟨rfl, rfl, rfl⟩

theorem Batch.Sound.write {b : Batch γ} (hb : b.Sound) (entry : Entry γ) :
    (b.write entry).Sound := by
  refine ⟨?_, ?_, ?_⟩
  · rw [Batch.write, hb.bytes, List.map_append, List.map_singleton, packAll_concat]
    rfl
  · rw [Batch.write, hb.count, List.length_append, List.length_singleton, UInt64.ofNat_add]
    rfl
  · rw [Batch.write, hb.chainers, List.flatMap_append, List.flatMap_singleton]

/-- The call that has delivered a batch. -/
def deliveredCall (p : Batch γ × Status) : Option (Call γ) :=
  if p.2 = .delivered then some ⟨p.1.bytes, p.1.chainers, true⟩ else none

/-- The entry of a call of `Write`. -/
def Action.entry : Action γ → Option (Entry γ)
  | .write entry => some entry
  | _ => none

/-- The entries that were accepted in a run. -/
def accepted (as : List (Action γ)) : List (Entry γ) := as.filterMap Action.entry

/-- The entries that were accepted are in the batches and the buffer, and every batch that is
delivered has been passed to the output in one successful call. -/
structure Conserves (as : List (Action γ)) (st : State γ) : Prop where
  order : accepted as = st.batches.flatMap (fun p => p.1.entries) ++ st.buffer.entries
  buffer : st.buffer.Sound
  batches : ∀ p ∈ st.batches, p.1.Sound
  calls : (st.calls.filter (fun c => c.ok)).Perm (st.batches.filterMap deliveredCall)

section Conserves

variable {capacity : Nat} {st st' : State γ} {as : List (Action γ)}

theorem accepted_concat (as : List (Action γ)) (a : Action γ) :
    accepted (as ++ [a]) = accepted as ++ a.entry.toList := by
  cases h : a.entry <;> simp [accepted, h]

variable {a : Action γ} {b : Batch γ}

/-- An action that neither accepts an entry nor changes a batch. -/
theorem Conserves.quiet (hc : Conserves as st) (ha : a.entry = none)
    (hbuffer : st'.buffer = st.buffer) (hbatches : st'.batches = st.batches)
    (hcalls : st'.calls = st.calls) : Conserves (as ++ [a]) st' := by
  refine ⟨?_, ?_, ?_, ?_⟩
  · rw [accepted_concat, ha, hbuffer, hbatches]
    simpa using hc.order
  · rw [hbuffer]
    exact hc.buffer
  · rw [hbatches]
    exact hc.batches
  · rw [hcalls, hbatches]
    exact hc.calls

theorem flatMap_set_entries {l : List (Batch γ × Status)} {k : Nat} {s s' : Status}
    (h : l[k]? = some (b, s)) :
    (l.set k (b, s')).flatMap (fun p => p.1.entries) = l.flatMap (fun p => p.1.entries) := by
  induction l generalizing k with
  | nil => rfl
  | cons p l ih =>
    cases k with
    | zero =>
      cases h
      rfl
    | succ k => rw [List.set_cons_succ, List.flatMap_cons, List.flatMap_cons, ih h]

section

variable (hc : Conserves as st)
include hc

/-- A batch changes its status, with or without a call that has delivered it. -/
theorem Conserves.set (ha : a.entry = none) {k : Nat} {s s' : Status}
    (hk : st.batches[k]? = some (b, s)) (hbuffer : st'.buffer = st.buffer)
    (hbatches : st'.batches = st.batches.set k (b, s'))
    (hcalls : (st'.calls.filter (fun c => c.ok)).Perm (st'.batches.filterMap deliveredCall)) :
    Conserves (as ++ [a]) st' := by
  refine ⟨?_, ?_, ?_, hcalls⟩
  · rw [accepted_concat, ha, hbuffer, hbatches, flatMap_set_entries hk]
    simpa using hc.order
  · rw [hbuffer]
    exact hc.buffer
  · intro p hp
    rw [hbatches] at hp
    obtain hold | rfl := List.mem_or_eq_of_mem_set hp
    · exact hc.batches p hold
    · exact hc.batches (b, s) (List.mem_of_getElem? hk)

theorem Conserves.flushed (ok : Bool) :
    Conserves (as ++ [.flushed ok]) (st.flushed ok) := by
  cases ok with
  | false =>
    refine ⟨?_, hc.buffer, hc.batches, ?_⟩
    · rw [accepted_concat]
      simpa [Action.entry, State.flushed, State.flushWrite] using hc.order
    · simpa [State.flushed, State.flushWrite] using hc.calls
  | true =>
    refine ⟨?_, Batch.sound_empty, ?_, ?_⟩
    · rw [accepted_concat]
      simpa [Action.entry, State.flushed, State.flushWrite] using hc.order
    · intro p hp
      obtain hold | hnew := List.mem_append.mp hp
      · exact hc.batches p hold
      · rw [List.mem_singleton.mp hnew]
        exact hc.buffer
    · have hcalls := hc.calls.append_right [⟨st.buffer.bytes, st.buffer.chainers, true⟩]
      simpa [State.flushed, State.flushWrite, deliveredCall] using hcalls

theorem Conserves.tried {k i : Nat} (ok : Bool) (hk : st.batches[k]? = some (b, .trying i)) :
    Conserves (as ++ [.tried k ok]) (st.tried k b i ok) := by
  cases ok with
  | true =>
    refine hc.set rfl hk rfl rfl ?_
    have hset := filterMap_set_some (f := deliveredCall) (b, .delivered) hk rfl rfl
    have hcalls := hc.calls.append_right [⟨b.bytes, b.chainers, true⟩]
    simpa [State.tried, State.flushWrite] using hcalls.trans hset.symm
  | false =>
    have hcalls : ∀ s, s ≠ .delivered → ((st.flushWrite b false).calls.filter (fun c => c.ok)).Perm
        ((st.batches.set k (b, s)).filterMap deliveredCall) := by
      intro s hs
      rw [filterMap_set_none (f := deliveredCall) (b, s) hk rfl (if_neg hs)]
      simpa [State.flushWrite] using hc.calls
    simp only [State.tried, Bool.false_eq_true, if_false]
    split
    · exact hc.set rfl hk rfl rfl (hcalls (.trying (i + 1)) nofun)
    · exact hc.set rfl hk rfl rfl (hcalls .dropped nofun)

theorem conserves_step (h : step capacity st a = some st') :
    Conserves (as ++ [a]) st' := by
  cases step_cases h with
  | @overflow entry =>
    refine ⟨?_, Batch.sound_empty, ?_, ?_⟩
    · rw [accepted_concat, hc.order]
      simp [Action.entry, Batch.write]
    · intro p hp
      obtain hold | hnew := List.mem_append.mp hp
      · exact hc.batches p hold
      · rw [List.mem_singleton.mp hnew]
        exact hc.buffer.write entry
    · simpa [deliveredCall] using hc.calls
  | @append entry =>
    refine ⟨?_, hc.buffer.write entry, hc.batches, hc.calls⟩
    rw [accepted_concat, hc.order]
    simp [Action.entry, Batch.write]
  | fire | receive | unlock | lock | stop | stopped => exact hc.quiet rfl rfl rfl rfl
  | flushed => exact hc.flushed _
  | @start k b hk =>
    refine hc.set rfl hk rfl rfl ?_
    rw [filterMap_set_none (f := deliveredCall) _ hk rfl rfl]
    exact hc.calls
  | tried hk => exact hc.tried _ hk

end

theorem conserves_run (hrun : run (step capacity) ({} : State γ) as = some st) :
    Conserves as st := by
  refine run_invariant (P := Conserves) ?_ ?_ hrun
  · exact ⟨rfl, Batch.sound_empty, fun _ hp => absurd hp List.not_mem_nil, .nil⟩
  · exact fun _ _ _ _ _ hc hstep => conserves_step hc hstep

end Conserves

/-- The entries that were accepted are in the batches, in the order of their calls and of the
batches, and the rest of them in the buffer. The successful calls of the output are one for each
batch that is delivered, with the counters of its entries, and its messages can be read back from
the bytes. -/
theorem batches_conserve {capacity : Nat} {as : List (Action γ)} {st : State γ}
    (hrun : run (step capacity) {} as = some st) :
    accepted as = st.batches.flatMap (fun p => p.1.entries) ++ st.buffer.entries ∧
    (st.calls.filter (fun c => c.ok)).Perm (st.batches.filterMap deliveredCall) ∧
    ∀ b status, (b, status) ∈ st.batches →
      b.chainers = b.entries.flatMap Entry.chainers ∧
      ((∀ entry ∈ b.entries, entry.message.length < 2 ^ 32) →
        unpack b.bytes = some (b.entries.map Entry.message)) := by
  have hc := conserves_run hrun
  refine ⟨hc.order, hc.calls, ?_⟩
  intro b status hmem
  have hb := hc.batches (b, status) hmem
  refine ⟨hb.chainers, ?_⟩
  intro hlengths
  rw [hb.bytes]
  apply unpack_packAll
  intro message hmessage
  obtain ⟨entry, hentry, rfl⟩ := List.mem_map.mp hmessage
  exact hlengths entry hentry

/-- The smallest buffer: two messages fit, and the third one takes them with it. The batch is
delivered with the second try. Another message is written by the timer. -/
def threeMessages : List (Action Nat) :=
  [.write ⟨str "ab", [1]⟩, .write ⟨str "c", [2]⟩, .write ⟨List.replicate 1015 100, [3]⟩, .start 0,
    .tried 0 false, .write ⟨str "e", [4]⟩, .fire, .receive, .lock, .tried 0 true, .flushed true]

theorem batches_conserve_threeMessages :
    ∃ st₀ st, newWriter minBufferCapacity = some st₀ ∧
      run (step minBufferCapacity) st₀ threeMessages = some st ∧
      st.batches.map (fun p => p.1.entries.length) = [3, 1] ∧
      accepted threeMessages = st.batches.flatMap (fun p => p.1.entries) ++ st.buffer.entries ∧
      (st.calls.filter (fun c => c.ok)).Perm (st.batches.filterMap deliveredCall) := by
  have hmap : (run (step minBufferCapacity) {} threeMessages).map
      (fun st => st.batches.map (fun p => p.1.entries.length)) = some [3, 1] := by decide +kernel
  obtain ⟨st, hrun, hbatches⟩ := Option.map_eq_some_iff.mp hmap
  have h := batches_conserve hrun
  exact ⟨{}, st, rfl, hrun, hbatches, h.1, h.2.1⟩

/-! ## Counters -/

/-- The messages of a batch that is delivered. -/
def deliveredMessages (p : Batch γ × Status) : Nat :=
  if p.2 = .delivered then p.1.entries.length else 0

/-- The call of `Drop` for a batch that was dropped. -/
def droppedCall (p : Batch γ × Status) : Option UInt32 :=
  if p.2 = .dropped then some (UInt32.ofNat p.1.entries.length) else none

/-- The counters are those of the batches and of the calls. -/
structure Counts (st : State γ) : Prop where
  sent : st.sentMessages = UInt64.ofNat (st.batches.map deliveredMessages).sum
  sentCount : st.sentMessageCount = st.sentMessages
  drops : st.drops.Perm (st.batches.filterMap droppedCall)
  retries : st.retryCount + UInt64.ofNat st.drops.length =
    UInt64.ofNat (st.calls.countP (fun c => !c.ok))
  tries : ∀ b i, (b, .trying i) ∈ st.batches → i < maxOverflowTries

section Counts

variable {capacity : Nat} {st st' : State γ}

theorem Counts.quiet (hc : Counts st) (hbatches : st'.batches = st.batches)
    (hcalls : st'.calls = st.calls) (hdrops : st'.drops = st.drops)
    (hsent : st'.sentMessages = st.sentMessages)
    (hcount : st'.sentMessageCount = st.sentMessageCount)
    (hretry : st'.retryCount = st.retryCount) : Counts st' := by
  refine ⟨?_, ?_, ?_, ?_, ?_⟩
  · rw [hsent, hbatches, hc.sent]
  · rw [hcount, hsent, hc.sentCount]
  · rw [hdrops, hbatches]
    exact hc.drops
  · rw [hretry, hdrops, hcalls, hc.retries]
  · rw [hbatches]
    exact hc.tries

/-- A batch is taken out of the buffer and not delivered yet. -/
theorem Counts.overflow (hc : Counts st) (b : Batch γ) :
    Counts { st with batches := st.batches ++ [(b, .started)], buffer := {} } := by
  refine ⟨?_, hc.sentCount, ?_, hc.retries, ?_⟩
  · simpa [deliveredMessages] using hc.sent
  · simpa [droppedCall] using hc.drops
  · intro b' i hmem
    obtain hold | hnew := List.mem_append.mp hmem
    · exact hc.tries b' i hold
    · cases List.mem_singleton.mp hnew

theorem Counts.flushed (hc : Counts st) (hb : st.buffer.Sound) (ok : Bool) :
    Counts (st.flushed ok) := by
  cases ok with
  | true =>
    refine ⟨?_, ?_, ?_, ?_, ?_⟩
    · simp [State.flushed, State.flushWrite, deliveredMessages, hc.sent, hb.count,
        UInt64.ofNat_add]
    · simp [State.flushed, State.flushWrite, hc.sentCount]
    · simpa [State.flushed, State.flushWrite, droppedCall] using hc.drops
    · simpa [State.flushed, State.flushWrite] using hc.retries
    · intro b' i hmem
      obtain hold | hnew := List.mem_append.mp hmem
      · exact hc.tries b' i hold
      · cases List.mem_singleton.mp hnew
  | false =>
    refine ⟨hc.sent, hc.sentCount, hc.drops, ?_, hc.tries⟩
    have hretries := hc.retries
    simp only [State.flushed, State.flushWrite, Bool.false_eq_true, if_false, List.countP_append,
      UInt64.ofNat_add, ← hretries]
    simp only [List.countP_singleton, Bool.not_false, if_true]
    rw [show UInt64.ofNat 1 = 1 from rfl]
    ac_rfl

variable {b : Batch γ}

theorem tries_set {k : Nat} {s : Status}
    (htries : ∀ b i, (b, .trying i) ∈ st.batches → i < maxOverflowTries)
    (hs : ∀ i, s = .trying i → i < maxOverflowTries) :
    ∀ b' i, (b', .trying i) ∈ st.batches.set k (b, s) → i < maxOverflowTries := by
  intro b' i hmem
  obtain hold | heq := List.mem_or_eq_of_mem_set hmem
  · exact htries b' i hold
  · exact hs i (Prod.mk.inj heq).2.symm

theorem Counts.start (hc : Counts st) {k : Nat} (hk : st.batches[k]? = some (b, .started)) :
    Counts { st with batches := st.batches.set k (b, .trying 0) } := by
  have hsum := sum_map_set_add deliveredMessages (b, .trying 0) hk
  refine ⟨?_, hc.sentCount, ?_, hc.retries, ?_⟩
  · rw [hc.sent]
    congr 1
    simpa [deliveredMessages] using hsum.symm
  · rw [filterMap_set_none (f := droppedCall) _ hk rfl rfl]
    exact hc.drops
  · refine tries_set hc.tries ?_
    intro i hi
    cases hi
    decide

theorem Counts.tried (hc : Counts st) {k i : Nat} (hb : b.Sound) (ok : Bool)
    (hk : st.batches[k]? = some (b, .trying i)) : Counts (st.tried k b i ok) := by
  have hretries := hc.retries
  cases ok with
  | true =>
    have hsum := sum_map_set_add deliveredMessages (b, .delivered) hk
    simp only [deliveredMessages, if_true, reduceCtorEq, if_false, Nat.add_zero] at hsum
    refine ⟨?_, ?_, ?_, ?_, ?_⟩
    · simp only [State.tried, State.flushWrite, if_true, hc.sent, hb.count, ← UInt64.ofNat_add]
      congr 1
      exact hsum.symm
    · simp [State.tried, State.flushWrite, hc.sentCount]
    · simp only [State.tried, if_true]
      rw [filterMap_set_none (f := droppedCall) _ hk rfl rfl]
      exact hc.drops
    · simpa [State.tried, State.flushWrite] using hretries
    · simp only [State.tried, if_true]
      exact tries_set hc.tries nofun
  | false =>
    have hsum : ∀ s, s ≠ .delivered →
        ((st.batches.set k (b, s)).map deliveredMessages).sum =
          (st.batches.map deliveredMessages).sum := by
      intro s hs
      have hset := sum_map_set_add deliveredMessages (b, s) hk
      simpa [deliveredMessages, hs] using hset
    have hfailed : UInt64.ofNat ((st.flushWrite b false).calls.countP (fun c => !c.ok)) =
        st.retryCount + UInt64.ofNat st.drops.length + 1 := by
      simp [State.flushWrite, UInt64.ofNat_add, hretries]
    simp only [State.tried, Bool.false_eq_true, if_false]
    split
    · next hmore =>
      refine ⟨?_, ?_, ?_, ?_, tries_set hc.tries (by rintro _ ⟨⟩; exact hmore)⟩
      · rw [hsum (.trying (i + 1)) nofun]
        exact hc.sent
      · exact hc.sentCount
      · rw [filterMap_set_none (f := droppedCall) _ hk rfl rfl]
        exact hc.drops
      · rw [hfailed]
        simp only [State.flushWrite]
        ac_rfl
    · refine ⟨?_, ?_, ?_, ?_, tries_set hc.tries nofun⟩
      · rw [hsum .dropped nofun]
        exact hc.sent
      · exact hc.sentCount
      · have hset := filterMap_set_some (f := droppedCall) (b, .dropped) hk rfl rfl
        have hcount : UInt32.ofNat b.count.toNat = UInt32.ofNat b.entries.length := by
          rw [hb.count, UInt64.toNat_ofNat']
          apply UInt32.toNat_inj.mp
          rw [UInt32.toNat_ofNat', UInt32.toNat_ofNat']
          omega
        rw [hcount]
        exact (hc.drops.append_right _).trans hset.symm
      · rw [hfailed, List.length_append, List.length_singleton, UInt64.ofNat_add,
          show UInt64.ofNat 1 = 1 from rfl]
        simp only [State.flushWrite]
        ac_rfl

theorem counts_step {a : Action γ} {as : List (Action γ)} (hs : Conserves as st) (hc : Counts st)
    (h : step capacity st a = some st') : Counts st' := by
  cases step_cases h with
  | overflow => exact hc.overflow _
  | append | fire | receive | unlock | lock | stop | stopped =>
    exact hc.quiet rfl rfl rfl rfl rfl rfl
  | flushed => exact hc.flushed hs.buffer _
  | start hk => exact hc.start hk
  | tried hk => exact hc.tried (hs.batches _ (List.mem_of_getElem? hk)) _ hk

end Counts

/-- The messages that are counted as sent are those of the batches that are delivered, and `Drop` is
called once for each batch that was given up, with the number of its messages. Every call of the
output that has failed is counted as a retry, but the last one of a batch that is dropped. A batch
that is still tried has failed less than five times. -/
theorem batches_count {capacity : Nat} {as : List (Action γ)} {st : State γ}
    (hrun : run (step capacity) {} as = some st) : Counts st := by
  refine run_invariant (P := fun _ s => Counts s) ?_ ?_ hrun
  · exact ⟨rfl, rfl, .nil, rfl, fun _ _ hp => absurd hp List.not_mem_nil⟩
  · intro as s a s' hs hc hstep
    exact counts_step (conserves_run hs) hc hstep

theorem batches_count_threeMessages :
    ∃ st₀ st, newWriter minBufferCapacity = some st₀ ∧
      run (step minBufferCapacity) st₀ threeMessages = some st ∧ st.sentMessages = 4 ∧
      st.retryCount = 1 ∧ Counts st := by
  have hmap : (run (step minBufferCapacity) {} threeMessages).map
      (fun st => (st.sentMessages, st.retryCount)) = some (4, 1) := by decide +kernel
  obtain ⟨st, hrun, hcounts⟩ := Option.map_eq_some_iff.mp hmap
  simp only [Prod.mk.injEq] at hcounts
  exact ⟨{}, st, rfl, hrun, hcounts.1, hcounts.2, batches_count hrun⟩

/-! ## The timer -/

/-- The buffer fits its capacity, and with a message in it the timer runs, or has sent, or its
goroutine is on its way to the buffer. -/
structure Watched (capacity : Nat) (st : State γ) : Prop where
  buffer : st.buffer.Sound
  fits : st.buffer.bytes.length ≤ capacity
  watched : st.buffer.entries ≠ [] → st.armed = true ∨ st.tick = true ∨ st.flusher ≠ .idle
  running : st.stopping = false

section Watched

variable {capacity : Nat} {st st' : State γ}

/-- The number of messages in the buffer does not wrap around. -/
theorem Watched.count_eq_zero (hw : Watched capacity st) (hcapacity : capacity < 2 ^ 64) :
    st.buffer.count = 0 ↔ st.buffer.entries = [] := by
  have hlength := length_le_packAll (st.buffer.entries.map Entry.message)
  have hfits := hw.fits
  rw [← hw.buffer.bytes, List.length_map] at hlength
  rw [hw.buffer.count, ← List.length_eq_zero_iff]
  constructor
  · intro hzero
    have hmod := congrArg UInt64.toNat hzero
    rw [UInt64.toNat_ofNat', UInt64.toNat_zero] at hmod
    omega
  · intro hzero
    rw [hzero]
    rfl

/-- An action that leaves the buffer. -/
theorem Watched.same (hw : Watched capacity st) (hbuffer : st'.buffer = st.buffer)
    (hstopping : st'.stopping = st.stopping)
    (hwatched : st.armed = true ∨ st.tick = true ∨ st.flusher ≠ .idle →
      st'.armed = true ∨ st'.tick = true ∨ st'.flusher ≠ .idle) : Watched capacity st' := by
  refine ⟨hbuffer ▸ hw.buffer, hbuffer ▸ hw.fits, ?_, hstopping.trans hw.running⟩
  rw [hbuffer]
  exact fun hne => hwatched (hw.watched hne)

theorem watched_step {a : Action γ} (hcapacity : capacity < 2 ^ 64) (hw : Watched capacity st)
    (ha : a ≠ .stop) (h : step capacity st a = some st') : Watched capacity st' := by
  have hempty : ∀ {st' : State γ}, st'.buffer = {} → st'.stopping = st.stopping →
      Watched capacity st' := by
    intro st' hbuffer hstopping
    refine ⟨hbuffer ▸ Batch.sound_empty, ?_, ?_, hstopping.trans hw.running⟩
    · rw [hbuffer]
      exact Nat.zero_le capacity
    · rw [hbuffer]
      exact fun hne => absurd rfl hne
  cases step_cases h with
  | overflow => exact hempty rfl rfl
  | @append entry hlock hfits =>
    refine ⟨hw.buffer.write entry, ?_, ?_, hw.running⟩
    · simpa [Batch.write] using hfits
    · intro _
      by_cases hzero : st.buffer.count = 0
      · exact .inl (by simp [hzero])
      · have hne := mt (hw.count_eq_zero hcapacity).mpr hzero
        exact (hw.watched hne).imp_left (fun harmed => by simp [harmed])
  | fire => exact hw.same rfl rfl (fun _ => .inr (.inl rfl))
  | receive => exact hw.same rfl rfl (fun _ => .inr (.inr nofun))
  | unlock hlocking hzero =>
    have hnil := (hw.count_eq_zero hcapacity).mp hzero
    exact ⟨hw.buffer, hw.fits, fun hne => absurd hnil hne, hw.running⟩
  | lock => exact hw.same rfl rfl (fun _ => .inr (.inr nofun))
  | @flushed ok =>
    cases ok with
    | true => exact hempty rfl rfl
    | false => exact hw.same rfl rfl (fun _ => .inl rfl)
  | start => exact hw.same rfl rfl id
  | @tried k i b ok =>
    have hsame : (st.tried k b i ok).buffer = st.buffer ∧
        (st.tried k b i ok).stopping = st.stopping ∧ (st.tried k b i ok).armed = st.armed ∧
        (st.tried k b i ok).tick = st.tick ∧ (st.tried k b i ok).flusher = st.flusher := by
      unfold State.tried State.flushWrite
      cases ok
      · simp only [Bool.false_eq_true, if_false]
        split <;> exact ⟨rfl, rfl, rfl, rfl, rfl⟩
      · exact ⟨rfl, rfl, rfl, rfl, rfl⟩
    obtain ⟨hbuffer, hstopping, harmed, htick, hflusher⟩ := hsame
    refine hw.same hbuffer hstopping ?_
    rw [harmed, htick, hflusher]
    exact id
  | stop => exact absurd rfl ha
  | stopped => exact ⟨hw.buffer, hw.fits, hw.watched, rfl⟩

theorem watched_run {as : List (Action γ)} (hcapacity : capacity < 2 ^ 64)
    (hrun : run (step capacity) {} as = some st) (hstop : .stop ∉ as) : Watched capacity st := by
  refine run_invariant (P := fun as s => .stop ∉ as → Watched capacity s) ?_ ?_ hrun hstop
  · intro _
    exact ⟨Batch.sound_empty, Nat.zero_le capacity, fun hne => absurd rfl hne, rfl⟩
  · intro as s a s' _ ih hstep hstop
    rw [List.mem_append, List.mem_singleton, not_or] at hstop
    exact watched_step hcapacity (ih hstop.1) (Ne.symm hstop.2) hstep

/-- The write of the buffer succeeds. -/
theorem run_flushed (hwriting : st.flusher = .writing) :
    run (step capacity) st [.flushed true] = some (st.flushed true) := by
  simp [run, step, hwriting]

theorem run_lock (hlocking : st.flusher = .locking) (hrunning : st.stopping = false)
    (hbuffer : st.buffer.count ≠ 0) :
    run (step capacity) st [.lock, .flushed true] =
      some ({ st with flusher := .writing }.flushed true) := by
  have hlock : step capacity st .lock = some { st with flusher := .writing } := by
    simp [step, hlocking, hrunning, hbuffer]
  rw [run_cons hlock]
  exact run_flushed rfl

theorem run_receive (hidle : st.flusher = .idle) (htick : st.tick = true)
    (hrunning : st.stopping = false) (hbuffer : st.buffer.count ≠ 0) :
    run (step capacity) st [.receive, .lock, .flushed true] =
      some ({ st with flusher := .writing, tick := false }.flushed true) := by
  have hreceive : step capacity st .receive =
      some { st with flusher := .locking, tick := false } := by
    simp [step, hidle, htick]
  rw [run_cons hreceive]
  exact run_lock rfl hrunning hbuffer

theorem run_fire (hidle : st.flusher = .idle) (harmed : st.armed = true)
    (hrunning : st.stopping = false) (hbuffer : st.buffer.count ≠ 0) :
    run (step capacity) st [.fire, .receive, .lock, .flushed true] =
      some ({ st with flusher := .writing, tick := false, armed := false }.flushed true) := by
  have hfire : step capacity st .fire = some { st with armed := false, tick := true } := by
    simp [step, harmed]
  rw [run_cons hfire]
  exact run_receive hidle rfl hrunning hbuffer

end Watched

/-- Until the writer is stopped, a message in the buffer is never left alone: the timer runs, or has
sent, or its goroutine is on its way. So the buffer is written when the timer and its goroutine go
on, and no other action has to come before. -/
theorem buffer_flushes {capacity : Nat} (hcapacity : capacity < 2 ^ 64) {as : List (Action γ)}
    {st : State γ} (hrun : run (step capacity) {} as = some st) (hstop : .stop ∉ as)
    (hbuffer : st.buffer.entries ≠ []) :
    ∃ as', as' <:+ [.fire, .receive, .lock, .flushed true] ∧
      ∃ st', run (step capacity) st as' = some st' ∧ st'.buffer = {} ∧
        st'.batches = st.batches ++ [(st.buffer, .delivered)] ∧
        st'.calls = st.calls ++ [⟨st.buffer.bytes, st.buffer.chainers, true⟩] := by
  have hw := watched_run hcapacity hrun hstop
  have hcount := mt (hw.count_eq_zero hcapacity).mp hbuffer
  cases hflusher : st.flusher with
  | writing => exact ⟨_, ⟨[.fire, .receive, .lock], rfl⟩, _, run_flushed hflusher, rfl, rfl, rfl⟩
  | locking =>
    exact ⟨_, ⟨[.fire, .receive], rfl⟩, _, run_lock hflusher hw.running hcount, rfl, rfl, rfl⟩
  | idle =>
    by_cases htick : st.tick = true
    · exact ⟨_, ⟨[.fire], rfl⟩, _, run_receive hflusher htick hw.running hcount, rfl, rfl, rfl⟩
    · obtain harmed | htick' | hnot := hw.watched hbuffer
      · exact ⟨_, ⟨[], rfl⟩, _, run_fire hflusher harmed hw.running hcount, rfl, rfl, rfl⟩
      · exact absurd htick' htick
      · exact absurd hflusher hnot

/-- A message is in the buffer when the write of the one before it has failed. -/
def failedFlush : List (Action Nat) :=
  [.write ⟨str "ab", [1]⟩, .fire, .receive, .lock, .flushed false, .write ⟨str "c", [2]⟩]

theorem buffer_flushes_failedFlush :
    ∃ st, run (step 1024) {} failedFlush = some st ∧ st.buffer.entries ≠ [] ∧
      ∃ as' st', run (step 1024) st as' = some st' ∧
        st'.batches = st.batches ++ [(st.buffer, .delivered)] := by
  have hsome : (run (step 1024) {} failedFlush).map (fun st => decide (st.buffer.entries ≠ [])) =
      some true := by decide +kernel
  obtain ⟨st, hrun, hbuffer⟩ := Option.map_eq_some_iff.mp hsome
  obtain ⟨as', -, st', hflush, -, hbatches, -⟩ :=
    buffer_flushes (by decide) hrun (by decide) (of_decide_eq_true hbuffer)
  exact ⟨st, hrun, of_decide_eq_true hbuffer, as', st', hflush, hbatches⟩

end Loggregator.Metron.BatchWriter
