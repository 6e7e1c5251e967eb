import Loggregator.Doppler.TruncatingBuffer

/-!
# The count of dropped messages

An overflow reports the number of discarded entries less `queuedInternalMessageCount`, which is
to be the number of the buffer's own notices among them. The counter is an estimate: the notices
are at the front of the queue, and from the number of messages sent since them `Run` infers how
many must have been received. When the channel is full the estimate is exact (`Settled.full`).
But the consumer can receive between the failed send and the discard, and if it takes a notice
then, the counter counts an entry that is not discarded.
-/

namespace Loggregator.Doppler.TruncatingBuffer

open Lib

namespace Overflow

/-- The overflow reports the number of inputs that it discarded, and the subtraction does not
wrap. -/
def Accurate (o : Overflow) : Prop :=
  o.deltaDropped.toNat = inputs o.discarded ∧ o.queuedInternal ≤ o.dropped

/-- The consumer took none of the notices between the failed send and the end of
`dropMessages`. -/
def Undisturbed (o : Overflow) : Prop := notices o.taken = 0

instance (o : Overflow) : Decidable o.Undisturbed := inferInstanceAs (Decidable (_ = _))

/-- The notices that the counter stands for were discarded or taken. -/
structure Exact (o : Overflow) : Prop where
  delta : o.deltaDropped = o.dropped - o.queuedInternal
  dropped : o.dropped.toNat = o.discarded.length
  queued : o.queuedInternal.toNat = notices o.discarded + notices o.taken
  few : o.queuedInternal.toNat ≤ 2

theorem Exact.accurate_iff {o : Overflow} (ho : o.Exact) : o.Accurate ↔ o.Undisturbed := by
  obtain ⟨hdelta, hdropped, hqueued, hfew⟩ := ho
  have hlen := inputs_add_notices o.discarded
  have hlt := o.dropped.toNat_lt
  rw [Accurate, Undisturbed, hdelta, UInt64.toNat_sub, UInt64.le_iff_toNat_le]
  omega

/-- What the report is off by. -/
theorem Exact.delta_add {o : Overflow} (ho : o.Exact) :
    o.deltaDropped + UInt64.ofNat (notices o.taken) = UInt64.ofNat (inputs o.discarded) := by
  obtain ⟨hdelta, hdropped, hqueued, hfew⟩ := ho
  have hlen := inputs_add_notices o.discarded
  have hlt := o.dropped.toNat_lt
  apply UInt64.toNat_inj.mp
  rw [hdelta, UInt64.toNat_add, UInt64.toNat_sub, UInt64.toNat_ofNat', UInt64.toNat_ofNat']
  omega

end Overflow

/-- The message that is being forwarded. -/
def Pc.msg : Pc → Option Entry
  | .forwardMessage msg | .dropMessages msg _ | .emitMessage _ msg => some msg
  | .idle | .returned => none

/-- The queue after `k` notices and then `n` inputs have been sent, some of which were received.
The counter stands at `k`, less what must have been received for the rest to fit. -/
structure Settled (p : Params) (queue : List Entry) (counter : UInt64) (k n : Nat) : Prop where
  few : k ≤ 2
  estimate : counter.toNat = min k (p.bufferSize.toNat - n)
  order : ∃ ns ms, queue = ns ++ ms ∧ notices ns = ns.length ∧ inputs ms = ms.length ∧
    ns.length ≤ k ∧ ms.length ≤ n ∧ (ms.length < n → ns = [])

/-- What the counters say, by the operation of `Run` that comes next. -/
def State.Phase (p : Params) (st : State) : Pc → Prop
  | .idle | .forwardMessage _ | .returned =>
    ∃ k n, Settled p st.queue st.queuedInternalMessageCount k n ∧
      st.sentMessageCount = UInt64.ofNat n
  | .dropMessages _ dropped =>
    st.queuedInternalMessageCount.toNat =
      notices st.queue + notices st.discarding + notices st.taken ∧
    st.queuedInternalMessageCount.toNat ≤ 2 ∧
    dropped.toNat = st.discarding.length ∧
    st.discarding.length + st.queue.length ≤ p.bufferSize.toNat
  | .emitMessage events _ => ∃ k, Settled p st.queue st.queuedInternalMessageCount k 0 ∧
    k + events.length ≤ 2

theorem State.phase_congr {p : Params} {st st' : State} (hqueue : st'.queue = st.queue)
    (hsent : st'.sentMessageCount = st.sentMessageCount)
    (hcounter : st'.queuedInternalMessageCount = st.queuedInternalMessageCount)
    (hdiscarding : st'.discarding = st.discarding) (htaken : st'.taken = st.taken) (pc : Pc) :
    st.Phase p pc ↔ st'.Phase p pc := by
  cases pc <;> simp only [State.Phase, hqueue, hsent, hcounter, hdiscarding, htaken]

structure Counted (p : Params) (st : State) : Prop where
  room : st.queue.length ≤ p.bufferSize.toNat
  msg : ∀ msg ∈ st.pc.msg, inputs [msg] = 1
  phase : st.Phase p st.pc
  exact : ∀ o ∈ st.overflows, o.Exact
  discarded : st.discarded.map Prod.snd = st.overflows.flatMap Overflow.discarded ++
    (if st.pc.Dropping then st.discarding else [])
  total : st.droppedMessageCount +
      UInt64.ofNat (notices (st.overflows.flatMap Overflow.taken)) =
    UInt64.ofNat (inputs (st.overflows.flatMap Overflow.discarded))

section Settled

variable {p : Params} {queue : List Entry} {counter : UInt64} {k n : Nat}

theorem length_of_inputs {ms : List Entry} (h : inputs ms = ms.length) : notices ms = 0 := by
  have := inputs_add_notices ms
  omega

/-- With a full channel the counter is the number of notices in it. -/
theorem Settled.full (hs : Settled p queue counter k n)
    (hfull : queue.length = p.bufferSize.toNat) : counter.toNat = notices queue := by
  obtain ⟨hfew, hcounter, ns, ms, happ, hns, hms, hk, hn, hgone⟩ := hs
  have hno := length_of_inputs hms
  have hlen : ns.length + ms.length = p.bufferSize.toNat := by
    rw [← List.length_append, ← happ, hfull]
  rw [hcounter, happ, notices_append, hns, hno]
  by_cases hlt : ms.length < n
  · -- an input has been received, and so all notices before it
    rw [hgone hlt] at hlen ⊢
    simp only [List.length_nil] at hlen ⊢
    omega
  · omega

/-- A receive takes the oldest entry. -/
theorem Settled.receive {entry : Entry} (hs : Settled p (entry :: queue) counter k n) :
    Settled p queue counter k n := by
  obtain ⟨hfew, hcounter, ns, ms, happ, hns, hms, hk, hn, hgone⟩ := hs
  refine ⟨hfew, hcounter, ?_⟩
  cases ns with
  | cons e ns =>
    simp only [List.cons_append, List.cons.injEq] at happ
    obtain ⟨rfl, rfl⟩ := happ
    have htail : notices ns = ns.length := by
      have h₁ := inputs_add_notices [entry]
      have h₂ := inputs_add_notices ns
      rw [notices_cons, List.length_cons] at hns
      simp only [List.length_singleton] at h₁
      omega
    refine ⟨ns, ms, rfl, htail, hms, Nat.le_of_succ_le hk, hn, ?_⟩
    intro hlt
    cases hgone hlt
  | nil =>
    simp only [List.nil_append] at happ
    subst happ
    have htail : inputs queue = queue.length := by
      have h₁ := inputs_add_notices [entry]
      have h₂ := inputs_add_notices queue
      rw [← List.singleton_append, inputs_append, List.length_append] at hms
      omega
    exact ⟨[], queue, rfl, rfl, htail, hk, Nat.le_of_succ_le hn, fun _ => rfl⟩

/-- An input is sent. -/
theorem Settled.sent (hs : Settled p queue counter k n) {msg : Entry} (hmsg : inputs [msg] = 1) :
    Settled p (queue ++ [msg])
      (if 0 < counter ∧ p.bufferSize < UInt64.ofNat n + 1 + counter then counter - 1
      else counter) k (n + 1) := by
  obtain ⟨hfew, hcounter, ns, ms, happ, hns, hms, hk, hn, hgone⟩ := hs
  refine ⟨hfew, ?_, ns, ms ++ [msg], ?_, hns, ?_, hk, ?_, ?_⟩
  · have hsize := p.lt_int
    by_cases hpos : 0 < counter.toNat
    · -- the counter is positive, so few messages were sent and nothing wraps
      have hn' : n < p.bufferSize.toNat := by omega
      have hsum : (UInt64.ofNat n + 1 + counter).toNat = n + 1 + counter.toNat := by
        rw [UInt64.toNat_add, UInt64.toNat_add, UInt64.toNat_ofNat', UInt64.toNat_one]
        omega
      have hone : (counter - 1).toNat = counter.toNat - 1 := by
        rw [UInt64.toNat_sub, UInt64.toNat_one]
        omega
      simp only [UInt64.lt_iff_toNat_lt, hsum, UInt64.toNat_zero]
      split
      · rw [hone]
        omega
      · omega
    · rw [if_neg (by simp only [UInt64.lt_iff_toNat_lt, UInt64.toNat_zero]; omega)]
      omega
  · rw [happ, List.append_assoc]
  · rw [inputs_append, hms, hmsg, List.length_append, List.length_singleton]
  · rw [List.length_append, List.length_singleton]
    omega
  · intro hlt
    rw [List.length_append, List.length_singleton] at hlt
    exact hgone (by omega)

/-- A notice is sent, before any input. -/
theorem Settled.emit (hs : Settled p queue counter k 0) (hk : k < 2) (time : Nat)
    (env : Events.Envelope) :
    Settled p (queue ++ [Entry.notice time env]) (counter + 1) (k + 1) 0 := by
  obtain ⟨hfew, hcounter, ns, ms, happ, hns, hms, hk', hn, hgone⟩ := hs
  cases List.length_eq_zero_iff.mp (Nat.le_zero.mp hn)
  have hsize := p.three_le
  refine ⟨hk, ?_, ns ++ [.notice time env], [], ?_, ?_, rfl, ?_, Nat.le_refl _, ?_⟩
  · rw [UInt64.toNat_add, hcounter, UInt64.toNat_one]
    omega
  · rw [happ, List.append_nil, List.append_nil]
  · rw [notices_append, hns, List.length_append]
    rfl
  · rw [List.length_append, List.length_singleton]
    omega
  · simp

/-- The message behind the notices. -/
theorem Settled.write (hs : Settled p queue counter k 0) {msg : Entry} (hmsg : inputs [msg] = 1) :
    Settled p (queue ++ [msg]) counter k 1 := by
  obtain ⟨hfew, hcounter, ns, ms, happ, hns, hms, hk, hn, -⟩ := hs
  cases List.length_eq_zero_iff.mp (Nat.le_zero.mp hn)
  have hsize := p.three_le
  refine ⟨hfew, by omega, ns, [msg], by rw [happ, List.append_nil], hns, hmsg, hk,
    Nat.le_refl _, ?_⟩
  simp

end Settled

section Counted

variable {p : Params} {st st' : State}

theorem counted_initial (p : Params) : Counted p {} := by
  refine ⟨Nat.zero_le _, by simp [Pc.msg], ⟨0, 0, ⟨by omega, by simp, [], [], rfl, rfl, rfl, ?_⟩,
    rfl⟩, by simp, by simp [Pc.Dropping], by simp⟩
  simp

theorem notifyMessagesDropped_length (context : BufferContext) (delta total : UInt64)
    (appId : GoString) (now : Int64) :
    (notifyMessagesDropped context delta total appId now).length ≤ 2 := by
  unfold notifyMessagesDropped
  split <;> split <;> simp

section

variable (hc : Counted p st)
include hc

/-- Between two overflows, without a send. -/
theorem Counted.goto (pc : Pc) (hold : ¬ st.pc.Dropping) (hnew : ¬ pc.Dropping)
    (hmsg : ∀ msg ∈ pc.msg, inputs [msg] = 1) (hphase : st.Phase p st.pc → st.Phase p pc)
    (allowed : List (Nat × Events.Envelope)) (n t : Nat) :
    Counted p { st with pc := pc, allowed := allowed, inputs := n, time := t } := by
  refine ⟨hc.room, hmsg, ?_, hc.exact, ?_, hc.total⟩
  · exact (State.phase_congr rfl rfl rfl rfl rfl _).mp (hphase hc.phase)
  · have := hc.discarded
    rw [if_neg hold] at this
    simp only [if_neg hnew]
    exact this

/-- A send between two overflows. -/
theorem Counted.send (hroom : st.Room p) (pc : Pc) (hold : ¬ st.pc.Dropping) (hnew : ¬ pc.Dropping)
    (hmsg : ∀ msg ∈ pc.msg, inputs [msg] = 1) (entry : Entry) (sent queuedInternal : UInt64)
    (t : Nat)
    (hphase : State.Phase p { st with
      queue := st.queue ++ [entry], sentMessageCount := sent,
      queuedInternalMessageCount := queuedInternal } pc) :
    Counted p { st with
      queue := st.queue ++ [entry], sentMessageCount := sent,
      queuedInternalMessageCount := queuedInternal, pc := pc, time := t } := by
  refine ⟨?_, hmsg, ?_, hc.exact, ?_, hc.total⟩
  · simp only [List.length_append, List.length_singleton]
    exact hroom
  · exact (State.phase_congr rfl rfl rfl rfl rfl _).mp hphase
  · have := hc.discarded
    rw [if_neg hold] at this
    simp only [if_neg hnew]
    exact this

/-- A receive. -/
theorem Counted.receive {entry : Entry} {queue : List Entry} (hqueue : st.queue = entry :: queue) :
    Counted p (st.receive entry queue) := by
  have hroom := hc.room
  rw [hqueue, List.length_cons] at hroom
  refine ⟨Nat.le_of_succ_le hroom, hc.msg, ?_, hc.exact, hc.discarded, hc.total⟩
  have hphase := hc.phase
  simp only [State.receive]
  cases hpc : st.pc with
  | idle | forwardMessage _ | returned =>
    rw [hpc] at hphase
    obtain ⟨k, n, hs, hn⟩ := hphase
    rw [hqueue] at hs
    exact ⟨k, n, hs.receive, hn⟩
  | emitMessage events msg =>
    rw [hpc] at hphase
    obtain ⟨k, hs, hk⟩ := hphase
    rw [hqueue] at hs
    exact ⟨k, hs.receive, hk⟩
  | dropMessages msg dropped =>
    rw [hpc] at hphase
    obtain ⟨hcounter, hfew, hdropped, hlen⟩ := hphase
    rw [hqueue, notices_cons] at hcounter
    rw [hqueue, List.length_cons] at hlen
    refine ⟨?_, hfew, hdropped, by simp only; omega⟩
    simp only [if_pos (show Pc.Dropping (.dropMessages msg dropped) from trivial), notices_append]
    omega

/-- In the emit phase fewer entries are queued than the least buffer size. -/
theorem Counted.room_of_emit {events : List Event} {msg : Entry}
    (hpc : st.pc = .emitMessage events msg) : st.Room p := by
  have hphase := hc.phase
  rw [hpc] at hphase
  obtain ⟨k, ⟨hfew, -, ns, ms, hqueue, -, -, hns, hms, -⟩, -⟩ := hphase
  have hsize := p.three_le
  rw [State.Room, hqueue, List.length_append]
  omega

/-- At a failed send the channel is full, and the counter is the number of notices in it. -/
theorem Counted.notices_of_full {msg : Entry} (hpc : st.pc = .forwardMessage msg)
    (hfull : ¬ st.Room p) :
    st.queuedInternalMessageCount.toNat = notices st.queue := by
  have hphase := hc.phase
  rw [hpc] at hphase
  obtain ⟨k, n, hs, -⟩ := hphase
  exact hs.full (Nat.le_antisymm hc.room (Nat.not_lt.mp hfull))

/-- The failed send. -/
theorem Counted.full {msg : Entry} (hpc : st.pc = .forwardMessage msg) (hfull : ¬ st.Room p)
    (t : Nat) : Counted p { st with
      pc := .dropMessages msg 0, discarding := [], taken := [], time := t } := by
  have hphase := hc.phase
  have hmsg := hc.msg
  have hdiscarded := hc.discarded
  rw [hpc] at hphase hmsg hdiscarded
  obtain ⟨k, n, hs, -⟩ := hphase
  have hlen : st.queue.length = p.bufferSize.toNat := Nat.le_antisymm hc.room (Nat.not_lt.mp hfull)
  have hcounter := hc.notices_of_full hpc hfull
  refine ⟨hc.room, hmsg, ⟨?_, ?_, rfl, ?_⟩, hc.exact, ?_, hc.total⟩
  · simpa using hcounter
  · have hest := hs.estimate
    have hfew := hs.few
    simp only
    omega
  · simp [hlen]
  · simpa [Pc.Dropping] using hdiscarded

/-- One turn of `dropMessages`. -/
theorem Counted.discard {msg entry : Entry} {dropped : UInt64} {queue : List Entry}
    (hpc : st.pc = .dropMessages msg dropped) (hqueue : st.queue = entry :: queue) (time t : Nat) :
    Counted p { st with
      queue := queue
      pc := .dropMessages msg (dropped + 1)
      discarded := st.discarded ++ [(time, entry)]
      discarding := st.discarding ++ [entry]
      time := t } := by
  have hphase := hc.phase
  have hmsg := hc.msg
  have hdiscarded := hc.discarded
  have hroom := hc.room
  have hsize := p.lt_int
  rw [hpc] at hphase hmsg hdiscarded
  obtain ⟨hcounter, hfew, hdropped, hlen⟩ := hphase
  rw [hqueue, notices_cons] at hcounter
  rw [hqueue, List.length_cons] at hlen hroom
  refine ⟨Nat.le_of_succ_le hroom, hmsg, ⟨?_, hfew, ?_, ?_⟩, hc.exact, ?_, hc.total⟩
  · simp only [notices_append]
    omega
  · simp only [List.length_append, List.length_singleton]
    rw [UInt64.toNat_add, hdropped, UInt64.toNat_one]
    omega
  · simp only [List.length_append, List.length_singleton]
    omega
  · simp only [if_pos (show Pc.Dropping (.dropMessages msg dropped) from trivial)] at hdiscarded
    simp only [List.map_append, hdiscarded, List.map_cons, List.map_nil, List.append_assoc,
      if_pos (show Pc.Dropping (.dropMessages msg (dropped + 1)) from trivial)]

/-- The end of `dropMessages`. -/
theorem Counted.report {msg : Entry} {dropped : UInt64} (hpc : st.pc = .dropMessages msg dropped)
    (hqueue : st.queue = []) {events : List Event} (hevents : events.length ≤ 2) (t : Nat) :
    Counted p { st with
      queuedInternalMessageCount := 0
      droppedMessageCount := st.droppedMessageCount + (dropped - st.queuedInternalMessageCount)
      pc := .emitMessage events msg
      overflows := st.overflows ++ [⟨dropped - st.queuedInternalMessageCount, dropped,
        st.queuedInternalMessageCount, st.discarding, st.taken⟩]
      time := t } := by
  have hphase := hc.phase
  have hmsg := hc.msg
  have hdiscarded := hc.discarded
  have htotal := hc.total
  rw [hpc] at hphase hmsg hdiscarded
  obtain ⟨hcounter, hfew, hdropped, hlen⟩ := hphase
  rw [hqueue, notices_nil, Nat.zero_add] at hcounter
  have hexact : Overflow.Exact ⟨dropped - st.queuedInternalMessageCount, dropped,
      st.queuedInternalMessageCount, st.discarding, st.taken⟩ := ⟨rfl, hdropped, hcounter, hfew⟩
  refine ⟨by simp [hqueue], hmsg, ⟨0, ⟨by omega, by simp, [], [], ?_⟩, by omega⟩, ?_, ?_, ?_⟩
  · simp [hqueue]
  · intro o ho
    rcases List.mem_append.mp ho with ho | ho
    · exact hc.exact o ho
    · cases List.mem_singleton.mp ho
      exact hexact
  · rw [hdiscarded, if_pos (show Pc.Dropping (.dropMessages msg dropped) from trivial)]
    simp [Pc.Dropping]
  · -- the new overflow adds its own discrepancy
    have hdelta := hexact.delta_add
    simp only [List.flatMap_append, notices_append, inputs_append, List.flatMap_singleton,
      UInt64.ofNat_add] at htotal hdelta ⊢
    rw [← htotal, ← hdelta]
    ac_rfl

theorem counted_step {a : Action} (h : step p st a = some st') :
    Counted p st' := by
  cases step_cases h with
  | skip hpc hnot =>
    have hg := hc.goto .idle (by simp [hpc, Pc.Dropping]) (by simp [Pc.Dropping])
      (by simp [Pc.msg]) (by rw [hpc]; exact id) st.allowed (st.inputs + 1) st.time
    rwa [← hpc] at hg
  | take hpc hallowed =>
    refine hc.goto _ (by simp [hpc, Pc.Dropping]) (by simp [Pc.Dropping]) ?_ (by rw [hpc]; exact id)
      _ _ _
    simp [Pc.msg, inputs, Entry.isInput]
  | stop hpc =>
    exact hc.goto _ (by simp [hpc, Pc.Dropping]) (by simp [Pc.Dropping]) (by simp [Pc.msg])
      (by rw [hpc]; exact id) _ _ _
  | sent hpc hroom =>
    have hphase := hc.phase
    have hmsg := hc.msg
    rw [hpc] at hphase hmsg
    obtain ⟨k, n, hs, hn⟩ := hphase
    refine hc.send hroom _ (by simp [hpc, Pc.Dropping]) (by simp [Pc.Dropping])
      (by simp [Pc.msg]) _ _ _ _ ⟨k, n + 1, ?_, ?_⟩
    · simp only [hn]
      exact hs.sent (hmsg _ rfl)
    · simp [hn, UInt64.ofNat_add]
  | full hpc hfull => exact hc.full hpc hfull _
  | discard hpc hqueue => exact hc.discard hpc hqueue _ _
  | report hpc hqueue => exact hc.report hpc hqueue (notifyMessagesDropped_length _ _ _ _ _) _
  | unwrapped hpc hwrap =>
    have hmsg := hc.msg
    rw [hpc] at hmsg
    refine hc.goto _ (by simp [hpc, Pc.Dropping]) (by simp [Pc.Dropping]) (by exact hmsg) ?_ _ _ _
    rw [hpc]
    rintro ⟨k, hs, hk⟩
    rw [List.length_cons] at hk
    exact ⟨k, hs, by omega⟩
  | emit hpc hwrap hroom =>
    have hphase := hc.phase
    have hmsg := hc.msg
    rw [hpc] at hphase hmsg
    obtain ⟨k, hs, hk⟩ := hphase
    rw [List.length_cons] at hk
    exact hc.send hroom _ (by simp [hpc, Pc.Dropping]) (by simp [Pc.Dropping]) (by exact hmsg)
      _ _ _ _ ⟨k + 1, hs.emit (by omega) _ _, by omega⟩
  | write hpc hroom =>
    have hphase := hc.phase
    have hmsg := hc.msg
    rw [hpc] at hphase hmsg
    obtain ⟨k, hs, -⟩ := hphase
    refine hc.send hroom _ (by simp [hpc, Pc.Dropping]) (by simp [Pc.Dropping])
      (by simp [Pc.msg]) _ _ _ _ ⟨k, 1, ?_, rfl⟩
    exact hs.write (hmsg _ rfl)
  | lost hpc hfull => exact absurd (hc.room_of_emit hpc) hfull
  | receive hqueue => exact hc.receive hqueue

end

theorem counted_of_reachable (h : Reachable (step p) Always {} st) : Counted p st :=
  h.invariant (counted_initial p) (fun _ _ _ hc _ hs => counted_step hc hs)

end Counted

/-- Every overflow is reported accurately and, but during `dropMessages`, `droppedMessageCount` is
the number of inputs discarded so far, modulo `2 ^ 64`. -/
def State.Accurate (st : State) : Prop :=
  (∀ o ∈ st.overflows, o.Accurate) ∧
  (¬ st.pc.Dropping →
    st.droppedMessageCount = UInt64.ofNat (TruncatingBuffer.inputs (st.discarded.map Prod.snd)))

/-- No overflow was disturbed. -/
def State.Undisturbed (st : State) : Prop := ∀ o ∈ st.overflows, o.Undisturbed

instance (st : State) : Decidable st.Undisturbed :=
  inferInstanceAs (Decidable (∀ o ∈ st.overflows, o.Undisturbed))

theorem Counted.total_of_undisturbed {p : Params} {st : State} (hc : Counted p st)
    (hu : st.Undisturbed) (hpc : ¬ st.pc.Dropping) :
    st.droppedMessageCount = UInt64.ofNat (inputs (st.discarded.map Prod.snd)) := by
  have htaken : notices (st.overflows.flatMap Overflow.taken) = 0 := by
    rw [notices, List.countP_eq_zero]
    intro e he
    obtain ⟨o, ho, he⟩ := List.mem_flatMap.mp he
    exact List.countP_eq_zero.mp (hu o ho) e he
  have htotal := hc.total
  rw [htaken] at htotal
  rw [hc.discarded, if_neg hpc, List.append_nil, ← htotal]
  simp

/-- The accounting is right exactly when the consumer never receives one of the buffer's notices
between a failed send and the end of its `dropMessages`. This holds of each overflow on its own,
and of the run. -/
theorem drop_accounting (p : Params) {st : State} (hst : Reachable (step p) Always {} st) :
    (∀ o ∈ st.overflows, o.Accurate ↔ o.Undisturbed) ∧ (st.Accurate ↔ st.Undisturbed) := by
  have hc := counted_of_reachable hst
  have heach : ∀ o ∈ st.overflows, o.Accurate ↔ o.Undisturbed :=
    fun o ho => (hc.exact o ho).accurate_iff
  refine ⟨heach, ?_, ?_⟩
  · intro ha o ho
    exact (heach o ho).mp (ha.1 o ho)
  · intro hu
    exact ⟨fun o ho => (heach o ho).mpr (hu o ho), hc.total_of_undisturbed hu⟩

/-- An emitter that fills in the event and leaves the rest of the envelope absent. -/
def plainEmitter : Emitter where
  wrap := fun event origin now => some (match event with
    | .logMessage m =>
      { origin := origin, eventType := .logMessage, timestamp := now, logMessage := some m }
    | .counterEvent c =>
      { origin := origin, eventType := .counterEvent, timestamp := now, counterEvent := some c })
  carries_wrap := by
    intro event origin now env henv
    cases event <;> cases henv <;> exact ⟨rfl, rfl⟩

/-- The smallest buffer with the default context. -/
def smallestBuffer : Params where
  emitter := plainEmitter
  context := defaultContext (fun _ => str "app") (str "doppler") (str "127.0.0.1")
  bufferSize := 3
  three_le := by decide
  lt_int := by decide

/-- An input that does not fail to be sent, or does. -/
def sendInput : List Action := [.input { eventType := .valueMetric }, .run 0]

/-- Three inputs fill the buffer and the fourth overflows it. The consumer takes an input during
`dropMessages`. -/
def overflowWithReceive : List Action :=
  sendInput ++ sendInput ++ sendInput ++ sendInput ++
    [.receive, .run 0, .run 0, .run 0, .run 0, .run 0, .run 0]

theorem overflowWithReceive_accurate :
    ∃ st, run (step smallestBuffer) {} overflowWithReceive = some st ∧
      st.overflows.length = 1 ∧ st.droppedMessageCount = 2 ∧ st.Accurate := by
  have hrun : (run (step smallestBuffer) {} overflowWithReceive).map
      (fun st => (st.overflows.length, st.droppedMessageCount, decide st.Undisturbed)) =
      some (1, 2, true) := by decide
  obtain ⟨st, hst, hfinal⟩ := Option.map_eq_some_iff.mp hrun
  simp only [Prod.mk.injEq, decide_eq_true_eq] at hfinal
  obtain ⟨hoverflows, hdropped, hu⟩ := hfinal
  exact ⟨st, hst, hoverflows, hdropped,
    (drop_accounting smallestBuffer (Reachable.refl.of_run hst)).2.mpr hu⟩

/-- After an overflow the queue holds two notices and an input. The next send fails, and then the
consumer drains the queue before `dropMessages`. -/
def drainedOverflow : List Action :=
  sendInput ++ sendInput ++ sendInput ++ sendInput ++
    [.run 0, .run 0, .run 0, .run 0, .run 0, .run 0, .run 0] ++ sendInput ++
    [.receive, .receive, .receive, .run 0]

/-- Nothing is discarded, `0 - 2` wraps and the total goes down from three to one. -/
theorem drainedOverflow_wraps :
    ∃ st, run (step smallestBuffer) {} drainedOverflow = some st ∧
      (∃ o ∈ st.overflows, o.discarded = [] ∧ o.queuedInternal = 2 ∧ o.dropped = 0 ∧
        o.deltaDropped = 18446744073709551614 ∧ ¬ o.Accurate) ∧
      inputs (st.discarded.map Prod.snd) = 3 ∧ st.droppedMessageCount = 1 ∧ ¬ st.Accurate := by
  have hrun : (run (step smallestBuffer) {} drainedOverflow).map
      (fun st => (st.overflows.map (fun o =>
        (o.discarded.length, o.queuedInternal, o.dropped, o.deltaDropped)),
        inputs (st.discarded.map Prod.snd), st.droppedMessageCount)) =
      some ([(3, 0, 3, 3), (0, 2, 0, 18446744073709551614)], 3, 1) := by decide
  obtain ⟨st, hst, hfinal⟩ := Option.map_eq_some_iff.mp hrun
  simp only [Prod.mk.injEq] at hfinal
  obtain ⟨hoverflows, hdiscarded, hdropped⟩ := hfinal
  have hmem : (0, 2, 0, 18446744073709551614) ∈ st.overflows.map (fun o =>
      (o.discarded.length, o.queuedInternal, o.dropped, o.deltaDropped)) := by
    rw [hoverflows]
    decide
  obtain ⟨o, ho, heq⟩ := List.mem_map.mp hmem
  simp only [Prod.mk.injEq] at heq
  obtain ⟨hnone, hqueued, hzero, hdelta⟩ := heq
  have hbad : ¬ o.Accurate := by
    intro ha
    have := ha.2
    rw [hqueued, hzero] at this
    exact absurd this (by decide)
  exact ⟨st, hst, ⟨o, ho, List.length_eq_zero_iff.mp hnone, hqueued, hzero, hdelta, hbad⟩,
    hdiscarded, hdropped, fun ha => hbad (ha.1 o ho)⟩

/-! ## The estimate -/

/-- Whenever `forwardMessage` finds the output channel full, `queuedInternalMessageCount` is the
number of the buffer's own notices in it. -/
theorem queuedInternalMessageCount_of_full (p : Params) {st : State}
    (hst : Reachable (step p) Always {} st) {msg : Entry} (hpc : st.pc = .forwardMessage msg)
    (hfull : ¬ st.Room p) : st.queuedInternalMessageCount.toNat = notices st.queue :=
  (counted_of_reachable hst).notices_of_full hpc hfull

/-- An overflow leaves two notices and an input, and the next input finds the channel full. -/
def secondOverflow : List Action :=
  sendInput ++ sendInput ++ sendInput ++ sendInput ++
    [.run 0, .run 0, .run 0, .run 0, .run 0, .run 0, .run 0, .input { eventType := .valueMetric }]

theorem secondOverflow_exact :
    ∃ st, run (step smallestBuffer) {} secondOverflow = some st ∧
      st.queuedInternalMessageCount = 2 ∧
      st.queuedInternalMessageCount.toNat = notices st.queue := by
  have hrun : (run (step smallestBuffer) {} secondOverflow).map
      (fun st => (st.pc matches .forwardMessage _, decide (st.Room smallestBuffer),
        st.queuedInternalMessageCount)) = some (true, false, 2) := by decide
  obtain ⟨st, hst, hfinal⟩ := Option.map_eq_some_iff.mp hrun
  simp only [Prod.mk.injEq, decide_eq_false_iff_not] at hfinal
  obtain ⟨hforward, hfull, hcounter⟩ := hfinal
  cases hpc : st.pc with
  | forwardMessage msg =>
    exact ⟨st, hst, hcounter,
      queuedInternalMessageCount_of_full smallestBuffer (Reachable.refl.of_run hst) hpc hfull⟩
  | _ => simp [hpc] at hforward

end Loggregator.Doppler.TruncatingBuffer
