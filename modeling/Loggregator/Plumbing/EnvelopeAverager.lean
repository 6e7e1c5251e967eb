import Loggregator.Lib.Transition
import Mathlib.Algebra.Order.Field.Rat
import Mathlib.Data.Nat.Bitwise

/-!
# The average size of the envelopes

`plumbing/envelope_averager.go`: two running sums share one word. `Track` adds to both with a
compare and swap, and the goroutine of `Start` takes at each tick what they have grown by since
the tick before.

The two fields do not interfere, and no call of `Track` is lost (`packed_counters`). The count
wraps around after 16 bits and the total after 48. The difference of the counts is taken
in 16 bits and so undoes one wrap; the difference of the totals is taken in 64 bits and does not.
-/

namespace Loggregator.Plumbing.EnvelopeAverager

open Lib

/-! ## The word -/

/-- `countAndTotal.decode`. -/
def decode (u : UInt64) : UInt16 × UInt64 :=
  (((u &&& 0xFFFF000000000000) >>> 48).toUInt16, u &&& 0x0000FFFFFFFFFFFF)

/-- `countAndTotal.encodeDelta`. -/
def encodeDelta (u : UInt64) (count : UInt16) (total : UInt64) : UInt64 :=
  let count' := count + (decode u).1
  let total' := total + (decode u).2
  (count'.toUInt64 <<< 48) + (total' &&& 0x0000FFFFFFFFFFFF)

theorem toNat_decode_fst (u : UInt64) : (decode u).1.toNat = u.toNat / 2 ^ 48 := by
  have hlt := u.toNat_lt
  have hmask : u.toNat >>> 48 &&& 0xFFFF = (u.toNat >>> 48) % 2 ^ 16 :=
    Nat.and_two_pow_sub_one_eq_mod _ 16
  simp only [decode, UInt64.toNat_toUInt16, UInt64.toNat_shiftRight, UInt64.toNat_and,
    Nat.shiftRight_and_distrib]
  rw [show (48 : UInt64).toNat % 64 = 48 from rfl,
    show (0xFFFF000000000000 : UInt64).toNat >>> 48 = 0xFFFF from rfl, hmask,
    Nat.shiftRight_eq_div_pow]
  omega

theorem toNat_decode_snd (u : UInt64) : (decode u).2.toNat = u.toNat % 2 ^ 48 := by
  simp only [decode, UInt64.toNat_and]
  exact Nat.and_two_pow_sub_one_eq_mod u.toNat 48

/-- The count takes the upper 16 bits and the total the lower 48, each modulo its width. -/
theorem toNat_encodeDelta (u : UInt64) (count : UInt16) (total : UInt64) :
    (encodeDelta u count total).toNat =
      (count.toNat + u.toNat / 2 ^ 48) % 2 ^ 16 * 2 ^ 48 +
        (total.toNat + u.toNat % 2 ^ 48) % 2 ^ 48 := by
  have htotal : (total + (decode u).2 &&& 0x0000FFFFFFFFFFFF).toNat =
      (total.toNat + u.toNat % 2 ^ 48) % 2 ^ 64 % 2 ^ 48 := by
    rw [UInt64.toNat_and, UInt64.toNat_add, toNat_decode_snd]
    exact Nat.and_two_pow_sub_one_eq_mod _ 48
  have hcount : ((count + (decode u).1).toUInt64 <<< 48).toNat =
      (count.toNat + u.toNat / 2 ^ 48) % 2 ^ 16 * 2 ^ 48 % 2 ^ 64 := by
    rw [UInt64.toNat_shiftLeft, UInt16.toNat_toUInt64, UInt16.toNat_add, toNat_decode_fst,
      show (48 : UInt64).toNat % 64 = 48 from rfl, Nat.shiftLeft_eq]
  rw [encodeDelta, UInt64.toNat_add, htotal, hcount]
  omega

/-! ## Track and Start -/

/-- A call of `Track`, by the operation that comes next. -/
inductive Pc where
  | load
  | compareAndSwap (current : UInt64)
  | returned
  deriving DecidableEq

/-- A call of `Track` with arguments that are not negative. -/
structure Call where
  count : Nat
  size : Nat
  pc : Pc := .load
  deriving DecidableEq

/-- What the word and the callback have seen: the swap of a call that succeeded, or a tick. -/
inductive Event where
  | tracked (count size : Nat)
  | ticked (average : ℚ)
  deriving DecidableEq

/-- The averager with the calls of `Track`, the variables of the goroutine of `Start` and the
history, the latest event first. -/
structure State where
  storage : UInt64 := 0
  calls : List Call := []
  prevCount : UInt16 := 0
  prevTotal : UInt64 := 0
  log : List Event := []

inductive Action where
  | track (count size : Nat)
  | load (i : Nat)
  | compareAndSwap (i : Nat)
  | tick
  deriving DecidableEq

/-- What is handed to the callback; the division is exact. -/
def average (deltaCount : UInt16) (deltaTotal : UInt64) : ℚ :=
  if deltaCount = 0 then 0 else deltaTotal.toNat / deltaCount.toNat

/-- One atomic operation of a call of `Track`, or one tick of `Start`. -/
def step (st : State) : Action → Option State
  | .track count size => some { st with calls := st.calls ++ [{ count := count, size := size }] }
  | .load i =>
    match st.calls[i]? with
    | some ⟨count, size, .load⟩ =>
      some { st with calls := st.calls.set i ⟨count, size, .compareAndSwap st.storage⟩ }
    | _ => none
  | .compareAndSwap i =>
    match st.calls[i]? with
    | some ⟨count, size, .compareAndSwap current⟩ =>
      if st.storage = current then
        some { st with
          storage := encodeDelta current (UInt16.ofNat count) (UInt64.ofNat size)
          calls := st.calls.set i ⟨count, size, .returned⟩
          log := .tracked count size :: st.log }
      else some { st with calls := st.calls.set i ⟨count, size, .load⟩ }
    | _ => none
  | .tick =>
    let (count, total) := decode st.storage
    some { st with
      prevCount := count
      prevTotal := total
      log := .ticked (average (count - st.prevCount) (total - st.prevTotal)) :: st.log }

/-! ## Intervals -/

/-- The events since the last tick. -/
def interval : List Event → List Event
  | [] => []
  | .ticked _ :: _ => []
  | .tracked count size :: log => .tracked count size :: interval log

/-- The events before the last tick. -/
def past : List Event → List Event
  | [] => []
  | .ticked _ :: log => log
  | .tracked _ _ :: log => past log

/-- The counts tracked, as a number. -/
def counts : List Event → Nat
  | [] => 0
  | .ticked _ :: log => counts log
  | .tracked count _ :: log => count + counts log

/-- The sizes tracked, as a number. -/
def sizes : List Event → Nat
  | [] => 0
  | .ticked _ :: log => sizes log
  | .tracked _ size :: log => size + sizes log

/-- The average of what was tracked. -/
def exactAverage (log : List Event) : ℚ :=
  if counts log = 0 then 0 else sizes log / counts log

theorem counts_past_add (log : List Event) :
    counts (past log) + counts (interval log) = counts log := by
  induction log with
  | nil => rfl
  | cons e log ih =>
    cases e with
    | ticked _ => rfl
    | tracked count size =>
      simp only [past, interval, counts]
      omega

theorem sizes_past_add (log : List Event) :
    sizes (past log) + sizes (interval log) = sizes log := by
  induction log with
  | nil => rfl
  | cons e log ih =>
    cases e with
    | ticked _ => rfl
    | tracked count size =>
      simp only [past, interval, sizes]
      omega

/-! ## What the word holds -/

/-- The two sums of a history, each modulo its width. -/
structure Sums (count : UInt16) (total : UInt64) (log : List Event) : Prop where
  count : count.toNat = counts log % 2 ^ 16
  total : total.toNat = sizes log % 2 ^ 48

/-- The word has the sums of the whole history, and the goroutine those at the last tick. -/
structure Inv (st : State) : Prop where
  current : Sums (decode st.storage).1 (decode st.storage).2 st.log
  prev : Sums st.prevCount st.prevTotal (past st.log)

theorem inv_initial : Inv {} := by
  refine ⟨⟨?_, ?_⟩, ⟨rfl, rfl⟩⟩
  · rw [toNat_decode_fst]
    rfl
  · rw [toNat_decode_snd]
    rfl

variable {log : List Event} {st st' : State}

theorem Sums.encodeDelta {u : UInt64} (h : Sums (decode u).1 (decode u).2 log) (count size : Nat) :
    Sums (decode (encodeDelta u (UInt16.ofNat count) (UInt64.ofNat size))).1
      (decode (EnvelopeAverager.encodeDelta u (UInt16.ofNat count) (UInt64.ofNat size))).2
      (.tracked count size :: log) := by
  obtain ⟨hcount, htotal⟩ := h
  rw [toNat_decode_fst] at hcount
  rw [toNat_decode_snd] at htotal
  constructor
  · rw [toNat_decode_fst, toNat_encodeDelta, UInt16.toNat_ofNat', counts]
    omega
  · rw [toNat_decode_snd, toNat_encodeDelta, UInt64.toNat_ofNat', sizes]
    omega

/-- What a step does to the word, to the variables of `Start` and to the history. -/
inductive Turn (st st' : State) : Prop where
  | quiet (hstorage : st'.storage = st.storage) (hcount : st'.prevCount = st.prevCount)
      (htotal : st'.prevTotal = st.prevTotal) (hlog : st'.log = st.log)
  | tracked (count size : Nat)
      (hstorage : st'.storage = encodeDelta st.storage (UInt16.ofNat count) (UInt64.ofNat size))
      (hcount : st'.prevCount = st.prevCount) (htotal : st'.prevTotal = st.prevTotal)
      (hlog : st'.log = .tracked count size :: st.log)
  | ticked (hstorage : st'.storage = st.storage) (hcount : st'.prevCount = (decode st.storage).1)
      (htotal : st'.prevTotal = (decode st.storage).2)
      (hlog : st'.log = .ticked (average ((decode st.storage).1 - st.prevCount)
        ((decode st.storage).2 - st.prevTotal)) :: st.log)

theorem turn_of_step {a : Action} (h : step st a = some st') : Turn st st' := by
  cases a with
  | track count size =>
    cases h
    exact .quiet rfl rfl rfl rfl
  | load i =>
    simp only [step] at h
    split at h
    · cases h
      exact .quiet rfl rfl rfl rfl
    · cases h
  | compareAndSwap i =>
    simp only [step] at h
    split at h
    · split at h
      · next hcurrent =>
        -- the word is still the one that was loaded, whatever happened in between
        cases h
        subst hcurrent
        exact .tracked _ _ rfl rfl rfl rfl
      · cases h
        exact .quiet rfl rfl rfl rfl
    · cases h
  | tick =>
    cases h
    exact .ticked rfl rfl rfl rfl

theorem Inv.turn (h : Inv st) (hturn : Turn st st') : Inv st' := by
  cases hturn with
  | quiet hstorage hcount htotal hlog =>
    refine ⟨?_, ?_⟩
    · rw [hstorage, hlog]
      exact h.current
    · rw [hcount, htotal, hlog]
      exact h.prev
  | tracked count size hstorage hcount htotal hlog =>
    refine ⟨?_, ?_⟩
    · rw [hstorage, hlog]
      exact h.current.encodeDelta count size
    · rw [hcount, htotal, hlog]
      exact h.prev
  | ticked hstorage hcount htotal hlog =>
    refine ⟨?_, ?_⟩
    · rw [hstorage, hlog]
      exact ⟨h.current.count, h.current.total⟩
    · rw [hcount, htotal, hlog]
      exact h.current

/-! ## What is reported -/

/-- The difference of the counts is right modulo `2 ^ 16`. -/
theorem toNat_deltaCount (h : Inv st) :
    ((decode st.storage).1 - st.prevCount).toNat = counts (interval st.log) % 2 ^ 16 := by
  have hsplit := counts_past_add st.log
  rw [UInt16.toNat_sub, h.current.count, h.prev.count]
  omega

/-- The difference of the totals is right unless the total has wrapped around. -/
theorem toNat_deltaTotal (h : Inv st) (hsizes : sizes (interval st.log) < 2 ^ 48) :
    ((decode st.storage).2 - st.prevTotal).toNat =
      if sizes (past st.log) % 2 ^ 48 + sizes (interval st.log) < 2 ^ 48
      then sizes (interval st.log)
      else 2 ^ 64 - 2 ^ 48 + sizes (interval st.log) := by
  have hsplit := sizes_past_add st.log
  rw [UInt64.toNat_sub, h.current.total, h.prev.total]
  split <;> omega

/-- A quotient with a larger dividend and a smaller divisor is the same only if nothing changed. -/
theorem div_eq_div_iff_of_le {t t' c c' : Nat} (hc : 0 < c') (hcc : c' ≤ c) (htt : t ≤ t') :
    (t' : ℚ) / c' = t / c ↔ t' = t ∧ (t = 0 ∨ c' = c) := by
  have hpos : 0 < c := hc.trans_le hcc
  rw [div_eq_div_iff (Nat.cast_ne_zero.mpr hc.ne') (Nat.cast_ne_zero.mpr hpos.ne')]
  norm_cast
  constructor
  · intro h
    have hle : t * c ≤ t * c' := (Nat.mul_le_mul_right c htt).trans_eq h
    rcases Nat.eq_zero_or_pos t with rfl | ht
    · rw [Nat.zero_mul, Nat.mul_eq_zero] at h
      exact ⟨by omega, Or.inl rfl⟩
    · have hcc' : c' = c := Nat.le_antisymm hcc (Nat.le_of_mul_le_mul_left hle ht)
      subst hcc'
      exact ⟨Nat.eq_of_mul_eq_mul_right hc h, Or.inr rfl⟩
  · rintro ⟨rfl, rfl | rfl⟩
    · simp
    · rfl

theorem average_eq (deltaCount : UInt16) (deltaTotal : UInt64) :
    average deltaCount deltaTotal =
      if deltaCount.toNat = 0 then 0 else (deltaTotal.toNat : ℚ) / deltaCount.toNat := by
  simp only [average, ← UInt16.toNat_inj, UInt16.toNat_zero]

/-- The count of the last interval fits its width and the total does not wrap around in it, or
one of the two sums is zero. -/
def Fits (log : List Event) : Prop :=
  counts (interval log) = 0 ∨ sizes (interval log) = 0 ∨
    counts (interval log) < 2 ^ 16 ∧ sizes (past log) % 2 ^ 48 + sizes (interval log) < 2 ^ 48

theorem average_eq_iff_of_inv (h : Inv st) (hsizes : sizes (interval st.log) < 2 ^ 48) :
    average ((decode st.storage).1 - st.prevCount) ((decode st.storage).2 - st.prevTotal) =
      exactAverage (interval st.log) ↔ Fits st.log := by
  have hpast : sizes (past st.log) % 2 ^ 48 < 2 ^ 48 := Nat.mod_lt _ (by decide)
  rw [average_eq, exactAverage, Fits, toNat_deltaCount h, toNat_deltaTotal h hsizes]
  generalize counts (interval st.log) = c at *
  generalize sizes (interval st.log) = t at *
  generalize sizes (past st.log) % 2 ^ 48 = p at *
  by_cases hc : c = 0
  · simp [hc]
  rw [if_neg hc]
  by_cases hdelta : c % 2 ^ 16 = 0
  · -- the count has wrapped around onto zero
    rw [if_pos hdelta, eq_comm, div_eq_zero_iff, Nat.cast_eq_zero, Nat.cast_eq_zero]
    omega
  · rw [if_neg hdelta, div_eq_div_iff_of_le (by omega) (Nat.mod_le c _) (by split <;> omega)]
    split <;> omega

/-- Every tick of the history is exact if its interval fits, and only then. -/
def Exact (log : List Event) : Prop :=
  ∀ avg earlier, (.ticked avg :: earlier) <:+ log → sizes (interval earlier) < 2 ^ 48 →
    (avg = exactAverage (interval earlier) ↔ Fits earlier)

theorem Exact.tracked (h : Exact log) (count size : Nat) :
    Exact (.tracked count size :: log) := by
  intro avg earlier hsuffix
  obtain heq | hsuffix := List.suffix_cons_iff.mp hsuffix
  · cases heq
  · exact h avg earlier hsuffix

theorem Exact.ticked (h : Exact log) {average : ℚ}
    (haverage : sizes (interval log) < 2 ^ 48 →
      (average = exactAverage (interval log) ↔ Fits log)) :
    Exact (.ticked average :: log) := by
  intro avg earlier hsuffix
  obtain heq | hsuffix := List.suffix_cons_iff.mp hsuffix
  · cases heq
    exact haverage
  · exact h avg earlier hsuffix

theorem Exact.turn (h : Exact st.log) (hi : Inv st) (hturn : Turn st st') :
    Exact st'.log := by
  cases hturn with
  | quiet _ _ _ hlog =>
    rw [hlog]
    exact h
  | tracked count size _ _ _ hlog =>
    rw [hlog]
    exact h.tracked count size
  | ticked _ _ _ hlog =>
    rw [hlog]
    exact h.ticked (average_eq_iff_of_inv hi)

theorem exact_of_reachable (h : Reachable step Always {} st) : Exact st.log := by
  have hboth : Inv st ∧ Exact st.log := by
    refine h.invariant (P := fun st => Inv st ∧ Exact st.log) ⟨inv_initial, ?_⟩ ?_
    · intro avg earlier hsuffix
      cases List.suffix_nil.mp hsuffix
    · intro s a s' hs _ hstep
      have hturn := turn_of_step hstep
      exact ⟨hs.1.turn hturn, hs.2.turn hs.1 hturn⟩
  exact hboth.2

/-- For every history of calls of `Track` by any number of goroutines and of ticks: what a tick
reports is the average of its interval exactly if one of the sums of the interval is zero, or the
count fits 16 bits and the total does not wrap around its 48 bits in the interval. -/
theorem reported_average_iff {st : State} (h : Reachable step Always {} st) {avg : ℚ}
    {earlier : List Event} (htick : (.ticked avg :: earlier) <:+ st.log)
    (hsizes : sizes (interval earlier) < 2 ^ 48) :
    avg = exactAverage (interval earlier) ↔
      counts (interval earlier) = 0 ∨ sizes (interval earlier) = 0 ∨
        counts (interval earlier) < 2 ^ 16 ∧
          sizes (past earlier) % 2 ^ 48 + sizes (interval earlier) < 2 ^ 48 :=
  exact_of_reachable h avg earlier htick hsizes

/-- Two calls that overlap, where the first swap to be tried fails once, and a tick. -/
def overlapping : List Action :=
  [.track 2 30, .track 1 60, .load 0, .load 1, .compareAndSwap 1, .compareAndSwap 0, .load 0,
    .compareAndSwap 0, .tick]

theorem reported_average_overlapping :
    ∃ st, Reachable step Always {} st ∧ (30 : ℚ) = exactAverage (interval st.log.tail) := by
  have hrun : (run step {} overlapping).map State.log =
      some [.ticked 30, .tracked 2 30, .tracked 1 60] := by decide +kernel
  obtain ⟨st, hst, hlog⟩ := exists_reachable_of_run hrun
  refine ⟨st, hst, ?_⟩
  have htick : (.ticked 30 :: st.log.tail) <:+ st.log := by rw [hlog]; exact List.suffix_rfl
  refine (reported_average_iff hst htick ?_).mpr (Or.inr (Or.inr ⟨?_, ?_⟩)) <;>
    rw [hlog] <;> decide

/-- An interval with `2 ^ 16` envelopes of one byte is reported as empty, and an envelope of one
byte that takes the total around as one of `2 ^ 64 - 2 ^ 48 + 1` bytes. -/
theorem reported_average_wrong :
    (∃ st, Reachable step Always {} st ∧
      st.log = [.ticked 0, .tracked (2 ^ 16) (2 ^ 16)] ∧
      exactAverage (interval st.log.tail) = 1) ∧
    (∃ st, Reachable step Always {} st ∧
      st.log = [.ticked (2 ^ 64 - 2 ^ 48 + 1), .tracked 1 1, .ticked (2 ^ 48 - 1),
        .tracked 1 (2 ^ 48 - 1)] ∧
      exactAverage (interval st.log.tail) = 1) := by
  constructor
  · have hrun : (run step {} [.track (2 ^ 16) (2 ^ 16), .load 0, .compareAndSwap 0, .tick]).map
        State.log = some [.ticked 0, .tracked (2 ^ 16) (2 ^ 16)] := by decide +kernel
    obtain ⟨st, hst, hlog⟩ := exists_reachable_of_run hrun
    refine ⟨st, hst, hlog, ?_⟩
    rw [hlog]
    decide +kernel
  · have hrun : (run step {} [.track 1 (2 ^ 48 - 1), .load 0, .compareAndSwap 0, .tick,
        .track 1 1, .load 1, .compareAndSwap 1, .tick]).map State.log =
        some [.ticked (2 ^ 64 - 2 ^ 48 + 1), .tracked 1 1, .ticked (2 ^ 48 - 1),
          .tracked 1 (2 ^ 48 - 1)] := by decide +kernel
    obtain ⟨st, hst, hlog⟩ := exists_reachable_of_run hrun
    refine ⟨st, hst, hlog, ?_⟩
    rw [hlog]
    decide +kernel

/-! ## The calls that have returned -/

/-- The sum over the calls that have returned. -/
def returnedSum (f : Call → Nat) : List Call → Nat
  | [] => 0
  | call :: calls => (if call.pc = .returned then f call else 0) + returnedSum f calls

/-- The calls that a run makes, by their arguments. -/
def tracks : List Action → List (Nat × Nat)
  | [] => []
  | .track count size :: as => (count, size) :: tracks as
  | _ :: as => tracks as

/-- The arguments of a call. -/
def Call.args (call : Call) : Nat × Nat := (call.count, call.size)

theorem returnedSum_concat (f : Call → Nat) (calls : List Call) {call : Call}
    (hpc : call.pc ≠ .returned) : returnedSum f (calls ++ [call]) = returnedSum f calls := by
  induction calls with
  | nil => simp only [List.nil_append, returnedSum, if_neg hpc]
  | cons c calls ih => rw [List.cons_append, returnedSum, returnedSum, ih]

/-- A call that has not returned moves on. -/
theorem returnedSum_set (f : Call → Nat) {calls : List Call} {i : Nat} {call : Call}
    (h : calls[i]? = some call) (hpc : call.pc ≠ .returned) (call' : Call) :
    returnedSum f (calls.set i call') =
      returnedSum f calls + if call'.pc = .returned then f call' else 0 := by
  induction calls generalizing i with
  | nil => cases h
  | cons c calls ih =>
    cases i with
    | zero =>
      cases h
      rw [List.set_cons_zero, returnedSum, returnedSum, if_neg hpc]
      omega
    | succ i =>
      rw [List.set_cons_succ, returnedSum, returnedSum, ih h]
      omega

theorem map_args_set {calls : List Call} {i count size : Nat} {pc : Pc}
    (h : calls[i]? = some ⟨count, size, pc⟩) (pc' : Pc) :
    (calls.set i ⟨count, size, pc'⟩).map Call.args = calls.map Call.args := by
  obtain ⟨hlt, hcall⟩ := List.getElem?_eq_some_iff.mp h
  have hargs : Call.args ⟨count, size, pc'⟩ = Call.args calls[i] := by rw [hcall]; rfl
  rw [List.map_set, hargs, ← List.map_set, List.set_getElem_self]

theorem tracks_append (as bs : List Action) : tracks (as ++ bs) = tracks as ++ tracks bs := by
  induction as with
  | nil => rfl
  | cons a as ih => cases a <;> simp only [List.cons_append, tracks, ih]

/-- What a step does to the word and to the calls: the swap that succeeds adds the arguments of
its call to the word and lets the call return, and every other step does neither. -/
inductive Swap (st st' : State) (a : Action) : Prop where
  | none (hstorage : st'.storage = st.storage)
      (hsum : ∀ f, returnedSum f st'.calls = returnedSum f st.calls)
      (hargs : st'.calls.map Call.args = st.calls.map Call.args ++ tracks [a])
  | done (call : Call)
      (hstorage : st'.storage =
        encodeDelta st.storage (UInt16.ofNat call.count) (UInt64.ofNat call.size))
      (hsum : ∀ f, returnedSum f st'.calls = returnedSum f st.calls + f call)
      (hargs : st'.calls.map Call.args = st.calls.map Call.args ++ tracks [a])

theorem swap_of_step {a : Action} (h : step st a = some st') :
    Swap st st' a := by
  cases a with
  | track count size =>
    cases h
    refine .none rfl (fun f => ?_) ?_
    · exact returnedSum_concat f st.calls (by simp)
    · simp [tracks, Call.args]
  | load i =>
    simp only [step] at h
    split at h
    · next count size hcall =>
      cases h
      refine .none rfl (fun f => ?_) ?_
      · exact returnedSum_set f hcall (by simp) _
      · exact (map_args_set hcall _).trans (List.append_nil _).symm
    · cases h
  | compareAndSwap i =>
    simp only [step] at h
    split at h
    · next count size current hcall =>
      split at h
      · next hcurrent =>
        cases h
        subst hcurrent
        refine .done ⟨count, size, .returned⟩ rfl (fun f => ?_) ?_
        · exact returnedSum_set f hcall (by simp) _
        · exact (map_args_set hcall _).trans (List.append_nil _).symm
      · cases h
        refine .none rfl (fun f => ?_) ?_
        · exact returnedSum_set f hcall (by simp) _
        · exact (map_args_set hcall _).trans (List.append_nil _).symm
    · cases h
  | tick =>
    cases h
    exact .none rfl (fun _ => rfl) (by simp [tracks])

/-- The fields of the word, from those at the start and the calls that have returned. -/
structure Packed (w : UInt64) (st : State) : Prop where
  count : (decode st.storage).1.toNat =
    ((decode w).1.toNat + returnedSum Call.count st.calls) % 2 ^ 16
  total : (decode st.storage).2.toNat =
    ((decode w).2.toNat + returnedSum Call.size st.calls) % 2 ^ 48

theorem packed_initial (w : UInt64) : Packed w { storage := w } := by
  have hcount := (decode w).1.toNat_lt
  have htotal := toNat_decode_snd w
  constructor <;> simp only [returnedSum] <;> omega

theorem Packed.of_step {w : UInt64} {a : Action} (h : Packed w st) (hstep : step st a = some st') :
    Packed w st' := by
  obtain ⟨hcount, htotal⟩ := h
  cases swap_of_step hstep with
  | none hstorage hsum _ =>
    constructor
    · rw [hstorage, hsum, hcount]
    · rw [hstorage, hsum, htotal]
  | done call hstorage hsum _ =>
    rw [toNat_decode_fst] at hcount
    rw [toNat_decode_snd] at htotal
    constructor
    · -- the lower field is below its width, so no carry comes from it
      rw [hstorage, hsum, toNat_decode_fst, toNat_encodeDelta, UInt16.toNat_ofNat']
      omega
    · rw [hstorage, hsum, toNat_decode_snd, toNat_encodeDelta, UInt64.toNat_ofNat']
      omega

/-- For every word at the start and every interleaving of calls of `Track` by any number of
goroutines, with ticks in between: the calls in progress or returned are those that were made,
with their arguments, the count has grown by the counts of the calls that have returned modulo
`2 ^ 16`, and the total by their sizes modulo `2 ^ 48`. -/
theorem packed_counters (w : UInt64) {as : List Action} {st : State}
    (h : run step { storage := w } as = some st) :
    st.calls.map Call.args = tracks as ∧
    (decode st.storage).1.toNat =
      ((decode w).1.toNat + returnedSum Call.count st.calls) % 2 ^ 16 ∧
    (decode st.storage).2.toNat =
      ((decode w).2.toNat + returnedSum Call.size st.calls) % 2 ^ 48 := by
  have hboth : st.calls.map Call.args = tracks as ∧ Packed w st := by
    refine run_invariant (P := fun as st => st.calls.map Call.args = tracks as ∧ Packed w st)
      ⟨rfl, packed_initial w⟩ ?_ h
    rintro as s a s' - ⟨hargs, hpacked⟩ hstep
    refine ⟨?_, hpacked.of_step hstep⟩
    rw [tracks_append, ← hargs]
    cases swap_of_step hstep with
    | none _ _ hargs' | done _ _ _ hargs' => exact hargs'
  exact ⟨hboth.1, hboth.2.count, hboth.2.total⟩

/-- Both fields are one below their width; two calls overlap and one of them has to try again. -/
theorem packed_counters_full :
    ∃ st, run step { storage := 0xFFFFFFFFFFFFFFFF } overlapping = some st ∧
      st.calls.map Call.args = [(2, 30), (1, 60)] ∧
      (decode st.storage).1.toNat = 2 ∧ (decode st.storage).2.toNat = 89 := by
  have hrun : (run step { storage := 0xFFFFFFFFFFFFFFFF } overlapping).map
      (fun st => (returnedSum Call.count st.calls, returnedSum Call.size st.calls)) =
      some (3, 90) := by decide +kernel
  obtain ⟨st, hst, hsums⟩ := Option.map_eq_some_iff.mp hrun
  obtain ⟨hcounts, hsizes⟩ := Prod.mk.inj hsums
  obtain ⟨hargs, hcount, htotal⟩ := packed_counters _ hst
  rw [hcounts] at hcount
  rw [hsizes] at htotal
  exact ⟨st, hst, hargs, hcount, htotal⟩

end Loggregator.Plumbing.EnvelopeAverager
