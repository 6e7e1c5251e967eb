import Loggregator.Lib.Totals
import Loggregator.Lib.Transition
import Loggregator.Metron.Transponder

/-!
# The batches of the transponder

`Transponder.Start` takes envelopes one at a time, tags them and hands them to its writer in
batches. Whether a batch is ready is asked twice in a turn of the loop, at two readings of the
clock. The results of `TryNext`, of the clock and of the writer are the parts of a `Turn`.

Tag maps are shared memory. `Turn.heap` is the memory when `TryNext` returns.
-/

namespace Loggregator.Metron

open Lib Conversion

/-- `Transponder` with the size and the age that make a batch ready. -/
structure BatchTransponder extends Transponder where
  batchSize : Int64
  batchInterval : Int64

/-- `time.Since`, which saturates. -/
def since (lastSent now : Int) : Int := max (-2 ^ 63) (min (2 ^ 63 - 1) (now - lastSent))

/-- `Transponder.batchReady`, at a reading of the clock. -/
def BatchTransponder.batchReady (t : BatchTransponder) (batch : List V2.Envelope)
    (lastSent now : Int) : Bool :=
  if batch.length = 0 then false
  else decide (t.batchSize.toInt ≤ batch.length) ||
    decide (t.batchInterval.toInt ≤ since lastSent now)

namespace Batching

/-- A call of the writer: the batch, the memory that its envelopes refer to, and whether the
writer returned no error. -/
structure Write where
  batch : List V2.Envelope
  heap : Heap
  ok : Bool

/-- The variables of `Start` and the memory, with what `TryNext` returned, the calls of the writer
and the arguments of `Increment` of the two metrics. -/
structure State where
  batch : List V2.Envelope := []
  lastSent : Int
  heap : Heap
  obtained : List (V2.Envelope × Heap) := []
  writes : List Write := []
  egress : List UInt64 := []
  dropped : List UInt64 := []

/-- What a turn of the loop finds. -/
structure Turn where
  envelope : Option V2.Envelope
  heap : Heap
  firstClock : Int
  secondClock : Int
  ok : Bool
  lastSent : Int

/-- The pending batch as it is handed to the writer. -/
def State.pending (st : State) (ok : Bool) : Write := ⟨st.batch, st.heap, ok⟩

/-- `Transponder.write`. -/
def write (st : State) (ok : Bool) : State :=
  let n := UInt64.ofNat st.batch.length
  let st := { st with writes := st.writes ++ [st.pending ok] }
  if ok then { st with egress := st.egress ++ [n] } else { st with dropped := st.dropped ++ [n] }

/-- An envelope is tagged and appended to the batch. -/
def append (t : BatchTransponder) (st : State) (envelope : V2.Envelope) : State :=
  { st with
    batch := st.batch ++ [(t.addTags envelope st.heap).1]
    heap := (t.addTags envelope st.heap).2
    obtained := st.obtained ++ [(envelope, st.heap)] }

/-- The rest of a turn, once the batch is as it is written. -/
def flush (t : BatchTransponder) (st : State) (i : Turn) : State :=
  if t.batchReady st.batch st.lastSent i.secondClock then
    { write st i.ok with batch := [], lastSent := i.lastSent }
  else st

/-- A turn of the loop of `Start`. -/
def turn (t : BatchTransponder) (st : State) (i : Turn) : State :=
  let st := { st with heap := i.heap }
  match i.envelope with
  | none => if t.batchReady st.batch st.lastSent i.firstClock then flush t st i else st
  | some envelope => flush t (append t st envelope) i

def step (t : BatchTransponder) (st : State) (i : Turn) : Option State := some (turn t st i)

/-! ## Conservation -/

/-- What a batch counts for. -/
def Write.count (w : Write) : UInt64 := UInt64.ofNat w.batch.length

/-- What holds of the batches at the beginning of every turn. -/
structure Conserves (t : BatchTransponder) (st : State) : Prop where
  /-- The batches and the pending one are what was obtained, in order. Of an envelope only the map
  of deprecated tags is set, to a new one if it has none. -/
  envelopes : st.writes.flatMap Write.batch ++ st.batch =
    st.obtained.map (fun p =>
      { p.1 with deprecatedTags := some (p.1.deprecatedTags.getD p.2.nextDeprecatedTags) })
  /-- Batches are neither empty nor too large. -/
  sizes : ∀ w ∈ st.writes, w.batch ≠ [] ∧ (w.batch.length : Int) ≤ max t.batchSize.toInt 1
  /-- A batch is counted in one of the metrics, by the result of its write. -/
  egress : st.egress = (st.writes.filter (fun w => w.ok)).map Write.count
  dropped : st.dropped = (st.writes.filter (fun w => !w.ok)).map Write.count

section Conserves

variable {t : BatchTransponder} {st : State}

/-- The pending batch can take another envelope. -/
def Small (t : BatchTransponder) (st : State) : Prop :=
  st.batch ≠ [] → (st.batch.length : Int) < t.batchSize.toInt

theorem small_of_not_ready {now : Int} (h : t.batchReady st.batch st.lastSent now = false) :
    Small t st := by
  intro hne
  have hlen : st.batch.length ≠ 0 := fun h0 => hne (List.length_eq_zero_iff.mp h0)
  rw [BatchTransponder.batchReady, if_neg hlen, Bool.or_eq_false_iff] at h
  exact Int.not_le.mp (of_decide_eq_false h.1)

theorem batch_ne_nil_of_ready {now : Int} (h : t.batchReady st.batch st.lastSent now = true) :
    st.batch ≠ [] := by
  intro hnil
  rw [BatchTransponder.batchReady, hnil] at h
  cases h

theorem Conserves.heap (h : Conserves t st) (heap : Heap) :
    Conserves t { st with heap := heap } :=
  ⟨h.envelopes, h.sizes, h.egress, h.dropped⟩

theorem addTags_fst (t : Transponder) (e : V2.Envelope) (h : Heap) :
    (t.addTags e h).1 =
      { e with deprecatedTags := some (e.deprecatedTags.getD h.nextDeprecatedTags) } := by
  cases hd : e.deprecatedTags <;> simp [Transponder.addTags, hd, Heap.makeDeprecatedTags]

theorem Conserves.append (h : Conserves t st) (envelope : V2.Envelope) :
    Conserves t (append t st envelope) := by
  refine ⟨?_, h.sizes, h.egress, h.dropped⟩
  show st.writes.flatMap Write.batch ++ (st.batch ++ [(t.addTags envelope st.heap).1]) =
    (st.obtained ++ [(envelope, st.heap)]).map _
  rw [← List.append_assoc, h.envelopes, addTags_fst, List.map_append]
  rfl

theorem length_append_le (h : Small t st) (envelope : V2.Envelope) :
    ((append t st envelope).batch.length : Int) ≤ max t.batchSize.toInt 1 := by
  have hlen : (append t st envelope).batch.length = st.batch.length + 1 := List.length_append
  rw [hlen]
  by_cases hnil : st.batch = []
  · rw [hnil]
    exact le_max_right _ _
  · have hlt := h hnil
    exact le_trans (by omega) (le_max_left _ _)

theorem Conserves.write (h : Conserves t st) (hne : st.batch ≠ [])
    (hlen : (st.batch.length : Int) ≤ max t.batchSize.toInt 1) (ok : Bool) (lastSent : Int) :
    Conserves t { write st ok with batch := [], lastSent := lastSent } := by
  have hsizes : ∀ w ∈ st.writes ++ [st.pending ok],
      w.batch ≠ [] ∧ (w.batch.length : Int) ≤ max t.batchSize.toInt 1 := by
    intro w hw
    rcases List.mem_append.mp hw with hw | hw
    · exact h.sizes w hw
    · rw [List.mem_singleton.mp hw]
      exact ⟨hne, hlen⟩
  have henvelopes : (st.writes ++ [st.pending ok]).flatMap Write.batch ++ [] =
      st.obtained.map (fun p =>
        { p.1 with deprecatedTags := some (p.1.deprecatedTags.getD p.2.nextDeprecatedTags) }) := by
    rw [List.append_nil, List.flatMap_append, ← h.envelopes]
    simp only [List.flatMap_cons, List.flatMap_nil, List.append_nil, State.pending]
  unfold Batching.write
  cases ok with
  | true =>
    refine ⟨henvelopes, hsizes, ?_, ?_⟩
    · simp only [if_true, List.filter_append, List.map_append, h.egress]
      rfl
    · simp [List.filter_append, State.pending, h.dropped]
  | false =>
    refine ⟨henvelopes, hsizes, ?_, ?_⟩
    · simp [List.filter_append, State.pending, h.egress]
    · simp only [Bool.false_eq_true, if_false, List.filter_append, List.map_append, h.dropped]
      rfl

theorem Conserves.flush (h : Conserves t st)
    (hlen : (st.batch.length : Int) ≤ max t.batchSize.toInt 1) (i : Turn) :
    Conserves t (flush t st i) ∧ Small t (flush t st i) := by
  unfold Batching.flush
  split
  · next hready =>
    refine ⟨h.write (batch_ne_nil_of_ready hready) hlen i.ok i.lastSent, ?_⟩
    exact fun hne => absurd rfl hne
  · next hready => exact ⟨h, small_of_not_ready (Bool.eq_false_iff.mpr hready)⟩

theorem Conserves.turn (h : Conserves t st) (hsmall : Small t st) (i : Turn) :
    Conserves t (turn t st i) ∧ Small t (turn t st i) := by
  unfold Batching.turn
  have hheap := h.heap i.heap
  have hheapSmall : Small t { st with heap := i.heap } := hsmall
  cases i.envelope with
  | none =>
    simp only
    split
    · next hready =>
      refine hheap.flush ?_ i
      have hlt := hsmall (batch_ne_nil_of_ready hready)
      exact le_trans (le_of_lt hlt) (le_max_left _ _)
    · exact ⟨hheap, hsmall⟩
  | some envelope => exact (hheap.append envelope).flush (length_append_le hheapSmall envelope) i

theorem conserves_of_reachable {ok : State → Turn → Prop} {lastSent : Int} {heap : Heap}
    (hst : Reachable (step t) ok { lastSent := lastSent, heap := heap } st) :
    Conserves t st := by
  refine (hst.invariant (P := fun st => Conserves t st ∧ Small t st) ?_ ?_).1
  · exact ⟨⟨rfl, (fun w hw => by cases hw), rfl, rfl⟩, fun hne => absurd rfl hne⟩
  · intro st i st' h _ hstep
    cases hstep
    exact h.1.turn h.2 i

end Conserves

/-- The two metrics together count every envelope that was written. -/
theorem Conserves.counted {t : BatchTransponder} {st : State} (h : Conserves t st) :
    sum64 st.egress + sum64 st.dropped =
      UInt64.ofNat (st.writes.flatMap Write.batch).length := by
  rw [h.egress, h.dropped]
  induction st.writes with
  | nil => rfl
  | cons w ws ih =>
    rw [List.flatMap_cons, List.length_append, UInt64.ofNat_add, ← ih]
    cases hok : w.ok with
    | true =>
      simp only [List.filter_cons, hok, Bool.not_true, if_true, Bool.false_eq_true, if_false,
        List.map_cons, sum64_cons, Write.count]
      exact UInt64.add_assoc _ _ _
    | false =>
      simp only [List.filter_cons, hok, Bool.not_false, if_true, Bool.false_eq_true, if_false,
        List.map_cons, sum64_cons, Write.count]
      ac_rfl

/-! ## Tags -/

/-- No other envelope of the batch has the same map of deprecated tags. -/
def Alone (e : V2.Envelope) (batch : List V2.Envelope) : Prop :=
  (batch.map V2.Envelope.deprecatedTags).count e.deprecatedTags = 1

/-- The deprecated tags of an envelope that was obtained: the texts of its tags, else what it had,
else the texts of metron's tags. -/
structure Texts (t : Transponder) (p : V2.Envelope × Heap) (h : Heap) (e : V2.Envelope) :
    Prop where
  tags : ∀ k v, (p.2.tagsOf p.1.tags).lookup k = some v →
    (h.deprecatedTagsOf e.deprecatedTags).lookup k = some (some ⟨some (.text v)⟩)
  deprecatedTags : ∀ k, (p.2.tagsOf p.1.tags).lookup k = none →
    ∀ v, (p.2.deprecatedTagsOf p.1.deprecatedTags).lookup k = some v →
    (h.deprecatedTagsOf e.deprecatedTags).lookup k = some v
  metron : ∀ k, (p.2.tagsOf p.1.tags).lookup k = none →
    (p.2.deprecatedTagsOf p.1.deprecatedTags).lookup k = none →
    (h.deprecatedTagsOf e.deprecatedTags).lookup k =
      (t.tags.lookup k).map (fun v => some ⟨some (.text v)⟩)

/-- An envelope of a batch, with what was obtained. It has a deprecated tag for each of its tags and
for each tag of metron, and if no other envelope of the batch has its map, the texts that belong to
it. -/
structure Tagged (t : Transponder) (p : V2.Envelope × Heap) (batch : List V2.Envelope) (h : Heap)
    (e : V2.Envelope) : Prop where
  isSome : e.deprecatedTags.isSome = true
  tags : ∀ k, ((h.tagsOf e.tags).lookup k).isSome = true ∨ (t.tags.lookup k).isSome = true →
    ((h.deprecatedTagsOf e.deprecatedTags).lookup k).isSome = true
  texts : Alone e batch → Texts t p h e

/-- The map of deprecated tags is in the memory. -/
def Allocated (h : Heap) (e : V2.Envelope) : Prop :=
  ∀ r ∈ e.deprecatedTags, r < h.nextDeprecatedTags

/-- Nobody else changes the maps of the pending envelopes, and an envelope that `TryNext` returns
has its map in the memory. -/
structure Fits (st : State) (i : Turn) : Prop where
  next : st.heap.nextDeprecatedTags ≤ i.heap.nextDeprecatedTags
  tags : ∀ e ∈ st.batch, i.heap.tagsOf e.tags = st.heap.tagsOf e.tags
  deprecatedTags : ∀ e ∈ st.batch,
    i.heap.deprecatedTagsOf e.deprecatedTags = st.heap.deprecatedTagsOf e.deprecatedTags
  envelope : ∀ e ∈ i.envelope, Allocated i.heap e

section Tagged

variable {t : BatchTransponder} {st : State} {h : Heap} {e : V2.Envelope}

theorem tagged_addTags (t : Transponder) (e : V2.Envelope) (h : Heap) (batch : List V2.Envelope) :
    Tagged t (e, h) batch (t.addTags e h).2 (t.addTags e h).1 := by
  refine ⟨rfl, fun k hk => ?_, fun _ => ⟨?_, ?_, ?_⟩⟩
  · have htags : (t.addTags e h).1.tags = e.tags := rfl
    rw [htags, t.addTags_tagsOf] at hk
    rw [t.addTags_lookup]
    rcases hk with hk | hk
    · simp [hk]
    · simp [hk]
  · intro k v htag
    rw [t.addTags_lookup, htag]
    rfl
  · intro k htag v hdep
    rw [t.addTags_lookup, htag, hdep]
    rfl
  · intro k htag hdep
    rw [t.addTags_lookup, htag, hdep]
    rfl

theorem addTags_tags (t : Transponder) (e : V2.Envelope) (h : Heap) :
    (t.addTags e h).2.tags = h.tags := by
  cases hd : e.deprecatedTags <;>
    simp [Transponder.addTags, hd, Heap.updateDeprecatedTags, Heap.makeDeprecatedTags]

theorem addTags_nextDeprecatedTags (t : Transponder) (e : V2.Envelope) (h : Heap) :
    h.nextDeprecatedTags ≤ (t.addTags e h).2.nextDeprecatedTags := by
  cases hd : e.deprecatedTags <;>
    simp [Transponder.addTags, hd, Heap.updateDeprecatedTags, Heap.makeDeprecatedTags]

theorem allocated_addTags (t : Transponder) (ha : Allocated h e) :
    Allocated (t.addTags e h).2 (t.addTags e h).1 := by
  intro r hr
  rw [addTags_fst, Option.mem_some_iff] at hr
  subst hr
  cases hd : e.deprecatedTags with
  | some r => exact lt_of_lt_of_le (ha r hd) (addTags_nextDeprecatedTags t e h)
  | none => simp [Transponder.addTags, hd, Heap.updateDeprecatedTags, Heap.makeDeprecatedTags]

/-- Tagging changes one map only. -/
theorem addTags_deprecatedTagsOf (t : Transponder) (e : V2.Envelope) (h : Heap)
    {r : Option DeprecatedTagsRef} (hr : (t.addTags e h).1.deprecatedTags ≠ r) :
    (t.addTags e h).2.deprecatedTagsOf r = h.deprecatedTagsOf r := by
  cases r with
  | none => rfl
  | some r =>
    rw [addTags_fst] at hr
    have hne : r ≠ e.deprecatedTags.getD h.nextDeprecatedTags := fun heq => hr (by rw [heq])
    cases hd : e.deprecatedTags with
    | none =>
      rw [hd, Option.getD_none] at hne
      simp [Transponder.addTags, hd, Heap.updateDeprecatedTags, Heap.makeDeprecatedTags, hne]
    | some r' =>
      rw [hd, Option.getD_some] at hne
      simp [Transponder.addTags, hd, Heap.updateDeprecatedTags, hne]

/-- Tagging an envelope takes no deprecated tag away from another one, even if they share the
map. -/
theorem isSome_lookup_addTags (t : Transponder) (e' : V2.Envelope) (ha : Allocated h e)
    {k : GoString} (hk : ((h.deprecatedTagsOf e.deprecatedTags).lookup k).isSome = true) :
    (((t.addTags e' h).2.deprecatedTagsOf e.deprecatedTags).lookup k).isSome = true := by
  by_cases hshared : (t.addTags e' h).1.deprecatedTags = e.deprecatedTags
  · -- a new map is at a reference that is not in use
    have hown : e'.deprecatedTags = e.deprecatedTags := by
      rw [← hshared, addTags_fst]
      cases hd' : e'.deprecatedTags with
      | some r => rfl
      | none =>
        rw [addTags_fst, hd'] at hshared
        exact absurd (ha _ hshared.symm) (lt_irrefl _)
    rw [← hshared, t.addTags_lookup, hown, Option.isSome_or, Option.isSome_or, hk, Bool.or_true,
      Bool.true_or]
  · rw [addTags_deprecatedTagsOf t e' h hshared]
    exact hk

theorem Texts.congr {t : Transponder} {p : V2.Envelope × Heap} {h' : Heap} (ht : Texts t p h e)
    (heq : h'.deprecatedTagsOf e.deprecatedTags = h.deprecatedTagsOf e.deprecatedTags) :
    Texts t p h' e :=
  ⟨heq ▸ ht.tags, heq ▸ ht.deprecatedTags, heq ▸ ht.metron⟩

/-- What is appended to the batch is another envelope. -/
theorem Alone.of_append {e' : V2.Envelope} {batch : List V2.Envelope} (he : e ∈ batch)
    (h : Alone e (batch ++ [e'])) : Alone e batch ∧ e'.deprecatedTags ≠ e.deprecatedTags := by
  have hpos : 0 < (batch.map V2.Envelope.deprecatedTags).count e.deprecatedTags :=
    List.count_pos_iff.mpr (List.mem_map_of_mem he)
  rw [Alone, List.map_append, List.count_append, List.map_singleton, List.count_singleton] at h
  split at h
  · omega
  · next hne => exact ⟨h, fun heq => hne (beq_iff_eq.mpr heq)⟩

/-- Another envelope is tagged and appended. -/
theorem Tagged.addTags {t : Transponder} {p : V2.Envelope × Heap} {batch : List V2.Envelope}
    (htag : Tagged t p batch h e) (ha : Allocated h e) (he : e ∈ batch) (e' : V2.Envelope) :
    Tagged t p (batch ++ [(t.addTags e' h).1]) (t.addTags e' h).2 e := by
  refine ⟨htag.isSome, fun k hk => isSome_lookup_addTags t e' ha (htag.tags k ?_), ?_⟩
  · have htags : (t.addTags e' h).2.tagsOf e.tags = h.tagsOf e.tags := by
      cases e.tags with
      | none => rfl
      | some r => rw [Heap.tagsOf_some, addTags_tags, Heap.tagsOf_some]
    rwa [htags] at hk
  · intro halone
    obtain ⟨halone, hne⟩ := Alone.of_append he halone
    exact (htag.texts halone).congr (addTags_deprecatedTagsOf _ _ _ hne)

/-- The envelopes that were written, each with its batch. -/
def State.written (st : State) : List (V2.Envelope × Write) :=
  st.writes.flatMap (fun w => w.batch.map (fun e => (e, w)))

/-- What was obtained was tagged when it was written, or is in the pending batch and tagged. -/
def AllTagged (t : Transponder) (st : State) : Prop :=
  ∃ done pending, st.obtained = done ++ pending ∧
    List.Forall₂ (fun q p => Tagged t p q.2.batch q.2.heap q.1) st.written done ∧
    List.Forall₂ (fun e p => Tagged t p st.batch st.heap e ∧ Allocated st.heap e) st.batch pending

/-- A fact about the envelopes of the pending batch. -/
theorem forall₂_batch {R R' : V2.Envelope → V2.Envelope × Heap → Prop}
    {batch : List V2.Envelope} {pending : List (V2.Envelope × Heap)}
    (h : List.Forall₂ R batch pending) (himp : ∀ e ∈ batch, ∀ p, R e p → R' e p) :
    List.Forall₂ R' batch pending :=
  ((List.forall₂_and_left _ _).mpr ⟨fun _ he => he, h⟩).imp (fun e p hp => himp e hp.1 p hp.2)

theorem AllTagged.heap {i : Turn} (h : AllTagged t.toTransponder st) (hfits : Fits st i) :
    AllTagged t.toTransponder { st with heap := i.heap } := by
  obtain ⟨done, pending, hobtained, hdone, hpending⟩ := h
  refine ⟨done, pending, hobtained, hdone, forall₂_batch hpending ?_⟩
  rintro e he p ⟨htag, ha⟩
  refine ⟨⟨htag.isSome, ?_, fun halone => (htag.texts halone).congr (hfits.deprecatedTags e he)⟩,
    fun r hr => lt_of_lt_of_le (ha r hr) hfits.next⟩
  intro k hk
  show ((i.heap.deprecatedTagsOf e.deprecatedTags).lookup k).isSome = true
  rw [hfits.deprecatedTags e he]
  refine htag.tags k ?_
  rw [← hfits.tags e he]
  exact hk

theorem AllTagged.append (h : AllTagged t.toTransponder st) {envelope : V2.Envelope}
    (ha : Allocated st.heap envelope) :
    AllTagged t.toTransponder (append t st envelope) := by
  obtain ⟨done, pending, hobtained, hdone, hpending⟩ := h
  refine ⟨done, pending ++ [(envelope, st.heap)], ?_, hdone, ?_⟩
  · rw [← List.append_assoc, ← hobtained]
    rfl
  · refine List.rel_append (forall₂_batch hpending ?_)
      (.cons ⟨tagged_addTags _ _ _ _, allocated_addTags _ ha⟩ .nil)
    rintro e he p ⟨htag, hae⟩
    exact ⟨htag.addTags hae he envelope,
      fun r hr => lt_of_lt_of_le (hae r hr) (addTags_nextDeprecatedTags _ _ _)⟩

theorem AllTagged.flush (h : AllTagged t.toTransponder st) (i : Turn) :
    AllTagged t.toTransponder (flush t st i) := by
  obtain ⟨done, pending, hobtained, hdone, hpending⟩ := h
  unfold Batching.flush
  split
  · have hwrites : List.Forall₂ (fun q p => Tagged t.toTransponder p q.2.batch q.2.heap q.1)
        ((st.writes ++ [st.pending i.ok]).flatMap (fun w => w.batch.map (fun e => (e, w))))
        (done ++ pending) := by
      rw [List.flatMap_append, List.flatMap_singleton]
      exact List.rel_append hdone
        (List.forall₂_map_left_iff.mpr (hpending.imp (fun _ _ hp => hp.1)))
    unfold write
    split
    · exact ⟨done ++ pending, [], by rw [List.append_nil, ← hobtained], hwrites, .nil⟩
    · exact ⟨done ++ pending, [], by rw [List.append_nil, ← hobtained], hwrites, .nil⟩
  · exact ⟨done, pending, hobtained, hdone, hpending⟩

theorem AllTagged.turn {i : Turn} (h : AllTagged t.toTransponder st) (hfits : Fits st i) :
    AllTagged t.toTransponder (turn t st i) := by
  unfold Batching.turn
  have hheap := h.heap hfits
  cases henv : i.envelope with
  | none =>
    simp only
    split
    · exact hheap.flush i
    · exact hheap
  | some envelope => exact (hheap.append (hfits.envelope envelope henv)).flush i

end Tagged

/-- The batches that are written and the pending one are what was obtained, each envelope once and
in order, and the metrics count them. Each was tagged when it was written, and with the texts that
belong to it if it shares its map with no other envelope of its batch. -/
theorem batches_conserved (t : BatchTransponder) (lastSent : Int) (heap : Heap) :
    (∀ st, Reachable (step t) Always { lastSent := lastSent, heap := heap } st →
      Conserves t st ∧ sum64 st.egress + sum64 st.dropped =
        UInt64.ofNat (st.writes.flatMap Write.batch).length) ∧
    (∀ st, Reachable (step t) Fits { lastSent := lastSent, heap := heap } st →
      ∃ done pending, st.obtained = done ++ pending ∧
        List.Forall₂ (fun q p => Tagged t.toTransponder p q.2.batch q.2.heap q.1)
          st.written done) := by
  refine ⟨?_, ?_⟩
  · intro st hst
    have h := conserves_of_reachable hst
    exact ⟨h, h.counted⟩
  · intro st hst
    have h : AllTagged t.toTransponder st := by
      refine hst.invariant ⟨[], [], rfl, .nil, .nil⟩ ?_
      intro st i st' h hfits hstep
      cases hstep
      exact h.turn hfits
    obtain ⟨done, pending, hobtained, hdone, -⟩ := h
    exact ⟨done, pending, hobtained, hdone⟩

/-- Two envelopes with tags, the second one with a deprecated tag. -/
def twoEnvelopes : V2.Envelope × V2.Envelope :=
  ({ tags := some 0 }, { tags := some 1, deprecatedTags := some 0 })

def twoEnvelopesHeap : Heap where
  tags r := AList.singleton (str "origin") (if r = 0 then str "a" else str "b")
  deprecatedTags _ := AList.singleton (str "deployment") (some (valueText (str "own")))
  nextTags := 2
  nextDeprecatedTags := 1

/-- A batch of two envelopes, whose write fails, for a metron with one tag. -/
theorem batches_conserved_dropped :
    let t : BatchTransponder := { sampleTransponder with batchSize := 2, batchInterval := 100 }
    ∃ st, Reachable (step t) Fits { lastSent := 0, heap := twoEnvelopesHeap } st ∧
      st.dropped = [2] ∧ Conserves t st ∧
      st.written.map (fun q => (q.1.tags, [str "origin", str "deployment"].map
        (q.2.heap.deprecatedTagsOf q.1.deprecatedTags).lookup)) =
        [(some 0, [some (some (valueText (str "a"))), some (some (valueText (str "cf")))]),
          (some 1, [some (some (valueText (str "b"))), some (some (valueText (str "own")))])] ∧
      ∃ done pending, st.obtained = done ++ pending ∧
        List.Forall₂ (fun q p => Tagged t.toTransponder p q.2.batch q.2.heap q.1)
          st.written done := by
  intro t
  let st₀ : State := { lastSent := 0, heap := twoEnvelopesHeap }
  let first : Turn := ⟨some twoEnvelopes.1, twoEnvelopesHeap, 0, 0, false, 0⟩
  let st₁ := turn t st₀ first
  let second : Turn := ⟨some twoEnvelopes.2, st₁.heap, 0, 0, false, 0⟩
  have hfirst : Fits st₀ first := by
    refine ⟨le_refl _, fun _ _ => rfl, fun _ _ => rfl, ?_⟩
    intro e he r hr
    cases he
    cases hr
  have hsecond : Fits st₁ second := by
    refine ⟨le_refl _, fun _ _ => rfl, fun _ _ => rfl, ?_⟩
    intro e he r hr
    cases he
    cases hr
    decide
  have hst : Reachable (step t) Fits st₀ (turn t st₁ second) :=
    .tail (.tail .refl hfirst rfl) hsecond rfl
  obtain ⟨hconserves, htagged⟩ := batches_conserved t 0 twoEnvelopesHeap
  exact ⟨_, hst, by decide, (hconserves _ (hst.mono (fun _ _ _ _ => trivial))).1, by decide,
    htagged _ hst⟩

end Batching

end Loggregator.Metron
