import Loggregator.Lib.Totals
import Loggregator.Metron.TagHash
import Loggregator.Plumbing.Envelope

/-!
# The totals of metron's v2 counters

`CounterAggregator.Write` replaces the value of every counter in a batch by the running total of
its name and deprecated tags, and hands the batch on. The totals are forgotten when a counter
arrives while more than 10000 of them are held.

The code tells counters apart by a name and a hash, a reader by a name and a map of tags
(`Subject.identity`). `Value.String` is the parameter `text`. The envelopes of a batch are
distinct objects; the tag maps are read from the memory at the time of the call.
-/

namespace Loggregator.Metron

open Lib

/-- `counterID` of the package `v2`. -/
structure CounterID where
  name : GoString
  tagsHash : GoString
  deriving DecidableEq

/-- `CounterAggregator`. -/
structure CounterAggregator where
  counterTotals : Dict CounterID UInt64 := ∅

namespace CounterAggregator

/-- A call of `Write`: the batch and the memory that its envelopes refer to. -/
structure Call where
  msgs : List V2.Envelope
  heap : Heap

variable (text : Option V2.Value → GoString)

/-- `CounterAggregator.resetTotals`. -/
def resetTotals (_ : CounterAggregator) : CounterAggregator := { counterTotals := ∅ }

/-- `msg.GetCounter().Value = &Counter_Total{Total: total}`. -/
def withTotal (msg : V2.Envelope) (c : V2.Counter) (total : UInt64) : V2.Envelope :=
  { msg with message := some (.counter { c with value := some (.total total) }) }

/-- The loop of `Write` for one message. -/
def aggregateOne (heap : Heap) (ca : CounterAggregator) (msg : V2.Envelope) :
    V2.Envelope × CounterAggregator :=
  match msg.getCounter with
  | none => (msg, ca)
  | some c =>
    let ca := if 10000 < ca.counterTotals.entries.length then ca.resetTotals else ca
    let id : CounterID := ⟨c.name, hashTags text (heap.deprecatedTagsOf msg.deprecatedTags)⟩
    let ca : CounterAggregator := ⟨accumulate ca.counterTotals id c.getDelta⟩
    (withTotal msg c ((ca.counterTotals.lookup id).getD 0), ca)

/-- The loop of `Write`. -/
def aggregate (heap : Heap) :
    CounterAggregator → List V2.Envelope → List V2.Envelope × CounterAggregator
  | ca, [] => ([], ca)
  | ca, msg :: msgs =>
    let (msg, ca) := aggregateOne text heap ca msg
    let (msgs, ca) := aggregate heap ca msgs
    (msg :: msgs, ca)

/-- `CounterAggregator.Write`, for a writer that maps the batch to an error or to none. -/
def write (writer : List V2.Envelope → Option GoString) (ca : CounterAggregator) (call : Call) :
    Option GoString × CounterAggregator :=
  let (msgs, ca) := aggregate text call.heap ca call.msgs
  (writer msgs, ca)

/-- The aggregator after some calls, from `NewCounterAggregator` on. -/
def after (writer : List V2.Envelope → Option GoString) (calls : List Call) : CounterAggregator :=
  calls.foldl (fun ca call => (write text writer ca call).2) {}

/-! ## What is counted -/

/-- What a counter envelope is about. -/
structure Subject where
  name : GoString
  tags : DeprecatedTags

/-- The counter as the code tells it apart. -/
def Subject.id (s : Subject) : CounterID := ⟨s.name, hashTags text s.tags⟩

/-- The counter as a reader tells it apart: the name and the map of tags. -/
def Subject.identity (s : Subject) : GoString × Finset (GoString × Option V2.Value) :=
  (s.name, Dict.graph s.tags)

/-- The counter of an envelope and its delta. An envelope with a total has the delta zero. -/
def event (heap : Heap) (msg : V2.Envelope) : Option (Subject × UInt64) :=
  msg.getCounter.map (fun c =>
    (⟨c.name, heap.deprecatedTagsOf msg.deprecatedTags⟩, c.getDelta))

def Call.events (call : Call) : List (Subject × UInt64) :=
  call.msgs.filterMap (event call.heap)

/-- The counters of all calls, in the order in which they are processed. -/
def history (calls : List Call) : List (Subject × UInt64) := calls.flatMap Call.events

/-- A call whose loop has come as far as the message `i`. -/
def Call.upTo (call : Call) (i : Nat) : Call := { call with msgs := call.msgs.take i }

/-- The counters since the last reset. -/
def recent (calls : List Call) : List (Subject × UInt64) :=
  sinceReset Subject.identity 10000 (history calls)

/-- What `Write` hands to its writer after the earlier calls. -/
structure Aggregates (writer : List V2.Envelope → Option GoString) (earlier : List Call)
    (call : Call) (out : List V2.Envelope) : Prop where
  /-- The length of the batch is unchanged. -/
  length : out.length = call.msgs.length
  /-- An envelope that is not a counter is unchanged and keeps its place. -/
  others : ∀ (i : Nat) (msg : V2.Envelope), call.msgs[i]? = some msg → msg.getCounter = none →
    out[i]? = some msg
  /-- A counter keeps its place and has the total since the last reset, itself included. -/
  totals : ∀ (i : Nat) (msg : V2.Envelope) (c : V2.Counter),
    call.msgs[i]? = some msg → msg.getCounter = some c →
    out[i]? = some { msg with message := some (.counter
      { name := c.name
        value := some (.total (total Subject.identity
          (recent (earlier ++ [call.upTo (i + 1)]))
          (c.name, Dict.graph (call.heap.deprecatedTagsOf msg.deprecatedTags)))) }) }
  /-- At every message the totals held are those of the pairs since the last reset, so that the
  test of the code is the one of `sinceReset`. -/
  held : ∀ i, (after text writer (earlier ++ [call.upTo i])).counterTotals.entries.length =
    (counted Subject.identity (recent (earlier ++ [call.upTo i]))).card
  /-- There are never more than 10001 totals. -/
  bounded : ∀ i,
    (after text writer (earlier ++ [call.upTo i])).counterTotals.entries.length ≤ 10001

/-! ## The loop -/

variable {text} {heap : Heap} {ca : CounterAggregator}

theorem aggregate_length (msgs : List V2.Envelope) :
    (aggregate text heap ca msgs).1.length = msgs.length := by
  induction msgs generalizing ca with
  | nil => rfl
  | cons msg msgs ih =>
    show (aggregate text heap _ msgs).1.length + 1 = _
    rw [ih, List.length_cons]

/-- Each message is processed in its place, after those before it. -/
theorem aggregate_getElem? (msgs : List V2.Envelope) (i : Nat) :
    (aggregate text heap ca msgs).1[i]? = msgs[i]?.map (fun msg =>
      (aggregateOne text heap (aggregate text heap ca (msgs.take i)).2 msg).1) := by
  induction msgs generalizing ca i with
  | nil => rfl
  | cons msg msgs ih =>
    cases i with
    | zero => rfl
    | succ i => exact ih i

/-- The map has the totals since the last reset, as the code tells counters apart. -/
def Holds (text : Option V2.Value → GoString) (events : List (Subject × UInt64))
    (ca : CounterAggregator) : Prop :=
  HasTotals (Subject.id text) (sinceReset (Subject.id text) 10000 events) ca.counterTotals

variable {events : List (Subject × UInt64)}

/-- A counter is added, after a reset when there are too many. -/
theorem Holds.count (h : Holds text events ca) (e : Subject × UInt64) :
    Holds text (events ++ [e]) ⟨accumulate
      (if 10000 < ca.counterTotals.entries.length then ca.resetTotals else ca).counterTotals
      (e.1.id text) e.2⟩ := by
  unfold Holds
  rw [sinceReset_concat, h.length]
  split
  · exact hasTotals_empty.accumulate e
  · exact HasTotals.accumulate h e

theorem Holds.aggregateOne (h : Holds text events ca) (msg : V2.Envelope) :
    Holds text (events ++ (event heap msg).toList) (aggregateOne text heap ca msg).2 := by
  unfold CounterAggregator.aggregateOne event
  cases msg.getCounter with
  | none => simpa using h
  | some c => exact h.count (⟨c.name, heap.deprecatedTagsOf msg.deprecatedTags⟩, c.getDelta)

theorem Holds.aggregate (h : Holds text events ca) (msgs : List V2.Envelope) :
    Holds text (events ++ msgs.filterMap (event heap)) (aggregate text heap ca msgs).2 := by
  induction msgs generalizing events ca with
  | nil =>
    rw [List.filterMap_nil, List.append_nil]
    exact h
  | cons msg msgs ih =>
    have hevents : events ++ (msg :: msgs).filterMap (event heap) =
        events ++ (event heap msg).toList ++ msgs.filterMap (event heap) := by
      rw [List.append_assoc, List.filterMap_cons]
      cases event heap msg <;> rfl
    rw [hevents]
    exact ih (h.aggregateOne msg)

/-- The totals held after any calls. -/
theorem holds_after (writer : List V2.Envelope → Option GoString) (calls : List Call) :
    Holds text (history calls) (after text writer calls) := by
  induction calls using List.reverseRecOn with
  | nil => exact hasTotals_empty
  | append_singleton calls call ih =>
    rw [after, List.foldl_concat, history, List.flatMap_append, List.flatMap_singleton]
    exact ih.aggregate call.msgs

/-- The total that is written is the one of the events so far. -/
theorem Holds.total (heap : Heap) (h : Holds text events ca) {msg : V2.Envelope} {c : V2.Counter}
    (hc : msg.getCounter = some c) :
    ∃ e, event heap msg = some e ∧ (CounterAggregator.aggregateOne text heap ca msg).1 =
      withTotal msg c (Lib.total (Subject.id text)
        (sinceReset (Subject.id text) 10000 (events ++ [e])) (e.1.id text)) := by
  refine ⟨(⟨c.name, heap.deprecatedTagsOf msg.deprecatedTags⟩, c.getDelta), ?_, ?_⟩
  · rw [event, hc, Option.map_some]
  · rw [← (h.count _).getD_lookup, CounterAggregator.aggregateOne, hc]
    rfl

/-! ## Names and maps -/

/-- What a call hashes is in the set. -/
def Call.Hashes (S : Set GoString) (text : Option V2.Value → GoString) (call : Call) : Prop :=
  ∀ e ∈ call.events, TextsIn S text e.1.tags

variable {S : Set GoString}

/-- The hash tells the counters apart as a reader does. -/
theorem agreeOn_history (hS : Set.InjOn Sha1.sum S) (htext : Function.Injective text)
    {calls : List Call} (hcalls : ∀ call ∈ calls, call.Hashes S text) :
    AgreeOn (Subject.id text) Subject.identity (history calls) := by
  have hin : ∀ e ∈ history calls, TextsIn S text e.1.tags := by
    intro e he
    obtain ⟨call, hcall, he⟩ := List.mem_flatMap.mp he
    exact hcalls call hcall e he
  intro a ha b hb
  rw [Subject.id, Subject.id, CounterID.mk.injEq, Subject.identity, Subject.identity,
    Prod.mk.injEq, hashTags_eq_iff_graph hS htext (hin a ha) (hin b hb)]

theorem Call.Hashes.upTo {call : Call} (h : call.Hashes S text) (i : Nat) :
    (call.upTo i).Hashes S text := by
  intro e he
  obtain ⟨msg, hmsg, hevent⟩ := List.mem_filterMap.mp he
  exact h e (List.mem_filterMap.mpr ⟨msg, List.mem_of_mem_take hmsg, hevent⟩)

theorem hashes_upTo {earlier : List Call} {call : Call}
    (h : ∀ c ∈ earlier ++ [call], c.Hashes S text) (i : Nat) :
    ∀ c ∈ earlier ++ [call.upTo i], c.Hashes S text := by
  intro c hc
  rcases List.mem_append.mp hc with hc | hc
  · exact h c (List.mem_append_left _ hc)
  · rw [List.mem_singleton.mp hc]
    exact (h call (by simp)).upTo i

/-- One more message of a call. -/
theorem history_upTo_succ (earlier : List Call) {call : Call} {i : Nat} {msg : V2.Envelope}
    (hmsg : call.msgs[i]? = some msg) {e : Subject × UInt64} (he : event call.heap msg = some e) :
    history (earlier ++ [call.upTo (i + 1)]) = history (earlier ++ [call.upTo i]) ++ [e] := by
  have htake : call.msgs.take (i + 1) = call.msgs.take i ++ [msg] := by
    rw [List.take_add_one, hmsg, Option.toList_some]
  simp [history, Call.events, Call.upTo, htake, List.filterMap_append, he]

/-- The totals held at a message, counted by names and maps. -/
theorem length_after (hS : Set.InjOn Sha1.sum S) (htext : Function.Injective text)
    (writer : List V2.Envelope → Option GoString) {calls : List Call}
    (hcalls : ∀ call ∈ calls, call.Hashes S text) :
    (after text writer calls).counterTotals.entries.length =
      (counted Subject.identity (recent calls)).card := by
  have hagree := agreeOn_history hS htext hcalls
  have hsuffix : sinceReset (Subject.id text) 10000 (history calls) <:+ history calls :=
    sinceReset_suffix 10000
  have hwindow := hagree.mono hsuffix.subset
  rw [(holds_after writer calls).length, hwindow.card_counted, hagree.sinceReset_eq, recent]

/-- Every batch carries the totals of its counters by name and map of tags since the last
reset. -/
theorem counter_totals (hS : Set.InjOn Sha1.sum S) (htext : Function.Injective text)
    (writer : List V2.Envelope → Option GoString) (earlier : List Call) (call : Call)
    (hcalls : ∀ c ∈ earlier ++ [call], c.Hashes S text) :
    ∃ out, (∀ writer' : List V2.Envelope → Option GoString,
        (write text writer' (after text writer earlier) call).1 = writer' out) ∧
      Aggregates text writer earlier call out := by
  refine ⟨_, fun _ => rfl, aggregate_length _, ?_, ?_, ?_, ?_⟩
  · intro i msg hmsg hnone
    rw [aggregate_getElem?, hmsg, Option.map_some, aggregateOne, hnone]
  · intro i msg c hmsg hc
    -- the aggregator in the middle of the batch is the one after a shorter call
    have hca : Holds text _ (after text writer (earlier ++ [call.upTo i])) :=
      holds_after writer (earlier ++ [call.upTo i])
    rw [after, List.foldl_concat] at hca
    obtain ⟨e, he, hout⟩ := hca.total call.heap hc
    have hagree := agreeOn_history hS htext (hashes_upTo hcalls (i + 1))
    rw [history_upTo_succ earlier hmsg he] at hagree
    have hlast : e ∈ sinceReset (Subject.id text) 10000
        (history (earlier ++ [call.upTo i]) ++ [e]) := by
      rw [sinceReset_concat]
      split
      · exact List.mem_singleton_self e
      · exact List.mem_append_right _ (List.mem_singleton_self e)
    have hsuffix : sinceReset (Subject.id text) 10000
        (history (earlier ++ [call.upTo i]) ++ [e]) <:+ _ := sinceReset_suffix 10000
    have hwindow := hagree.mono hsuffix.subset
    have hidentity : (c.name, Dict.graph (call.heap.deprecatedTagsOf msg.deprecatedTags)) =
        e.1.identity := by
      rw [event, hc, Option.map_some] at he
      cases he
      rfl
    rw [aggregate_getElem?, hmsg, Option.map_some, hidentity, recent,
      history_upTo_succ earlier hmsg he, ← hagree.sinceReset_eq, ← hwindow.total_eq hlast]
    exact congrArg some hout
  · intro i
    exact length_after hS htext writer (hashes_upTo hcalls i)
  · intro i
    rw [length_after hS htext writer (hashes_upTo hcalls i)]
    exact card_counted_sinceReset_le 10000

/-- A text of values that tells them apart. -/
def sampleText : Option V2.Value → GoString
  | none => [0]
  | some ⟨none⟩ => [1]
  | some ⟨some (.text s)⟩ => 2 :: s
  | some ⟨some (.integer i)⟩ => 3 :: putUint64 i.toUInt64
  | some ⟨some (.decimal d)⟩ => 4 :: putUint64 d.bits

/-- The value of such a text. -/
def sampleValue : GoString → Option V2.Value
  | 1 :: _ => some ⟨none⟩
  | 2 :: s => some ⟨some (.text s)⟩
  | 3 :: s => some ⟨some (.integer (uint64LE s).toInt64)⟩
  | 4 :: s => some ⟨some (.decimal ⟨uint64LE s⟩)⟩
  | _ => none

theorem sampleText_injective : Function.Injective sampleText := by
  refine Function.LeftInverse.injective (g := sampleValue) (fun v => ?_)
  rcases v with _ | ⟨_ | s | i | d⟩
  · rfl
  · rfl
  · rfl
  · simp [sampleText, sampleValue, uint64LE_putUint64]
  · simp [sampleText, sampleValue, uint64LE_putUint64]

/-- A counter with two tags, which the two calls visit in different orders. -/
def sampleCall (delta : UInt64) (tags : DeprecatedTags) : Call :=
  { msgs := [{ message := some (.log ⟨[], .OUT⟩) },
      { deprecatedTags := some 0, message := some (.counter ⟨str "c", some (.delta delta)⟩) }]
    heap := { deprecatedTags := fun _ => tags } }

def firstCall : Call :=
  sampleCall 3 ((∅ : DeprecatedTags).insert (str "a") none |>.insert (str "b") (some ⟨none⟩))

def secondCall : Call :=
  sampleCall 4 ((∅ : DeprecatedTags).insert (str "b") (some ⟨none⟩) |>.insert (str "a") none)

example : (aggregate sampleText secondCall.heap (after sampleText (fun _ => none) [firstCall])
    secondCall.msgs).1.map V2.Envelope.getCounter =
    [none, some ⟨str "c", some (.total 7)⟩] := by
  decide +kernel

theorem counter_totals_visit_orders : ∃ out,
    (∀ writer : List V2.Envelope → Option GoString,
      (write sampleText writer (after sampleText (fun _ => none) [firstCall]) secondCall).1 =
        writer out) ∧
      Aggregates sampleText (fun _ => none) [firstCall] secondCall out := by
  have hS : Set.InjOn Sha1.sum { s | s ∈ [str "a", str "b", [0], [1]] } := by
    show ∀ u, u ∈ [str "a", str "b", [0], [1]] → ∀ v, v ∈ [str "a", str "b", [0], [1]] →
      Sha1.sum u = Sha1.sum v → u = v
    decide +kernel
  have hcalls : ∀ c ∈ [firstCall] ++ [secondCall], ∀ e ∈ c.events,
      ∀ x ∈ mapElements sampleText e.1.tags,
        x.k ∈ [str "a", str "b", [0], [1]] ∧ x.v ∈ [str "a", str "b", [0], [1]] := by
    decide +kernel
  exact counter_totals hS sampleText_injective (fun _ => none) [firstCall] secondCall hcalls

end CounterAggregator

end Loggregator.Metron
