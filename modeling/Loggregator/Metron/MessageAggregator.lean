import Loggregator.Lib.Totals
import Loggregator.Lib.Transition
import Loggregator.Metron.TagHash
import Loggregator.Plumbing.Envelope
import Mathlib.Logic.Function.Basic

/-!
# The totals of metron's v1 counters

Any number of goroutines call `MessageAggregator.Write`. A step is one operation on shared state:
locking and unlocking `m.mu`, reading and storing the total, setting it in the envelope, and
handing the envelope to the next writer. The hash is made before the lock is taken, from the tags
that the envelope refers to at that time.

`State.order` records the counters in the order of their stores to the map. In that order every
counter is emitted with the sum of the deltas of its origin, name and map of tags.
-/

namespace Loggregator.Metron.MessageAggregator

open Lib Events

universe u v

/-- `counterID` of the package `v1`. -/
structure CounterID where
  origin : GoString
  name : GoString
  tagsHash : GoString
  deriving DecidableEq

/-- An envelope that `handleCounter` is called with, and the map of its tags. -/
structure Event where
  envelope : Envelope
  tags : Tags
  isCounter : envelope.eventType = .counterEvent

namespace Event

/-- `GetCounterEvent().GetName()`. -/
def name (e : Event) : GoString := (e.envelope.counterEvent.map CounterEvent.name).getD []

/-- `GetCounterEvent().GetDelta()`. -/
def delta (e : Event) : UInt64 := (e.envelope.counterEvent.map CounterEvent.delta).getD 0

/-- The counter as the code tells it apart. -/
def id (e : Event) : CounterID := ⟨e.envelope.origin, e.name, hashTags (fun v => v) e.tags⟩

/-- The counter as a reader tells it apart: the origin, the name and the map of tags. -/
def identity (e : Event) : GoString × GoString × Finset (GoString × GoString) :=
  (e.envelope.origin, e.name, Dict.graph e.tags)

/-- The envelope once its total is set. -/
def withTotal (e : Event) (total : UInt64) : Envelope :=
  { e.envelope with
    counterEvent := e.envelope.counterEvent.map (fun c => { c with total := total }) }

end Event

/-- A goroutine, by the operation of `Write` that comes next. -/
inductive Pc where
  | idle
  | lock (e : Event)
  | read (e : Event)
  | store (e : Event) (newVal : UInt64)
  | setTotal (e : Event) (newVal : UInt64)
  | unlock (e : Event) (newVal : UInt64)
  | output (envelope : Envelope)
  /-- There was no counter to set the total of; the deferred call has unlocked. -/
  | panicked (e : Event) (newVal : UInt64)

/-- The aggregator and the goroutines, with the counters that each goroutine has called `Write`
with, the order of the stores, and what each goroutine has handed to the writer. -/
structure State (ι : Type u) where
  pc : ι → Pc := fun _ => .idle
  mu : Option ι := none
  counterTotals : Dict CounterID UInt64 := ∅
  called : ι → List Event := fun _ => []
  order : List (ι × Event) := []
  emitted : ι → List Envelope := fun _ => []

/-- A call of `Write` with the memory of the tags, and the next operation of a goroutine. -/
inductive Action (ι : Type u) where
  | write (g : ι) (envelope : Envelope) (heap : Heap)
  | next (g : ι)

variable {ι : Type u} [DecidableEq ι]

/-- A goroutine goes on to another operation. -/
def State.goto (st : State ι) (g : ι) (pc : Pc) : State ι :=
  { st with pc := Function.update st.pc g pc }

/-- The next operation of `Write`. -/
def State.next (st : State ι) (g : ι) : Pc → Option (State ι)
  | .idle | .panicked _ _ => none
  | .lock e => if st.mu = none then some { st.goto g (.read e) with mu := some g } else none
  | .read e => some (st.goto g (.store e ((st.counterTotals.lookup e.id).getD 0 + e.delta)))
  | .store e newVal =>
    some { st.goto g (.setTotal e newVal) with
      counterTotals := st.counterTotals.insert e.id newVal
      order := st.order ++ [(g, e)] }
  | .setTotal e newVal =>
    match e.envelope.counterEvent with
    | none => some { st.goto g (.panicked e newVal) with mu := none }
    | some _ => some (st.goto g (.unlock e newVal))
  | .unlock e newVal => some { st.goto g (.output (e.withTotal newVal)) with mu := none }
  | .output envelope =>
    some { st.goto g .idle with
      emitted := Function.update st.emitted g (st.emitted g ++ [envelope]) }

/-- One action. -/
def step (st : State ι) : Action ι → Option (State ι)
  | .write g envelope heap =>
    match st.pc g with
    | .idle =>
      if h : envelope.eventType = .counterEvent then
        let e : Event := ⟨envelope, heap.tagsOf envelope.tags, h⟩
        some { st.goto g (.lock e) with called := Function.update st.called g (st.called g ++ [e]) }
      else some (st.goto g (.output envelope))
    | _ => none
  | .next g => st.next g (st.pc g)

/-! ## The order of the counters -/

/-- The parts of a list that belong to a goroutine. -/
def own {α : Type v} (g : ι) (l : List (ι × α)) : List α :=
  (l.filter (fun p => decide (p.1 = g))).map Prod.snd

/-- The counters among some envelopes. -/
def counters (envelopes : List Envelope) : List Envelope :=
  envelopes.filter (fun e => decide (e.eventType = .counterEvent))

/-- The counters with their deltas. -/
def deltas (order : List (ι × Event)) : List (Event × UInt64) :=
  order.map (fun p => (p.2, p.2.delta))

/-- The counters of an order with their totals: each one has the sum up to and including it. -/
def totalled {κ : Type v} [DecidableEq κ] (key : Event → κ) :
    List (ι × Event) → List (ι × Event) → List (ι × Envelope)
  | _, [] => []
  | before, (g, e) :: rest =>
    (g, { e.envelope with
      counterEvent := e.envelope.counterEvent.map (fun c =>
        { c with total := total key (deltas (before ++ [(g, e)])) (key e) }) }) ::
      totalled key (before ++ [(g, e)]) rest

/-- An order of the counters that explains what has been emitted. -/
structure Linearizes (st : State ι) (order : List (ι × Event)) : Prop where
  /-- The order is the one of each goroutine's calls, and lacks at most the call under way. -/
  consistent : ∀ g, own g order <+: st.called g ∧ (st.pc g = .idle → own g order = st.called g)
  /-- Each goroutine emits its counters in turn with the totals of the order. -/
  emitted : ∀ g, counters (st.emitted g) <+: own g (totalled Event.identity [] order) ∧
    (st.pc g = .idle → counters (st.emitted g) = own g (totalled Event.identity [] order))
  /-- The hash neither merges two counters nor splits one. -/
  apart : ∀ a ∈ order, ∀ b ∈ order, a.2.id = b.2.id ↔ a.2.identity = b.2.identity

section Lists

variable {α : Type v} {κ : Type v} [DecidableEq κ] {g g' : ι}

@[simp] theorem own_append (l l' : List (ι × α)) : own g (l ++ l') = own g l ++ own g l' := by
  rw [own, List.filter_append, List.map_append]
  rfl

@[simp] theorem own_self (x : α) : own g [(g, x)] = [x] := by simp [own]

theorem own_other (h : g' ≠ g) (x : α) : own g [(g', x)] = [] := by simp [own, h]

@[simp] theorem counters_append (l l' : List Envelope) :
    counters (l ++ l') = counters l ++ counters l' := List.filter_append _ _

omit [DecidableEq ι] in
theorem totalled_concat (key : Event → κ) (before order : List (ι × Event)) (g : ι) (e : Event) :
    totalled key before (order ++ [(g, e)]) = totalled key before order ++
      [(g, e.withTotal (total key (deltas (before ++ order ++ [(g, e)])) (key e)))] := by
  induction order generalizing before with
  | nil => simp [totalled, Event.withTotal]
  | cons p order ih =>
    rw [List.cons_append, totalled, totalled, ih, List.append_assoc before, List.cons_append,
      List.nil_append, List.cons_append]

omit [DecidableEq ι] in
/-- The totals do not depend on how the counters are told apart. -/
theorem totalled_eq {key : Event → κ} {κ' : Type v} [DecidableEq κ'] {key' : Event → κ'}
    {order : List (ι × Event)} (h : AgreeOn key key' (deltas order)) :
    totalled key [] order = totalled key' [] order := by
  induction order using List.reverseRecOn with
  | nil => rfl
  | append_singleton order p ih =>
    obtain ⟨g, e⟩ := p
    have hlast : (e, e.delta) ∈ deltas (order ++ [(g, e)]) := by simp [deltas]
    have hbefore : deltas order ⊆ deltas (order ++ [(g, e)]) := by
      rw [deltas, deltas, List.map_append]
      exact List.subset_append_left _ _
    rw [totalled_concat, totalled_concat, ih (h.mono hbefore), List.nil_append, h.total_eq hlast]

end Lists

/-! ## Invariants -/

/-- The goroutine holds the lock. -/
def Pc.inside : Pc → Bool
  | .read _ | .store _ _ | .setTotal _ _ | .unlock _ _ => true
  | .idle | .lock _ | .output _ | .panicked _ _ => false

/-- The counter that has not been stored yet. -/
def Pc.waiting : Pc → List Event
  | .lock e | .read e | .store e _ => [e]
  | .idle | .setTotal _ _ | .unlock _ _ | .output _ | .panicked _ _ => []

/-- The counter that has been stored and not been emitted yet. -/
def Pc.inFlight : Pc → List Envelope
  | .setTotal e newVal | .unlock e newVal | .panicked e newVal => [e.withTotal newVal]
  | .output envelope => counters [envelope]
  | .idle | .lock _ | .read _ | .store _ _ => []

/-- What holds of a goroutine at an operation. -/
structure Local (st : State ι) (g : ι) (pc : Pc) : Prop where
  holds : pc.inside = true → st.mu = some g
  newVal : ∀ e newVal, pc = .store e newVal →
    newVal = (st.counterTotals.lookup e.id).getD 0 + e.delta
  called : own g st.order ++ pc.waiting = st.called g
  emitted : counters (st.emitted g) ++ pc.inFlight = own g (totalled Event.id [] st.order)

structure Inv (st : State ι) : Prop where
  totals : HasTotals Event.id (deltas st.order) st.counterTotals
  goroutine : ∀ g, Local st g (st.pc g)

theorem counters_withTotal (e : Event) (total : UInt64) :
    counters [e.withTotal total] = [e.withTotal total] := by
  have htype : (e.withTotal total).eventType = .counterEvent := e.isCounter
  simp [counters, htype]

/-- What a step of one goroutine leaves to the others. -/
structure Frame (st st' : State ι) (g : ι) : Prop where
  pc : ∀ g' ≠ g, st'.pc g' = st.pc g'
  called : ∀ g' ≠ g, st'.called g' = st.called g'
  emitted : ∀ g' ≠ g, st'.emitted g' = st.emitted g'
  order : st'.order = st.order ∨ ∃ e, st'.order = st.order ++ [(g, e)]
  /-- The lock and the map change only when nobody else holds the lock. -/
  shared : st'.mu = st.mu ∧ st'.counterTotals = st.counterTotals ∨ st.mu = none ∨ st.mu = some g

section Step

variable {st st' : State ι} {g : ι}

theorem State.goto_pc (st : State ι) (g : ι) (pc : Pc) : (st.goto g pc).pc g = pc :=
  Function.update_self _ _ _

theorem Frame.goto (st : State ι) (g : ι) (pc : Pc) : Frame st (st.goto g pc) g where
  pc _ h := Function.update_of_ne h _ _
  called _ _ := rfl
  emitted _ _ := rfl
  order := Or.inl rfl
  shared := Or.inl ⟨rfl, rfl⟩

theorem Local.frame (h : Frame st st' g) {g' : ι} (hne : g' ≠ g) {pc : Pc}
    (hl : Local st g' pc) : Local st' g' pc := by
  -- a goroutine that holds the lock keeps it, and finds the map as it left it
  have hshared : pc.inside = true →
      st'.mu = some g' ∧ st'.counterTotals = st.counterTotals := by
    intro hinside
    have hmu := hl.holds hinside
    rcases h.shared with ⟨hmu', htotals⟩ | hnone | hg
    · exact ⟨hmu'.trans hmu, htotals⟩
    · rw [hmu] at hnone
      cases hnone
    · rw [hmu] at hg
      exact absurd (Option.some.inj hg) hne
  have hown : own g' st'.order = own g' st.order ∧
      own g' (totalled Event.id [] st'.order) = own g' (totalled Event.id [] st.order) := by
    rcases h.order with heq | ⟨e, heq⟩
    · rw [heq]
      exact ⟨rfl, rfl⟩
    · rw [heq, totalled_concat, own_append, own_append, own_other hne.symm, own_other hne.symm,
        List.append_nil, List.append_nil]
      exact ⟨rfl, rfl⟩
  refine ⟨fun hinside => (hshared hinside).1, ?_, ?_, ?_⟩
  · intro e newVal hpc
    rw [(hshared (by rw [hpc]; rfl)).2]
    exact hl.newVal e newVal hpc
  · rw [h.called g' hne, hown.1]
    exact hl.called
  · rw [h.emitted g' hne, hown.2]
    exact hl.emitted

theorem Inv.frame (hi : Inv st) (h : Frame st st' g)
    (htotals : HasTotals Event.id (deltas st'.order) st'.counterTotals)
    {pc : Pc} (hpc : st'.pc g = pc) (hl : Local st' g pc) : Inv st' := by
  refine ⟨htotals, fun g' => ?_⟩
  by_cases hg : g' = g
  · rw [hg, hpc]
    exact hl
  · rw [h.pc g' hg]
    exact (hi.goroutine g').frame h hg

/-- The operations of `Write` keep the invariant. -/
theorem Inv.next (hi : Inv st) {pc : Pc} (hpc : st.pc g = pc) (h : st.next g pc = some st') :
    Inv st' := by
  have hl := hi.goroutine g
  rw [hpc] at hl
  cases pc with
  | idle | panicked => cases h
  | lock e =>
    simp only [State.next] at h
    split at h
    · next hmu =>
      cases h
      refine hi.frame { Frame.goto st g (.read e) with shared := Or.inr (Or.inl hmu) } hi.totals
        (st.goto_pc g _) ⟨fun _ => rfl, ?_, hl.called, hl.emitted⟩
      rintro _ _ ⟨⟩
    · cases h
  | read e =>
    cases h
    refine hi.frame (Frame.goto st g _) hi.totals (st.goto_pc g _)
      ⟨hl.holds, ?_, hl.called, hl.emitted⟩
    rintro _ _ ⟨⟩
    rfl
  | store e newVal =>
    cases h
    have htotals : HasTotals Event.id (deltas (st.order ++ [(g, e)]))
        (st.counterTotals.insert e.id newVal) := by
      rw [deltas, List.map_append, hl.newVal e newVal rfl]
      exact hi.totals.accumulate (e, e.delta)
    refine hi.frame { Frame.goto st g (.setTotal e newVal) with
      order := Or.inr ⟨e, rfl⟩
      shared := Or.inr (Or.inr (hl.holds rfl)) } htotals (st.goto_pc g _)
      ⟨fun _ => hl.holds rfl, ?_, ?_, ?_⟩
    · rintro _ _ ⟨⟩
    · show own g (st.order ++ [(g, e)]) ++ [] = st.called g
      rw [own_append, own_self, List.append_nil]
      exact hl.called
    · -- the value that is stored is the total of the new order
      have htotal : newVal = total Event.id (deltas (st.order ++ [(g, e)])) e.id := by
        rw [← htotals.getD_lookup, AList.lookup_insert, Option.getD_some]
      have hemitted := hl.emitted
      rw [Pc.inFlight, List.append_nil] at hemitted
      show counters (st.emitted g) ++ [e.withTotal newVal] =
        own g (totalled Event.id [] (st.order ++ [(g, e)]))
      rw [totalled_concat, own_append, own_self, List.nil_append, ← htotal, hemitted]
  | setTotal e newVal =>
    simp only [State.next] at h
    split at h
    · cases h
      refine hi.frame { Frame.goto st g (.panicked e newVal) with
        shared := Or.inr (Or.inr (hl.holds rfl)) } hi.totals (st.goto_pc g _)
        ⟨?_, ?_, hl.called, hl.emitted⟩
      · rintro ⟨⟩
      · rintro _ _ ⟨⟩
    · cases h
      refine hi.frame (Frame.goto st g _) hi.totals (st.goto_pc g _)
        ⟨fun _ => hl.holds rfl, ?_, hl.called, hl.emitted⟩
      rintro _ _ ⟨⟩
  | unlock e newVal =>
    cases h
    refine hi.frame { Frame.goto st g (.output (e.withTotal newVal)) with
      shared := Or.inr (Or.inr (hl.holds rfl)) } hi.totals (st.goto_pc g _)
      ⟨?_, ?_, hl.called, ?_⟩
    · rintro ⟨⟩
    · rintro _ _ ⟨⟩
    · rw [Pc.inFlight, counters_withTotal]
      exact hl.emitted
  | output envelope =>
    cases h
    refine hi.frame { Frame.goto st g .idle with
      emitted := fun _ hne => Function.update_of_ne hne _ _ } hi.totals (st.goto_pc g _)
      ⟨?_, ?_, hl.called, ?_⟩
    · rintro ⟨⟩
    · rintro _ _ ⟨⟩
    · show counters (Function.update st.emitted g (st.emitted g ++ [envelope]) g) ++ [] = _
      rw [Function.update_self, counters_append, List.append_nil]
      exact hl.emitted

/-- A call of `Write` keeps the invariant. -/
theorem Inv.write (hi : Inv st) {envelope : Envelope} {heap : Heap}
    (h : step st (.write g envelope heap) = some st') : Inv st' := by
  have hl := hi.goroutine g
  simp only [step] at h
  split at h
  · next hpc =>
    rw [hpc] at hl
    split at h
    · cases h
      refine hi.frame { Frame.goto st g _ with
        called := fun _ hne => Function.update_of_ne hne _ _ } hi.totals (st.goto_pc g _)
        ⟨?_, ?_, ?_, hl.emitted⟩
      · rintro ⟨⟩
      · rintro _ _ ⟨⟩
      · have hcalled := hl.called
        rw [Pc.waiting, List.append_nil] at hcalled
        show own g st.order ++ [_] = Function.update st.called g (st.called g ++ [_]) g
        rw [Function.update_self, hcalled]
    · next htype =>
      cases h
      have hnone : counters [envelope] = [] := by simp [counters, htype]
      refine hi.frame (Frame.goto st g _) hi.totals (st.goto_pc g _) ⟨?_, ?_, hl.called, ?_⟩
      · rintro ⟨⟩
      · rintro _ _ ⟨⟩
      · rw [Pc.inFlight, hnone]
        exact hl.emitted
  · cases h

theorem Inv.step {a : Action ι} (hi : Inv st) (h : step st a = some st') : Inv st' := by
  cases a with
  | next g => exact hi.next rfl h
  | write g envelope heap => exact hi.write h

theorem inv_initial : Inv ({} : State ι) where
  totals := hasTotals_empty
  goroutine _ := ⟨by rintro ⟨⟩, by rintro _ _ ⟨⟩, rfl, rfl⟩

end Step

/-! ## Every run -/

/-- What a call hashes is in the set. -/
def Hashes (S : Set GoString) (_ : State ι) : Action ι → Prop
  | .write _ envelope heap => TextsIn S (fun v => v) (heap.tagsOf envelope.tags)
  | .next _ => True

section Runs

variable {S : Set GoString} {st : State ι}

theorem next_called {st' : State ι} {g : ι} {pc : Pc} (h : st.next g pc = some st') :
    st'.called = st.called := by
  cases pc with
  | idle | panicked => cases h
  | lock e =>
    simp only [State.next] at h
    split at h <;> cases h
    rfl
  | setTotal e newVal =>
    simp only [State.next] at h
    split at h <;> cases h <;> rfl
  | read | store | unlock | output =>
    cases h
    rfl

/-- The tags of every call were hashed. -/
theorem textsIn_called (hst : Reachable step (Hashes S) {} st) (g : ι) :
    ∀ e ∈ st.called g, TextsIn S (fun v => v) e.tags := by
  refine hst.invariant (P := fun st => ∀ e ∈ st.called g, TextsIn S (fun v => v) e.tags)
    (fun _ he => by cases he) ?_
  intro st a st' ih hhashes h
  cases a with
  | next g' =>
    rw [next_called h]
    exact ih
  | write g' envelope heap =>
    simp only [step] at h
    split at h
    · split at h
      · cases h
        intro e he
        change e ∈ Function.update st.called g' (st.called g' ++ [_]) g at he
        rw [Function.update_apply] at he
        split at he
        · next hg =>
          rw [hg] at ih
          rcases List.mem_append.mp he with he | he
          · exact ih e he
          · cases List.mem_singleton.mp he
            exact hhashes
        · exact ih e he
      · cases h
        exact ih
    · cases h

theorem inv_reachable {ok : State ι → Action ι → Prop} (hst : Reachable step ok {} st) : Inv st :=
  hst.invariant inv_initial (fun _ _ _ hi _ h => hi.step h)

/-- A counter of the order is one that its goroutine has called `Write` with. -/
theorem Inv.mem_called (hi : Inv st) {p : ι × Event} (hp : p ∈ st.order) :
    p.2 ∈ st.called p.1 := by
  rw [← (hi.goroutine p.1).called]
  refine List.mem_append_left _ (List.mem_map.mpr ⟨p, ?_, rfl⟩)
  rw [List.mem_filter]
  exact ⟨hp, decide_eq_true rfl⟩

/-- The hash tells the counters of the order apart as a reader does. -/
theorem id_eq_iff_identity (hS : Set.InjOn Sha1.sum S) (hst : Reachable step (Hashes S) {} st)
    {a b : ι × Event} (ha : a ∈ st.order) (hb : b ∈ st.order) :
    a.2.id = b.2.id ↔ a.2.identity = b.2.identity := by
  have hi := inv_reachable hst
  have hta := textsIn_called hst a.1 a.2 (hi.mem_called ha)
  have htb := textsIn_called hst b.1 b.2 (hi.mem_called hb)
  rw [Event.id, Event.id, CounterID.mk.injEq, Event.identity, Event.identity, Prod.mk.injEq,
    Prod.mk.injEq, hashTags_eq_iff_graph hS (fun _ _ h => h) hta htb]

/-- In the order of the stores every counter is emitted with the sum of the deltas of its origin,
name and map of tags. -/
theorem totals_linearize (hS : Set.InjOn Sha1.sum S) (hst : Reachable step (Hashes S) {} st) :
    ∃ order, Linearizes st order := by
  have hi := inv_reachable hst
  have hagree : AgreeOn Event.id Event.identity (deltas st.order) := by
    intro a ha b hb
    obtain ⟨p, hp, rfl⟩ := List.mem_map.mp ha
    obtain ⟨q, hq, rfl⟩ := List.mem_map.mp hb
    exact id_eq_iff_identity hS hst hp hq
  refine ⟨st.order, fun g => ⟨⟨_, (hi.goroutine g).called⟩, ?_⟩,
    fun g => ⟨⟨(st.pc g).inFlight, ?_⟩, ?_⟩, fun a ha b hb => id_eq_iff_identity hS hst ha hb⟩
  · intro hidle
    have hcalled := (hi.goroutine g).called
    rwa [hidle, Pc.waiting, List.append_nil] at hcalled
  · rw [← totalled_eq hagree]
    exact (hi.goroutine g).emitted
  · intro hidle
    have hemitted := (hi.goroutine g).emitted
    rwa [hidle, Pc.inFlight, List.append_nil, totalled_eq hagree] at hemitted

end Runs

/-! ## Two goroutines -/

/-- A counter with the tags at a reference. -/
def sampleEnvelope (delta : UInt64) (tags : TagsRef) : Envelope :=
  { eventType := .counterEvent, tags := some tags, counterEvent := some ⟨str "c", delta, 0⟩ }

/-- Two maps with the same tags, which are visited in different orders, and one with others. -/
def sampleHeap : Heap :=
  { tags := fun
      | 0 => (∅ : Tags).insert (str "a") (str "x") |>.insert (str "b") (str "y")
      | 1 => (∅ : Tags).insert (str "b") (str "y") |>.insert (str "a") (str "x")
      | _ => (∅ : Tags).insert (str "a") (str "y") |>.insert (str "b") (str "x") }

def sampleTexts : List GoString := [str "a", str "b", str "x", str "y"]

/-- The second goroutine stores its total first and is the last to emit it. -/
def sampleRun : List (Action Bool) :=
  [.write false (sampleEnvelope 3 0) sampleHeap, .write true (sampleEnvelope 4 1) sampleHeap,
    .next true, .next true, .next true, .next true, .next true,
    .next false, .next false, .next false, .next false, .next false, .next false,
    .next true, .write true (sampleEnvelope 5 2) sampleHeap,
    .next true, .next true, .next true, .next true, .next true, .next true]

instance (s : State Bool) (a : Action Bool) : Decidable (Hashes { t | t ∈ sampleTexts } s a) :=
  match a with
  | .write _ envelope heap =>
    inferInstanceAs (Decidable (∀ e ∈ mapElements (fun v => v) (heap.tagsOf envelope.tags),
      e.k ∈ sampleTexts ∧ e.v ∈ sampleTexts))
  | .next _ => isTrue trivial

theorem totals_linearize_sample :
    ∃ st : State Bool, Reachable step (Hashes { t | t ∈ sampleTexts }) {} st ∧
      (st.emitted false).map (fun e => e.counterEvent.map CounterEvent.total) = [some 7] ∧
      (st.emitted true).map (fun e => e.counterEvent.map CounterEvent.total) =
        [some 4, some 5] ∧
      ∃ order, Linearizes st order := by
  have hrun : (run (guarded step (Hashes { t | t ∈ sampleTexts })) {} sampleRun).map (fun st =>
      ((st.emitted false).map (fun e => e.counterEvent.map CounterEvent.total),
        (st.emitted true).map (fun e => e.counterEvent.map CounterEvent.total))) =
      some ([some 7], [some 4, some 5]) := by
    decide +kernel
  have hS : Set.InjOn Sha1.sum { t | t ∈ sampleTexts } := by
    show ∀ u, u ∈ sampleTexts → ∀ v, v ∈ sampleTexts → Sha1.sum u = Sha1.sum v → u = v
    decide +kernel
  obtain ⟨st, hreach, hfinal⟩ := exists_reachable_of_guarded hrun
  simp only [Prod.mk.injEq] at hfinal
  exact ⟨st, hreach, hfinal.1, hfinal.2, totals_linearize hS hreach⟩

end Loggregator.Metron.MessageAggregator
