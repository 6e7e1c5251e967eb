import Loggregator.Lib.Bytes
import Loggregator.Lib.Dict

/-!
# The registry of sinks

`doppler/internal/groupedsinks/grouped_sinks.go`, the part for the sinks of an application.
Every method holds the lock of the registry, so it is one step here. A sink is an interface
value: an object with an identity of its own, an application id and an identifier. The registry
finds it by these two strings only.

The lookup `wrapper` is what the proofs use: one law for each method says what it does to the
registration under each pair of strings.
-/

namespace Loggregator.Doppler

open Lib

/-- The dynamic types of sinks that the sink manager tells apart. -/
inductive SinkType where
  | dumpSink
  | syslogSink
  | websocketSink
  | containerMetricSink
  | other
  deriving DecidableEq

/-- `sinks.Sink`: the object, what its methods return and its dynamic type. -/
structure Sink where
  object : Nat
  appID : GoString
  identifier : GoString
  type : SinkType
  deriving DecidableEq

/-- The two strings by which a sink is found. -/
def Sink.key (s : Sink) : GoString × GoString := (s.appID, s.identifier)

/-- An input channel. -/
abbrev Chan := Nat

/-- `sink_wrapper.SinkWrapper`. -/
structure SinkWrapper where
  inputChan : Chan
  sink : Sink
  deriving DecidableEq

/-- The `wrappers` of an `AppGroup`. -/
abbrev AppGroup := Dict GoString SinkWrapper

/-- `GroupedSinks`, with the channels that it has closed. -/
structure GroupedSinks where
  apps : Dict GoString AppGroup := ∅
  closed : List Chan := []

namespace AppGroup

/-- `AppGroup.AddSink`. -/
def addSink (g : AppGroup) (sink : Sink) (inputChan : Chan) : Bool × AppGroup :=
  match g.lookup sink.identifier with
  | some _ => (false, g)
  | none => (true, g.insert sink.identifier ⟨inputChan, sink⟩)

/-- `AppGroup.removeSink`, with the channel that it closes. -/
def removeSink (g : AppGroup) (sink : Sink) : Option Chan × AppGroup :=
  ((g.lookup sink.identifier).map SinkWrapper.inputChan, g.erase sink.identifier)

end AppGroup

namespace GroupedSinks

/-- `GroupedSinks.RegisterAppSink`. -/
def registerAppSink (g : GroupedSinks) (inputChan : Chan) (sink : Sink) : Bool × GroupedSinks :=
  if sink.appID = [] ∨ sink.identifier = [] then (false, g)
  else
    let sinksForApp := (g.apps.lookup sink.appID).getD ∅
    let (ok, sinksForApp) := AppGroup.addSink sinksForApp sink inputChan
    (ok, { g with apps := g.apps.insert sink.appID sinksForApp })

/-- `GroupedSinks.DrainFor`. -/
def drainFor (g : GroupedSinks) (appId drainMetaData : GoString) : Option Sink :=
  ((g.apps.lookup appId).bind (fun sinksForApp => sinksForApp.lookup drainMetaData)).map
    SinkWrapper.sink

/-- `GroupedSinks.CloseAndDelete`. -/
def closeAndDelete (g : GroupedSinks) (sink : Sink) : Bool × GroupedSinks :=
  match g.apps.lookup sink.appID with
  | none => (false, g)
  | some sinksForApp =>
    let (removed, sinksForApp) := AppGroup.removeSink sinksForApp sink
    (removed.isSome,
      { apps := g.apps.putGroup sink.appID sinksForApp, closed := g.closed ++ removed.toList })

/-- The registration under an application id and an identifier. -/
def wrapper (g : GroupedSinks) (k : GoString × GoString) : Option SinkWrapper :=
  (g.apps.lookup k.1).bind (fun sinksForApp => sinksForApp.lookup k.2)

theorem drainFor_eq (g : GroupedSinks) (appId drainMetaData : GoString) :
    g.drainFor appId drainMetaData = (g.wrapper (appId, drainMetaData)).map SinkWrapper.sink :=
  rfl

@[simp] theorem wrapper_empty (k : GoString × GoString) : wrapper {} k = none := by
  simp [wrapper]

/-- A sink can be registered when both its strings are non-empty and nothing is registered
under them. -/
def Free (g : GroupedSinks) (sink : Sink) : Prop :=
  sink.appID ≠ [] ∧ sink.identifier ≠ [] ∧ g.wrapper sink.key = none

instance (g : GroupedSinks) (sink : Sink) : Decidable (g.Free sink) :=
  inferInstanceAs (Decidable (_ ∧ _ ∧ _))

theorem lookup_getD_empty (g : GroupedSinks) (k : GoString × GoString) :
    ((g.apps.lookup k.1).getD ∅).lookup k.2 = g.wrapper k := by
  unfold wrapper
  cases g.apps.lookup k.1 <;> rfl

theorem registerAppSink_ok (g : GroupedSinks) (c : Chan) (sink : Sink) :
    (g.registerAppSink c sink).1 = true ↔ g.Free sink := by
  have hlook := g.lookup_getD_empty sink.key
  simp only [Sink.key] at hlook
  unfold registerAppSink Free
  by_cases hempty : sink.appID = [] ∨ sink.identifier = []
  · rw [if_pos hempty]
    simp only [Bool.false_eq_true, false_iff]
    tauto
  · rw [if_neg hempty]
    rw [not_or] at hempty
    simp only [AppGroup.addSink, hlook, Sink.key]
    cases g.wrapper (sink.appID, sink.identifier) <;> simp [hempty]

theorem registerAppSink_wrapper (g : GroupedSinks) (c : Chan) (sink : Sink)
    (k : GoString × GoString) :
    (g.registerAppSink c sink).2.wrapper k =
      if g.Free sink ∧ k = sink.key then some ⟨c, sink⟩ else g.wrapper k := by
  have hlook := g.lookup_getD_empty sink.key
  simp only [Sink.key] at hlook
  by_cases hempty : sink.appID = [] ∨ sink.identifier = []
  · have hfree : ¬ g.Free sink := by
      unfold Free
      tauto
    simp [registerAppSink, hempty, hfree]
  have hne := not_or.mp hempty
  obtain ⟨a, i⟩ := k
  rw [registerAppSink, if_neg hempty]
  cases hw : g.wrapper (sink.appID, sink.identifier) with
  | some w =>
    have hfree : ¬ g.Free sink := by
      intro hf
      have := hf.2.2
      rw [Sink.key, hw] at this
      cases this
    rw [hw] at hlook
    simp only [AppGroup.addSink, hlook, hfree, false_and, if_false, wrapper,
      Dict.lookup_insert_ite]
    split
    · next ha =>
      subst ha
      simpa [wrapper] using g.lookup_getD_empty (sink.appID, i)
    · rfl
  | none =>
    have hfree : g.Free sink := ⟨hne.1, hne.2, hw⟩
    rw [hw] at hlook
    simp only [AppGroup.addSink, hlook, hfree, true_and, wrapper, Dict.lookup_insert_ite, Sink.key,
      Prod.mk.injEq]
    by_cases ha : a = sink.appID
    · subst ha
      simp only [if_true, Option.bind_some, Dict.lookup_insert_ite, true_and]
      split
      · rfl
      · simpa [wrapper] using g.lookup_getD_empty (sink.appID, i)
    · simp [ha]

theorem registerAppSink_closed (g : GroupedSinks) (c : Chan) (sink : Sink) :
    (g.registerAppSink c sink).2.closed = g.closed := by
  unfold registerAppSink
  split <;> rfl

theorem closeAndDelete_closed (g : GroupedSinks) (sink : Sink) :
    (g.closeAndDelete sink).2.closed =
      g.closed ++ ((g.wrapper sink.key).map SinkWrapper.inputChan).toList := by
  simp only [closeAndDelete, wrapper, Sink.key]
  cases g.apps.lookup sink.appID with
  | none => simp
  | some group => rfl

theorem closeAndDelete_wrapper (g : GroupedSinks) (sink : Sink) (k : GoString × GoString) :
    (g.closeAndDelete sink).2.wrapper k = if k = sink.key then none else g.wrapper k := by
  obtain ⟨a, i⟩ := k
  simp only [closeAndDelete, wrapper, Sink.key, Prod.mk.injEq]
  cases hg : g.apps.lookup sink.appID with
  | none =>
    simp only
    split
    · next h => rw [h.1, hg]; rfl
    · rfl
  | some group =>
    simp only [AppGroup.removeSink, Dict.lookup_putGroup, Dict.lookup_erase_ite]
    by_cases ha : a = sink.appID
    · subst ha
      simp [hg]
    · simp [ha]

end GroupedSinks

end Loggregator.Doppler
