import Loggregator.Doppler.SinkManager
import Loggregator.Lib.IP
import Mathlib.Data.Set.Function

/-!
# Syslog drains by URL

A drain is added with `registerNewSyslogSink` and deleted with `DrainFor` and `UnregisterSink`
(`sink_manager.go`). The sink is stored under `SyslogSink.Identifier`, which is put together
from the parsed URL; the delete looks for the URL as it was given. The two agree just for the
URLs that are the identifier of their own parse.
-/

namespace Loggregator.Doppler

open Lib

namespace IPRange

/-- `iprange.IPRange`. -/
structure Range where
  start : GoString
  stop : GoString
  deriving DecidableEq

/-- The errors of `IpOutsideOfRanges`. -/
inductive Failure where
  | incompleteUrl
  | resolution
  deriving DecidableEq

/-- `IpOutsideOfRanges`, where `resolve` is the text of `net.ResolveIPAddr`'s result. An
address that does not parse is the nil slice. -/
def ipOutsideOfRanges (resolve : GoString → Option GoString) (testURL : Url)
    (ranges : List Range) : Except Failure Bool :=
  if testURL.host = [] then .error .incompleteUrl
  else
    let host := testURL.host.takeWhile (fun b => b != colon)
    let outside (ip : List UInt8) := !ranges.any (fun r =>
      decide ((IP.parseIP r.start).getD [] ≤ ip) && decide (ip ≤ (IP.parseIP r.stop).getD []))
    match IP.parseIP host with
    | some ip => .ok (outside ip)
    | none =>
      match resolve host with
      | none => .error .resolution
      | some text => .ok (outside ((IP.parseIP text).getD []))

end IPRange

/-- `blacklist.URLBlacklistManager`, with the name resolution that it uses. -/
structure URLBlacklistManager where
  blacklistIPs : List IPRange.Range := []
  resolve : GoString → Option GoString := fun _ => none

/-- The errors of `CheckUrl`. -/
inductive CheckError where
  | parse (e : Url.ParseError)
  | incompleteUrl
  | blacklisted
  deriving DecidableEq

/-- `URLBlacklistManager.CheckUrl`; a name that does not resolve is left to the drain. -/
def URLBlacklistManager.checkUrl (m : URLBlacklistManager) (rawUrl : GoString) :
    Except CheckError Url :=
  match Url.parse rawUrl with
  | .error e => .error (.parse e)
  | .ok outputURL =>
    match IPRange.ipOutsideOfRanges m.resolve outputURL m.blacklistIPs with
    | .error .incompleteUrl => .error .incompleteUrl
    | .error .resolution => .ok outputURL
    | .ok true => .ok outputURL
    | .ok false => .error .blacklisted

/-- The schemes that `syslogwriter.NewWriter` accepts. -/
def writerSchemes : List GoString := [str "https", str "syslog", str "syslog-tls"]

/-- `SyslogSink.Identifier`. -/
def syslogIdentifier (drainURL : Url) : GoString :=
  if drainURL.host = [] then []
  else drainURL.scheme ++ str "://" ++ drainURL.host ++ drainURL.path

/-- `syslog.NewSyslogSink`. -/
def newSyslogSink (object : Nat) (appId : GoString) (drainURL : Url) : Sink where
  object := object
  appID := appId
  identifier := syslogIdentifier drainURL
  type := .syslogSink

/-- `store.ServiceInfo`. -/
structure AppService where
  appId : GoString
  url : GoString
  hostname : GoString := []
  deriving DecidableEq

/-- What makes a service the same service: its application and its URL. -/
def AppService.key (s : AppService) : GoString × GoString := (s.appId, s.url)

/-- The error that `registerNewSyslogSink` reports, with the URL as it reports it. -/
inductive DrainError where
  | invalidUrl (appId url : GoString) (e : CheckError)
  | invalidScheme (appId url : GoString)
  deriving DecidableEq

namespace SinkManager

/-- `registerNewSyslogSink`. Each sink is a new object. -/
def registerNewSyslogSink (m : URLBlacklistManager) (st : State) (s : AppService) :
    State × Option DrainError :=
  match m.checkUrl s.url with
  | .error e => (st, some (.invalidUrl s.appId s.url e))
  | .ok u =>
    if u.scheme ∈ writerSchemes then
      ((registerSink st (newSyslogSink st.nextChan s.appId u)).2, none)
    else
      (st, some (.invalidScheme s.appId (u.scheme ++ str "://" ++ u.host ++ u.path)))

/-- A notification from the store watcher. -/
inductive Notification where
  | add (s : AppService)
  | delete (s : AppService)
  deriving DecidableEq

/-- The service of a notification. -/
def Notification.service : Notification → AppService
  | .add s | .delete s => s

/-- A notification handled from start to end. -/
def handle (m : URLBlacklistManager) (st : State) : Notification → State
  | .add s => (registerNewSyslogSink m st s).1
  | .delete s =>
    match st.sinks.drainFor s.appId s.url with
    | none => st
    | some sink => unregisterSink st sink

/-- Notifications handled one after another. -/
def handleAll (m : URLBlacklistManager) (ns : List Notification) : State :=
  ns.foldl (handle m) {}

end SinkManager

/-! ## What is expected -/

/-- A drain URL that parses, has a host, a supported scheme and is not blacklisted. -/
structure Accepted (m : URLBlacklistManager) (url : GoString) (u : Url) : Prop where
  check : m.checkUrl url = .ok u
  scheme : u.scheme ∈ writerSchemes

theorem URLBlacklistManager.checkUrl_parse {m : URLBlacklistManager} {url : GoString} {u : Url}
    (h : m.checkUrl url = .ok u) : Url.parse url = .ok u ∧ u.host ≠ [] := by
  unfold checkUrl at h
  cases hp : Url.parse url with
  | error e => rw [hp] at h; cases h
  | ok v =>
    rw [hp] at h
    simp only at h
    have hout : v = u ∧ IPRange.ipOutsideOfRanges m.resolve v m.blacklistIPs ≠
        .error .incompleteUrl := by
      split at h <;> cases h
      · next ho => exact ⟨rfl, by rw [ho]; nofun⟩
      · next ho => exact ⟨rfl, by rw [ho]; nofun⟩
    obtain ⟨rfl, hne⟩ := hout
    refine ⟨rfl, ?_⟩
    intro hhost
    exact hne (by rw [IPRange.ipOutsideOfRanges, if_pos hhost])

/-- An accepted URL has an identifier. -/
theorem Accepted.identifier_ne {m : URLBlacklistManager} {url : GoString} {u : Url}
    (h : Accepted m url u) : syslogIdentifier u ≠ [] := by
  have hhost := (URLBlacklistManager.checkUrl_parse h.check).2
  rw [syslogIdentifier, if_neg hhost]
  simp [hhost]

namespace SinkManager

/-- The strings under which the sink of a service is registered. -/
def drainKey (m : URLBlacklistManager) (s : GoString × GoString) : GoString × GoString :=
  (s.1, match m.checkUrl s.2 with
    | .ok u => syslogIdentifier u
    | .error _ => [])

variable {m : URLBlacklistManager} {s : AppService} {ns : List Notification}

theorem drainKey_accepted {u : Url} (hu : Accepted m s.url u) :
    drainKey m s.key = (s.appId, syslogIdentifier u) := by
  rw [drainKey, AppService.key, hu.check]

/-- The service has been added and not been deleted since. -/
def Live (ns : List Notification) (k : GoString × GoString) : Prop :=
  ns.foldl (fun live n => if n.service.key = k then n matches .add _ else live) false = true

/-- Each live service has a sink of its own, under its own strings, and there is no other. -/
def Correspond (m : URLBlacklistManager) (ns : List Notification) : Prop :=
  Set.BijOn (drainKey m) { k | Live ns k }
    { k | ((handleAll m ns).sinks.wrapper k).isSome }

theorem Live.nil (k : GoString × GoString) : ¬ Live [] k := by
  simp [Live]

theorem live_append (ns : List Notification) (n : Notification) (k : GoString × GoString) :
    Live (ns ++ [n]) k ↔ if n.service.key = k then ∃ s, n = .add s else Live ns k := by
  unfold Live
  rw [List.foldl_append, List.foldl_cons, List.foldl_nil]
  split
  · cases n <;> simp
  · rfl

theorem handleAll_append (m : URLBlacklistManager) (ns : List Notification) (n : Notification) :
    handleAll m (ns ++ [n]) = handle m (handleAll m ns) n := by
  rw [handleAll, List.foldl_append]
  rfl

/-! ## One notification -/

theorem handle_add_wrapper {u : Url} (hu : Accepted m s.url u) (ha : s.appId ≠ []) (st : State)
    (k : GoString × GoString) :
    (handle m st (.add s)).sinks.wrapper k =
      if k = (s.appId, syslogIdentifier u) ∧ st.sinks.wrapper k = none then
        some ⟨st.nextChan, newSyslogSink st.nextChan s.appId u⟩
      else st.sinks.wrapper k := by
  have hid := hu.identifier_ne
  rw [handle, registerNewSyslogSink, hu.check]
  simp only [if_pos hu.scheme]
  rw [registerSink_sinks, GroupedSinks.registerAppSink_wrapper]
  simp only [GroupedSinks.Free, newSyslogSink, Sink.key]
  by_cases hk : k = (s.appId, syslogIdentifier u)
  · subst hk
    simp [ha, hid]
  · simp [hk]

/-- Nothing is registered for an empty application id. -/
theorem handle_add_empty {u : Url} (hu : Accepted m s.url u) (ha : s.appId = []) (st : State)
    (k : GoString × GoString) :
    (handle m st (.add s)).sinks.wrapper k = st.sinks.wrapper k := by
  rw [handle, registerNewSyslogSink, hu.check]
  simp only [if_pos hu.scheme]
  rw [registerSink_sinks, GroupedSinks.registerAppSink_wrapper, if_neg]
  intro hfree
  exact hfree.1.1 ha

/-- Registrations stand under the strings of their sinks. -/
def Keyed (g : GroupedSinks) : Prop := ∀ k w, g.wrapper k = some w → w.sink.key = k

theorem handle_delete_wrapper (m : URLBlacklistManager) {st : State} (hk : Keyed st.sinks)
    (s : AppService) (k : GoString × GoString) :
    (handle m st (.delete s)).sinks.wrapper k =
      if k = s.key then none else st.sinks.wrapper k := by
  rw [handle, GroupedSinks.drainFor_eq]
  cases hw : st.sinks.wrapper (s.appId, s.url) with
  | none =>
    simp only [Option.map_none]
    split
    · next h => rw [h]; exact hw
    · rfl
  | some w =>
    simp only [Option.map_some]
    rw [unregisterSink_sinks, GroupedSinks.closeAndDelete_wrapper, hk _ w hw]
    rfl

theorem keyed_handle {st : State} (hk : Keyed st.sinks) (n : Notification)
    (hn : ∃ u, Accepted m n.service.url u) : Keyed (handle m st n).sinks := by
  intro k w hw
  cases n with
  | add s =>
    obtain ⟨u, hu⟩ : ∃ u, Accepted m s.url u := hn
    by_cases ha : s.appId = []
    · rw [handle_add_empty hu ha] at hw
      exact hk k w hw
    · rw [handle_add_wrapper hu ha] at hw
      split at hw
      · next h =>
        cases hw
        exact h.1.symm
      · exact hk k w hw
  | delete s =>
    rw [handle_delete_wrapper m hk] at hw
    split at hw
    · cases hw
    · exact hk k w hw

/-! ## All of them -/

/-- The services whose URL is the identifier of its own parse. -/
structure Canonical (m : URLBlacklistManager) (s : AppService) : Prop where
  appId : s.appId ≠ []
  identifier : drainKey m s.key = s.key

theorem keyed_handleAll (hS : ∀ n ∈ ns, ∃ u, Accepted m n.service.url u) :
    Keyed (handleAll m ns).sinks := by
  induction ns using List.reverseRecOn with
  | nil =>
    intro k w hw
    simp [handleAll] at hw
  | append_singleton ns n ih =>
    rw [handleAll_append]
    exact keyed_handle (ih (fun n hn => hS n (List.mem_append_left _ hn))) n
      (hS n (by simp))

/-- With canonical services the registrations are the live services. -/
theorem registered_iff_live (hacc : ∀ n ∈ ns, ∃ u, Accepted m n.service.url u)
    (hcan : ∀ n ∈ ns, Canonical m n.service) (k : GoString × GoString) :
    ((handleAll m ns).sinks.wrapper k).isSome ↔ Live ns k := by
  induction ns using List.reverseRecOn with
  | nil => simp [handleAll, Live]
  | append_singleton ns n ih =>
    have hacc' : ∀ n ∈ ns, ∃ u, Accepted m n.service.url u :=
      fun n hn => hacc n (List.mem_append_left _ hn)
    have ih := ih hacc' (fun n hn => hcan n (List.mem_append_left _ hn))
    rw [handleAll_append, live_append]
    cases n with
    | add s =>
      obtain ⟨u, hu⟩ : ∃ u, Accepted m s.url u := hacc (.add s) (by simp)
      have hc : Canonical m s := hcan (.add s) (by simp)
      have hkey : (s.appId, syslogIdentifier u) = s.key := by
        rw [← drainKey_accepted hu, hc.identifier]
      rw [handle_add_wrapper hu hc.appId, hkey]
      simp only [Notification.service]
      by_cases hk : k = s.key
      · subst hk
        cases (handleAll m ns).sinks.wrapper s.key <;> simp
      · simp only [hk, false_and, if_false, Ne.symm hk, ih]
    | delete s =>
      rw [handle_delete_wrapper m (keyed_handleAll hacc')]
      simp only [Notification.service]
      by_cases hk : k = s.key
      · subst hk
        simp
      · simp only [hk, if_false, Ne.symm hk, ih]

theorem live_mem {k : GoString × GoString} (h : Live ns k) :
    ∃ n ∈ ns, n.service.key = k := by
  induction ns using List.reverseRecOn with
  | nil => exact absurd h (Live.nil k)
  | append_singleton ns n ih =>
    rw [live_append] at h
    split at h
    · next hk => exact ⟨n, by simp, hk⟩
    · obtain ⟨n', hn', hk⟩ := ih h
      exact ⟨n', List.mem_append_left _ hn', hk⟩

theorem correspond_of_canonical (hacc : ∀ n ∈ ns, ∃ u, Accepted m n.service.url u)
    (hcan : ∀ n ∈ ns, Canonical m n.service) : Correspond m ns := by
  have hkey : ∀ k, Live ns k → drainKey m k = k := by
    intro k hk
    obtain ⟨n, hn, rfl⟩ := live_mem hk
    exact (hcan n hn).identifier
  refine ⟨?_, ?_, ?_⟩
  · intro k hk
    rw [Set.mem_ofPred_eq, hkey k hk, registered_iff_live hacc hcan]
    exact hk
  · intro k hk k' hk' heq
    rw [hkey k hk, hkey k' hk'] at heq
    exact heq
  · intro k hk
    rw [Set.mem_ofPred_eq, registered_iff_live hacc hcan] at hk
    exact ⟨k, hk, hkey k hk⟩

/-- For a set of services with accepted URLs: whatever is added and deleted, the sinks
correspond to the live services, if and only if every application id is non-empty and every URL
is the identifier of its own parse. -/
theorem drains_correspond_iff (m : URLBlacklistManager) (S : Set AppService)
    (hS : ∀ s ∈ S, ∃ u, Accepted m s.url u) :
    (∀ ns : List Notification, (∀ n ∈ ns, n.service ∈ S) → Correspond m ns) ↔
      ∀ s ∈ S, Canonical m s := by
  constructor
  · intro hall s hs
    obtain ⟨u, hu⟩ := hS s hs
    have hdrain := drainKey_accepted hu
    have ha : s.appId ≠ [] := by
      intro ha
      -- the sink of an added service is missing
      have hbij := hall [.add s] (by simpa [Notification.service] using hs)
      have hlive : Live [.add s] s.key := by simp [Live, Notification.service]
      have hreg := hbij.mapsTo hlive
      simp [handleAll, handle_add_empty hu ha] at hreg
    refine ⟨ha, ?_⟩
    by_contra hne
    -- the delete looks for the URL and leaves the sink
    have hbij := hall [.add s, .delete s] (by simpa [Notification.service] using hs)
    have hadd : (handle m {} (.add s)).sinks.wrapper (drainKey m s.key) ≠ none := by
      rw [handle_add_wrapper hu ha, hdrain]
      simp
    have hkeyed : Keyed (handle m {} (.add s)).sinks :=
      keyed_handle (by intro k w hw; simp at hw) _ ⟨u, hu⟩
    have hreg : ((handleAll m [.add s, .delete s]).sinks.wrapper (drainKey m s.key)).isSome := by
      have hlast : handleAll m [.add s, .delete s] =
          handle m (handle m {} (.add s)) (.delete s) := rfl
      rw [hlast, handle_delete_wrapper m hkeyed, if_neg hne]
      exact Option.isSome_iff_ne_none.mpr hadd
    obtain ⟨k, hk, -⟩ := hbij.surjOn hreg
    have hdead : ¬ Live [.add s, .delete s] k := by
      have hsplit : [Notification.add s, .delete s] = [.add s] ++ [.delete s] := rfl
      rw [hsplit, live_append, ← List.nil_append [Notification.add s], live_append]
      by_cases hkey : s.key = k <;> simp [Notification.service, hkey, Live.nil]
    exact hdead hk
  · intro hcan ns hns
    exact correspond_of_canonical (fun n hn => hS _ (hns n hn)) (fun n hn => hcan _ (hns n hn))

/-- A drain without anything that its identifier drops. -/
def plainDrain : AppService where
  appId := str "app"
  url := str "syslog://drain/logs"

theorem plainDrain_accepted : Accepted {} plainDrain.url
    { scheme := str "syslog", host := str "drain", path := str "/logs" } :=
  ⟨by decide, by decide⟩

theorem plainDrain_correspond : Correspond {} [.add plainDrain, .delete plainDrain,
    .add plainDrain] := by
  have hiff := drains_correspond_iff {} {plainDrain}
    (by intro s hs; cases hs; exact ⟨_, plainDrain_accepted⟩)
  apply hiff.mpr
  · intro s hs
    cases hs
    exact ⟨by decide, by decide⟩
  · simp [Notification.service]

/-- A drain with a query. -/
def queryDrain : AppService where
  appId := str "app"
  url := str "syslog://drain/logs?token=1"

/-- The delete of a drain with a query does not find its sink. -/
theorem queryDrain_not_deleted :
    (∃ u, Accepted {} queryDrain.url u) ∧
    ((handleAll {} [.add queryDrain, .delete queryDrain]).sinks.wrapper
      (str "app", str "syslog://drain/logs")).isSome ∧
    (∀ k, ¬ Live [.add queryDrain, .delete queryDrain] k) ∧
    ¬ Correspond {} [.add queryDrain, .delete queryDrain] := by
  have hlive : ∀ k, ¬ Live [.add queryDrain, .delete queryDrain] k := by
    intro k
    by_cases hk : queryDrain.key = k <;> simp [Live, Notification.service, hk]
  have hreg : ((handleAll {} [.add queryDrain, .delete queryDrain]).sinks.wrapper
      (str "app", str "syslog://drain/logs")).isSome = true := by decide
  have haccepted : Accepted {} queryDrain.url
      { scheme := str "syslog", host := str "drain", path := str "/logs",
        rawQuery := str "token=1" } := ⟨by decide, by decide⟩
  refine ⟨⟨_, haccepted⟩, hreg, hlive, ?_⟩
  intro hbij
  obtain ⟨k, hk, -⟩ := hbij.surjOn hreg
  exact hlive k hk

end SinkManager

end Loggregator.Doppler
