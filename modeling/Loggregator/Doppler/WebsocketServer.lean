import Loggregator.Doppler.SinkRegistry
import Loggregator.Lib.Path

/-!
# The request paths of doppler's websocket server

`sinkserver/websocketserver/websocket_server.go`: `ServeHTTP` splits the path at its slashes and
chooses a handler by the parts, which is called after the connection has been upgraded.

The first part is never looked at, and the second is read before the number of parts is checked.
That the id is not empty is checked for applications and not for the firehose.
-/

namespace Loggregator.Doppler.WebsocketServer

open Lib Path
open SinkRegistry (Kind)

/-! ## Handlers -/

/-- A `wsHandler`, with the id that it was made for. -/
inductive Handler where
  | streamFirehose (subscriptionId : GoString)
  | streamLogs (appId : GoString)
  | recentLogs (appId : GoString)
  | latestContainerMetrics (appId : GoString)
  deriving DecidableEq

def Handler.id : Handler → GoString
  | .streamFirehose id | .streamLogs id | .recentLogs id | .latestContainerMetrics id => id

/-- The registration of a handler's sink: its kind and its `AppID`. `RegisterFirehoseSink` and
`RegisterAppSink` refuse an empty one. -/
def Handler.sink : Handler → Option (Kind × GoString)
  | .streamFirehose id => if id = [] then none else some (.firehose, id)
  | .streamLogs id => if id = [] then none else some (.app, id)
  | .recentLogs _ | .latestContainerMetrics _ => none

/-- The endpoints of an application. -/
inductive Endpoint where
  | stream
  | recentlogs
  | containermetrics
  deriving DecidableEq

namespace Endpoint

def name : Endpoint → GoString
  | .stream => str "stream"
  | .recentlogs => str "recentlogs"
  | .containermetrics => str "containermetrics"

def handler : Endpoint → GoString → Handler
  | .stream => .streamLogs
  | .recentlogs => .recentLogs
  | .containermetrics => .latestContainerMetrics

/-- The `switch` of `appHandler`. -/
def ofName (endpoint : GoString) : Option Endpoint :=
  if endpoint = str "stream" then some .stream
  else if endpoint = str "recentlogs" then some .recentlogs
  else if endpoint = str "containermetrics" then some .containermetrics
  else none

theorem ofName_eq_some {s : GoString} {e : Endpoint} : ofName s = some e ↔ s = e.name := by
  constructor
  · intro h
    simp only [ofName] at h
    split at h
    · cases h
      assumption
    · split at h
      · cases h
        assumption
      · split at h
        · cases h
          assumption
        · cases h
  · rintro rfl
    cases e <;> decide

theorem sep_notMem_name (e : Endpoint) : sep ∉ e.name := by
  cases e <;> decide

end Endpoint

/-! ## ServeHTTP -/

/-- What is written to the client: the status, the header fields that are set, and the body. -/
structure Response where
  status : Nat
  header : List (GoString × GoString)
  body : GoString

/-- A request that is not served: the response and the error that is logged. -/
structure Refusal where
  response : Response
  err : GoString

/-- `http.Error`. -/
def httpError (error : GoString) (code : Nat) : Response where
  status := code
  header := [(str "Content-Type", str "text/plain; charset=utf-8"),
    (str "X-Content-Type-Options", str "nosniff")]
  body := error ++ str "\n"

/-- The responses of `appHandler` that ask for credentials. -/
def basic (status : Nat) (body : GoString) : Response where
  status := status
  header := [(str "WWW-Authenticate", str "Basic")]
  body := body

def missingSubscriptionId (path : GoString) : Refusal where
  response := httpError (str "missing subscription id in firehose request: " ++ path) 400
  err := str "missing subscription id in firehose request: (returning 400) " ++ path

def notFound (path : GoString) : Refusal where
  response := basic 404 (str "Resource Not Found.")
  err := str "Resource Not Found. " ++ path

def noAppId (endpoint : GoString) : Refusal where
  response := basic 400 (str "App ID missing. Make request to /apps/APP_ID/" ++ endpoint)
  err := str "Validation error (returning 400): No AppId"

def invalidPath (path : GoString) : Refusal where
  response := httpError (str "Invalid path") 400
  err := str "Invalid path (returning 400): invalid path " ++ path

/-- `firehoseHandler`. -/
def firehoseHandler (paths : List GoString) (path : GoString) : Except Refusal Handler :=
  match paths with
  | [_, _, firehoseSubscriptionId] => .ok (.streamFirehose firehoseSubscriptionId)
  | _ => .error (missingSubscriptionId path)

/-- `appHandler`. -/
def appHandler (paths : List GoString) (path : GoString) : Except Refusal Handler :=
  match paths with
  | [_, apps, appId, endpoint] =>
    if apps ≠ str "apps" then .error (notFound path)
    else if appId = [] then .error (noAppId endpoint)
    else
      match Endpoint.ofName endpoint with
      | some e => .ok (e.handler appId)
      | none => .error (invalidPath path)
  | _ => .error (notFound path)

inductive Outcome where
  /-- The index of `paths[1]` is out of range. -/
  | panics
  | refused (refusal : Refusal)
  /-- `gorilla.Upgrade` was called for a handler and failed. -/
  | notUpgraded (handler : Handler) (response : Response)
  | served (handler : Handler)

/-- `ServeHTTP` after the choice of the handler. -/
def finish (upgrade : Except GoString Unit) : Except Refusal Handler → Outcome
  | .error refusal => .refused refusal
  | .ok handler =>
    match upgrade with
    | .error err => .notUpgraded handler (httpError err 400)
    | .ok () => .served handler

/-- `ServeHTTP` for the path of a request, with the outcome of `gorilla.Upgrade`. -/
def serveHTTP (path : GoString) (upgrade : Except GoString Unit) : Outcome :=
  let paths := path.splitOn sep
  match paths[1]? with
  | none => .panics
  | some endpointName =>
    finish upgrade
      (if endpointName = str "firehose" then firehoseHandler paths path
      else appHandler paths path)

namespace Outcome

/-- The handler for which the connection is upgraded. -/
def upgrades : Outcome → Option Handler
  | .panics | .refused _ => none
  | .notUpgraded handler _ | .served handler => some handler

/-- The sinks that are registered. -/
def sinks : Outcome → List (Kind × GoString)
  | .panics | .refused _ | .notUpgraded _ _ => []
  | .served handler => handler.sink.toList

end Outcome

/-! ## The parts of a path -/

/-- A path with an id that is free of slashes, and for an application not empty. -/
inductive Route : GoString → Handler → Prop where
  | firehose (id : GoString) (hid : sep ∉ id) :
      Route (str "/firehose/" ++ id) (.streamFirehose id)
  | app (e : Endpoint) (id : GoString) (hne : id ≠ []) (hid : sep ∉ id) :
      Route (str "/apps/" ++ id ++ str "/" ++ e.name) (e.handler id)

/-- The parts that are accepted. -/
inductive Accepted : List GoString → Handler → Prop where
  | firehose (x id : GoString) : Accepted [x, str "firehose", id] (.streamFirehose id)
  | app (e : Endpoint) (x id : GoString) (hne : id ≠ []) :
      Accepted [x, str "apps", id, e.name] (e.handler id)

section Handlers

variable {x endpointName path : GoString} {rest : List GoString} {h : Handler}

theorem firehoseHandler_eq_ok :
    firehoseHandler (x :: endpointName :: rest) path = .ok h ↔
      ∃ id, rest = [id] ∧ h = .streamFirehose id := by
  match rest with
  | [] => simp [firehoseHandler]
  | [id] => simp [firehoseHandler, eq_comm]
  | _ :: _ :: _ => simp [firehoseHandler]

theorem appHandler_eq_ok :
    appHandler (x :: endpointName :: rest) path = .ok h ↔
      endpointName = str "apps" ∧ ∃ id e, id ≠ [] ∧ rest = [id, Endpoint.name e] ∧
        h = e.handler id := by
  match rest with
  | [] | [_] | _ :: _ :: _ :: _ => simp [appHandler]
  | [id, endpoint] =>
    rw [appHandler]
    constructor
    · intro hok
      split at hok
      · cases hok
      · next happs =>
        split at hok
        · cases hok
        · next hne =>
          split at hok
          · next e he =>
            cases hok
            rw [Endpoint.ofName_eq_some] at he
            exact ⟨not_ne_iff.mp happs, id, e, hne, by rw [he], rfl⟩
          · cases hok
    · rintro ⟨rfl, id', e, hne, hrest, rfl⟩
      cases hrest
      rw [if_neg (not_not_intro rfl), if_neg hne, Endpoint.ofName_eq_some.mpr rfl]

end Handlers

variable {upgrade : Except GoString Unit} {r : Refusal}

theorem upgrades_finish {chosen : Except Refusal Handler} {h : Handler} :
    (finish upgrade chosen).upgrades = some h ↔ chosen = .ok h := by
  cases chosen with
  | error refusal => simp [finish, Outcome.upgrades]
  | ok handler => cases upgrade <;> simp [finish, Outcome.upgrades]

/-- The handler that is chosen, by the parts. -/
theorem upgrades_eq_some {path : GoString} {h : Handler} :
    (serveHTTP path upgrade).upgrades = some h ↔ Accepted (path.splitOn sep) h := by
  unfold serveHTTP
  generalize path.splitOn sep = paths
  match paths with
  | [] | [_] =>
    constructor
    · rintro ⟨⟩
    · rintro ⟨⟩
  | x :: endpointName :: rest =>
    simp only [List.getElem?_cons_succ, List.getElem?_cons_zero, upgrades_finish]
    split
    · next hfirehose =>
      subst hfirehose
      rw [firehoseHandler_eq_ok]
      constructor
      · rintro ⟨id, rfl, rfl⟩
        exact .firehose x id
      · rintro ⟨⟩
        · exact ⟨_, rfl, rfl⟩
    · next hother =>
      rw [appHandler_eq_ok]
      constructor
      · rintro ⟨rfl, id, e, hne, rfl, rfl⟩
        exact .app e x id hne
      · intro haccepted
        cases haccepted with
        | firehose => exact absurd rfl hother
        | app e x id hne => exact ⟨rfl, id, e, hne, rfl, rfl⟩

/-- A path without a slash has one part. -/
theorem serveHTTP_panics_iff {path : GoString} :
    serveHTTP path upgrade = .panics ↔ sep ∉ path := by
  have hlength := length_splitOn sep path
  have hfinish : ∀ chosen, finish upgrade chosen ≠ .panics := by
    intro chosen
    cases chosen with
    | error refusal => simp [finish]
    | ok handler => cases upgrade <;> simp [finish]
  rw [← List.count_eq_zero, serveHTTP]
  cases hsecond : (path.splitOn sep)[1]? with
  | none =>
    rw [List.getElem?_eq_none_iff] at hsecond
    exact iff_of_true rfl (by omega)
  | some endpointName =>
    have hlt := (List.getElem?_eq_some_iff.mp hsecond).1
    exact iff_of_false (hfinish _) (by omega)

theorem intercalate_firehose (x id : GoString) :
    [sep].intercalate [x, str "firehose", id] = x ++ (str "/firehose/" ++ id) := by
  have htext : str "/firehose/" = sep :: str "firehose" ++ [sep] := by decide
  rw [htext]
  simp [List.intercalate_cons_cons]

theorem intercalate_app (x id : GoString) (e : Endpoint) :
    [sep].intercalate [x, str "apps", id, e.name] =
      x ++ (str "/apps/" ++ id ++ str "/" ++ e.name) := by
  have htext : str "/apps/" = sep :: str "apps" ++ [sep] := by decide
  have hslash : str "/" = [sep] := by decide
  rw [htext, hslash]
  simp [List.intercalate_cons_cons]

/-- What stands before the first slash makes no difference. -/
theorem accepted_splitOn_iff {path : GoString} {h : Handler} :
    Accepted (path.splitOn sep) h ↔ ∃ x rest, path = x ++ rest ∧ sep ∉ x ∧ Route rest h := by
  constructor
  · generalize hparts : path.splitOn sep = parts
    obtain ⟨-, hfree, rfl⟩ := splitOn_eq_iff.mp hparts
    rintro (⟨x, id⟩ | ⟨e, x, id, hne⟩)
    · exact ⟨x, _, intercalate_firehose x id, hfree x (by simp), .firehose id (hfree id (by simp))⟩
    · exact ⟨x, _, intercalate_app x id e, hfree x (by simp), .app e id hne (hfree id (by simp))⟩
  · rintro ⟨x, rest, rfl, hx, hroute⟩
    cases hroute with
    | firehose id hid =>
      have hfree : ∀ part ∈ [x, str "firehose", id], sep ∉ part := by
        simp only [List.forall_mem_cons]
        exact ⟨hx, by decide, hid, by simp⟩
      rw [splitOn_eq_iff.mpr ⟨by simp, hfree, intercalate_firehose x id⟩]
      exact .firehose x id
    | app e id hne hid =>
      have hfree : ∀ part ∈ [x, str "apps", id, e.name], sep ∉ part := by
        simp only [List.forall_mem_cons]
        exact ⟨hx, by decide, hid, e.sep_notMem_name, by simp⟩
      rw [splitOn_eq_iff.mpr ⟨by simp, hfree, intercalate_app x id e⟩]
      exact .app e x id hne

/-! ## The law -/

theorem Route.head {path : GoString} {h : Handler} (hroute : Route path h) :
    path.head? = some sep := by
  cases hroute with
  | firehose id => rw [show str "/firehose/" = sep :: str "firehose/" by decide]; rfl
  | app e id => rw [show str "/apps/" = sep :: str "apps/" by decide]; rfl

theorem finish_eq_refused {chosen : Except Refusal Handler} :
    finish upgrade chosen = .refused r ↔ chosen = .error r := by
  cases chosen with
  | error refusal => simp [finish]
  | ok handler => cases upgrade <;> simp [finish]

theorem status_of_firehoseHandler {paths : List GoString} {path : GoString}
    (h : firehoseHandler paths path = .error r) : 400 ≤ r.response.status := by
  unfold firehoseHandler at h
  split at h
  · cases h
  · cases h
    exact Nat.le_refl 400

theorem status_of_appHandler {paths : List GoString} {path : GoString}
    (h : appHandler paths path = .error r) : 400 ≤ r.response.status := by
  unfold appHandler at h
  split at h
  · split at h
    · cases h
      exact Nat.le_add_right 400 4
    · split at h
      · cases h
        exact Nat.le_refl 400
      · split at h
        · cases h
        · cases h
          exact Nat.le_refl 400
  · cases h
    exact Nat.le_add_right 400 4

/-- Every refusal has an error status. -/
theorem status_of_refused {path : GoString} (h : serveHTTP path upgrade = .refused r) :
    400 ≤ r.response.status := by
  unfold serveHTTP at h
  simp only at h
  split at h
  · cases h
  · rw [finish_eq_refused] at h
    split at h
    · exact status_of_firehoseHandler h
    · exact status_of_appHandler h

/-- The request is served as its path says: a path of the grammar with an id that is not empty
leads to an upgrade for its handler, and every other one to an error status and no sink. -/
structure PathLaw (path : GoString) (outcome : Outcome) : Prop where
  returns : outcome ≠ .panics
  upgrades : ∀ h, outcome.upgrades = some h ↔ Route path h ∧ h.id ≠ []
  otherwise : outcome.upgrades = none →
    (∃ r, outcome = .refused r ∧ 400 ≤ r.response.status) ∧ outcome.sinks = []

theorem upgrades_iff {path : GoString} {h : Handler} :
    (serveHTTP path upgrade).upgrades = some h ↔
      ∃ x rest, path = x ++ rest ∧ sep ∉ x ∧ Route rest h :=
  upgrades_eq_some.trans accepted_splitOn_iff

/-- The only path of the grammar with an empty id. -/
theorem Route.id_ne_nil {path : GoString} {h : Handler} (hroute : Route path h)
    (hpath : path ≠ str "/firehose/") : h.id ≠ [] := by
  cases hroute with
  | firehose id =>
    rintro rfl
    exact hpath (List.append_nil _)
  | app e id hne => cases e <;> exact hne

/-- The law holds for a path exactly if it has a slash, is not that of the firehose with an empty
id, and has nothing before its first slash if what follows is accepted. -/
theorem request_path_law_iff (path : GoString) :
    (∀ upgrade, PathLaw path (serveHTTP path upgrade)) ↔
      sep ∈ path ∧ path ≠ str "/firehose/" ∧
      ∀ x rest h, path = x ++ rest → sep ∉ x → Route rest h → x = [] := by
  constructor
  · intro hlaw
    obtain ⟨hreturns, hupgrades, -⟩ := hlaw (.ok ())
    refine ⟨?_, ?_, ?_⟩
    · exact not_not.mp (fun hsep => hreturns (serveHTTP_panics_iff.mpr hsep))
    · rintro rfl
      have hroute : Route (str "/firehose/") (.streamFirehose []) := .firehose [] (by simp)
      exact ((hupgrades _).mp (upgrades_iff.mpr ⟨[], _, rfl, by simp, hroute⟩)).2 rfl
    · rintro x rest h rfl hx hroute
      -- the law wants a slash at the front
      have hhead := ((hupgrades h).mp (upgrades_iff.mpr ⟨x, rest, rfl, hx, hroute⟩)).1.head
      cases x with
      | nil => rfl
      | cons c x =>
        cases hhead
        exact absurd List.mem_cons_self hx
  · rintro ⟨hsep, hfirehose, hfront⟩ upgrade
    have hreturns : serveHTTP path upgrade ≠ .panics := by
      rw [Ne, serveHTTP_panics_iff]
      exact not_not_intro hsep
    refine ⟨hreturns, ?_, ?_⟩
    · intro h
      rw [upgrades_iff]
      constructor
      · rintro ⟨x, rest, hpath, hx, hroute⟩
        cases hfront x rest h hpath hx hroute
        rw [List.nil_append] at hpath
        rw [hpath] at hfirehose ⊢
        exact ⟨hroute, hroute.id_ne_nil hfirehose⟩
      · rintro ⟨hroute, -⟩
        exact ⟨[], path, rfl, by simp, hroute⟩
    · intro hnone
      cases houtcome : serveHTTP path upgrade with
      | panics => exact absurd houtcome hreturns
      | refused r => exact ⟨⟨r, rfl, status_of_refused houtcome⟩, rfl⟩
      | notUpgraded h response | served h =>
        rw [houtcome] at hnone
        cases hnone

/-- The path `*`, which a request of any method but `OPTIONS` can have, panics; the connection is
upgraded for a firehose without an id, and for a path with something before its first slash. -/
theorem request_path_law_fails :
    serveHTTP (str "*") (.ok ()) = .panics ∧
    serveHTTP (str "/firehose/") (.ok ()) = .served (.streamFirehose []) ∧
    serveHTTP (str "x/firehose/s") (.ok ()) = .served (.streamFirehose (str "s")) ∧
    ¬ PathLaw (str "*") (serveHTTP (str "*") (.ok ())) ∧
    ¬ PathLaw (str "/firehose/") (serveHTTP (str "/firehose/") (.ok ())) := by
  have hpanics : serveHTTP (str "*") (.ok ()) = .panics := by rfl
  have hempty : serveHTTP (str "/firehose/") (.ok ()) = .served (.streamFirehose []) := by rfl
  refine ⟨hpanics, hempty, by rfl, ?_, ?_⟩
  · intro hlaw
    exact hlaw.returns hpanics
  · intro hlaw
    rw [hempty] at hlaw
    exact ((hlaw.upgrades _).mp rfl).2 rfl

end Loggregator.Doppler.WebsocketServer
