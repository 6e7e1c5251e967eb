import Loggregator.Doppler.Router
import Loggregator.Lib.Unmarshal
import Loggregator.Lib.UrlEncoding
import Loggregator.TrafficController.AccessLog

/-!
# The doppler proxy and its access control

The traffic controller serves four endpoints that read from the dopplers. A request for one of
the three endpoints of an application is let through if the Cloud Controller answers 200 when it
is asked about the application, a request for the firehose if the UAA knows the client's token
and lists the scope `doppler.firehose`. `serveHTTP` is the path of a request from its route on:
the token, the authorizer, the middleware around the handler, and what the handler then asks of
the dopplers. The router is `gorilla/mux`, which is not part of the repository: which route it
finds for a request, and with which variables, is a parameter.

`serveHTTP_queried_iff` says which requests reach the dopplers and with which query. The
application id is pasted into the text of a second URL: `queried_vouched` says what the Cloud
Controller has been asked about by then, and `proxy_panics_iff` which ids make `http.NewRequest`
fail, an error the authorizer drops.
-/

namespace Loggregator.TrafficController.Proxy

open Lib
open Doppler.GrpcManager (SubscriptionRequest RequestFilter FilterMessage)

/-- A request, with what `req.Cookies()` reads from its header: names and values. -/
structure ClientRequest extends Request where
  cookies : List (GoString × GoString) := []

/-! ## The token -/

/-- `extractAuthTokenFromCookie`. -/
def extractAuthTokenFromCookie : List (GoString × GoString) → GoString
  | [] => []
  | (name, value) :: cookies =>
    if name = str "authorization" then (Url.queryUnescape value).getD []
    else extractAuthTokenFromCookie cookies

/-- `getAuthToken`. -/
def getAuthToken (r : ClientRequest) : GoString :=
  let authToken := r.headerGet (str "Authorization")
  if authToken = [] then extractAuthTokenFromCookie r.cookies else authToken

/-- The token a request comes with: the header, or else the first cookie of that name, decoded. -/
def ClientRequest.Carries (r : ClientRequest) (token : GoString) : Prop :=
  token = r.headerGet (str "Authorization") ∨
    r.headerGet (str "Authorization") = [] ∧ ∃ value,
      r.cookies.find? (fun cookie => cookie.1 = str "authorization") =
        some (str "authorization", value) ∧ Url.queryUnescape value = some token

theorem extractAuthTokenFromCookie_eq_iff {cookies : List (GoString × GoString)}
    {token : GoString} (htoken : token ≠ []) :
    extractAuthTokenFromCookie cookies = token ↔ ∃ value,
      cookies.find? (fun cookie => cookie.1 = str "authorization") =
        some (str "authorization", value) ∧ Url.queryUnescape value = some token := by
  induction cookies with
  | nil => simp [extractAuthTokenFromCookie, htoken.symm]
  | cons cookie cookies ih =>
    obtain ⟨name, value⟩ := cookie
    by_cases hname : name = str "authorization"
    · cases hvalue : Url.queryUnescape value with
      | none => simp [extractAuthTokenFromCookie, hname, hvalue, htoken.symm]
      | some decoded => simp [extractAuthTokenFromCookie, hname, hvalue]
    · simpa [extractAuthTokenFromCookie, hname] using ih

theorem ClientRequest.carries_iff {r : ClientRequest} {token : GoString} (htoken : token ≠ []) :
    r.Carries token ↔ getAuthToken r = token := by
  rw [Carries, getAuthToken, ← extractAuthTokenFromCookie_eq_iff htoken]
  by_cases hheader : r.headerGet (str "Authorization") = []
  · simp [hheader, htoken]
  · simp [hheader, eq_comm]

/-! ## The authorizers -/

/-- A call on the nil request that `http.NewRequest` returns with its error. -/
structure NilRequest where
  err : Url.ParseError
  deriving DecidableEq

/-- The URL of `http.NewRequest`, whose error is dropped: the next use of the request panics. -/
def newRequest (text : GoString) : Except NilRequest Url :=
  match Url.parse text with
  | .ok url => .ok url
  | .error err => .error ⟨err⟩

/-- `NO_AUTH_TOKEN_PROVIDED_ERROR_MESSAGE`. -/
def noAuthTokenProvided : GoString := str "Error: Authorization not provided"

/-- `INVALID_AUTH_TOKEN_ERROR_MESSAGE`. -/
def invalidAuthToken : GoString := str "Error: Invalid authorization"

/-- The request to the Cloud Controller: its URL and the header `Authorization`. -/
structure LogAccessRequest where
  url : Url
  authorization : GoString
  deriving DecidableEq

/-- The errors of the log access authorizer. -/
inductive LogAccessError where
  | notProvided
  | client (err : GoString)
  | statusText (code : Nat)
  deriving DecidableEq

/-- The function `NewLogAccessAuthorizer` returns; `cloudController` is `c.Do`. -/
def logAccessAuthorizer (cloudController : LogAccessRequest → Except GoString Nat)
    (disableAccessControl : Bool) (apiHost authToken target : GoString) :
    Except NilRequest (Nat × Option LogAccessError) :=
  if disableAccessControl then .ok (200, none)
  else if authToken = [] then .ok (401, some .notProvided)
  else do
    let url ← newRequest (apiHost ++ str "/internal/v4/log_access/" ++ target)
    match cloudController { url := url, authorization := authToken } with
    | .error err => .ok (500, some (.client err))
    | .ok statusCode =>
      .ok (statusCode, if statusCode ≠ 200 then some (.statusText statusCode) else none)

/-- The request to the UAA: its URL, the basic auth and the form in its body. -/
structure UaaRequest where
  url : Url
  id : GoString
  secret : GoString
  body : GoString
  deriving DecidableEq

/-- What the UAA's answer is to the client: an error, or a status code and the body or the error of
reading it. -/
inductive UaaReply where
  | failed (err : GoString)
  | response (statusCode : Nat) (body : Except GoString GoString)

/-- `AuthData`. -/
structure AuthData where
  scope : Decoder.Slice GoString := {}

/-- Store a member of an `AuthData`. -/
def storeAuthData (d : AuthData) (m : GoString × Json) : AuthData × Bool :=
  match Json.fieldFor [str "scope"] m.1 with
  | none => (d, false)
  | some _ =>
    let (scope, err) := Decoder.slice [] Decoder.string m.2 d.scope
    ({ d with scope := scope }, err)

/-- `json.Unmarshal(responseBody, &aData)`, with whether it returned an error. -/
def decodeAuthData (body : GoString) : AuthData × Bool :=
  Decoder.unmarshal (Decoder.struct storeAuthData) {} body

/-- `HasPermission`. -/
def AuthData.hasPermission (data : AuthData) (perm : GoString) : Bool :=
  data.scope.elems.any (fun permissionName => permissionName == perm)

/-- Store a member of a `uaaErrorResponse`, which has one field. -/
def storeErrorDescription (d : GoString) (m : GoString × Json) : GoString × Bool :=
  match Json.fieldFor [str "error_description"] m.1 with
  | none => (d, false)
  | some _ => Decoder.string m.2 d

/-- The errors of `GetAuthData`: a text, or the error of `json.Unmarshal`. -/
inductive AuthDataError where
  | text (err : GoString)
  | json

/-- `uaaClient`, without the HTTP client. -/
structure UaaClient where
  address : GoString
  id : GoString
  secret : GoString

/-- `GetAuthData`, from the response on. -/
def authDataOf : UaaReply → Except AuthDataError AuthData
  | .failed err => .error (.text err)
  | .response statusCode body =>
    if statusCode = 401 then .error (.text (str "Invalid username/password"))
    else if statusCode = 404 then .error (.text (str "API endpoint not found"))
    else
      match body with
      | .error err => .error (.text err)
      | .ok body =>
        if statusCode = 400 then
          -- the error of this `Unmarshal` is dropped
          let (description, _) := Decoder.unmarshal (Decoder.struct storeErrorDescription) [] body
          .error (.text description)
        else if statusCode ≠ 200 then .error (.text (str "Unknown error occurred"))
        else
          let (data, err) := decodeAuthData body
          if err then .error .json else .ok data

/-- `GetAuthData`; `uaa` is `httpClient.Do`. -/
def UaaClient.getAuthData (c : UaaClient) (uaa : UaaRequest → UaaReply) (token : GoString) :
    Except NilRequest (Except AuthDataError AuthData) := do
  let url ← newRequest (c.address ++ str "/check_token")
  let body := Url.encodeForm (str "token") token
  .ok (authDataOf (uaa { url := url, id := c.id, secret := c.secret, body := body }))

/-- `LOGGREGATOR_ADMIN_ROLE`. -/
def loggregatorAdminRole : GoString := str "doppler.firehose"

/-- `BEARER_PREFIX`. -/
def bearerPrefix : GoString := str "bearer "

/-- What the admin access authorizer returns: `(true, nil)`, or `false` with an error. -/
inductive Access where
  | allowed
  | refused (err : GoString)
  deriving DecidableEq

/-- The function `NewAdminAccessAuthorizer` returns. -/
def adminAccessAuthorizer (uaa : UaaRequest → UaaReply) (disableAccessControl : Bool)
    (client : UaaClient) (authToken : GoString) : Except NilRequest Access :=
  if disableAccessControl then .ok .allowed
  else if authToken = [] then .ok (.refused noAuthTokenProvided)
  else do
    match ← client.getAuthData uaa (trimPrefix authToken bearerPrefix) with
    | .error _ => .ok (.refused invalidAuthToken)
    | .ok authData =>
      if authData.hasPermission loggregatorAdminRole then .ok .allowed
      else .ok (.refused invalidAuthToken)

/-! ## Responses -/

/-- An `http.ResponseWriter`: the header as it is set, and what has been sent. -/
structure ResponseWriter where
  header : List (GoString × GoString) := []
  sent : Option (Nat × List (GoString × GoString)) := none
  body : GoString := []
  deriving DecidableEq

namespace ResponseWriter

/-- `w.Header().Set`. -/
def setHeader (w : ResponseWriter) (key value : GoString) : ResponseWriter :=
  { w with header := w.header.filter (fun field => field.1 != key) ++ [(key, value)] }

/-- `w.WriteHeader`: only the first call counts, with the header as it is then. -/
def writeHeader (w : ResponseWriter) (status : Nat) : ResponseWriter :=
  match w.sent with
  | none => { w with sent := some (status, w.header) }
  | some _ => w

/-- `w.Write`. -/
def write (w : ResponseWriter) (data : GoString) : ResponseWriter :=
  let w := w.writeHeader 200
  { w with body := w.body ++ data }

end ResponseWriter

/-! ## The handlers -/

/-- What a handler asks of the dopplers. -/
inductive Query where
  | subscribe (req : SubscriptionRequest)
  | containerMetrics (appID : GoString)
  | recentLogs (appID : GoString)
  deriving DecidableEq

/-- The endpoints of an application. -/
inductive Endpoint where
  | containerMetrics
  | recentLogs
  | stream
  deriving DecidableEq

/-- The query of an endpoint's handler. -/
def Endpoint.query (appID : GoString) : Endpoint → Query
  | .containerMetrics => .containerMetrics appID
  | .recentLogs => .recentLogs appID
  | .stream => .subscribe { shardID := [], filter := some { appID := appID, message := none } }

/-- The filter of `FirehoseHandler.ServeHTTP`. -/
def firehoseFilter (url : Url) : Option RequestFilter :=
  let filterType := url.queryGet (str "filter-type")
  if filterType = str "logs" then some { appID := [], message := some .log }
  else if filterType = str "metrics" then some { appID := [], message := some .metric }
  else none

/-- The query of `FirehoseHandler.ServeHTTP`. -/
def firehoseQuery (url : Url) (subID : GoString) : Query :=
  .subscribe { shardID := subID, filter := firehoseFilter url }

/-- What becomes of a request: no route of the proxy matches it, the connection is dropped, it is
answered without the dopplers, the cookie handler answers it, or a handler asks the dopplers. -/
inductive Outcome where
  | unrouted
  | panics
  | answered (w : ResponseWriter)
  | setsCookie
  | queried (q : Query)
  deriving DecidableEq

/-- What `LogAccessMiddleware.Wrap` answers to a status other than 200. -/
def refuseLogAccess (status : Nat) : ResponseWriter :=
  let w : ResponseWriter := {}
  if status = 401 then
    -- the header is set after it was sent
    ((w.writeHeader status).setHeader (str "WWW-Authenticate") (str "Basic")).writeHeader status
  else if status = 403 ∨ status = 404 then w.writeHeader 404
  else w.writeHeader 500

/-- `LogAccessMiddleware.Wrap`, around a handler with this query. -/
def logAccessMiddleware (authorize : GoString → GoString →
    Except NilRequest (Nat × Option LogAccessError)) (r : ClientRequest) (appID : GoString)
    (query : Query) : Outcome :=
  match authorize (getAuthToken r) appID with
  | .error _ => .panics
  | .ok (status, _) =>
    if status ≠ 200 then .answered (refuseLogAccess status) else .queried query

/-- `AdminAccessMiddleware.Wrap`, around a handler with this query. -/
def adminAccessMiddleware (authorize : GoString → Except NilRequest Access) (r : ClientRequest)
    (query : Query) : Outcome :=
  match authorize (getAuthToken r) with
  | .error _ => .panics
  | .ok (.refused err) =>
    let w : ResponseWriter := {}
    .answered (((w.setHeader (str "WWW-Authenticate") (str "Basic")).writeHeader 401).write
      (str "You are not authorized. " ++ err))
  | .ok .allowed => .queried query

/-! ## The proxy -/

/-- The routes of `NewDopplerProxy`, with the variables that `mux.Vars` has for the handler. -/
inductive Route where
  | setCookie
  | app (endpoint : Endpoint) (appID : GoString)
  | firehose (subID : GoString)
  deriving DecidableEq

/-- The configuration of the proxy. -/
structure Config where
  disableAccessControl : Bool
  apiHost : GoString
  uaa : UaaClient

/-- The services the proxy asks, as one request finds them. -/
structure Services where
  cloudController : LogAccessRequest → Except GoString Nat
  uaa : UaaRequest → UaaReply

variable (router : ClientRequest → Option Route) (config : Config) (services : Services)

/-- `DopplerProxy.ServeHTTP`. -/
def serveHTTP (r : ClientRequest) : Outcome :=
  match router r with
  | none => .unrouted
  | some .setCookie => .setsCookie
  | some (.app endpoint appID) =>
    logAccessMiddleware
      (logAccessAuthorizer services.cloudController config.disableAccessControl config.apiHost)
      r appID (endpoint.query appID)
  | some (.firehose subID) =>
    adminAccessMiddleware
      (adminAccessAuthorizer services.uaa config.disableAccessControl config.uaa)
      r (firehoseQuery r.url subID)

/-! ## What the authorizers accept -/

/-- The Cloud Controller answers 200 to the request for this token and application. -/
def CloudControllerVouches (token appID : GoString) : Prop :=
  token ≠ [] ∧ ∃ url,
    Url.parse (config.apiHost ++ str "/internal/v4/log_access/" ++ appID) = .ok url ∧
    services.cloudController { url := url, authorization := token } = .ok 200

/-- The UAA answers 200 to the request for this token, with the scope of the firehose. -/
def UaaVouches (token : GoString) : Prop :=
  token ≠ [] ∧ ∃ url body data,
    Url.parse (config.uaa.address ++ str "/check_token") = .ok url ∧
    services.uaa
      { url := url, id := config.uaa.id, secret := config.uaa.secret,
        body := Url.encodeForm (str "token") (trimPrefix token (str "bearer ")) } =
      .response 200 (.ok body) ∧
    decodeAuthData body = (data, false) ∧ str "doppler.firehose" ∈ data.scope.elems

section Authorizers

variable {config services}

variable {appID token : GoString} {r : ClientRequest}

/-- The tokens that are accepted, and those at which the error of `http.NewRequest` is dropped. -/
theorem logAccessAuthorizer_iff :
    ((∃ err, logAccessAuthorizer services.cloudController config.disableAccessControl config.apiHost
      token appID = .ok (200, err)) ↔
      config.disableAccessControl = true ∨ CloudControllerVouches config services token appID) ∧
    ((∃ e, logAccessAuthorizer services.cloudController config.disableAccessControl config.apiHost
      token appID = .error e) ↔
      config.disableAccessControl = false ∧ token ≠ [] ∧
        ∃ err, Url.parse (config.apiHost ++ str "/internal/v4/log_access/" ++ appID) =
          .error err) := by
  rw [logAccessAuthorizer, CloudControllerVouches]
  by_cases hdisabled : config.disableAccessControl = true
  · simp [hdisabled]
  · by_cases htoken : token = []
    · simp [hdisabled, htoken]
    · simp only [hdisabled, htoken, if_false, false_or, ne_eq, not_false_iff, true_and,
        Bool.false_eq_true, newRequest]
      cases Url.parse (config.apiHost ++ str "/internal/v4/log_access/" ++ appID) with
      | error err => simp [Bind.bind, Except.bind]
      | ok url =>
        simp only [Bind.bind, Except.bind, Except.ok.injEq, exists_eq_left']
        cases services.cloudController { url := url, authorization := token } <;> simp

/-- The scopes of an answer are those of a 200 response whose body is JSON. -/
theorem authDataOf_ok_iff {reply : UaaReply} {data : AuthData} :
    authDataOf reply = .ok data ↔
      ∃ body, reply = .response 200 (.ok body) ∧ decodeAuthData body = (data, false) := by
  cases reply with
  | failed err => simp [authDataOf]
  | response statusCode body =>
    cases body with
    | error err =>
      simp only [authDataOf]
      split_ifs <;> simp
    | ok body =>
      by_cases hcode : statusCode = 200
      · subst hcode
        rcases hdecode : decodeAuthData body with ⟨decoded, err⟩
        cases err <;> simp [authDataOf, hdecode]
      · simp only [authDataOf, ne_eq, hcode, not_false_iff, if_true, UaaReply.response.injEq,
          false_and, exists_false, iff_false]
        split_ifs <;> simp

theorem AuthData.hasPermission_iff {data : AuthData} {perm : GoString} :
    data.hasPermission perm = true ↔ perm ∈ data.scope.elems := by
  simp [AuthData.hasPermission]

theorem adminAccessAuthorizer_iff :
    (adminAccessAuthorizer services.uaa config.disableAccessControl config.uaa token =
      .ok .allowed ↔ config.disableAccessControl = true ∨ UaaVouches config services token) ∧
    ((∃ e, adminAccessAuthorizer services.uaa config.disableAccessControl config.uaa token =
      .error e) ↔
      config.disableAccessControl = false ∧ token ≠ [] ∧
        ∃ err, Url.parse (config.uaa.address ++ str "/check_token") = .error err) := by
  rw [adminAccessAuthorizer, UaaVouches]
  by_cases hdisabled : config.disableAccessControl = true
  · simp [hdisabled]
  · by_cases htoken : token = []
    · simp [hdisabled, htoken]
    · simp only [hdisabled, htoken, if_false, false_or, ne_eq, not_false_iff, true_and,
        Bool.false_eq_true, UaaClient.getAuthData, newRequest, bearerPrefix]
      cases Url.parse (config.uaa.address ++ str "/check_token") with
      | error err => simp [Bind.bind, Except.bind]
      | ok url =>
        simp only [Bind.bind, Except.bind, Except.ok.injEq]
        refine ⟨⟨?_, ?_⟩, ?_⟩
        · intro h
          split at h
          · cases h
          · next data hdata =>
            split at h
            · next hperm =>
              obtain ⟨body, hreply, hdecode⟩ := authDataOf_ok_iff.mp hdata
              exact ⟨url, body, data, rfl, hreply, hdecode, AuthData.hasPermission_iff.mp hperm⟩
            · cases h
        · rintro ⟨_, body, data, rfl, hreply, hdecode, hperm⟩
          rw [authDataOf_ok_iff.mpr ⟨body, hreply, hdecode⟩]
          exact if_pos (AuthData.hasPermission_iff.mpr hperm)
        · split
          · simp
          · split_ifs <;> simp

/-! ## What the proxy does -/

variable {query : Query}

theorem logAccessMiddleware_iff
    {authorize : GoString → GoString → Except NilRequest (Nat × Option LogAccessError)} :
    (∀ q, logAccessMiddleware authorize r appID query = .queried q ↔
      q = query ∧ ∃ err, authorize (getAuthToken r) appID = .ok (200, err)) ∧
    (logAccessMiddleware authorize r appID query = .panics ↔
      ∃ e, authorize (getAuthToken r) appID = .error e) := by
  rw [logAccessMiddleware]
  cases authorize (getAuthToken r) appID with
  | error e => simp
  | ok answer =>
    obtain ⟨status, err⟩ := answer
    by_cases hstatus : status = 200 <;> simp [hstatus, eq_comm]

theorem adminAccessMiddleware_iff {authorize : GoString → Except NilRequest Access} :
    (∀ q, adminAccessMiddleware authorize r query = .queried q ↔
      q = query ∧ authorize (getAuthToken r) = .ok .allowed) ∧
    (adminAccessMiddleware authorize r query = .panics ↔
      ∃ e, authorize (getAuthToken r) = .error e) := by
  rw [adminAccessMiddleware]
  split <;> next h => simp [h, eq_comm]

end Authorizers

/-- The filter that the parameter `filter-type` asks for. -/
inductive Selects : GoString → Option RequestFilter → Prop where
  | logs : Selects (str "logs") (some { appID := [], message := some .log })
  | metrics : Selects (str "metrics") (some { appID := [], message := some .metric })
  | other (filterType : GoString) (hlogs : filterType ≠ str "logs")
      (hmetrics : filterType ≠ str "metrics") : Selects filterType none

/-- The request may read an application, as far as the Cloud Controller knows. -/
def MayRead (r : ClientRequest) (appID : GoString) : Prop :=
  config.disableAccessControl = true ∨
    ∃ token, r.Carries token ∧ CloudControllerVouches config services token appID

/-- The queries a request may make: its route is that of an endpoint, and the service that knows
about the endpoint vouches for the request's token. -/
inductive Permitted (r : ClientRequest) : Query → Prop where
  | containerMetrics (appID : GoString) (route : router r = some (.app .containerMetrics appID))
      (vouched : MayRead config services r appID) : Permitted r (.containerMetrics appID)
  | recentLogs (appID : GoString) (route : router r = some (.app .recentLogs appID))
      (vouched : MayRead config services r appID) : Permitted r (.recentLogs appID)
  | stream (appID : GoString) (route : router r = some (.app .stream appID))
      (vouched : MayRead config services r appID) :
      Permitted r (.subscribe
        { shardID := [], filter := some { appID := appID, message := none } })
  | firehose (subID : GoString) (filter : Option RequestFilter)
      (route : router r = some (.firehose subID))
      (selects : Selects (r.url.queryGet (str "filter-type")) filter)
      (vouched : config.disableAccessControl = true ∨
        ∃ token, r.Carries token ∧ UaaVouches config services token) :
      Permitted r (.subscribe { shardID := subID, filter := filter })

section Permitted

variable {router config services} {r : ClientRequest} {q : Query}

theorem selects_iff {url : Url} {filter : Option RequestFilter} :
    Selects (url.queryGet (str "filter-type")) filter ↔ filter = firehoseFilter url := by
  rw [firehoseFilter]
  generalize url.queryGet (str "filter-type") = filterType
  constructor
  · rintro (_ | _ | ⟨_, hlogs, hmetrics⟩)
    · rfl
    · rfl
    · simp [hlogs, hmetrics]
  · rintro rfl
    by_cases hlogs : filterType = str "logs"
    · simpa [hlogs] using Selects.logs
    · by_cases hmetrics : filterType = str "metrics"
      · simpa [hmetrics, show str "metrics" ≠ str "logs" by decide] using Selects.metrics
      · simpa [hlogs, hmetrics] using Selects.other filterType hlogs hmetrics

/-- A token that is vouched for is the one the proxy reads from the request. -/
theorem exists_carries_iff {vouches : GoString → Prop} (hne : ∀ token, vouches token → token ≠ []) :
    (∃ token, r.Carries token ∧ vouches token) ↔ vouches (getAuthToken r) := by
  constructor
  · rintro ⟨token, hcarries, hvouches⟩
    rwa [(ClientRequest.carries_iff (hne token hvouches)).mp hcarries]
  · intro hvouches
    exact ⟨_, (ClientRequest.carries_iff (hne _ hvouches)).mpr rfl, hvouches⟩

theorem serveHTTP_app {endpoint : Endpoint} {appID : GoString}
    (hroute : router r = some (.app endpoint appID)) :
    serveHTTP router config services r = .queried q ↔
      q = endpoint.query appID ∧ MayRead config services r appID := by
  rw [serveHTTP, hroute, MayRead, exists_carries_iff (fun _ hvouches => hvouches.1),
    ← logAccessAuthorizer_iff.1]
  exact logAccessMiddleware_iff.1 _

theorem serveHTTP_firehose {subID : GoString} (hroute : router r = some (.firehose subID)) :
    serveHTTP router config services r = .queried q ↔
      q = firehoseQuery r.url subID ∧ (config.disableAccessControl = true ∨
        ∃ token, r.Carries token ∧ UaaVouches config services token) := by
  rw [serveHTTP, hroute, exists_carries_iff (fun _ hvouches => hvouches.1),
    ← adminAccessAuthorizer_iff.1]
  exact adminAccessMiddleware_iff.1 _

theorem permitted_of_queried (h : serveHTTP router config services r = .queried q) :
    Permitted router config services r q := by
  cases hroute : router r with
  | none => simp [serveHTTP, hroute] at h
  | some route =>
    cases route with
    | setCookie => simp [serveHTTP, hroute] at h
    | app endpoint appID =>
      obtain ⟨rfl, hvouched⟩ := (serveHTTP_app hroute).mp h
      cases endpoint with
      | containerMetrics => exact .containerMetrics appID hroute hvouched
      | recentLogs => exact .recentLogs appID hroute hvouched
      | stream => exact .stream appID hroute hvouched
    | firehose subID =>
      obtain ⟨rfl, hvouched⟩ := (serveHTTP_firehose hroute).mp h
      exact .firehose subID _ hroute (selects_iff.mpr rfl) hvouched

theorem queried_of_permitted (h : Permitted router config services r q) :
    serveHTTP router config services r = .queried q := by
  cases h with
  | containerMetrics appID hroute hvouched => exact (serveHTTP_app hroute).mpr ⟨rfl, hvouched⟩
  | recentLogs appID hroute hvouched | stream appID hroute hvouched =>
    exact (serveHTTP_app hroute).mpr ⟨rfl, hvouched⟩
  | firehose subID filter hroute hselects hvouched =>
    rw [selects_iff] at hselects
    exact (serveHTTP_firehose hroute).mpr ⟨by rw [hselects, firehoseQuery], hvouched⟩

end Permitted

/-- The dopplers are asked exactly what the request is permitted to ask. -/
theorem serveHTTP_queried_iff (r : ClientRequest) (q : Query) :
    serveHTTP router config services r = .queried q ↔ Permitted router config services r q :=
  ⟨permitted_of_queried, queried_of_permitted⟩

/-! ## What the services have been asked -/

/-- The path of the Cloud Controller below which applications are looked up. -/
def logAccessPath : GoString := str "/internal/v4/log_access/"

/-- A configuration, and services that vouch for every token. -/
def exampleConfig : Config :=
  { disableAccessControl := false, apiHost := str "https://api.test",
    uaa := { address := str "https://uaa.test", id := str "id", secret := str "secret" } }

def exampleServices : Services :=
  { cloudController := fun _ => .ok 200,
    uaa := fun _ => .response 200 (.ok (str "\x7b\"scope\":[\"doppler.firehose\"]\x7d")) }

/-- A router that finds this route for every request. -/
def exampleRouter (route : Route) : ClientRequest → Option Route := fun _ => some route

/-- A request with a token in a cookie. -/
def exampleRequest : ClientRequest :=
  { method := str "GET", url := { path := [] }, header := ∅, remoteAddr := [],
    cookies := [(str "authorization", str "bearer%20token")] }

theorem plain_example {host : GoString} (hne : host ≠ []) (hbracket : host.head? ≠ some openBracket)
    (hhost : host.all Url.hostByte = true) : Url.Plain (str "https") host [] :=
  { scheme := ⟨⟨104, str "ttps", by decide, by decide⟩, List.all_eq_true.mp (by decide)⟩
    host_ne := hne
    host_bracket := hbracket
    host := fun c hc _ => List.all_eq_true.mp hhost c hc
    path_head := Or.inl rfl
    path := by simp }

section PlainServices

variable {router config services}
variable {scheme host base : GoString}

theorem logAccess_text (hhost : config.apiHost = Url.plainText scheme host base)
    (appID : GoString) :
    config.apiHost ++ str "/internal/v4/log_access/" ++ appID =
      Url.plainText scheme host (base ++ logAccessPath) ++ appID := by
  rw [hhost, Url.plainText, Url.plainText, logAccessPath, List.append_assoc _ base]

theorem plain_logAccess (hapi : Url.Plain scheme host base) :
    Url.Plain scheme host (base ++ logAccessPath) :=
  hapi.append _ (by decide) (by decide)

/-- What the Cloud Controller has been asked about when the dopplers are asked about an
application: the part of the id before `#` and `?`, decoded once more. It is the id itself exactly
if the id has none of the bytes that are special in a URL. -/
theorem queried_vouched (hapi : Url.Plain scheme host base)
    (hhost : config.apiHost = Url.plainText scheme host base)
    (hcontrol : config.disableAccessControl = false) (r : ClientRequest) (endpoint : Endpoint)
    (appID : GoString) (hroute : router r = some (.app endpoint appID)) (q : Query)
    (h : serveHTTP router config services r = .queried q) :
    ∃ token url asked, r.Carries token ∧
      services.cloudController { url := url, authorization := token } = .ok 200 ∧
      Url.unescape .path (Url.pathPart appID) = .ok asked ∧
      url.path = base ++ str "/internal/v4/log_access/" ++ asked ∧
      (asked = appID ↔ ∀ c ∈ [hashSign, question, percent], c ∉ appID) := by
  obtain ⟨token, hcarries, -, url, hurl, hok⟩ :=
    ((serveHTTP_app hroute).mp h).2.resolve_left (by rw [hcontrol]; simp)
  rw [logAccess_text hhost, (plain_logAccess hapi).parse_append (hapi.head_append (by decide))]
    at hurl
  cases hpath : Url.unescape .path (Url.pathPart appID) with
  | error e =>
    rw [hpath] at hurl
    cases hurl
  | ok asked =>
    rw [hpath] at hurl
    refine ⟨token, url, asked, hcarries, hok, rfl, ?_, ?_⟩
    · cases hfragment : Url.unescape .fragment (Url.fragmentPart appID) with
      | error e =>
        rw [hfragment] at hurl
        cases hurl
      | ok fragment =>
        rw [hfragment] at hurl
        cases hurl
        rfl
    · rw [← Url.unescape_pathPart_iff, hpath, Except.ok.injEq]

/-- The id `a?b` is let through when the Cloud Controller knows the application `a`. -/
theorem queried_vouched_example :
    ∃ token url asked, exampleRequest.Carries token ∧
      exampleServices.cloudController { url := url, authorization := token } = .ok 200 ∧
      Url.unescape .path (Url.pathPart (str "a?b")) = .ok asked ∧
      url.path = str "/internal/v4/log_access/" ++ asked ∧
      (asked = str "a?b" ↔ ∀ c ∈ [hashSign, question, percent], c ∉ str "a?b") :=
  queried_vouched (plain_example (by decide) (by decide) (by decide))
    (show exampleConfig.apiHost = Url.plainText (str "https") (str "api.test") [] by decide) rfl
    exampleRequest .stream (str "a?b")
    (show exampleRouter (.app .stream (str "a?b")) exampleRequest = _ from rfl)
    (.subscribe { shardID := [], filter := some { appID := str "a?b", message := none } })
    (by decide +kernel)

/-- The requests that make the proxy panic: a token is given, and the application id has a `%`
that no two hexadecimal digits follow, unless it stands in what looks like a query. -/
theorem proxy_panics_iff (hapi : Url.Plain scheme host base)
    (hhost : config.apiHost = Url.plainText scheme host base) {uaaScheme uaaHost uaaBase : GoString}
    (huaa : Url.Plain uaaScheme uaaHost uaaBase)
    (haddress : config.uaa.address = Url.plainText uaaScheme uaaHost uaaBase) (r : ClientRequest) :
    serveHTTP router config services r = .panics ↔
      config.disableAccessControl = false ∧ (∃ token, r.Carries token ∧ token ≠ []) ∧
      ∃ endpoint appID, router r = some (.app endpoint appID) ∧
        (Url.BadEscape (Url.pathPart appID) ∨ Url.BadEscape (Url.fragmentPart appID)) := by
  have hparse : ∀ appID,
      (∃ err, Url.parse (config.apiHost ++ str "/internal/v4/log_access/" ++ appID) = .error err) ↔
        Url.BadEscape (Url.pathPart appID) ∨ Url.BadEscape (Url.fragmentPart appID) := by
    intro appID
    rw [logAccess_text hhost]
    exact (plain_logAccess hapi).parse_append_error_iff (hapi.head_append (by decide)) appID
  have hcheck : ¬ ∃ err, Url.parse (config.uaa.address ++ str "/check_token") = .error err := by
    have hplain := huaa.append (str "/check_token") (by decide) (by decide)
    rw [haddress, Url.plainText, List.append_assoc, ← List.append_nil (_ ++ _)]
    rw [← Url.plainText, hplain.parse_append_error_iff (huaa.head_append (by decide))]
    simp [Url.BadEscape, Url.pathPart, Url.fragmentPart, Url.split]
  have htoken : (∃ token, r.Carries token ∧ token ≠ []) ↔ getAuthToken r ≠ [] :=
    exists_carries_iff (fun _ hne => hne)
  rw [htoken]
  constructor
  · intro h
    rw [serveHTTP] at h
    split at h
    · cases h
    · cases h
    · next endpoint appID hroute =>
      obtain ⟨hcontrol, htoken, herr⟩ :=
        logAccessAuthorizer_iff.2.mp (logAccessMiddleware_iff.2.mp h)
      exact ⟨hcontrol, htoken, endpoint, appID, hroute, (hparse appID).mp herr⟩
    · exact absurd (adminAccessAuthorizer_iff.2.mp (adminAccessMiddleware_iff.2.mp h)).2.2 hcheck
  · rintro ⟨hcontrol, htoken, endpoint, appID, hroute, hbad⟩
    rw [serveHTTP, hroute]
    exact logAccessMiddleware_iff.2.mpr
      (logAccessAuthorizer_iff.2.mpr ⟨hcontrol, htoken, (hparse appID).mpr hbad⟩)

/-- The id `%zz`, with a token that nobody has looked at. -/
theorem proxy_panics_example :
    serveHTTP (exampleRouter (.app .stream (str "%zz"))) exampleConfig exampleServices
      exampleRequest = .panics :=
  (proxy_panics_iff
    (plain_example (by decide) (by decide) (by decide))
    (show exampleConfig.apiHost = Url.plainText (str "https") (str "api.test") [] by decide)
    (plain_example (by decide) (by decide) (by decide))
    (show exampleConfig.uaa.address = Url.plainText (str "https") (str "uaa.test") [] by decide)
    exampleRequest).mpr
    ⟨rfl, ⟨str "bearer token", (ClientRequest.carries_iff (by decide)).mpr (by decide),
      by decide⟩, .stream, str "%zz", rfl,
      Or.inl ⟨[], str "zz", by decide, by simp [show str "zz" = [122, 122] by decide]; decide⟩⟩

end PlainServices

/-- When the firehose is opened, the UAA has been asked with the proxy's own credentials, and has
confirmed the scope for a form that it reads as the client's token without its `bearer`. -/
theorem firehose_vouched (hcontrol : config.disableAccessControl = false) (r : ClientRequest)
    (subID : GoString) (hroute : router r = some (.firehose subID)) (q : Query)
    (h : serveHTTP router config services r = .queried q) :
    (∃ filter, q = .subscribe { shardID := subID, filter := filter }) ∧
    ∃ token url form body data, r.Carries token ∧
      Url.parse (config.uaa.address ++ str "/check_token") = .ok url ∧
      services.uaa
        { url := url, id := config.uaa.id, secret := config.uaa.secret, body := form } =
        .response 200 (.ok body) ∧
      Url.parseQuery form = [(str "token", trimPrefix token (str "bearer "))] ∧
      decodeAuthData body = (data, false) ∧ str "doppler.firehose" ∈ data.scope.elems := by
  obtain ⟨rfl, hvouched⟩ := (serveHTTP_firehose hroute).mp h
  obtain ⟨token, hcarries, -, url, body, data, hurl, hreply, hdecode, hscope⟩ :=
    hvouched.resolve_left (by rw [hcontrol]; simp)
  exact ⟨⟨_, rfl⟩, token, url, _, body, data, hcarries, hurl, hreply,
    Url.parseQuery_encodeForm _ _, hdecode, hscope⟩

theorem firehose_vouched_example :
    (∃ filter, Query.subscribe { shardID := str "sub", filter := none } =
      .subscribe { shardID := str "sub", filter := filter }) ∧
    ∃ token url form body data, exampleRequest.Carries token ∧
      Url.parse (str "https://uaa.test/check_token") = .ok url ∧
      exampleServices.uaa
        { url := url, id := str "id", secret := str "secret", body := form } =
        .response 200 (.ok body) ∧
      Url.parseQuery form = [(str "token", trimPrefix token (str "bearer "))] ∧
      decodeAuthData body = (data, false) ∧ str "doppler.firehose" ∈ data.scope.elems :=
  firehose_vouched (exampleRouter (.firehose (str "sub"))) exampleConfig exampleServices rfl
    exampleRequest (str "sub") rfl _ (by decide +kernel)

end Loggregator.TrafficController.Proxy
