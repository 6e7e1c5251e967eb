import Loggregator.Lib.Unmarshal
import Loggregator.SyslogDrainBinder.DrainStore

/-!
# Polling the cloud controller

`Poll` (`syslog_drain_binder/cloud_controller_poller.go`) asks for one page after another and puts
their bindings together. A page is decoded without looking at the error of the decoder, so a page
that is not decoded, or only in part, counts as a page with what was decoded of it.
-/

namespace Loggregator.SyslogDrainBinder.Poller

open Lib

/-- `cloudControllerResponse`. -/
structure CloudControllerResponse where
  results : AllSyslogDrainBindings := ∅
  nextID : Option Int64 := none

/-- The fields of a binding, with its slice as it is in memory. -/
structure BindingFields where
  hostname : GoString := []
  drains : Decoder.Slice GoString := {}

/-- Store a member of a binding. -/
def storeBinding (b : BindingFields) (m : GoString × Json) : BindingFields × Bool :=
  match Json.fieldFor [str "hostname", str "drains"] m.1 with
  | none => (b, false)
  | some name =>
    if name = str "hostname" then
      let (hostname, err) := Decoder.string m.2 b.hostname
      ({ b with hostname := hostname }, err)
    else
      let (drains, err) := Decoder.slice [] Decoder.string m.2 b.drains
      ({ b with drains := drains }, err)

/-- Into a `SyslogDrainBinding`. -/
def decodeBinding (v : Json) (_ : SyslogDrainBinding) : SyslogDrainBinding × Bool :=
  let (b, err) := Decoder.struct storeBinding v {}
  (⟨b.hostname, b.drains.elems⟩, err)

/-- Store a member of a response. -/
def storeResponse (r : CloudControllerResponse) (m : GoString × Json) :
    CloudControllerResponse × Bool :=
  match Json.fieldFor [str "results", str "next_id"] m.1 with
  | none => (r, false)
  | some name =>
    if name = str "results" then
      let (results, err) := Decoder.map ⟨[], []⟩ decodeBinding m.2 r.results
      ({ r with results := results }, err)
    else
      let (nextID, err) := Decoder.pointer 0 Decoder.int m.2 r.nextID
      ({ r with nextID := nextID }, err)

/-- `decoder.Decode(&ccResponse)`, with whether it returned an error. -/
def decodeResponse (body : GoString) : CloudControllerResponse × Bool :=
  Decoder.decode (Decoder.struct storeResponse) {} body

/-- The answer to a request: an error of the client, or a status code and the body that could be
read. -/
inductive Reply where
  | failed (err : GoString)
  | response (statusCode : Nat) (body : GoString)
  deriving DecidableEq

/-- The errors of `Poll`; the text of the second one has the name of the status. -/
inductive PollError where
  | request (err : GoString)
  | remoteServer (statusCode : Nat)
  deriving DecidableEq

/-- `http.StatusOK`. -/
def statusOK : Nat := 200

/-- `pollAndDecode`. -/
def pollAndDecode : Reply → Except PollError CloudControllerResponse
  | .failed err => .error (.request err)
  | .response statusCode body =>
    if statusCode ≠ statusOK then .error (.remoteServer statusCode)
    else .ok (decodeResponse body).1

/-- `buildUrl`. -/
def buildUrl (baseURL : GoString) (batchSize nextID : Int64) : GoString :=
  let url := baseURL ++ str "/internal/v4/syslog_drain_urls?batch_size=" ++
    formatInt batchSize.toInt
  if nextID ≠ 0 then url ++ str "&next_id=" ++ formatInt nextID.toInt else url

/-- What `Poll` has done when it returns: the URLs that it asked for, and its two results. -/
structure Outcome where
  requests : List GoString
  drainURLs : AllSyslogDrainBindings
  err : Option PollError

/-- The loop of `Poll`, given the replies that are still to come. It has not returned when there
are too few. -/
def pollLoop (urlBase : GoString) (batchSize : Int64) :
    List Reply → Int64 → AllSyslogDrainBindings → Option Outcome
  | [], _, _ => none
  | reply :: replies, nextID, drainURLs =>
    let url := buildUrl urlBase batchSize nextID
    match pollAndDecode reply with
    | .error err => some ⟨[url], drainURLs, some err⟩
    | .ok ccResponse =>
      let drainURLs := Dict.mergeWith some ccResponse.results drainURLs
      match ccResponse.nextID with
      | none => some ⟨[url], drainURLs, none⟩
      | some nextID =>
        (pollLoop urlBase batchSize replies nextID drainURLs).map (fun o =>
          { o with requests := url :: o.requests })

/-- `Poll`. -/
def poll (urlBase : GoString) (batchSize : Int64) (replies : List Reply) : Option Outcome :=
  pollLoop urlBase batchSize replies 0 ∅

/-! ## Complete polls -/

/-- The body decodes without an error, to this page. -/
def Decodes (body : GoString) (page : CloudControllerResponse) : Prop :=
  decodeResponse body = (page, false)

/-- The reply is a page with status 200 that decodes completely. -/
def Reply.IsPage (reply : Reply) (page : CloudControllerResponse) : Prop :=
  ∃ body, reply = .response statusOK body ∧ Decodes body page

/-- The URL of a page: its batch size and, after the first page, the next id of the page before. -/
def pageURL (urlBase : GoString) (batchSize nextID : Int64) : GoString :=
  urlBase ++ (str "/internal/v4/syslog_drain_urls" ++ (str "?batch_size=" ++
    (formatInt batchSize.toInt ++
      if nextID = 0 then [] else str "&next_id=" ++ formatInt nextID.toInt)))

theorem buildUrl_eq_pageURL (urlBase : GoString) (batchSize nextID : Int64) :
    buildUrl urlBase batchSize nextID = pageURL urlBase batchSize nextID := by
  have hpath : str "/internal/v4/syslog_drain_urls?batch_size=" =
      str "/internal/v4/syslog_drain_urls" ++ str "?batch_size=" := by decide
  by_cases hid : nextID = 0 <;> simp [buildUrl, pageURL, hid, hpath]

/-- The requests follow the next ids of the pages, up to a page without one. -/
inductive Follows (urlBase : GoString) (batchSize : Int64) :
    Int64 → List GoString → List CloudControllerResponse → Prop where
  | last {nextID : Int64} {page : CloudControllerResponse} : page.nextID = none →
      Follows urlBase batchSize nextID [pageURL urlBase batchSize nextID] [page]
  | next {nextID id : Int64} {page : CloudControllerResponse} {requests : List GoString}
      {pages : List CloudControllerResponse} : page.nextID = some id →
      Follows urlBase batchSize id requests pages →
      Follows urlBase batchSize nextID (pageURL urlBase batchSize nextID :: requests)
        (page :: pages)

/-- The binding of an application in the last page that has one. -/
def lastBinding (pages : List CloudControllerResponse) (appId : GoString) :
    Option SyslogDrainBinding :=
  pages.reverse.findSome? (fun page => page.results.lookup appId)

theorem lastBinding_cons (page : CloudControllerResponse) (pages : List CloudControllerResponse)
    (appId : GoString) :
    lastBinding (page :: pages) appId =
      (lastBinding pages appId).or (page.results.lookup appId) := by
  simp [lastBinding, List.findSome?_append]

/-- The drain list is complete: the requested pages decode completely, one follows from the other,
and the list has the bindings of all of them. -/
def Complete (urlBase : GoString) (batchSize : Int64) (replies : List Reply) (o : Outcome) : Prop :=
  ∃ pages, List.Forall₂ Reply.IsPage (replies.take o.requests.length) pages ∧
    Follows urlBase batchSize 0 o.requests pages ∧
    ∀ appId, o.drainURLs.lookup appId = lastBinding pages appId

/-- The replies up to the first one that is no page or in whose body no next id is found. -/
def requestedPages : List Reply → List Reply
  | [] => []
  | .failed err :: _ => [.failed err]
  | .response statusCode body :: replies =>
    if statusCode = statusOK ∧ (decodeResponse body).1.nextID ≠ none then
      .response statusCode body :: requestedPages replies
    else [.response statusCode body]

section Loop

variable {urlBase : GoString} {batchSize nextID : Int64} {drainURLs : AllSyslogDrainBindings}
  {reply : Reply} {replies : List Reply} {o : Outcome}

/-- A turn of the loop, when `Poll` returns no error: it had a page, and was the last one or goes
on. -/
theorem pollLoop_cons (h : pollLoop urlBase batchSize (reply :: replies) nextID drainURLs = some o)
    (herr : o.err = none) : ∃ body, reply = .response statusOK body ∧
      ((decodeResponse body).1.nextID = none ∧
        o.requests = [buildUrl urlBase batchSize nextID] ∧
        o.drainURLs = Dict.mergeWith some (decodeResponse body).1.results drainURLs ∨
      ∃ id o', (decodeResponse body).1.nextID = some id ∧
        pollLoop urlBase batchSize replies id
          (Dict.mergeWith some (decodeResponse body).1.results drainURLs) = some o' ∧
        o = { o' with requests := buildUrl urlBase batchSize nextID :: o'.requests }) := by
  cases reply with
  | failed err =>
    cases h
    cases herr
  | response statusCode body =>
    simp only [pollLoop, pollAndDecode] at h
    by_cases hstatus : statusCode = statusOK
    · rw [if_neg (not_not_intro hstatus)] at h
      subst hstatus
      refine ⟨body, rfl, ?_⟩
      cases hid : (decodeResponse body).1.nextID with
      | none =>
        simp only [hid] at h
        cases h
        exact Or.inl ⟨rfl, rfl, rfl⟩
      | some id =>
        simp only [hid] at h
        obtain ⟨o', ho', rfl⟩ := Option.map_eq_some_iff.mp h
        exact Or.inr ⟨id, o', rfl, ho', rfl⟩
    · rw [if_pos hstatus] at h
      cases h
      cases herr

theorem requestedPages_eq_take
    (h : pollLoop urlBase batchSize replies nextID drainURLs = some o) (herr : o.err = none) :
    requestedPages replies = replies.take o.requests.length := by
  induction replies generalizing nextID drainURLs o with
  | nil => cases h
  | cons reply replies ih =>
    obtain ⟨body, rfl, ⟨hid, hrequests, -⟩ | ⟨id, o', hid, ho', rfl⟩⟩ := pollLoop_cons h herr
    · rw [requestedPages, if_neg (fun hc => hc.2 hid), hrequests]
      rfl
    · rw [requestedPages, if_pos ⟨rfl, by rw [hid]; simp⟩, ih ho' herr]
      rfl

/-- When every page decodes completely, the list is complete. -/
theorem pollLoop_complete (h : pollLoop urlBase batchSize replies nextID drainURLs = some o)
    (herr : o.err = none)
    (hdecodes : ∀ body, .response statusOK body ∈ requestedPages replies →
      (decodeResponse body).2 = false) :
    ∃ pages, List.Forall₂ Reply.IsPage (replies.take o.requests.length) pages ∧
      Follows urlBase batchSize nextID o.requests pages ∧
      ∀ appId, o.drainURLs.lookup appId =
        (lastBinding pages appId).or (drainURLs.lookup appId) := by
  induction replies generalizing nextID drainURLs o with
  | nil => cases h
  | cons reply replies ih =>
    obtain ⟨body, rfl, hturn⟩ := pollLoop_cons h herr
    have hfirst : Decodes body (decodeResponse body).1 := by
      have hmem : Reply.response statusOK body ∈
          requestedPages (.response statusOK body :: replies) := by
        unfold requestedPages
        split <;> exact List.mem_cons_self
      rw [Decodes, ← hdecodes body hmem]
    have hpage : Reply.IsPage (.response statusOK body) (decodeResponse body).1 :=
      ⟨body, rfl, hfirst⟩
    rcases hturn with ⟨hid, hrequests, hdrains⟩ | ⟨id, o', hid, ho', rfl⟩
    · refine ⟨[(decodeResponse body).1], ?_, ?_, ?_⟩
      · rw [hrequests]
        exact List.Forall₂.cons hpage List.Forall₂.nil
      · rw [hrequests, buildUrl_eq_pageURL]
        exact Follows.last hid
      · intro appId
        rw [hdrains, Dict.lookup_mergeWith, lastBinding_cons]
        simp [lastBinding]
    · have hrest : ∀ body, .response statusOK body ∈ requestedPages replies →
          (decodeResponse body).2 = false := by
        intro body' hbody'
        refine hdecodes body' ?_
        rw [requestedPages, if_pos ⟨rfl, by rw [hid]; simp⟩]
        exact List.mem_cons_of_mem _ hbody'
      obtain ⟨pages, hpages, hfollows, hdrains⟩ := ih ho' herr hrest
      refine ⟨(decodeResponse body).1 :: pages, List.Forall₂.cons hpage hpages, ?_, ?_⟩
      · rw [buildUrl_eq_pageURL]
        exact Follows.next hid hfollows
      · intro appId
        rw [hdrains appId, Dict.lookup_mergeWith, lastBinding_cons]
        simp [Option.or_assoc]

end Loop

/-- A poll without an error has a complete list exactly when all the pages that it asked for
decode completely. -/
theorem poll_complete_iff (urlBase : GoString) (batchSize : Int64) (replies : List Reply)
    (o : Outcome) (h : poll urlBase batchSize replies = some o) (herr : o.err = none) :
    Complete urlBase batchSize replies o ↔
      ∀ body, .response statusOK body ∈ requestedPages replies →
        (decodeResponse body).2 = false := by
  constructor
  · rintro ⟨pages, hpages, -, -⟩ body hbody
    rw [requestedPages_eq_take h herr] at hbody
    have hall : ∀ reply ∈ replies.take o.requests.length, ∃ page, reply.IsPage page :=
      ((List.forall₂_and_left _ _).mp
        (hpages.imp (fun reply page hpage => ⟨⟨page, hpage⟩, hpage⟩))).1
    obtain ⟨page, body', heq, hdecodes⟩ := hall _ hbody
    cases heq
    rw [hdecodes]
  · intro hdecodes
    obtain ⟨pages, hpages, hfollows, hdrains⟩ := pollLoop_complete h herr hdecodes
    exact ⟨pages, hpages, hfollows, fun appId => by simpa using hdrains appId⟩

/-- The text of a page with one binding. -/
def samplePage (drain nextID : GoString) : GoString :=
  str "\x7b\"results\":\x7b\"app\":\x7b\"hostname\":\"h\",\"drains\":[\"" ++ drain ++
    str "\"]\x7d\x7d,\"next_id\":" ++ nextID ++ str "\x7d"

/-- Two pages; the second one has another binding for the application. -/
theorem poll_two_pages_complete :
    let replies : List Reply := [.response 200 (samplePage (str "a") (str "7")),
      .response 200 (samplePage (str "b") (str "null"))]
    ∃ o, poll (str "http://cc") 50 replies = some o ∧ o.err = none ∧
      o.requests = [str "http://cc/internal/v4/syslog_drain_urls?batch_size=50",
        str "http://cc/internal/v4/syslog_drain_urls?batch_size=50&next_id=7"] ∧
      o.drainURLs.lookup (str "app") = some ⟨str "h", [str "b"]⟩ ∧
      Complete (str "http://cc") 50 replies o := by
  intro replies
  have hrun : (poll (str "http://cc") 50 replies).map (fun o =>
      (o.err, o.requests, o.drainURLs.lookup (str "app"))) =
      some (none, [str "http://cc/internal/v4/syslog_drain_urls?batch_size=50",
        str "http://cc/internal/v4/syslog_drain_urls?batch_size=50&next_id=7"],
        some ⟨str "h", [str "b"]⟩) := by decide +kernel
  have hdecodes : (requestedPages replies).all (fun
      | .response _ body => !(decodeResponse body).2
      | .failed _ => true) = true := by decide +kernel
  obtain ⟨o, ho, heq⟩ := Option.map_eq_some_iff.mp hrun
  simp only [Prod.mk.injEq] at heq
  obtain ⟨herr, hrequests, hdrains⟩ := heq
  refine ⟨o, ho, herr, hrequests, hdrains, (poll_complete_iff _ _ replies o ho herr).mpr ?_⟩
  intro body hbody
  simpa using List.all_eq_true.mp hdecodes _ hbody

/-- A page that ends in the middle: `Poll` returns no error and an empty list. -/
theorem poll_truncated_page :
    let replies : List Reply := [.response 200 ((samplePage (str "a") (str "7")).dropLast)]
    ∃ o, poll (str "http://cc") 50 replies = some o ∧ o.err = none ∧ o.drainURLs.entries = [] ∧
      ¬ Complete (str "http://cc") 50 replies o := by
  intro replies
  have hrun : (poll (str "http://cc") 50 replies).map (fun o =>
      (o.err, o.drainURLs.entries, o.requests.length)) = some (none, [], 1) := by decide +kernel
  have hfails : (decodeResponse (samplePage (str "a") (str "7")).dropLast).2 = true := by
    decide +kernel
  obtain ⟨o, ho, heq⟩ := Option.map_eq_some_iff.mp hrun
  simp only [Prod.mk.injEq] at heq
  obtain ⟨herr, hdrains, hlength⟩ := heq
  refine ⟨o, ho, herr, hdrains, ?_⟩
  rintro ⟨pages, hpages, -, -⟩
  rw [hlength] at hpages
  cases hpages with
  | cons hpage _ =>
    obtain ⟨body, heq, hdecodes⟩ := hpage
    cases heq
    rw [hdecodes] at hfails
    cases hfails

end Loggregator.SyslogDrainBinder.Poller
