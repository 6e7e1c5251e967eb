import Loggregator.Lib.Dict
import Loggregator.Lib.HtmlTemplate
import Loggregator.Lib.Url

/-!
# The security access log

The traffic controller writes one line for every request it serves, in the Common Event Format: a
record of eight fields between bars. The record is made by a template of `html/template`, whose
escaper knows nothing of bars and line breaks, and the path it is given is the decoded one.
`one_record_iff` says for which requests the text is one record.
-/

namespace Loggregator.TrafficController

open Lib HtmlTemplate

/-- The parts of an `http.Request` that are logged. The keys of the header are canonical. -/
structure Request where
  method : GoString
  url : Url
  header : Dict GoString (List GoString)
  remoteAddr : GoString

/-- `Header.Get`, at a key in its canonical form. -/
def Request.headerGet (request : Request) (key : GoString) : GoString :=
  match request.header.lookup key with
  | some (value :: _) => value
  | _ => []

/-- The canonical form of `REQUEST_ID_HEADER`. -/
def requestIDHeader : GoString := str "X-Vcap-Request-Id"

def comma : UInt8 := 44

/-- `net.SplitHostPort` of Go 1.8, with `none` for its errors. -/
def splitHostPort (hostport : GoString) : Option (GoString × GoString) :=
  match Url.splitLast hostport colon with
  | none => none
  | some (host, port) =>
    match hostport with
    | [] => none
    | c :: rest =>
      if c = openBracket then
        -- the first closing bracket stands just before the last colon
        let inner := rest.takeWhile (fun b => b != closeBracket)
        if c :: inner ++ [closeBracket] ≠ host then none
        else if openBracket ∈ rest ∨ closeBracket ∈ port then none
        else some (inner, port)
      else if colon ∈ host ∨ percent ∈ host then none
      else if openBracket ∈ hostport ∨ closeBracket ∈ hostport then none
      else some (host, port)

structure AccessLog where
  request : Request
  /-- The Unix time in nanoseconds. -/
  timestamp : Int64
  host : GoString
  port : UInt32

/-- What the template reads. -/
structure TemplateContext where
  timestamp : Int64
  requestID : GoString
  path : GoString
  method : GoString
  sourceHost : GoString
  sourcePort : GoString
  destinationHost : GoString
  destinationPort : GoString

def toMillis (timestamp : Int64) : Int64 := timestamp / 1000000

namespace AccessLog

def extensions : List (Template TemplateContext) :=
  [[.text (str "rt="), .value (fun c => formatInt c.timestamp.toInt)],
    [.text (str "cs1Label=userAuthenticationMechanism")],
    [.text (str "cs1=oauth-access-token")],
    [.text (str "cs2Label=vcapRequestId")],
    [.text (str "cs2="), .value (·.requestID)],
    [.text (str "request="), .value (·.path)],
    [.text (str "requestMethod="), .value (·.method)],
    [.text (str "src="), .value (·.sourceHost)],
    [.text (str "spt="), .value (·.sourcePort)],
    [.text (str "dst="), .value (·.destinationHost)],
    [.text (str "dpt="), .value (·.destinationPort)]]

def fields : List (Template TemplateContext) :=
  [[.text (str "0")],
    [.text (str "cloud_foundry")],
    [.text (str "loggregator_trafficcontroller")],
    [.text (str "1.0")],
    [.value (·.method), .text (str " "), .value (·.path)],
    [.value (·.method), .text (str " "), .value (·.path)],
    [.text (str "0")],
    Template.join (str " ") extensions]

def logTemplate : Template TemplateContext :=
  .text (str "CEF:") :: Template.join (str "|") fields

/-- The host and the port of the client, both empty when the address cannot be split. -/
def extractRemoteInfo (al : AccessLog) : GoString × GoString :=
  let forwarded := (al.request.headerGet (str "X-Forwarded-For")).takeWhile (fun b => b != comma)
  let remoteAddr := if forwarded = [] then al.request.remoteAddr else forwarded
  let remoteAddr := if colon ∈ remoteAddr then remoteAddr else remoteAddr ++ [colon]
  (splitHostPort remoteAddr).getD ([], [])

/-- The decoded path with the query as it was sent. -/
def path (al : AccessLog) : GoString :=
  if al.request.url.rawQuery ≠ [] then
    al.request.url.path ++ str "?" ++ al.request.url.rawQuery
  else al.request.url.path

def context (al : AccessLog) : TemplateContext where
  timestamp := toMillis al.timestamp
  requestID := al.request.headerGet requestIDHeader
  path := al.path
  method := al.request.method
  sourceHost := al.extractRemoteInfo.1
  sourcePort := al.extractRemoteInfo.2
  destinationHost := al.host
  destinationPort := formatNat al.port.toNat

/-- `String`. The template reads only fields that exist and a buffer takes every write, so that
its execution does not fail. -/
def string (al : AccessLog) : GoString := logTemplate.execute al.context

end AccessLog

/-- `LogAccess`, over any writer. -/
def logAccess {σ ε : Type} (write : σ → GoString → σ × Option ε) (writer : σ) (request : Request)
    (now : Int64) (host : GoString) (port : UInt32) : σ × Option ε :=
  let al : AccessLog := { request := request, timestamp := now, host := host, port := port }
  write writer (al.string ++ str "\n")

/-! ## One record -/

def bar : UInt8 := 124
def newline : UInt8 := 10
def carriageReturn : UInt8 := 13

/-- The bytes that end a field or a record. -/
def delimiters : List UInt8 := [bar, newline, carriageReturn]

/-- A text on one line with the eight fields of the format. -/
@[mk_iff]
structure OneRecord (text : GoString) : Prop where
  newline : newline ∉ text
  carriageReturn : carriageReturn ∉ text
  fields : (text.splitOn bar).length = 8

instance (text : GoString) : Decidable (OneRecord text) :=
  decidable_of_iff' _ (oneRecord_iff text)

namespace AccessLog

/-- The texts in the record that are not the controller's own. -/
def inserted (al : AccessLog) : List GoString :=
  [al.request.method, al.request.url.path, al.request.url.rawQuery,
    al.request.headerGet requestIDHeader, al.extractRemoteInfo.1, al.extractRemoteInfo.2, al.host]

/-- No inserted text has a bar or a line break. -/
def Clean (al : AccessLog) : Prop := ∀ c ∈ delimiters, ∀ s ∈ al.inserted, c ∉ s

instance (al : AccessLog) : Decidable al.Clean :=
  inferInstanceAs (Decidable (∀ c ∈ delimiters, ∀ s ∈ al.inserted, c ∉ s))

theorem kept_of_delimiter {c : UInt8} (hc : c ∈ delimiters) : Kept c := by
  simp only [delimiters, List.mem_cons, List.not_mem_nil, or_false] at hc
  rcases hc with rfl | rfl | rfl <;> decide

theorem delimiter_notMem_formatNat {c : UInt8} (hc : c ∈ delimiters) (n : Nat) :
    c ∉ formatNat n := by
  intro hmem
  obtain ⟨d, hd, rfl⟩ := mem_formatNat hmem
  interval_cases d <;> exact absurd hc (by decide)

theorem delimiter_notMem_formatInt {c : UInt8} (hc : c ∈ delimiters) (z : Int) :
    c ∉ formatInt z := by
  unfold formatInt
  split
  · rw [List.mem_append, not_or]
    refine ⟨?_, delimiter_notMem_formatNat hc _⟩
    intro hsign
    rw [List.mem_singleton.mp hsign] at hc
    exact absurd hc (by decide)
  · exact delimiter_notMem_formatNat hc _

theorem notMem_path_iff {c : UInt8} (hc : c ∈ delimiters) (al : AccessLog) :
    c ∉ al.path ↔ c ∉ al.request.url.path ∧ c ∉ al.request.url.rawQuery := by
  have hquestion : c ∉ str "?" := by
    intro hmem
    rw [List.mem_singleton.mp hmem] at hc
    exact absurd hc (by decide)
  unfold path
  split
  · simp only [List.mem_append, hquestion, or_false, not_or]
  · next hquery =>
    rw [not_ne_iff.mp hquery]
    simp

theorem values_logTemplate (c : TemplateContext) :
    logTemplate.values c = [c.method, c.path, c.method, c.path, formatInt c.timestamp.toInt,
      c.requestID, c.path, c.method, c.sourceHost, c.sourcePort, c.destinationHost,
      c.destinationPort] := rfl

/-- The template inserts the untrusted texts, and numbers, which have no delimiter. -/
theorem notMem_values_iff {c : UInt8} (hc : c ∈ delimiters) (al : AccessLog) :
    (∀ v ∈ logTemplate.values al.context, c ∉ v) ↔ ∀ s ∈ al.inserted, c ∉ s := by
  have hpath : c ∉ al.context.path ↔ _ := notMem_path_iff hc al
  have htime := delimiter_notMem_formatInt hc al.context.timestamp.toInt
  have hport : c ∉ al.context.destinationPort := delimiter_notMem_formatNat hc al.port.toNat
  simp only [values_logTemplate, inserted, List.forall_mem_cons, List.not_mem_nil, hpath, htime,
    hport]
  simp only [context, not_false_eq_true, true_and, and_true, false_implies, implies_true]
  tauto

theorem texts_logTemplate :
    (logTemplate.texts.splitOn bar).length = 8 ∧ newline ∉ logTemplate.texts ∧
      carriageReturn ∉ logTemplate.texts := by decide +kernel

theorem oneRecord_string_iff (al : AccessLog) : OneRecord al.string ↔ al.Clean := by
  obtain ⟨hfields, hnewline, hreturn⟩ := texts_logTemplate
  have hbreak {c : UInt8} (hc : c ∈ delimiters) (htext : c ∉ logTemplate.texts) :
      c ∉ al.string ↔ ∀ s ∈ al.inserted, c ∉ s := by
    rw [string, Template.notMem_execute_iff (kept_of_delimiter hc), notMem_values_iff hc,
      and_iff_right htext]
  have hbar : (al.string.splitOn bar).length = 8 ↔ ∀ s ∈ al.inserted, bar ∉ s := by
    have hc : bar ∈ delimiters := by decide
    rw [← notMem_values_iff hc, ← Template.length_splitOn_execute_iff (kept_of_delimiter hc),
      hfields, string]
  constructor
  · intro h
    simp only [Clean, delimiters, List.forall_mem_cons]
    exact ⟨hbar.mp h.fields, (hbreak (by decide) hnewline).mp h.newline,
      (hbreak (by decide) hreturn).mp h.carriageReturn, by simp⟩
  · intro h
    exact {
      newline := (hbreak (by decide) hnewline).mpr (h newline (by decide))
      carriageReturn := (hbreak (by decide) hreturn).mpr (h carriageReturn (by decide))
      fields := hbar.mpr (h bar (by decide)) }

/-! ## The fields of a record -/

/-- The eight fields a record should have. -/
def cefFields (al : AccessLog) : List GoString :=
  let name := escape al.request.method ++ str " " ++ escape al.path
  [str "CEF:0", str "cloud_foundry", str "loggregator_trafficcontroller", str "1.0", name, name,
    str "0", (Template.join (str " ") extensions).execute al.context]

theorem append_intercalate_cons (sep s t : GoString) (ts : List GoString) :
    s ++ sep.intercalate (t :: ts) = sep.intercalate ((s ++ t) :: ts) := by
  cases ts with
  | nil => simp
  | cons u ts => simp [List.intercalate_cons_cons]

theorem string_eq_intercalate (al : AccessLog) : al.string = [bar].intercalate al.cefFields := by
  have hfields : fields.map (fun t => t.execute al.context) = str "0" :: al.cefFields.tail := by
    simp [fields, cefFields, Template.execute, Template.render, context]
  have hprotocol : str "CEF:" ++ str "0" = str "CEF:0" := by decide
  calc al.string
      = str "CEF:" ++ (Template.join (str "|") fields).execute al.context := rfl
    _ = str "CEF:" ++ [bar].intercalate (str "0" :: al.cefFields.tail) := by
      rw [Template.execute_join, hfields]
      rfl
    _ = [bar].intercalate al.cefFields := by
      rw [append_intercalate_cons, hprotocol]
      rfl

/-- A clean record has the fields it should have, each at its place. -/
theorem splitOn_string {al : AccessLog} (h : al.Clean) : al.string.splitOn bar = al.cefFields := by
  have hfields := ((oneRecord_string_iff al).mpr h).fields
  rw [string_eq_intercalate] at hfields ⊢
  exact splitOn_intercalate_of_length (by simp [cefFields]) hfields

end AccessLog

/-! ## The log as a whole -/

/-- A file that takes every write at its end. -/
def appendTo (file text : GoString) : GoString × Option Empty := (file ++ text, none)

/-- The log file after a run of requests. -/
def logged (als : List AccessLog) : GoString :=
  als.foldl (fun file al =>
    (logAccess appendTo file al.request al.timestamp al.host al.port).1) []

theorem logged_concat (als : List AccessLog) (al : AccessLog) :
    logged (als ++ [al]) = logged als ++ (al.string ++ [newline]) := by
  rw [logged, List.foldl_append]
  rfl

theorem logged_eq_intercalate (als : List AccessLog) :
    logged als = [newline].intercalate (als.map AccessLog.string ++ [[]]) := by
  rw [intercalate_concat_nil]
  induction als using List.reverseRecOn with
  | nil => rfl
  | append_singleton als al ih =>
    rw [logged_concat, ih]
    simp

/-- A run of clean requests leaves one line each, and nothing after the last line break. -/
theorem lines_logged {als : List AccessLog} (h : ∀ al ∈ als, al.Clean) :
    (logged als).splitOn newline = als.map AccessLog.string ++ [[]] := by
  rw [logged_eq_intercalate]
  apply List.splitOn_intercalate _ _ (by simp)
  intro line hline
  rcases List.mem_append.mp hline with hrecord | hlast
  · obtain ⟨al, hal, rfl⟩ := List.mem_map.mp hrecord
    exact ((AccessLog.oneRecord_string_iff al).mpr (h al hal)).newline
  · rw [List.mem_singleton.mp hlast]
    exact List.not_mem_nil

/-- A record is one line of eight fields just when the texts of the request, and the controller's
own host, have no bar and no line break. Requests of that kind leave a log with their own records
and no others. -/
theorem one_record_iff (als : List AccessLog) :
    (∀ al ∈ als, OneRecord al.string ↔ al.Clean) ∧
      (∀ al ∈ als, al.Clean → al.string.splitOn bar = al.cefFields) ∧
      ((∀ al ∈ als, al.Clean) →
        (logged als).splitOn newline = als.map AccessLog.string ++ [[]]) :=
  ⟨fun al _ => AccessLog.oneRecord_string_iff al, fun _ _ h => AccessLog.splitOn_string h,
    lines_logged⟩

/-- A request with plain headers, at a given path. -/
def sampleAccess (url : Url) : AccessLog where
  request :=
    { method := str "GET"
      url := url
      header := (∅ : Dict GoString (List GoString)).insert requestIDHeader [str "8f6c"]
      remoteAddr := str "10.0.0.1:4711" }
  timestamp := 1500000000123456789
  host := str "10.0.0.2"
  port := 8080

def plainAccess : AccessLog := sampleAccess { path := str "/apps/a1/stream", rawQuery := str "n=1" }

theorem one_record_plain :
    OneRecord plainAccess.string ∧ plainAccess.string.splitOn bar = plainAccess.cefFields ∧
      (logged [plainAccess]).splitOn newline = [plainAccess.string, []] := by
  have h : plainAccess.Clean := by decide +kernel
  obtain ⟨hrecord, hfields, hlines⟩ := one_record_iff [plainAccess]
  have hmem : plainAccess ∈ [plainAccess] := List.mem_singleton_self _
  refine ⟨(hrecord _ hmem).mpr h, hfields _ hmem h, hlines ?_⟩
  rintro _ (_ | ⟨_, ⟨⟩⟩)
  exact h

/-! ## Forged records -/

/-- No value of the header has a control character. -/
def Request.PlainHeader (request : Request) : Prop :=
  ∀ entry ∈ request.header.entries, ∀ value ∈ entry.2, ∀ c ∈ value, 32 ≤ c ∧ c ≠ 127

instance (request : Request) : Decidable request.PlainHeader :=
  inferInstanceAs (Decidable (∀ entry ∈ request.header.entries, ∀ value ∈ entry.2, ∀ c ∈ value,
    32 ≤ c ∧ c ≠ 127))

/-- The request line names this target: a record of another request, between line breaks. -/
def forgingTarget : GoString :=
  str "/%0ACEF:0%7Ccloud_foundry%7Cloggregator_trafficcontroller%7C1.0%7CGET%20/secret%7C" ++
  str "GET%20/secret%7C0%7Crt=1500000000123%20cs1Label=userAuthenticationMechanism%20" ++
  str "cs1=oauth-access-token%20cs2Label=vcapRequestId%20cs2=8f6c%20request=/secret%20" ++
  str "requestMethod=GET%20src=10.0.0.1%20spt=4711%20dst=10.0.0.2%20dpt=8080%0A"

/-- A request that was never made. -/
def forgedAccess : AccessLog := sampleAccess { path := str "/secret" }

/-- A bar in the path moves the fields after it. -/
def shiftingTarget : GoString := str "/a%7Cb"

/-- One request with plain headers puts a full record of another request into the log, and one
with a bar in its path has three fields too many. -/
theorem forged_record :
    (∃ url, Url.parseUnfragmented forgingTarget = .ok url ∧
      (sampleAccess url).request.PlainHeader ∧ ¬ OneRecord (sampleAccess url).string ∧
      forgedAccess.string ∈ (logged [sampleAccess url]).splitOn newline) ∧
    ∃ url, Url.parseUnfragmented shiftingTarget = .ok url ∧
      (sampleAccess url).request.PlainHeader ∧
      ((sampleAccess url).string.splitOn bar).length = 11 := by
  refine ⟨⟨{ path := str "/\n" ++ forgedAccess.string ++ str "\n" }, ?_⟩,
    { path := str "/a|b" }, ?_⟩
  · decide +kernel
  · decide +kernel

end Loggregator.TrafficController
