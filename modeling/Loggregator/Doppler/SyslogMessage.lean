import Loggregator.Doppler.SyslogSink
import Loggregator.Lib.Time
import Loggregator.Lib.Utf8

/-!
# The messages of a syslog drain

`sinks/syslogwriter`: `createMessage` puts a log message into the format of RFC 5424, and the
writers for TCP and TLS send it with its length in front. The stream of frames can be read back
whatever the messages are. The header inside a frame cannot: its fields have spaces between them,
and the source of a log message, which its producer chooses, is put into the header as it is.
-/

namespace Loggregator.Doppler.SyslogWriter

open Lib

/-- What `createMessage` takes from outside the repository: the offset of the local zone at each
second, and `unicode.ToUpper` for the runes that are not ASCII, none of which becomes a space. -/
structure Env where
  zone : Int → Int
  upper : Nat → Nat
  upper_ne_space : ∀ r, 128 ≤ r → upper r ≠ 32

/-! ## createMessage -/

/-- `unicode.ToUpper`. -/
def Env.upperRune (env : Env) (r : Nat) : Nat :=
  if r < 128 then (if 97 ≤ r ∧ r ≤ 122 then r - 32 else r) else env.upper r

/-- `strings.ToUpper`. -/
def Env.toUpper (env : Env) (s : GoString) : GoString := Utf8.mapRunes env.upperRune s

/-- `clean`. -/
def clean (msg : GoString) : GoString := msg.filter (fun c => decide (c ≠ 0))

/-- What `createMessage` adds so that the message ends in a newline, decided before the message is
cleaned. -/
def addedNewline (msg : GoString) : GoString := if msg.getLast? = some 10 then [] else [10]

/-- `strings.Replace(s, "Z", "+00:00", 1)`. -/
def replaceZ : GoString → GoString
  | [] => []
  | c :: s => if c = 90 then str "+00:00" ++ s else c :: replaceZ s

def Env.timeString (env : Env) (timestamp : Int64) : GoString :=
  replaceZ (Time.formatUnixNano env.zone timestamp)

/-- The source is one of an app. -/
def Env.fromApp (env : Env) (source : GoString) : Bool :=
  hasPrefix (env.toUpper source) (str "APP")

def Env.formattedSource (env : Env) (source sourceId : GoString) : GoString :=
  if env.fromApp source then str "[" ++ env.toUpper source ++ str "/" ++ sourceId ++ str "]"
  else str "[" ++ env.toUpper source ++ str "]"

/-- `createMessage`. -/
def Env.createMessage (env : Env) (priority : Int) (appId hostname source sourceId msg : GoString)
    (timestamp : Int64) : GoString :=
  str "<" ++ formatInt priority ++ str ">1 " ++ env.timeString timestamp ++ str " " ++ hostname ++
    str " " ++ appId ++ str " " ++ env.formattedSource source sourceId ++ str " - - " ++
    clean msg ++ addedNewline msg

/-! ## The writers -/

/-- The fields of `syslogWriter` and `tlsWriter` that their messages depend on. -/
structure Writer where
  appId : GoString
  hostname : GoString

/-- The text of a log message that is written. -/
def Writer.text (env : Env) (w : Writer) (m : SyslogSink.Message) : GoString :=
  env.createMessage m.priority w.appId w.hostname m.sourceType m.sourceInstance m.message
    m.timestamp

/-- What is written to the connection. -/
def Writer.finalMsg (env : Env) (w : Writer) (m : SyslogSink.Message) : GoString :=
  formatNat (w.text env m).length ++ str " " ++ w.text env m

/-- A call of `Write`, with what `Write` of the connection returns. -/
structure Call where
  message : SyslogSink.Message
  byteCount : Nat
  err : Option GoString
  deriving DecidableEq

/-- `Write`, by what has been written to the connection, or `none` for no connection. -/
def Writer.writeOr (lost : GoString) (env : Env) (w : Writer) (conn : Option GoString) (c : Call) :
    Option GoString × Nat × Option GoString :=
  match conn with
  | none => (none, 0, some lost)
  | some written =>
    (some (written ++ (w.finalMsg env c.message).take c.byteCount), c.byteCount, c.err)

/-- `syslogWriter.Write`. -/
def Writer.syslogWrite (env : Env) (w : Writer) :
    Option GoString → Call → Option GoString × Nat × Option GoString :=
  w.writeOr (str "Connection to syslog sink lost") env

/-- `tlsWriter.Write`. -/
def Writer.tlsWrite (env : Env) (w : Writer) :
    Option GoString → Call → Option GoString × Nat × Option GoString :=
  w.writeOr (str "Connection to syslog-tls sink lost") env

/-- The connection after calls of `Write`. -/
def afterCalls (write : Option GoString → Call → Option GoString × Nat × Option GoString)
    (conn : Option GoString) (calls : List Call) : Option GoString :=
  calls.foldl (fun conn c => (write conn c).1) conn

/-- The call writes all the bytes without an error. -/
def Call.Full (env : Env) (w : Writer) (c : Call) : Prop :=
  c.byteCount = (w.finalMsg env c.message).length ∧ c.err = none

instance (env : Env) (w : Writer) (c : Call) : Decidable (c.Full env w) :=
  inferInstanceAs (Decidable (_ ∧ _))

/-! ## Frames -/

section Frames

variable {env : Env} {w : Writer}

theorem finalMsg_eq_frame (m : SyslogSink.Message) : w.finalMsg env m = frame (w.text env m) := by
  rw [Writer.finalMsg, frame, List.append_assoc]
  rfl

/-- Calls that succeed in full append their frames. -/
theorem afterCalls_of_full (lost : GoString) {calls : List Call}
    (hfull : ∀ c ∈ calls, c.Full env w) (written : GoString) :
    afterCalls (w.writeOr lost env) (some written) calls =
      some (written ++ (calls.map (fun c => w.text env c.message)).flatMap frame) := by
  induction calls generalizing written with
  | nil => simp [afterCalls]
  | cons c calls ih =>
    rw [List.forall_mem_cons] at hfull
    have hwrite : (w.writeOr lost env (some written) c).1 =
        some (written ++ frame (w.text env c.message)) := by
      simp only [Writer.writeOr]
      rw [hfull.1.1, List.take_length, finalMsg_eq_frame]
    have hrest := ih hfull.2 (written ++ frame (w.text env c.message))
    rw [afterCalls] at hrest ⊢
    rw [List.foldl_cons, hwrite, hrest, List.map_cons, List.flatMap_cons, List.append_assoc]

theorem zero_notMem_clean (msg : GoString) : 0 ∉ clean msg := by
  intro h
  exact of_decide_eq_true (List.mem_filter.mp h).2 rfl

theorem zero_notMem_addedNewline (msg : GoString) : 0 ∉ addedNewline msg := by
  unfold addedNewline
  split <;> decide

/-- Cleaning does not take the newline away that made another one unnecessary. -/
theorem getLast_clean_append (msg : GoString) :
    (clean msg ++ addedNewline msg).getLast? = some 10 := by
  unfold addedNewline
  split
  · next hlast =>
    obtain ⟨init, rfl⟩ := List.getLast?_eq_some_iff.mp hlast
    simp [clean, List.filter_append]
  · simp

end Frames

/-- For every list of calls of `Write` that succeed in full on a new connection of either writer:
a reader of counted octets gets exactly the texts back, and each text ends with a newline and has
no zero byte in its message. -/
theorem frames_unambiguous (env : Env) (w : Writer) (calls : List Call)
    (hfull : ∀ c ∈ calls, c.Full env w) :
    (∀ conn ∈ [afterCalls (w.syslogWrite env) (some []) calls,
        afterCalls (w.tlsWrite env) (some []) calls],
      conn.bind unframe = some (calls.map (fun c => w.text env c.message))) ∧
    ∀ c ∈ calls, (w.text env c.message).getLast? = some 10 ∧
      ∃ header, w.text env c.message =
          header ++ (clean c.message.message ++ addedNewline c.message.message) ∧
        0 ∉ clean c.message.message ++ addedNewline c.message.message := by
  constructor
  · rw [Writer.syslogWrite, Writer.tlsWrite, afterCalls_of_full _ hfull, afterCalls_of_full _ hfull,
      List.nil_append]
    intro conn hconn
    simp only [List.mem_cons, List.not_mem_nil, or_false, or_self] at hconn
    subst hconn
    exact unframe_frames _
  · intro c _
    have hlast := getLast_clean_append c.message.message
    have hzero : 0 ∉ clean c.message.message ++ addedNewline c.message.message := by
      rw [List.mem_append, not_or]
      exact ⟨zero_notMem_clean _, zero_notMem_addedNewline _⟩
    rw [Writer.text, Env.createMessage, List.append_assoc _ (clean _)]
    refine ⟨?_, _, rfl, hzero⟩
    rw [List.getLast?_append, hlast, Option.some_or]

/-- A zone without an offset, and no upper case beyond ASCII. -/
def utc : Env where
  zone _ := 0
  upper := id
  upper_ne_space r hr := by simp only [id]; omega

def appWriter : Writer := { appId := str "app", hostname := str "host" }

/-- A message of an app's second instance. -/
def fromApp (message : GoString) : SyslogSink.Message where
  priority := 14
  message := message
  sourceType := str "App"
  sourceInstance := str "1"
  timestamp := 0

/-- The second message looks like a frame, and the third one loses a zero byte. -/
def threeCalls : List Call :=
  [{ message := fromApp (str "hi\n"), byteCount := 59, err := none },
   { message := fromApp (str "4 a b"), byteCount := 62, err := none },
   { message := fromApp (str "x" ++ [0]), byteCount := 58, err := none }]

theorem frames_unambiguous_three :
    (afterCalls (appWriter.syslogWrite utc) (some []) threeCalls).bind unframe =
      some [str "<14>1 1970-01-01T00:00:00+00:00 host app [APP/1] - - hi\n",
        str "<14>1 1970-01-01T00:00:00+00:00 host app [APP/1] - - 4 a b\n",
        str "<14>1 1970-01-01T00:00:00+00:00 host app [APP/1] - - x\n"] := by
  have hfull : ∀ c ∈ threeCalls, c.Full utc appWriter := by decide +kernel
  have htexts : threeCalls.map (fun c => appWriter.text utc c.message) =
      [str "<14>1 1970-01-01T00:00:00+00:00 host app [APP/1] - - hi\n",
        str "<14>1 1970-01-01T00:00:00+00:00 host app [APP/1] - - 4 a b\n",
        str "<14>1 1970-01-01T00:00:00+00:00 host app [APP/1] - - x\n"] := by decide +kernel
  rw [← htexts]
  exact (frames_unambiguous utc appWriter threeCalls hfull).1 _ (List.mem_cons_self ..)

/-! ## Fields of the header -/

section Fields

variable {env : Env}

theorem space_notMem_replaceZ {s : GoString} (h : 32 ∉ s) : 32 ∉ replaceZ s := by
  induction s with
  | nil => exact h
  | cons c s ih =>
    rw [List.mem_cons, not_or] at h
    rw [replaceZ]
    split
    · rw [List.mem_append, not_or]
      exact ⟨by decide, h.2⟩
    · rw [List.mem_cons, not_or]
      exact ⟨h.1, ih h.2⟩

theorem space_notMem_formatInt (z : Int) : 32 ∉ formatInt z := by
  have hdigits := space_notMem_formatNat z.natAbs
  unfold formatInt
  split
  · rw [List.mem_append, not_or]
    exact ⟨by decide, hdigits⟩
  · exact hdigits

theorem fixes_upperRune (env : Env) : Utf8.Fixes env.upperRune 32 := by
  intro r
  change env.upperRune r = 32 ↔ r = 32
  unfold Env.upperRune
  split
  · split <;> omega
  · next hr =>
    have hne := env.upper_ne_space r (by omega)
    exact iff_of_false hne (by omega)

theorem space_mem_toUpper (s : GoString) : 32 ∈ env.toUpper s ↔ 32 ∈ s :=
  Utf8.mem_mapRunes (by decide) (fixes_upperRune env) s

/-- The process id has the spaces of the source, and for an app those of the source id. -/
theorem space_mem_formattedSource (source sourceId : GoString) :
    32 ∈ env.formattedSource source sourceId ↔
      32 ∈ source ∨ env.fromApp source = true ∧ 32 ∈ sourceId := by
  have hopen : (32 : UInt8) ∉ str "[" := by decide
  have hslash : (32 : UInt8) ∉ str "/" := by decide
  have hclose : (32 : UInt8) ∉ str "]" := by decide
  unfold Env.formattedSource
  split
  · next happ => simp [hopen, hslash, hclose, space_mem_toUpper, happ]
  · next happ => simp [hopen, hclose, space_mem_toUpper, happ]

/-- The header is its fields with spaces between them. -/
theorem createMessage_eq_joinFields (priority : Int) (appId hostname source sourceId msg : GoString)
    (timestamp : Int64) :
    env.createMessage priority appId hostname source sourceId msg timestamp =
      joinFields 32 [str "<" ++ formatInt priority ++ str ">1", env.timeString timestamp, hostname,
        appId, env.formattedSource source sourceId, str "-", str "-"]
        (clean msg ++ addedNewline msg) := by
  have hversion : str ">1 " = str ">1" ++ [32] := by decide
  have hspace : str " " = [32] := by decide
  have hnil : str " - - " = 32 :: (str "-" ++ 32 :: (str "-" ++ [32])) := by decide
  simp only [Env.createMessage, joinFields, List.foldr_cons, List.foldr_nil, hversion, hspace, hnil,
    List.append_assoc, List.cons_append, List.nil_append]

end Fields

/-- For every hostname and app id without spaces and every priority, time, source, source id and
message: the text of `createMessage`, split at its first seven spaces, gives the fields of the
header and the message exactly if there is no space in the source and, for an app, none in the
source id. -/
theorem header_fields_iff (env : Env) (priority : Int)
    (appId hostname source sourceId msg : GoString) (timestamp : Int64) (hhost : 32 ∉ hostname)
    (happ : 32 ∉ appId) :
    splitN 32 7 (env.createMessage priority appId hostname source sourceId msg timestamp) =
        [str "<" ++ formatInt priority ++ str ">1", env.timeString timestamp, hostname, appId,
          env.formattedSource source sourceId, str "-", str "-", clean msg ++ addedNewline msg] ↔
      32 ∉ source ∧ (env.fromApp source = true → 32 ∉ sourceId) := by
  have hpriority : 32 ∉ str "<" ++ formatInt priority ++ str ">1" := by
    rw [List.mem_append, List.mem_append, not_or, not_or]
    exact ⟨⟨by decide, space_notMem_formatInt priority⟩, by decide⟩
  have htime : 32 ∉ env.timeString timestamp :=
    space_notMem_replaceZ (Time.space_notMem_formatUnixNano env.zone timestamp)
  have hdash : (32 : UInt8) ∉ str "-" := by decide
  have hsplit := splitN_joinFields_iff 32
    [str "<" ++ formatInt priority ++ str ">1", env.timeString timestamp, hostname, appId,
      env.formattedSource source sourceId, str "-", str "-"] (clean msg ++ addedNewline msg)
  rw [← createMessage_eq_joinFields] at hsplit
  refine hsplit.trans ?_
  simp only [List.forall_mem_cons, List.not_mem_nil, false_imp_iff, implies_true, and_true,
    hpriority, htime, hhost, happ, hdash, not_false_eq_true, true_and, space_mem_formattedSource,
    not_or, not_and]

theorem header_fields_router :
    splitN 32 7 (utc.createMessage 14 (str "app") (str "host") (str "rtr") (str "a b")
        (str "GET / HTTP") 0) =
      [str "<14>1", str "1970-01-01T00:00:00+00:00", str "host", str "app", str "[RTR]", str "-",
        str "-", str "GET / HTTP\n"] := by
  have htoken : utc.formattedSource (str "rtr") (str "a b") = str "[RTR]" := by decide +kernel
  have htime : utc.timeString 0 = str "1970-01-01T00:00:00+00:00" := by decide +kernel
  have hmessage : clean (str "GET / HTTP") ++ addedNewline (str "GET / HTTP") =
      str "GET / HTTP\n" := by decide
  have hpriority : str "<" ++ formatInt 14 ++ str ">1" = str "<14>1" := by decide +kernel
  rw [← htoken, ← htime, ← hmessage, ← hpriority]
  exact (header_fields_iff utc 14 (str "app") (str "host") (str "rtr") (str "a b")
    (str "GET / HTTP") 0 (by decide) (by decide)).mpr (by decide +kernel)

/-- A source with a space moves what follows it: the producer writes the message id and the
structured data. -/
theorem header_fields_shifted :
    splitN 32 7 (utc.createMessage 14 (str "app") (str "host") (str "x] y [z=1]") (str "0")
        (str "m") 0) =
      [str "<14>1", str "1970-01-01T00:00:00+00:00", str "host", str "app", str "[X]", str "Y",
        str "[Z=1]]", str "- - m\n"] := by
  decide +kernel

end Loggregator.Doppler.SyslogWriter
