import Loggregator.Plumbing.RoundTrip

/-!
# The lists and identities of HTTP events

What `ToV1(ToV2(e, false))` makes of the forwarding addresses and the application id of an HTTP
event. The addresses travel as one text with newlines between them, so that no address and one
empty address are the same text. An event without an application id travels under the source id
of its envelope; `convertTimer` reads every source id that is the text of a UUID as an application
id.
-/

namespace Loggregator.Conversion

open Lib

/-- There is one envelope, and its HTTP event has the forwarding addresses and the words of the
application id of this one. -/
def HttpKept (s : Events.HttpStartStop)
    (outs : List (Events.Envelope × (GoString → Option GoString))) : Prop :=
  ∃ out s', outs = [out] ∧ out.1.httpStartStop = some s' ∧ s'.forwarded = s.forwarded ∧
    getUUID s'.applicationId = getUUID s.applicationId

section

variable {x : Extern} {e : Events.Envelope} {s : Events.HttpStartStop}

/-- The envelope that comes back, with the two fields in question written out. -/
theorem toV1View_toV2_http (h : Heap) (ht : e.eventType = .httpStartStop)
    (hs : e.httpStartStop = some s) :
    ∃ out s', toV1View x (toV2 x e false h).1 (toV2 x e false h).2 = [out] ∧
      out.1.httpStartStop = some s' ∧
      s'.forwarded = ((str "\n").intercalate s.forwarded).splitOn 10 ∧
      s'.applicationId = some (convertUUID (parseUUID
        (convertAppUUID s.applicationId (tagSourceId e (v1Tags e h))))) := by
  rw [toV1View_toV2]
  generalize v1Tags e h = t
  have hmsg : (v2Core x e t).message = some (.timer
      { name := str "http", start := s.startTimestamp, stop := s.stopTimestamp }) := by
    simp [v2Core, v2Message, ht, getHttpStartStop, hs]
  have hforwarded := payload_get x e t (str "forwarded", (str "\n").intercalate s.forwarded)
    (by simp [payloadTags, ht, getHttpStartStop, hs, httpTags])
  have hsid : (v2Core x e t).sourceId = convertAppUUID s.applicationId (tagSourceId e t) := by
    simp [v2Core, v2SourceId, ht, getHttpStartStop, hs]
  rw [toV1Spec, hmsg]
  refine ⟨_, _, rfl, rfl, ?_, ?_⟩
  · simp only [timerPayload]
    rw [hforwarded]
  · simp only [timerPayload]
    rw [hsid]

end

/-- For every HTTP event whose forwarding addresses have no newlines, the round trip with
deprecated tags keeps the list of addresses and the application id exactly if the list is not
empty and, for an event without an application id, the source id of the envelope does not read as
a UUID. -/
theorem http_kept_iff (x : Extern) (e : Events.Envelope) (h : Heap) (s : Events.HttpStartStop)
    (ht : e.eventType = .httpStartStop) (hs : e.httpStartStop = some s)
    (hnewline : ∀ f ∈ s.forwarded, 10 ∉ f) :
    HttpKept s (toV1View x (toV2 x e false h).1 (toV2 x e false h).2) ↔
      s.forwarded ≠ [] ∧
      (getUUID s.applicationId = ⟨0, 0⟩ →
        convertUUID (parseUUID (tagSourceId e (v1Tags e h))) = ⟨0, 0⟩) := by
  obtain ⟨out, s', houts, hout, hforwarded, happ⟩ := toV1View_toV2_http (x := x) h ht hs
  have hlist : s'.forwarded = s.forwarded ↔ s.forwarded ≠ [] := by
    rw [hforwarded, splitOn_intercalate_iff, and_iff_left hnewline]
  have hid : getUUID s'.applicationId = getUUID s.applicationId ↔
      (getUUID s.applicationId = ⟨0, 0⟩ →
        convertUUID (parseUUID (tagSourceId e (v1Tags e h))) = ⟨0, 0⟩) := by
    rw [happ, ← applicationId_iff]
    rfl
  rw [← hlist, ← hid, houts]
  constructor
  · rintro ⟨out', s'', hsame, hout', hkept⟩
    cases hsame
    cases hout.symm.trans hout'
    exact hkept
  · intro hkept
    exact ⟨out, s', rfl, hout, hkept⟩

theorem http_kept_sample :
    HttpKept (getHttpStartStop sampleExtern sampleHttp)
      (toV1View sampleExtern (toV2 sampleExtern sampleHttp false sampleHttpHeap).1
        (toV2 sampleExtern sampleHttp false sampleHttpHeap).2) :=
  (http_kept_iff sampleExtern sampleHttp sampleHttpHeap _ rfl rfl (by decide)).mpr (by decide)

/-- A request that was not forwarded. -/
def directHttp : Events.Envelope :=
  { sampleHttp with
    httpStartStop := sampleHttp.httpStartStop.map (fun s => { s with forwarded := [] }) }

/-- The tags of a request to a component whose source id is a UUID. -/
def uuidHeap : Heap where
  tags _ := List.toAList [⟨str "source_id", str "b3015d69-09cd-476d-aace-ad2d824d5ab7"⟩]
  nextTags := 1

/-- An empty list comes back with one empty address, and a request without an application id that
is tagged with a UUID comes back with one. -/
theorem http_not_kept :
    (toV1View sampleExtern (toV2 sampleExtern directHttp false sampleHttpHeap).1
        (toV2 sampleExtern directHttp false sampleHttpHeap).2).map
      (fun out => out.1.httpStartStop.map Events.HttpStartStop.forwarded) = [some [[]]] ∧
    (toV1View sampleExtern (toV2 sampleExtern sampleHttp false uuidHeap).1
        (toV2 sampleExtern sampleHttp false uuidHeap).2).map
      (fun out => out.1.httpStartStop.map Events.HttpStartStop.applicationId) =
        [some (some ⟨0x6d47cd09695d01b3, 0xb75a4d822dadceaa⟩)] := by
  decide +kernel

end Loggregator.Conversion
