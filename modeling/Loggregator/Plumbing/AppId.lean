import Loggregator.Plumbing.ToV2

/-!
# The application of a v1 envelope

`envelope_extensions.GetAppId`, by which doppler routes an envelope to the subscriptions for its
application. The function is outside of the repository; this is what the filter by source id
relies on. A payload that is absent reads through its getters.
-/

namespace Loggregator

open Lib

/-- `envelope_extensions.SystemAppId`. -/
def systemAppId : GoString := str "system"

/-- `envelope_extensions.GetAppId`. -/
def getAppId (e : Events.Envelope) : GoString :=
  match e.eventType with
  | .logMessage => (Conversion.getLogMessage e).appId
  | .containerMetric => (Conversion.getContainerMetric e).applicationId
  | .httpStartStop =>
    match e.httpStartStop.bind Events.HttpStartStop.applicationId with
    | some uuid => Conversion.uuidToString (some uuid)
    | none => systemAppId
  | _ => systemAppId

end Loggregator
