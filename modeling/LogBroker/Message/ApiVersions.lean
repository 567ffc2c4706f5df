import LogBroker.Api
import LogBroker.Wire.Layout

/-!
# The api that lists the apis

A client opens with this request to learn which apis the broker serves and in which
versions. Only one version of the request itself is answered with the list; any other
gets an error and an empty list.
-/

namespace LogBroker

open Wire Layout

/-- Asks for the apis. -/
structure ApiVersionsRequest where
  /-- name of the client's software -/
  clientSoftwareName : String := ""
  /-- version of the client's software -/
  clientSoftwareVersion : String := ""
deriving DecidableEq, Repr

/-- The request on the wire. -/
def ApiVersionsRequest.layout : Layout ApiVersionsRequest :=
  tagged <| packed (compactString.andThen compactString) {
    pack := fun (clientSoftwareName, clientSoftwareVersion) =>
      { clientSoftwareName, clientSoftwareVersion }
    fields := fun r => (r.clientSoftwareName, r.clientSoftwareVersion) }

/-- The versions in which an api is served. -/
structure ApiVersion where
  /-- number of the api -/
  apiKey : Int16
  /-- oldest version -/
  minVersion : Int16
  /-- newest version -/
  maxVersion : Int16
deriving DecidableEq, Repr

namespace ApiVersion

/-- A range of versions on the wire. -/
def layout : Layout ApiVersion :=
  tagged <| packed (int16.andThen <| int16.andThen int16) {
    pack := fun (apiKey, minVersion, maxVersion) => { apiKey, minVersion, maxVersion }
    fields := fun v => (v.apiKey, v.minVersion, v.maxVersion) }

/-- The versions of a known api. -/
def forApi (api : ApiKey) (minVersion maxVersion : Int16) : ApiVersion :=
  { apiKey := api.code, minVersion, maxVersion }

/-- The version of the listing request that is answered without an error. -/
def listingVersion : Int16 := 4

/-- All apis that the broker serves. -/
def supported : List ApiVersion :=
  [forApi .fetch 0 16, forApi .apiVersions 0 listingVersion,
    forApi .describeTopicPartitions 0 0]

end ApiVersion

/-- Lists the apis. -/
structure ApiVersionsResponse where
  /-- whether the request was answered -/
  errorCode : Int16
  /-- the apis -/
  apiKeys : List ApiVersion
  /-- milliseconds for which the client should wait; always zero -/
  throttleTimeMs : Int32
deriving DecidableEq, Repr

namespace ApiVersionsResponse

/-- The response on the wire. -/
def layout : Layout ApiVersionsResponse :=
  tagged <| packed (int16.andThen <| (compactArray ApiVersion.layout).andThen int32) {
    pack := fun (errorCode, apiKeys, throttleTimeMs) => { errorCode, apiKeys, throttleTimeMs }
    fields := fun r => (r.errorCode, r.apiKeys, r.throttleTimeMs) }

/-- An error and no apis. -/
def error (e : ErrorCode) : ApiVersionsResponse :=
  { errorCode := e.code, apiKeys := [], throttleTimeMs := 0 }

/-- The apis that the broker serves. -/
def listing : ApiVersionsResponse :=
  { errorCode := ErrorCode.none.code, apiKeys := ApiVersion.supported, throttleTimeMs := 0 }

end ApiVersionsResponse

end LogBroker
