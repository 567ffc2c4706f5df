import LogBroker.Api
import LogBroker.Wire.Layout

/-!
# Message headers

A request begins with the number of its api, the version, a number that the response
repeats, and the name of the client. A response begins with that number; whether an
empty section of tagged fields follows it depends on the api, because a client that asks
for the apis cannot know yet which form of header the broker writes.
-/

namespace LogBroker

open Wire Layout

/-- The header of a request. -/
structure RequestHeader where
  /-- number of the api, known or not -/
  apiKey : Int16
  /-- version of the request -/
  apiVersion : Int16
  /-- chosen by the client and repeated in the response -/
  correlationId : Int32
  /-- name of the client; null and empty read alike -/
  clientId : String
deriving DecidableEq, Repr

namespace RequestHeader

/-- A request header on the wire. -/
def layout : Layout RequestHeader :=
  tagged <| packed (int16.andThen <| int16.andThen <| int32.andThen nullableString) {
    pack := fun (apiKey, apiVersion, correlationId, clientId) =>
      { apiKey, apiVersion, correlationId, clientId }
    fields := fun h => (h.apiKey, h.apiVersion, h.correlationId, h.clientId) }

/-- The header of a nameless client's request to a known api. -/
def forApi (api : ApiKey) (apiVersion : Int16) (correlationId : Int32) : RequestHeader :=
  { apiKey := api.code, apiVersion, correlationId, clientId := "" }

/-- The header with the client's name. -/
def withClientId (h : RequestHeader) (clientId : String) : RequestHeader :=
  { h with clientId }

end RequestHeader

/-- The header of a response. -/
structure ResponseHeader where
  /-- repeated from the request -/
  correlationId : Int32
deriving DecidableEq, Repr

namespace ResponseHeader

/-- The correlation id alone. -/
def bareLayout : Layout ResponseHeader :=
  packed int32 { pack := fun correlationId => { correlationId }
                 fields := fun h => h.correlationId }

/-- A response header on the wire, by the api of the request. -/
def layout : ApiKey → Layout ResponseHeader
  | .apiVersions => bareLayout
  | .fetch | .describeTopicPartitions => tagged bareLayout

end ResponseHeader

end LogBroker
