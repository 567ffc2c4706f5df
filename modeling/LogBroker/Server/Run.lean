import LogBroker.Broker.Answer
import LogBroker.Metrics.Counters
import LogBroker.Server.Connection
import Std.Data.HashMap

/-!
# A server's run

A server holds a broker, the disk with its logs, its connections and its counters. A run
is a row of happenings, each on one connection: it is opened, a piece of the peer's bytes
arrives, or the peer has sent all. Happenings on different connections come in any order.

How long an answer takes is not the server's choice: a `clock` tells it for the first
request that the server answers, for the second, and so on.
-/

namespace LogBroker

/-- What can happen on a connection. -/
inductive Happening where
  /-- a peer has connected -/
  | opened
  /-- a piece of the peer's bytes has arrived -/
  | received (piece : Bytes)
  /-- the peer has sent all -/
  | finished
deriving DecidableEq, Repr

/-- A server. -/
structure Server where
  /-- answers requests -/
  broker : Broker
  /-- holds the logs -/
  disk : Disk
  /-- the connections by number, those that are over included -/
  connections : Std.HashMap Nat Connection := ∅
  /-- how many requests have been answered -/
  answered : Nat := 0
  /-- what has been counted -/
  metrics : Metrics := Metrics.zero

namespace Server

/-- How the server answers a request. -/
def answer (s : Server) (m : RequestMessage) : ResponseMessage := s.broker.answer s.disk m

/-- What is counted for an answered request, the `n`-th of the server. -/
def exchangeEvents (clock : Nat → Nat) (n : Nat) (e : Exchange) : List Metrics.Event :=
  [.batchesFetched e.response.response.batches.length, .request e.request.request.api (clock n)]

/-- What is counted for answered requests, of which the first is the `n`-th. -/
def exchangesEvents (clock : Nat → Nat) : Nat → List Exchange → List Metrics.Event
  | _, [] => []
  | n, e :: es => exchangeEvents clock n e ++ exchangesEvents clock (n + 1) es

/-- What is counted when a connection's standing changes. -/
def standingEvents : (before after : Standing) → List Metrics.Event
  | .live, .failed => [.decodeError, .closed]
  | .live, .ended => [.closed]
  | _, _ => []

/-- The server after a connection has changed. -/
def update (s : Server) (id : Nat) (before after : Connection) (clock : Nat → Nat)
    (exchanges : List Exchange) : Server :=
  { s with
    connections := s.connections.insert id after
    answered := s.answered + exchanges.length
    metrics := (s.metrics.recordAll (exchangesEvents clock s.answered exchanges)).recordAll
      (standingEvents before.standing after.standing) }

/-- The server after something has happened on the connection of this number. A number
is used for one connection only, and before it is opened nothing happens on it. -/
def step (clock : Nat → Nat) (s : Server) (id : Nat) (happening : Happening) : Server :=
  match s.connections[id]?, happening with
  | none, .opened =>
    { s with
      connections := s.connections.insert id {}
      metrics := s.metrics.record .opened }
  | some c, .received piece =>
    let (after, exchanges) := c.receive s.broker.config.maxFrameLength s.answer piece
    s.update id c after clock exchanges
  | some c, .finished => s.update id c c.finish clock []
  | none, .received _ | none, .finished | some _, .opened => s

/-- The server after a row of happenings. -/
def run (clock : Nat → Nat) (s : Server) (happenings : List (Nat × Happening)) : Server :=
  happenings.foldl (fun s h => s.step clock h.1 h.2) s

/-- What has been sent on the connection of this number. -/
def sentOn (s : Server) (id : Nat) : Bytes :=
  match s.connections[id]? with
  | some c => c.sent
  | none => []

end Server

end LogBroker
