import LogBroker.Message.Request
import LogBroker.Message.Response

/-!
# A connection

The peer's bytes arrive in pieces that have nothing to do with frames. A connection keeps
what it has not answered yet, and after each piece answers all requests that are now
there in full, in their order. It ends when the peer has no more to send, even in the
middle of a frame, or fails at the first frame that is too large or holds no request.
What was answered before stands.

How a request is answered is a parameter here: a function from requests to responses.
-/

namespace LogBroker

open Wire

/-- A request and the answer to it. -/
structure Exchange where
  /-- what was asked -/
  request : RequestMessage
  /-- what was answered -/
  response : ResponseMessage
deriving DecidableEq, Repr

/-- How a connection stands. -/
inductive Standing where
  /-- more may come -/
  | live
  /-- the peer has sent all -/
  | ended
  /-- a frame could not be read -/
  | failed
deriving DecidableEq, Repr

/-- A connection with a peer. -/
structure Connection where
  /-- whether more may come -/
  standing : Standing := .live
  /-- what has arrived and is not answered -/
  buffer : Bytes := []
  /-- what has been sent to the peer -/
  sent : Bytes := []
deriving DecidableEq, Repr

namespace Connection

/-- Answers the requests at the front of a buffer until a frame has not arrived in full,
in which case what is left of the buffer stays, or until a frame cannot be read, in which
case nothing does. -/
def drain (limit : Nat) (answer : RequestMessage → ResponseMessage) (buffer : Bytes) :
    List Exchange × Option Bytes :=
  match h : Frame.splitOff limit buffer with
  | (.ok none, left) => ([], some left)
  | (.error _, _) => ([], none)
  | (.ok (some frame), rest) =>
    match RequestMessage.read frame with
    | (.error _, _) => ([], none)
    | (.ok request, _) =>
      have : rest.length < buffer.length := Frame.length_rest_of_splitOff h
      let (exchanges, left) := drain limit answer rest
      (⟨request, answer request⟩ :: exchanges, left)
termination_by buffer.length

/-- The connection after a piece has arrived, and what was answered because of it. A
connection that is not live hears nothing. -/
def receive (limit : Nat) (answer : RequestMessage → ResponseMessage) (c : Connection)
    (piece : Bytes) : Connection × List Exchange :=
  match c.standing with
  | .ended | .failed => (c, [])
  | .live =>
    let (exchanges, left) := drain limit answer (c.buffer ++ piece)
    let sent := c.sent ++ exchanges.flatMap fun e => e.response.toFrame
    match left with
    | some buffer => ({ standing := .live, buffer, sent }, exchanges)
    | none => ({ standing := .failed, buffer := [], sent }, exchanges)

/-- The connection after the peer's last byte. -/
def finish (c : Connection) : Connection :=
  match c.standing with
  | .live => { c with standing := .ended }
  | .ended | .failed => c

end Connection

end LogBroker
