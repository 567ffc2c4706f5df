import LogBroker.Broker.Segments
import LogBroker.Server.Connection

/-!
# The program

Serves one connection on standard input and output, as a supervisor hands it to a program
that it starts for each peer. The directory of the logs can be given as an argument.

Reading files is all that is done here; which files matter for the requests that have
arrived, and what the answers are, the library says.
-/

namespace LogBroker.Program

/-- How many bytes are taken from the peer at a time. -/
def pieceSize : USize := 4096

/-- The files at these paths, as far as there are any. -/
def load : List String → IO Disk
  | [] => return Disk.empty
  | path :: paths => do
    let disk ← load paths
    let .ok content ← (IO.FS.readBinFile path).toBaseIO | return disk
    return disk.write path content.toList

/-- The requests that are complete once a piece has arrived. -/
def arrived (limit : Nat) (c : Connection) (piece : Bytes) : List Request :=
  let unanswered (m : RequestMessage) := ResponseMessage.answering m.header.correlationId
    (.apiVersions ApiVersionsResponse.listing)
  (c.receive limit unanswered piece).2.map fun e => e.request.request

/-- Answers the peer until it has sent all or sends what cannot be read. -/
partial def serve (broker : Broker) (c : Connection) (input output : IO.FS.Stream) :
    IO Unit := do
  let piece := (← input.read pieceSize).toList
  if piece.isEmpty then return ()
  let limit := broker.config.maxFrameLength
  let disk ← load ((arrived limit c piece).flatMap broker.segments)
  let (after, exchanges) := c.receive limit (broker.answer disk) piece
  for e in exchanges do
    output.write (ByteArray.mk e.response.toFrame.toArray)
    output.flush
  if after.standing = .live then serve broker { after with sent := [] } input output

/-- The configuration for the program's arguments. -/
def configure : List String → BrokerConfig
  | [] => {}
  | root :: _ => { logs := { root } }

end LogBroker.Program

open LogBroker Program in
/-- Starts a broker and serves. -/
def main (args : List String) : IO Unit := do
  let config := configure args
  let disk ← load [Broker.metadataSegment config.logs]
  serve (Broker.start config disk) {} (← IO.getStdin) (← IO.getStdout)
