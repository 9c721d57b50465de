import LogBridge.DedupStore.Model
import LogBridge.Net.Socket

/-! The server: it receives batches on one connection at a time, prints the
messages above the client's watermark, saves the new watermark and then
acknowledges the last id of the batch. -/
namespace LogBridge

open Checked Protocol Storage Net

/-- The second half of `receiveLogBatch`: a complete frame becomes a batch. -/
def decodeLogBatch (frame : Bytes) : Except Exception (List LogMessage) := do
  let header ← parseFrameHeader frame
  if header.type = .log then
    let message ← deserializeLogMessage frame
    return [message]
  else if header.type = .logBatch then deserializeLogBatch frame
  else throw (.protocolError "expected log or log batch frame")

def receiveLogBatch (socket : Socket) : Except Exception (Option (List LogMessage) × Socket) := do
  match ← receiveFrame socket with
  | (none, socket) => return (none, socket)
  | (some frame, socket) =>
      let messages ← decodeLogBatch frame
      return (some messages, socket)

structure ServerMetrics where
  connections : UInt64 := 0
  batches : UInt64 := 0
  receivedMessages : UInt64 := 0
  processedMessages : UInt64 := 0
  duplicateMessages : UInt64 := 0
  deriving DecidableEq, Repr

/-- An acknowledgement handed to `sendAck`, with the state file at that moment. -/
structure SentAck where
  clientId : Bytes
  confirmedId : UInt64
  file : Option Bytes
  deriving DecidableEq, Repr

/-- The running server, its state file, and what it has printed and sent. -/
structure Server where
  dedup : DedupStore := {}
  file : Option Bytes := none
  outputs : List LogMessage := []
  acks : List SentAck := []
  metrics : ServerMetrics := {}

/-- How the calls of one batch end that leave the process: the save of the
watermark and the sending of the acknowledgement. -/
structure BatchOutcome where
  save : SaveOutcome := .saved
  ackError : Option Exception := none
  deriving DecidableEq, Repr

namespace Server

/-- The body of the loop over the messages of a batch. -/
def handleMessage (previousConfirmed : UInt64) (state : Server × UInt64) (message : LogMessage) :
    Server × UInt64 :=
  let (server, latestProcessed) := state
  let metrics := server.metrics
  if message.id ≤ previousConfirmed then
    ({ server with metrics := { metrics with
        duplicateMessages := metrics.duplicateMessages + 1 } }, latestProcessed)
  else
    ({ server with
        outputs := server.outputs ++ [message]
        metrics := { metrics with processedMessages := metrics.processedMessages + 1 } },
      message.id)

/-- The loop over a received batch. It returns the last new message id, or the
old watermark where there is none. -/
def processMessages (server : Server) (clientId : Bytes) (messages : List LogMessage) :
    Server × UInt64 :=
  let metrics := server.metrics
  let server := { server with metrics := { metrics with
    receivedMessages := metrics.receivedMessages + .ofNat messages.length } }
  let previousConfirmed := server.dedup.highestConfirmed clientId
  messages.foldl (handleMessage previousConfirmed) (server, previousConfirmed)

/-- The end of a round. The acknowledgement counts as sent even when `sendAck`
throws, since its bytes may already be on the way. -/
def sendAck (server : Server) (ack : SentAck) (ackError : Option Exception) :
    Except Exception Unit × Server :=
  let server := { server with acks := server.acks ++ [ack] }
  match ackError with
  | some error => (.error error, server)
  | none =>
      let metrics := server.metrics
      (.ok (), { server with metrics := { metrics with batches := metrics.batches + 1 } })

/-- One round of the batch loop after `receiveLogBatch` returned a batch. An
error ends the connection. -/
def handleBatch (server : Server) (messages : List LogMessage) (outcome : BatchOutcome) :
    Except Exception Unit × Server :=
  match messages with
  | [] => (.error .outOfBounds, server)
  | front :: rest =>
      let clientId := front.clientId
      let (server, latestProcessed) := server.processMessages clientId messages
      match server.dedup.confirm server.file clientId latestProcessed outcome.save with
      | (.error error, dedup, file) => (.error error, { server with dedup, file })
      | (.ok _, dedup, file) =>
          let confirmedId := ((front :: rest).getLast (List.cons_ne_nil front rest)).id
          sendAck { server with dedup, file } { clientId, confirmedId, file } outcome.ackError

/-- The batch loop of one connection. It returns the exception that ended the
connection, if there was one. The outcomes are those of the batches in order. -/
def serveConnection (server : Server) (socket : Socket) (outcomes : List BatchOutcome) :
    Option Exception × Server :=
  match _hReceive : receiveLogBatch socket with
  | .error error => (some error, server)
  | .ok (none, _) => (none, server)
  | .ok (some messages, next) =>
      match server.handleBatch messages (outcomes.headD {}) with
      | (.error error, server) => (some error, server)
      | (.ok (), server) => serveConnection server next outcomes.tail
termination_by socket.bytes.length
decreasing_by
  obtain ⟨⟨_ | frame, afterFrame⟩, hFrame, hBatch⟩ := bind_eq_ok_iff.mp _hReceive
  · cases hBatch
  · obtain ⟨messages, _, hBatch⟩ := bind_eq_ok_iff.mp hBatch
    cases hBatch
    exact length_lt_of_nextFrame (nextFrame_of_receiveFrame hFrame).1

/-- One accepted client: an exception on its connection is reported and the
server waits for the next client. -/
def serveClient (server : Server) (socket : Socket) (outcomes : List BatchOutcome) : Server :=
  let metrics := server.metrics
  let server := { server with metrics := { metrics with connections := metrics.connections + 1 } }
  (server.serveConnection socket outcomes).2

/-- The constructor of the store at the start of the server. -/
def restart (server : Server) (path : Bytes) : Except Exception Server := do
  let dedup ← DedupStore.construct path server.file
  return { server with dedup, metrics := {} }

end Server
end LogBridge
