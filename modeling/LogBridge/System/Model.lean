import LogBridge.Client.Model
import LogBridge.Server.Deduplication

/-! The client and the server with the frames in flight between them. A frame
that was sent may arrive at any later time or never; a reply reaches the client
only on its present connection. The server may serve old connections late. -/
namespace LogBridge

open Checked Protocol Storage

/-- A frame on its way, with the connection it was sent on. -/
structure Packet where
  connection : Nat
  frame : Bytes
  deriving DecidableEq, Repr

structure System where
  client : Client
  server : Server := {}
  batches : List Packet := []
  replies : List Packet := []

/-- The sending of a batch and its reply are actions of the system. -/
def ClientAction.isLocal : ClientAction → Bool
  | .thread (.attempt .sent) | .reply _ | .crashInReply _ _ => false
  | _ => true

inductive SystemAction where
  | client (action : ClientAction)
  /-- The consumer sends its batch. -/
  | send
  /-- The server receives one of the batches in flight and answers it. -/
  | receiveBatch (index : Nat) (ackError : Option Exception)
  /-- The client receives a reply on its connection. -/
  | receiveReply (index : Nat)
  /-- The client receives a reply and stops inside the compaction. -/
  | crashInReply (index : Nat) (outcome : SaveOutcome)
  | loseBatch (index : Nat)
  | loseReply (index : Nat)
  | restartServer

namespace System

/-- The batch goes out on the connection of the client. -/
def send (config : ClientConfig) (system : System) : Option System := do
  let session ← system.client.session
  let client ← system.client.step config (.thread (.attempt .sent))
  let batches := match session.outgoing with
    | some frame => system.batches ++ [{ connection := system.client.connection, frame }]
    | none => system.batches
  return { system with client, batches }

/-- The acknowledgement of a batch goes back on the connection of the batch. -/
def receiveBatch (dedupPath : Bytes) (system : System) (index : Nat) (ackError : Option Exception) :
    Option System := do
  let packet ← system.batches[index]?
  let server ← system.server.step dedupPath (.receive packet.frame ackError)
  let acks := server.acks.drop system.server.acks.length
  let replies := acks.map fun ack =>
    { connection := packet.connection, frame := serializeAck ack.confirmedId }
  return { system with
    server
    batches := system.batches.eraseIdx index
    replies := system.replies ++ replies }

/-- A reply on a closed connection is never read. -/
def takeReply (system : System) (index : Nat) : Option Packet := do
  let packet ← system.replies[index]?
  if packet.connection = system.client.connection then return packet else none

def step (config : ClientConfig) (dedupPath : Bytes) (system : System) : SystemAction → Option System
  | .client action =>
      if action.isLocal then
        (system.client.step config action).map fun client => { system with client }
      else none
  | .send => system.send config
  | .receiveBatch index ackError => system.receiveBatch dedupPath index ackError
  | .receiveReply index => do
      let packet ← system.takeReply index
      let client ← system.client.step config (.reply packet.frame)
      return { system with client, replies := system.replies.eraseIdx index }
  | .crashInReply index outcome => do
      let packet ← system.takeReply index
      let client ← system.client.step config (.crashInReply packet.frame outcome)
      return { system with client, replies := system.replies.eraseIdx index }
  | .loseBatch index => some { system with batches := system.batches.eraseIdx index }
  | .loseReply index => some { system with replies := system.replies.eraseIdx index }
  | .restartServer =>
      (system.server.step dedupPath .restart).map fun server => { system with server }

end System
end LogBridge
