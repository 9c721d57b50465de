import LogBridge.Net.Transport
import LogBridge.System.Model

/-! The client and the server over TCP connections. Each connection carries two
byte streams, and every `send` and `recv` meets its own results. The server
accepts the connections in the order in which they were opened and serves one at
a time. What a side has sent stays receivable after it has closed the connection
or has stopped. -/
namespace LogBridge

open Checked Protocol Storage Net

/-- The server after `connections` accepted clients. -/
def Server.withConnections (server : Server) (connections : UInt64) : Server :=
  { server with metrics := { server.metrics with connections } }

/-- The consumer thread, whose local variable holds the connection, has not ended. -/
def Client.consuming (client : Client) : Bool :=
  client.session.any fun session => session.consumer ≠ .finished

structure Streams where
  client : Client
  /-- The present connection of the client has been opened. -/
  opened : Bool := false
  server : Server := {}
  /-- The connection that the server serves. -/
  serving : Option Nat := none
  /-- The connections that wait for `accept`. -/
  backlog : List Nat := []
  /-- The bytes sent to the server and not yet received, for each connection. -/
  up : Nat → Bytes := fun _ => []
  /-- The bytes sent to the client and not yet received. -/
  down : Nat → Bytes := fun _ => []

inductive StreamAction where
  /-- An action of the client that does not use the network. -/
  | client (action : ClientAction)
  /-- The consumer checks the flag, connects where it has no connection, and sends. -/
  | send (connects : Bool) (results : List SendResult)
  | crashInSend (connects : Bool) (results : List SendResult)
  /-- What the calls of `recv` in `receiveAck` meet. -/
  | receiveReply (socket : Socket)
  | crashInReply (socket : Socket) (outcome : SaveOutcome)
  | accept
  /-- One round of the batch loop: what its `recv` and `send` calls meet. -/
  | serve (socket : Socket) (results : List SendResult)
  | restartServer

namespace Streams

/-- What the calls of `recv` on a stream can meet: the next bytes in order, and
the end of the stream after all of them, when the other side has closed it. A
timeout or a broken connection may come earlier. -/
def Receivable (stream : Bytes) (closed : Bool) (socket : Socket) : Prop :=
  socket.bytes <+: stream ∧ (socket.ending = .closed → closed = true ∧ socket.bytes = stream)

instance (stream : Bytes) (closed : Bool) (socket : Socket) :
    Decidable (Receivable stream closed socket) :=
  inferInstanceAs (Decidable (_ ∧ _))

def clientClosed (streams : Streams) (connection : Nat) : Bool :=
  !(streams.opened && connection == streams.client.connection && streams.client.consuming)

def serverClosed (streams : Streams) (connection : Nat) : Bool :=
  !(streams.serving == some connection || streams.backlog.contains connection)

/-- The client has taken a step. A new connection has not been opened yet. -/
def clientTo (streams : Streams) (next : Client) : Streams :=
  { streams with
    client := next
    opened := streams.opened && next.connection == streams.client.connection }

/-- `client.emplace`: the new connection waits for the server. -/
def opening (streams : Streams) : Streams :=
  if streams.opened then streams
  else
    { streams with
      opened := true
      backlog := streams.backlog ++ [streams.client.connection] }

/-- The bytes go out on the connection of the client. -/
def sendUp (streams : Streams) (wire : Bytes) : Streams :=
  let connection := streams.client.connection
  { streams with up := Function.update streams.up connection (streams.up connection ++ wire) }

def sendDown (streams : Streams) (connection : Nat) (wire : Bytes) : Streams :=
  { streams with down := Function.update streams.down connection (streams.down connection ++ wire) }

/-- The bytes of the socket before those that are left have been received. -/
def takeUp (streams : Streams) (connection : Nat) (socket left : Socket) : Streams :=
  let rest := (streams.up connection).drop (socket.bytes.length - left.bytes.length)
  { streams with up := Function.update streams.up connection rest }

def takeDown (streams : Streams) (connection : Nat) (socket left : Socket) : Streams :=
  let rest := (streams.down connection).drop (socket.bytes.length - left.bytes.length)
  { streams with down := Function.update streams.down connection rest }

/-- How an attempt ends whose `sendAll` has ended. -/
def sendOutcome : Except Exception Unit → SendOutcome
  | .ok () => .sent
  | .error _ => .failed

/-- A batch goes out. A `connect` that fails ends the attempt, and so does a
`send` that fails, with a part of the frame on the wire. -/
def send (config : ClientConfig) (streams : Streams) (connects : Bool) (results : List SendResult) :
    Option Streams := do
  let session ← streams.client.session
  let frame ← session.outgoing
  if streams.opened || connects then
    let (wire, ending) := sendAll frame results
    let client ← streams.client.step config (.thread (.attempt (sendOutcome (← ending))))
    return (streams.opening.sendUp wire).clientTo client
  else
    let client ← streams.client.step config (.thread (.attempt .failed))
    return streams.clientTo client

/-- The process stops inside `sendAll`. -/
def crashInSend (config : ClientConfig) (streams : Streams) (connects : Bool)
    (results : List SendResult) : Option Streams := do
  let session ← streams.client.session
  let frame ← session.outgoing
  if streams.opened || connects then
    let client ← streams.client.step config .crash
    return (streams.opening.sendUp (sendAll frame results).1).clientTo client
  else none

/-- `receiveAck`. Without a complete frame the connection is given up. -/
def receiveReply (config : ClientConfig) (streams : Streams) (socket : Socket) : Option Streams :=
  let connection := streams.client.connection
  if Receivable (streams.down connection) (streams.serverClosed connection) socket then
    match receiveFrame socket with
    | .ok (some frame, left) => do
        let client ← streams.client.step config (.reply frame)
        return (streams.takeDown connection socket left).clientTo client
    | _ => do
        let client ← streams.client.step config (.thread .replyFails)
        return streams.clientTo client
  else none

def crashInReply (config : ClientConfig) (streams : Streams) (socket : Socket)
    (outcome : SaveOutcome) : Option Streams :=
  let connection := streams.client.connection
  if Receivable (streams.down connection) (streams.serverClosed connection) socket then
    match receiveFrame socket with
    | .ok (some frame, left) => do
        let client ← streams.client.step config (.crashInReply frame outcome)
        return (streams.takeDown connection socket left).clientTo client
    | _ => none
  else none

def accept (streams : Streams) : Option Streams :=
  match streams.serving, streams.backlog with
  | none, connection :: rest =>
      some { streams with
        serving := some connection
        backlog := rest
        server := streams.server.withConnections (streams.server.metrics.connections + 1) }
  | _, _ => none

/-- The error of a `sendAll` that has ended. -/
def sendError : Except Exception Unit → Option Exception
  | .ok () => none
  | .error error => some error

/-- One round of the batch loop. The end of the stream and every exception lead
back to `accept`. An acknowledgement may be cut short. -/
def serve (streams : Streams) (socket : Socket) (results : List SendResult) : Option Streams := do
  let connection ← streams.serving
  if Receivable (streams.up connection) (streams.clientClosed connection) socket then
    match receiveLogBatch socket with
    | .error _ | .ok (none, _) => return { streams with serving := none }
    | .ok (some messages, left) =>
        let last ← messages.getLast?
        let (wire, ending) := sendAll (serializeAck last.id) results
        let (result, server) := streams.server.handleBatch messages { ackError := sendError (← ending) }
        -- nothing is sent when the watermark was not saved
        let sent := if server.acks.length = streams.server.acks.length then [] else wire
        let serving := match result with
          | .ok () => some connection
          | .error _ => none
        return { (streams.takeUp connection socket left).sendDown connection sent with server, serving }
  else none

/-- The connections that wait or are served are lost with the server. -/
def restartServer (dedupPath : Bytes) (streams : Streams) : Option Streams :=
  (streams.server.step dedupPath .restart).map fun server =>
    { streams with server, serving := none, backlog := [] }

/-- The attempt of a consumer with a batch to send, and the wait for its reply. -/
def usesNetwork (client : Client) : ClientAction → Bool
  | .thread (.attempt _) => client.session.any fun session => session.outgoing.isSome
  | .thread .replyFails => true
  | _ => false

def step (config : ClientConfig) (dedupPath : Bytes) (streams : Streams) :
    StreamAction → Option Streams
  | .client action =>
      if action.isLocal && !usesNetwork streams.client action then
        (streams.client.step config action).map streams.clientTo
      else none
  | .send connects results => streams.send config connects results
  | .crashInSend connects results => streams.crashInSend config connects results
  | .receiveReply socket => streams.receiveReply config socket
  | .crashInReply socket outcome => streams.crashInReply config socket outcome
  | .accept => streams.accept
  | .serve socket results => streams.serve socket results
  | .restartServer => streams.restartServer dedupPath

end Streams
end LogBridge
