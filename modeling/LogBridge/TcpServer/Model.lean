import LogBridge.Library.Descriptors
import LogBridge.Library.Runs
import LogBridge.Protocol.Format

/-! The server process with its two threads. The main thread accepts clients and
serves them; the signal thread calls `stop`, which closes the sockets under the
main thread so that a blocked call returns. The atomic members are read and written
one at a time, and every system call is a step of its own. -/
namespace LogBridge

open Protocol

/-- What a descriptor of the server process refers to. Connections and files are
numbered as they are opened. -/
inductive Resource where
  | listener
  | connection (number : Nat)
  | file (number : Nat)
  deriving DecidableEq, Repr

/-- A socket: the clients or bytes that wait to be taken, the bytes that can be
sent without blocking, and whether the peer or `shutdown` has ended it. -/
structure SocketState where
  ready : Nat := 0
  room : Nat := 0
  ended : Bool := false
  shut : Bool := false
  deriving DecidableEq, Repr

/-- The members of the class. A descriptor of -1 is `none`. -/
structure TcpServer where
  listenFd : Option Nat
  clientFd : Option Nat := none
  stopped : Bool := false
  deriving DecidableEq, Repr

inductive SocketMember where
  | listenFd
  | clientFd
  deriving DecidableEq, Repr

namespace TcpServer

def descriptor (server : TcpServer) : SocketMember → Option Nat
  | .listenFd => server.listenFd
  | .clientFd => server.clientFd

/-- `exchange(-1)`. -/
def take (server : TcpServer) : SocketMember → TcpServer
  | .listenFd => { server with listenFd := none }
  | .clientFd => { server with clientFd := none }

end TcpServer

/-- Where `closeSocket` stands. -/
inductive CloseStage where
  | exchange
  | shutdown (fd : Nat)
  | close (fd : Nat)
  deriving DecidableEq, Repr

/-- Where `stop` stands. -/
inductive StopStage where
  | flag
  | client (stage : CloseStage)
  | listener (stage : CloseStage)
  deriving DecidableEq, Repr

/-- Why `accept` has failed. -/
inductive AcceptError where
  | badDescriptor
  | shutDown
  | interrupted
  | other
  deriving DecidableEq, Repr

/-- What `receiveFrame` is reading. -/
inductive FramePart where
  | header
  | payload
  deriving DecidableEq, Repr

/-- Where the main thread stands. -/
inductive MainStage where
  /-- At the head of the outer loop. -/
  | looping
  /-- `acceptClient` closes the previous client. -/
  | accept (stage : CloseStage)
  | checkStop
  | loadListen
  | acceptCall (fd : Option Nat)
  | acceptBlocked (fd : Option Nat) (resource : Resource)
  /-- At the condition of the loop around `accept`, after EINTR. -/
  | acceptRetry (fd : Option Nat)
  | acceptFailed (error : AcceptError)
  | store (fd : Nat)
  | recheck
  | drop (stage : CloseStage)
  /-- At the head of the inner loop. -/
  | serving
  | receive
  | receiveCall (fd : Nat) (part : FramePart) (left : Nat)
  | receiveBlocked (fd : Nat) (resource : Resource) (part : FramePart) (left : Nat)
  | received (fd : Nat) (part : FramePart)
  /-- In `dedupStore.confirm`, which opens at most so many more files. -/
  | confirm (left : Nat)
  | writing (fd : Nat) (left : Nat)
  | sendAck
  | sendCall (fd : Nat) (left : Nat)
  | sendBlocked (fd : Nat) (resource : Resource) (left : Nat)
  /-- After the outer loop, with the exception that has ended it. -/
  | leaving (thrown : Option AcceptError)
  | joining (thrown : Option AcceptError)
  /-- The destructor of the server. -/
  | destroy (thrown : Option AcceptError) (stage : StopStage)
  | finished (thrown : Option AcceptError)
  deriving DecidableEq, Repr

/-- Where the signal thread stands. -/
inductive SignalStage where
  | waiting
  | clearing
  | stopping (stage : StopStage)
  | finished
  deriving DecidableEq, Repr

structure ServerProcess where
  server : TcpServer
  descriptors : Descriptors Resource
  sockets : Resource → SocketState := fun _ => {}
  /-- The number of the connection that was accepted last. -/
  current : Nat := 0
  running : Bool := true
  stopRequested : Bool := false
  main : MainStage := .looping
  signal : SignalStage := .waiting

/-- How a step of the main thread ends. Calls that block return in one of several ways. -/
inductive CallResult where
  | done
  /-- A new descriptor. -/
  | opened (fd : Nat)
  /-- So many bytes were received or sent. -/
  | moved (count : Nat)
  /-- The header of a frame is valid and declares so many bytes. -/
  | declared (length : Nat)
  /-- The socket is shut down, or its peer has ended. -/
  | woken
  | interrupted
  /-- Any other error. -/
  | failed
  deriving DecidableEq, Repr

inductive SignalEvent where
  /-- `waitFor` returns `true` or throws. -/
  | received
  /-- The loop ends after `request_stop`. -/
  | noticed
  | step
  deriving DecidableEq, Repr

inductive ProcessAction where
  | main (result : CallResult)
  | signal (event : SignalEvent)
  /-- Clients or bytes arrive. -/
  | arrive (resource : Resource) (count : Nat)
  /-- Bytes that were sent leave the buffer. -/
  | drain (resource : Resource) (count : Nat)
  | peerEnds (resource : Resource)
  deriving DecidableEq, Repr

/-- The files that one `writeAtomically` opens: the temporary file and the directory. -/
def filesPerSave : Nat := 2

/-- The length of the frame that `serializeAck` returns. -/
def ackFrameLength : Nat := frameHeaderSize + 8

namespace ServerProcess

def setSocket (process : ServerProcess) (resource : Resource) (state : SocketState) : ServerProcess :=
  { process with sockets := Function.update process.sockets resource state }

/-- `shutdown(fd, SHUT_RDWR)`. -/
def shutdown (process : ServerProcess) (fd : Nat) : ServerProcess :=
  match process.descriptors.table fd with
  | none => process
  | some resource => process.setSocket resource { process.sockets resource with shut := true }

def close (process : ServerProcess) (fd : Nat) : ServerProcess :=
  { process with descriptors := process.descriptors.close fd }

/-- A step of `closeSocket`, and where it goes on. -/
def closeSocket (process : ServerProcess) (member : SocketMember) :
    CloseStage → ServerProcess × Option CloseStage
  | .exchange =>
      ({ process with server := process.server.take member },
        (process.server.descriptor member).map .shutdown)
  | .shutdown fd => (process.shutdown fd, some (.close fd))
  | .close fd => (process.close fd, none)

/-- A step of `stop`. -/
def stop (process : ServerProcess) : StopStage → ServerProcess × Option StopStage
  | .flag =>
      ({ process with server := { process.server with stopped := true } }, some (.client .exchange))
  | .client stage =>
      match process.closeSocket .clientFd stage with
      | (process, some stage) => (process, some (.client stage))
      | (process, none) => (process, some (.listener .exchange))
  | .listener stage =>
      match process.closeSocket .listenFd stage with
      | (process, some stage) => (process, some (.listener stage))
      | (process, none) => (process, none)

def openAt (process : ServerProcess) (fd : Nat) (resource : Resource) : ServerProcess :=
  { process with descriptors := process.descriptors.openAt fd resource }

/-- The number of the next connection or file. -/
def nextNumber (process : ServerProcess) : Nat := process.descriptors.opened.length

/-- `accept` takes a client that waits. -/
def acceptReady (process : ServerProcess) (resource : Resource) (fd : Nat) : ServerProcess :=
  let listening := process.sockets resource
  let number := process.nextNumber
  let accepted := process.setSocket resource { listening with ready := listening.ready - 1 }
  { accepted.openAt fd (.connection number) with current := number, main := .store fd }

/-- A step of the main thread inside `acceptClient`. -/
def acceptStep (process : ServerProcess) (result : CallResult) : Option ServerProcess :=
  match process.main, result with
  | .accept stage, .done =>
      match process.closeSocket .clientFd stage with
      | (process, some stage) => some { process with main := .accept stage }
      | (process, none) => some { process with main := .checkStop }
  | .checkStop, .done =>
      some { process with main := if process.server.stopped then .leaving none else .loadListen }
  | .loadListen, .done => some { process with main := .acceptCall process.server.listenFd }
  | .acceptCall fd, .done =>
      match fd.bind process.descriptors.table with
      | none => some { process with main := .acceptFailed .badDescriptor }
      | some resource => some { process with main := .acceptBlocked fd resource }
  | .acceptBlocked _ resource, .opened fd =>
      if 0 < (process.sockets resource).ready ∧ process.descriptors.table fd = none then
        some (process.acceptReady resource fd)
      else none
  | .acceptBlocked _ resource, .woken =>
      if (process.sockets resource).shut then some { process with main := .acceptFailed .shutDown }
      else none
  | .acceptBlocked _ _, .failed => some { process with main := .acceptFailed .other }
  | .acceptBlocked fd _, .interrupted => some { process with main := .acceptRetry fd }
  | .acceptRetry fd, .done =>
      some { process with
        main := if process.server.stopped then .acceptFailed .interrupted else .acceptCall fd }
  | .acceptFailed error, .done =>
      some { process with
        main := if process.server.stopped then .leaving none else .leaving (some error) }
  | .store fd, .done =>
      some { process with server := { process.server with clientFd := some fd }, main := .recheck }
  | .recheck, .done =>
      some { process with main := if process.server.stopped then .drop .exchange else .serving }
  | .drop stage, .done =>
      match process.closeSocket .clientFd stage with
      | (process, some stage) => some { process with main := .drop stage }
      | (process, none) => some { process with main := .leaving none }
  | _, _ => none

/-- A step of the main thread inside the inner loop. An exception is caught and
leads back to the outer loop. -/
def serveStep (process : ServerProcess) (result : CallResult) : Option ServerProcess :=
  match process.main, result with
  | .serving, .done =>
      some { process with main := if process.running then .receive else .looping }
  | .receive, .done =>
      match process.server.clientFd with
      | none => some { process with main := .looping }
      | some fd => some { process with main := .receiveCall fd .header frameHeaderSize }
  | .receiveCall fd part left, .done =>
      match process.descriptors.table fd with
      | none => some { process with main := .looping }
      | some resource => some { process with main := .receiveBlocked fd resource part left }
  | .receiveBlocked fd resource part left, .moved count =>
      let socket := process.sockets resource
      if 0 < count ∧ count ≤ left ∧ count ≤ socket.ready then
        some { process.setSocket resource { socket with ready := socket.ready - count } with
          main := if count = left then .received fd part else .receiveCall fd part (left - count) }
      else none
  | .receiveBlocked _ resource _ _, .woken =>
      if (process.sockets resource).shut ∨ (process.sockets resource).ended then
        some { process with main := .looping }
      else none
  | .receiveBlocked _ _ _ _, .failed => some { process with main := .looping }
  | .receiveBlocked fd _ part left, .interrupted =>
      some { process with main := .receiveCall fd part left }
  | .received fd .header, .declared length =>
      if length = 0 then some { process with main := .received fd .payload }
      else if length ≤ maxFramePayloadLength then
        some { process with main := .receiveCall fd .payload length }
      else none
  | .received _ .header, .failed => some { process with main := .looping }
  | .received _ .payload, .done => some { process with main := .confirm filesPerSave }
  | .received _ .payload, .failed => some { process with main := .looping }
  | .confirm _, .done => some { process with main := .sendAck }
  | .confirm (left + 1), .opened fd =>
      if process.descriptors.table fd = none then
        some { process.openAt fd (.file process.nextNumber) with main := .writing fd left }
      else none
  | .confirm _, .failed => some { process with main := .looping }
  | .writing fd left, .done => some { process.close fd with main := .confirm left }
  | .writing fd _, .failed => some { process.close fd with main := .looping }
  | .sendAck, .done =>
      match process.server.clientFd with
      | none => some { process with main := .looping }
      | some fd => some { process with main := .sendCall fd ackFrameLength }
  | .sendCall fd left, .done =>
      match process.descriptors.table fd with
      | none => some { process with main := .looping }
      | some resource => some { process with main := .sendBlocked fd resource left }
  | .sendBlocked fd resource left, .moved count =>
      let socket := process.sockets resource
      if 0 < count ∧ count ≤ left ∧ count ≤ socket.room then
        some { process.setSocket resource { socket with room := socket.room - count } with
          main := if count = left then .serving else .sendCall fd (left - count) }
      else none
  | .sendBlocked _ resource _, .woken =>
      if (process.sockets resource).shut then some { process with main := .looping } else none
  | .sendBlocked _ _ _, .failed => some { process with main := .looping }
  | .sendBlocked fd _ left, .interrupted => some { process with main := .sendCall fd left }
  | _, _ => none

/-- A step of the main thread outside of both. The end of `main`, by a return or an
exception, joins the signal thread and destroys the server. -/
def outerStep (process : ServerProcess) (result : CallResult) : Option ServerProcess :=
  match process.main, result with
  | .looping, .done =>
      some { process with main := if process.running then .accept .exchange else .leaving none }
  | .leaving thrown, .done => some { process with stopRequested := true, main := .joining thrown }
  | .joining thrown, .done =>
      if process.signal = .finished then some { process with main := .destroy thrown .flag } else none
  | .destroy thrown stage, .done =>
      match process.stop stage with
      | (process, some stage) => some { process with main := .destroy thrown stage }
      | (process, none) => some { process with main := .finished thrown }
  | _, _ => none

def mainStep (process : ServerProcess) (result : CallResult) : Option ServerProcess :=
  process.outerStep result <|> process.acceptStep result <|> process.serveStep result

def signalStep (process : ServerProcess) (event : SignalEvent) : Option ServerProcess :=
  match process.signal, event with
  | .waiting, .received => some { process with signal := .clearing }
  | .waiting, .noticed =>
      if process.stopRequested then some { process with signal := .finished } else none
  | .clearing, .step => some { process with running := false, signal := .stopping .flag }
  | .stopping stage, .step =>
      match process.stop stage with
      | (process, some stage) => some { process with signal := .stopping stage }
      | (process, none) => some { process with signal := .finished }
  | _, _ => none

def step (process : ServerProcess) : ProcessAction → Option ServerProcess
  | .main result => process.mainStep result
  | .signal event => process.signalStep event
  | .arrive resource count =>
      let socket := process.sockets resource
      if socket.shut then none
      else some (process.setSocket resource { socket with ready := socket.ready + count })
  | .drain resource count =>
      let socket := process.sockets resource
      some (process.setSocket resource { socket with room := socket.room + count })
  | .peerEnds resource =>
      some (process.setSocket resource { process.sockets resource with ended := true })

/-- After the constructors: the server listens, and the signal thread is started. -/
def initial (fd : Nat) : ServerProcess where
  server := { listenFd := some fd }
  descriptors := ({} : Descriptors Resource).openAt fd .listener

end ServerProcess
end LogBridge
