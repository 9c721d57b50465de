import LogBridge.Client.Model
import LogBridge.Library.Descriptors
import LogBridge.Library.Scripted

/-! The consumer thread down to its sockets. A connection is made when a batch is to
be sent and none is open, and given up when anything fails; then the same batch is
tried again after a delay that doubles up to a bound. A reply of the environment
says what the next call returns. -/
namespace LogBridge

open Scripted Protocol Storage

/-- The counters of the consumer. -/
structure ClientMetrics where
  confirmedMessages : UInt64 := 0
  confirmedBatches : UInt64 := 0
  retries : UInt64 := 0
  deriving DecidableEq, Repr

def ackTimeout : Int := 3000
def initialRetryDelay : Nat := 500
def maxRetryDelay : Nat := 8000

namespace TcpClient

/-- What a call returns: each call reads the part it is about. -/
structure Reply where
  /-- The number that the call returns; without one it has failed. -/
  value : Option Nat := none
  interrupted : Bool := false
  /-- The end of `sendAll`. -/
  sent : Except Exception Unit := .ok ()
  /-- The end of `receiveFrame`. -/
  received : Except Exception (Option Bytes) := .ok none
  /-- What `running.load()` returns. -/
  running : Bool := true
  /-- The end of the compaction of the write-ahead log. -/
  save : SaveOutcome := .saved

/-- The sockets of the process, the connection that is kept between batches, the
write-ahead log and the delays that were announced, in milliseconds. -/
structure Delivery where
  descriptors : Descriptors Nat := {}
  client : Option Nat := none
  wal : WriteAheadLog := {}
  walFile : Option Bytes := none
  metrics : ClientMetrics := {}
  delays : List Nat := []

abbrev Sending := Program Delivery Reply Exception

/-! The calls. -/

/-- A number in use is never given out. -/
def socket : Sending (Option Nat) :=
  call fun world reply =>
    match reply.value with
    | none => (none, world)
    | some fd =>
        if world.descriptors.table fd = none then
          (some fd, { world with
            descriptors := world.descriptors.openAt fd world.descriptors.opened.length })
        else (none, world)

def close (fd : Nat) : Sending Unit :=
  call fun world _ => ((), { world with descriptors := world.descriptors.close fd })

/-- The call is repeated while it is interrupted. -/
def connect : Sending Bool :=
  loop id (fun _ world reply =>
    (.ok (if reply.interrupted then none else some reply.value.isSome), world)) none

def getaddrinfo : Sending (Option Nat) := call fun world reply => (reply.value, world)

def setsockopt : Sending Bool := call fun world reply => (reply.value.isSome, world)

def isRunning : Sending Bool := call fun world reply => (reply.running, world)

/-- Whether the program goes on after the delay. -/
def waitForRetry : Sending Bool := isRunning

/-- A call that returns or throws. -/
def checked {α : Type} (effect : Delivery → Reply → Except Exception α × Delivery) : Sending α := do
  match ← call effect with
  | .ok value => pure value
  | .error error => throwing error

def sendAll : Sending Unit := checked fun world reply => (reply.sent, world)

def receiveFrame : Sending (Option Bytes) := checked fun world reply => (reply.received, world)

def confirm (confirmedId : UInt64) : Sending Unit :=
  checked fun world reply =>
    let (result, wal, walFile) := world.wal.confirm world.walFile confirmedId reply.save
    (result, { world with wal, walFile })

/-! The functions of the source. -/

def configureTimeout (timeout : Int) : Sending Unit :=
  if timeout ≤ 0 then throwing (.invalidArgument "socket timeout must be positive")
  else do
    if ← setsockopt then
      require setsockopt (.systemError "cannot configure socket timeout")
    else
      throwing (.systemError "cannot configure socket timeout")

/-- The loop over the addresses that were found. -/
def connectAddresses : Nat → Sending (Option Nat)
  | 0 => pure none
  | addresses + 1 => do
      match ← socket with
      | none => connectAddresses addresses
      | some fd =>
          if ← connect then
            pure (some fd)
          else
            close fd
            connectAddresses addresses

def connectToServer : Sending Nat := do
  match ← getaddrinfo with
  | none => throwing (.runtimeError "cannot resolve server address: ")
  | some addresses =>
      match ← connectAddresses addresses with
      | none => throwing (.systemError "cannot connect to server")
      | some fd => pure fd

/-- The constructor of `TcpClient`, called by `emplace`. -/
def construct : Sending Unit := do
  let fd ← connectToServer
  onThrow (configureTimeout ackTimeout) (close fd)
  modifying fun world => { world with client := some fd }

/-- The destructor of `TcpClient`, called by `reset` and at the end of the thread. -/
def reset : Sending Unit :=
  reading fun world =>
    match world.client with
    | none => pure ()
    | some fd => do
        close fd
        modifying fun world => { world with client := none }

def receiveAck : Sending UInt64 := do
  match ← receiveFrame with
  | none => throwing (.runtimeError "server closed the connection before sending ack")
  | some frame =>
      match deserializeAck frame with
      | .error error => throwing error
      | .ok ack => pure ack.confirmedId

def sendLogBatchAndWaitAck (messages : List LogMessage) : Sending UInt64 := do
  match serializeLogBatch messages, messages.getLast? with
  | .ok _, some last =>
      sendAll
      let confirmedId ← receiveAck
      if confirmedId ≠ last.id then
        throwing (.runtimeError ("ack id mismatch: expected " ++ toString last.id ++
          ", received " ++ toString confirmedId))
      else
        pure confirmedId
  | .ok _, none => throwing .outOfBounds
  | .error error, _ => throwing error

/-- The body of the `try` block. -/
def deliver (batch : List LogMessage) : Sending Unit := do
  reading fun world => if world.client = none then construct else pure ()
  let confirmedId ← sendLogBatchAndWaitAck batch
  confirm confirmedId
  modifying fun world => { world with
    metrics := { world.metrics with
      confirmedMessages := world.metrics.confirmedMessages + UInt64.ofNat batch.length
      confirmedBatches := world.metrics.confirmedBatches + 1 } }

/-- The `catch` block. -/
def handleFailure (retryDelay : Nat) : Sending (Nat ⊕ Bool) := do
  reset
  modifying fun world => { world with
    metrics := { world.metrics with retries := world.metrics.retries + 1 }
    delays := world.delays ++ [retryDelay] }
  if ← waitForRetry then
    pure (.inl (min (retryDelay * 2) maxRetryDelay))
  else
    pure (.inr false)

def deliverWithRetry (batch : List LogMessage) : Sending Bool :=
  repeating (fun retryDelay => do
    if ← isRunning then
      catching (do
        deliver batch
        pure (.inr true)) fun _ => handleFailure retryDelay
    else
      pure (.inr false)) initialRetryDelay

/-- The messages go out in batches, until one is not delivered. -/
def sendMessages : List LogMessage → Sending Bool
  | [] => pure true
  | message :: rest => do
      if ← deliverWithRetry ((message :: rest).take sendBatchSize) then
        sendMessages ((message :: rest).drop sendBatchSize)
      else
        pure false
termination_by messages => messages.length
decreasing_by
  rw [List.length_drop, sendBatchSize, List.length_cons]
  omega

/-- The main loop, for the batches that the queue gives out. -/
def sendPopped : List (List LogMessage) → Sending Unit
  | [] => pure ()
  | batch :: rest => do
      if ← isRunning then
        if batch = [] then pure ()
        else if ← sendMessages batch then sendPopped rest
        else pure ()
      else
        pure ()

/-- The consumer thread. Its connection is closed when it ends. -/
def consumer (recovered : List LogMessage) (popped : List (List LogMessage)) : Sending Unit := do
  if ← sendMessages recovered then
    sendPopped popped
  reset

end TcpClient
end LogBridge
