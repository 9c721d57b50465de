import Mathlib.Logic.Function.Basic
import LogBridge.ClientState.Model
import LogBridge.FileTailReader.Model
import LogBridge.WriteAheadLog.Model

/-! The client program. One session opens the write-ahead log and the state and
then runs two threads: the producer reads lines, allocates ids, logs each message
and moves the checkpoint, and the consumer sends the recovered and the new
messages in batches and confirms them. An action is one critical section or one
call that leaves the process; actions of the threads interleave freely, and the
process may stop at any of them. -/
namespace LogBridge

open Checked Protocol Storage

/-- The arguments of the program: the log file and the two files of the data
directory. -/
structure ClientConfig where
  logPath : Bytes
  walPath : Bytes
  statePath : Bytes

def sendBatchSize : Nat := 10
def queueCapacity : Nat := 100

/-- Where the producer thread stands. -/
inductive Producer where
  /-- Before the reader is constructed. -/
  | opening
  /-- At the head of the loop. -/
  | polling (reader : FileTailReader)
  /-- In the loop over the lines: the lines to come and the messages logged so far. -/
  | collecting (reader : FileTailReader) (lines : List Bytes) (messages : List LogMessage)
  /-- Before the message is appended to the write-ahead log. -/
  | appending (reader : FileTailReader) (message : LogMessage) (lines : List Bytes)
      (messages : List LogMessage)
  /-- After the checkpoint: the messages still to be pushed. -/
  | enqueuing (reader : FileTailReader) (messages : List LogMessage)
  /-- After the loop or the catch branch, before the queue is closed. -/
  | closing
  | finished
  deriving DecidableEq, Repr

/-- Where the consumer thread stands. -/
inductive Consumer where
  /-- At the head of the retry loop: the messages of `sendMessages` not yet confirmed. -/
  | delivering (messages : List LogMessage)
  /-- The first batch of these has been sent. -/
  | awaiting (messages : List LogMessage)
  /-- At the head of the main loop. -/
  | looping
  /-- In `popBatch`, with the elements taken so far. -/
  | batching (batch : List LogMessage)
  | finished
  deriving DecidableEq, Repr

/-- The memory of the running process. -/
structure Session where
  wal : WriteAheadLog
  state : ClientState
  running : Bool := true
  queue : List LogMessage := []
  queueClosed : Bool := false
  producer : Producer := .opening
  consumer : Consumer
  deriving DecidableEq, Repr

/-- How the sending of a batch ends. An exception closes the connection. -/
inductive SendOutcome where
  | sent
  | failed
  deriving DecidableEq, Repr

/-- The actions of the threads that touch neither the data directory nor the log. -/
inductive ThreadAction where
  | openReader (outcome : OpenOutcome)
  | poll (outcome : PollOutcome)
  | push
  | closeQueue
  /-- The main thread after a signal. -/
  | stop
  /-- The main thread after its loop. -/
  | closeFromMain
  | attempt (outcome : SendOutcome)
  | replyFails
  | consume
  | popOne
  | popDone
  deriving DecidableEq, Repr

namespace Session

/-- The catch branch of the producer. -/
def producerFails (session : Session) : Session :=
  { session with running := false, producer := .closing }

/-- The first batch of the messages to deliver. -/
def batch (messages : List LogMessage) : List LogMessage := messages.take sendBatchSize

/-- One action of a thread, and whether the connection is given up. -/
def threadStep (config : ClientConfig) (log : FileSystem) (session : Session) :
    ThreadAction → Option (Session × Bool)
  | .openReader outcome =>
      match session.producer with
      | .opening =>
          match FileTailReader.construct config.logPath log session.state.fileOffset
              session.state.fileDeviceId session.state.fileInode outcome with
          | .error _ => some (session.producerFails, false)
          | .ok reader => some ({ session with producer := .polling reader }, false)
      | _ => none
  | .poll outcome =>
      match session.producer with
      | .polling reader =>
          if session.running = false then some ({ session with producer := .closing }, false)
          else
            match reader.readNewLines log outcome with
            | (.error _, _) => some (session.producerFails, false)
            | (.ok lines, reader) =>
                some ({ session with producer := .collecting reader lines [] }, false)
      | _ => none
  | .push =>
      match session.producer with
      | .enqueuing reader [] => some ({ session with producer := .polling reader }, false)
      | .enqueuing reader (message :: rest) =>
          if session.queueClosed then some ({ session with producer := .finished }, false)
          else if session.queue.length < queueCapacity then
            some ({ session with
              queue := session.queue ++ [message]
              producer := .enqueuing reader rest }, false)
          else none
      | _ => none
  | .closeQueue =>
      match session.producer with
      | .closing => some ({ session with queueClosed := true, producer := .finished }, false)
      | _ => none
  | .stop => some ({ session with running := false }, false)
  | .closeFromMain =>
      if session.running then none else some ({ session with queueClosed := true }, false)
  | .attempt outcome =>
      match session.consumer with
      | .delivering messages =>
          if messages = [] then some ({ session with consumer := .looping }, false)
          else if session.running = false then
            some ({ session with consumer := .finished, queueClosed := true }, false)
          else
            match outcome, serializeLogBatch (batch messages) with
            | .sent, .ok _ => some ({ session with consumer := .awaiting messages }, false)
            | _, _ => some (session, true)
      | _ => none
  | .replyFails =>
      match session.consumer with
      | .awaiting messages => some ({ session with consumer := .delivering messages }, true)
      | _ => none
  | .consume =>
      match session.consumer with
      | .looping =>
          some ({ session with
            consumer := if session.running then .batching [] else .finished }, false)
      | _ => none
  | .popOne =>
      match session.consumer, session.queue with
      | .batching batch, message :: rest =>
          if batch.length < sendBatchSize then
            some ({ session with queue := rest, consumer := .batching (batch ++ [message]) }, false)
          else none
      | _, _ => none
  | .popDone =>
      match session.consumer with
      | .batching [] =>
          if session.queueClosed ∧ session.queue = [] then
            some ({ session with consumer := .finished }, false)
          else none
      | .batching (first :: rest) =>
          if (first :: rest).length = sendBatchSize ∨ session.queue = [] then
            some ({ session with consumer := .delivering (first :: rest) }, false)
          else none
      | _ => none

/-- The frame that the consumer sends when its attempt succeeds. -/
def outgoing (session : Session) : Option Bytes :=
  match session.consumer with
  | .delivering messages =>
      if session.running then (serializeLogBatch (batch messages)).toOption else none
  | _ => none

end Session

/-- The data directory, the log file, the running process and the history: the
messages whose frames were completely written to the write-ahead log, and the
generated client ids. Connections are numbered. -/
structure Client where
  walFile : Option Bytes := none
  stateFile : Option Bytes := none
  log : FileSystem
  session : Option Session := none
  connection : Nat := 0
  history : List LogMessage := []
  generatedIds : List Bytes := []

inductive ClientAction where
  /-- The writer of the log file appends to the file at the path. -/
  | appendLog (bytes : Bytes)
  /-- Any other change: rotation, truncation, removal. -/
  | changeLog (fileSystem : FileSystem)
  | deleteState
  | start (generated : Bytes) (walOutcome stateOutcome : SaveOutcome)
  | thread (action : ThreadAction)
  | allocate (timestampMs : Int64) (outcome : SaveOutcome)
  | append
  | checkpoint (outcome : SaveOutcome)
  /-- A frame that arrives as the reply to the batch that was sent. -/
  | reply (frame : Bytes)
  /-- Both threads have ended and `main` returns. -/
  | finish
  | crash
  | crashInAppend (outcome : AppendOutcome)
  | crashInReply (frame : Bytes) (outcome : SaveOutcome)

namespace Client

/-- The process is gone, and its connection with it. -/
def stopped (client : Client) : Client :=
  { client with session := none, connection := client.connection + 1 }

/-- The file at the path, longer by `bytes`, unless it would become too large. -/
def extendLog (log : FileSystem) (bytes : Bytes) : Option FileSystem :=
  match log.path with
  | none => none
  | some fileId =>
      if hSize : ((log.content fileId).bytes ++ bytes).length < 2 ^ 63 then
        some { log with
          content := Function.update log.content fileId ⟨(log.content fileId).bytes ++ bytes, hSize⟩ }
      else none

/-- Whether `generateClientId` is called: neither a state file nor a recovered
message names the client. -/
def generates (client : Client) (recovered : List LogMessage) : Bool :=
  client.stateFile.isNone && recovered.isEmpty

/-- The start of `main`. Without a log file nothing is opened. A call that fails
ends the process; a crash inside the start is one of these ends. A generated id
is a new one. -/
def start (config : ClientConfig) (client : Client) (generated : Bytes)
    (walOutcome stateOutcome : SaveOutcome) : Option Client :=
  if client.log.path = none then some client
  else
    match WriteAheadLog.construct config.walPath client.walFile walOutcome with
    | (.error _, walFile) => some { client with walFile }
    | (.ok wal, walFile) =>
        let recovered := wal.pending
        if client.generates recovered ∧ (¬IsGenerated generated ∨ generated ∈ client.generatedIds) then
          none
        else
          let generatedIds :=
            if client.generates recovered then client.generatedIds ++ [generated]
            else client.generatedIds
          match ClientState.construct config.statePath config.logPath client.stateFile recovered
              generated stateOutcome with
          | (.error _, stateFile) => some { client with walFile, stateFile, generatedIds }
          | (.ok state, stateFile) =>
              some { client with
                walFile, stateFile, generatedIds
                session := some { wal, state, consumer := .delivering recovered } }

/-- The message of the next line: its id is allocated before the other fields
are read. -/
def allocate (client : Client) (session : Session) (timestampMs : Int64) (outcome : SaveOutcome) :
    Option Client :=
  match session.producer with
  | .collecting reader (line :: lines) messages =>
      match session.state.nextMessageId client.stateFile outcome with
      | (.error _, state, stateFile) =>
          some { client with
            stateFile, session := some { session with state }.producerFails }
      | (.ok id, state, stateFile) =>
          let message : LogMessage :=
            { id, clientId := state.clientId, timestampMs, source := reader.path, content := line }
          some { client with
            stateFile
            session := some { session with
              state, producer := .appending reader message lines messages } }
  | _ => none

def append (client : Client) (session : Session) : Option Client :=
  match session.producer with
  | .appending reader message lines messages =>
      match session.wal.append client.walFile message .done with
      | (.error _, wal, walFile) =>
          some { client with walFile, session := some { session with wal }.producerFails }
      | (.ok (), wal, walFile) =>
          some { client with
            walFile
            history := client.history ++ [message]
            session := some { session with
              wal, producer := .collecting reader lines (messages ++ [message]) } }
  | _ => none

/-- The whole frame of the message is in the file, although the call did not return. -/
def frameStored (message : LogMessage) : AppendOutcome → Bool
  | .done => true
  | .notOpened _ => false
  | .failed written _ =>
      match serializeLogMessage message with
      | .error _ => false
      | .ok frame => frame.length ≤ written

def crashInAppend (client : Client) (session : Session) (outcome : AppendOutcome) : Option Client :=
  match session.producer with
  | .appending _ message _ _ =>
      if (serializeLogMessage message).toOption = none then none
      else
        let walFile := (session.wal.append client.walFile message outcome).2.2
        let history :=
          if frameStored message outcome then client.history ++ [message] else client.history
        some { client.stopped with walFile, history }
  | _ => none

def checkpoint (client : Client) (session : Session) (outcome : SaveOutcome) : Option Client :=
  match session.producer with
  | .collecting reader [] messages =>
      match session.state.updateFileCheckpoint client.stateFile reader.committedOffset
          reader.deviceId reader.inode outcome with
      | (.error _, state, stateFile) =>
          some { client with
            stateFile, session := some { session with state }.producerFails }
      | (.ok (), state, stateFile) =>
          some { client with
            stateFile
            session := some { session with state, producer := .enqueuing reader messages } }
  | _ => none

/-- The check of `sendLogBatchAndWaitAck`: the reply confirms exactly the last
message of the batch. -/
def confirmedBy (messages : List LogMessage) (frame : Bytes) : Option UInt64 :=
  match deserializeAck frame, (Session.batch messages).getLast? with
  | .ok ack, some last => if ack.confirmedId = last.id then some ack.confirmedId else none
  | _, _ => none

/-- A reply that does not confirm the batch closes the connection, and the batch
is sent again. -/
def reply (client : Client) (session : Session) (frame : Bytes) : Option Client :=
  match session.consumer with
  | .awaiting messages =>
      match confirmedBy messages frame with
      | none =>
          some { client with
            connection := client.connection + 1
            session := some { session with consumer := .delivering messages } }
      | some confirmedId =>
          match session.wal.confirm client.walFile confirmedId .saved with
          | (.error _, wal, walFile) =>
              some { client with
                walFile
                connection := client.connection + 1
                session := some { session with wal, consumer := .delivering messages } }
          | (.ok (), wal, walFile) =>
              some { client with
                walFile
                session := some { session with
                  wal, consumer := .delivering (messages.drop sendBatchSize) } }
  | _ => none

def crashInReply (client : Client) (session : Session) (frame : Bytes) (outcome : SaveOutcome) :
    Option Client :=
  match session.consumer with
  | .awaiting messages =>
      match confirmedBy messages frame with
      | none => none
      | some confirmedId =>
          let walFile := (session.wal.confirm client.walFile confirmedId outcome).2.2
          some { client.stopped with walFile }
  | _ => none

def step (config : ClientConfig) (client : Client) : ClientAction → Option Client
  | .appendLog bytes => (extendLog client.log bytes).map fun log => { client with log }
  | .changeLog log => some { client with log }
  | .deleteState => if client.session.isSome then none else some { client with stateFile := none }
  | .start generated walOutcome stateOutcome =>
      if client.session.isSome then none
      else client.start config generated walOutcome stateOutcome
  | .thread action => do
      let session ← client.session
      let (session, disconnects) ← session.threadStep config client.log action
      return { client with
        session := some session
        connection := if disconnects then client.connection + 1 else client.connection }
  | .allocate timestampMs outcome => do client.allocate (← client.session) timestampMs outcome
  | .append => do client.append (← client.session)
  | .checkpoint outcome => do client.checkpoint (← client.session) outcome
  | .reply frame => do client.reply (← client.session) frame
  | .finish => do
      let session ← client.session
      if session.producer = .finished ∧ session.consumer = .finished ∧ session.running = false then
        return client.stopped
      else none
  | .crash => do
      let _ ← client.session
      return client.stopped
  | .crashInAppend outcome => do client.crashInAppend (← client.session) outcome
  | .crashInReply frame outcome => do client.crashInReply (← client.session) frame outcome

end Client
end LogBridge
