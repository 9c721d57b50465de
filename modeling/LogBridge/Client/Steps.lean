import LogBridge.Client.Model
import LogBridge.ClientState.Persistence
import LogBridge.WriteAheadLog.Refinement

/-! What each action of the client can do. Later proofs about runs rest on these
lemmas and do not unfold the actions again. -/
namespace LogBridge

open Checked Protocol Storage WriteAheadLog

/-- The message between its allocation and its append. -/
def Producer.unlogged : Producer → Option LogMessage
  | .appending _ message _ _ => some message
  | _ => none

/-- The reader, while the producer has one. -/
def Producer.reader : Producer → Option FileTailReader
  | .polling reader => some reader
  | .collecting reader _ _ => some reader
  | .appending reader _ _ _ => some reader
  | .enqueuing reader _ => some reader
  | .opening | .closing | .finished => none

/-- The lines of the running round that are not logged yet. -/
def Producer.remaining : Producer → List Bytes
  | .collecting _ lines _ => lines
  | .appending _ message lines _ => message.content :: lines
  | _ => []

namespace Session

variable {config : ClientConfig} {log : FileSystem} {action : ThreadAction}
  {session next : Session} {disconnects : Bool}

/-- A thread action leaves the two stores alone and allocates nothing. -/
theorem threadStep_keeps (h : session.threadStep config log action = some (next, disconnects)) :
    next.wal = session.wal ∧ next.state = session.state ∧
      ∀ message ∈ next.producer.unlogged, message ∈ session.producer.unlogged := by
  revert h
  fun_cases Session.threadStep <;> intro h <;> cases h <;>
    simp_all [producerFails, Producer.unlogged]

/-- What a thread action can do to the producer. -/
inductive ProducerMove (config : ClientConfig) (log : FileSystem) (session : Session)
    (action : ThreadAction) : Producer → Producer → Prop
  | stays (producer : Producer) : ProducerMove config log session action producer producer
  | opens {reader : FileTailReader} {outcome : OpenOutcome}
      (hOpen : FileTailReader.construct config.logPath log session.state.fileOffset
        session.state.fileDeviceId session.state.fileInode outcome = .ok reader) :
      ProducerMove config log session action .opening (.polling reader)
  | openFails : ProducerMove config log session action .opening .closing
  | reads {reader next : FileTailReader} {outcome : PollOutcome} {lines : List Bytes}
      (hAction : action = .poll outcome) (hRunning : ¬session.running = false)
      (hRead : reader.readNewLines log outcome = (.ok lines, next)) :
      ProducerMove config log session action (.polling reader) (.collecting next lines [])
  | leavesLoop {reader : FileTailReader} :
      ProducerMove config log session action (.polling reader) .closing
  | nextRound {reader : FileTailReader} :
      ProducerMove config log session action (.enqueuing reader []) (.polling reader)
  | pushes {reader : FileTailReader} {message : LogMessage} {rest : List LogMessage} :
      ProducerMove config log session action (.enqueuing reader (message :: rest))
        (.enqueuing reader rest)
  | givesUp {reader : FileTailReader} {messages : List LogMessage} :
      ProducerMove config log session action (.enqueuing reader messages) .finished
  | ends : ProducerMove config log session action .closing .finished

theorem threadStep_producer (h : session.threadStep config log action = some (next, disconnects)) :
    ProducerMove config log session action session.producer next.producer := by
  revert h
  fun_cases Session.threadStep <;> intro h <;> cases h <;> first
    | exact .stays _
    | simp only [producerFails, *]; constructor <;> first | assumption | rfl

end Session
namespace Client

variable {client next : Client} {session : Session}

theorem extendLog_cases {log longer : FileSystem} {fileId : FileId} {bytes : Bytes}
    (hPath : log.path = some fileId) (h : extendLog log bytes = some longer) :
    longer.path = some fileId ∧
      (longer.content fileId).bytes = (log.content fileId).bytes ++ bytes := by
  unfold extendLog at h
  rw [hPath] at h
  dsimp only at h
  split_ifs at h with hSize
  cases h
  exact ⟨rfl, by simp⟩

/-- The message of a line. -/
def messageOf (state : ClientState) (reader : FileTailReader) (timestampMs : Int64) (line : Bytes) :
    LogMessage :=
  { id := state.nextId, clientId := state.clientId, timestampMs, source := reader.path, content := line }

theorem allocate_cases {timestampMs : Int64} {outcome : SaveOutcome}
    (h : client.allocate session timestampMs outcome = some next) :
    ∃ reader line lines messages, session.producer = .collecting reader (line :: lines) messages ∧
      ((∃ stateFile, next = { client with stateFile, session := some session.producerFails } ∧
          (session.state.nextId = ClientState.maxId ∨ outcome ≠ .saved) ∧
          (stateFile = client.stateFile ∨ session.state.nextId ≠ ClientState.maxId ∧
            stateFile = some session.state.advanced.stateText)) ∨
        session.state.nextId ≠ ClientState.maxId ∧
          next = { client with
            stateFile := some session.state.advanced.stateText
            session := some { session with
              state := session.state.advanced
              producer := .appending reader (messageOf session.state reader timestampMs line)
                lines messages } }) := by
  revert h
  have hCases := session.state.nextMessageId_cases client.stateFile outcome
  fun_cases Client.allocate with
  | case1 reader line lines messages hProducer error state stateFile hNext =>
      intro h
      cases h
      refine ⟨reader, line, lines, messages, hProducer, Or.inl ?_⟩
      rcases hCases with ⟨hWhy, _, hEnd⟩ | ⟨hFull, hWhy, _, hEnd⟩ | ⟨_, hEnd⟩
      · cases hNext.symm.trans hEnd
        exact ⟨_, rfl, hWhy, Or.inl rfl⟩
      · cases hNext.symm.trans hEnd
        exact ⟨_, rfl, Or.inr hWhy, Or.inr ⟨hFull, rfl⟩⟩
      · cases hNext.symm.trans hEnd
  | case2 reader line lines messages hProducer id state stateFile hNext message =>
      intro h
      cases h
      refine ⟨reader, line, lines, messages, hProducer, Or.inr ?_⟩
      rcases hCases with ⟨_, _, hEnd⟩ | ⟨_, _, _, hEnd⟩ | ⟨hFull, hEnd⟩
      · cases hNext.symm.trans hEnd
      · cases hNext.symm.trans hEnd
      · cases hNext.symm.trans hEnd
        exact ⟨hFull, rfl⟩
  | case3 => nofun

/-- The message is appended whole, or the encoder rejects it. -/
theorem append_cases (h : client.append session = some next) :
    ∃ reader message lines messages,
      session.producer = .appending reader message lines messages ∧
      (¬WithinLimits message ∧ next = { client with session := some session.producerFails } ∨
        WithinLimits message ∧ next = { client with
          walFile := some (readFile client.walFile ++ walFrame message)
          history := client.history ++ [message]
          session := some { session with
            wal := { pending := session.wal.pending ++ [message] }
            producer := .collecting reader lines (messages ++ [message]) } }) := by
  revert h
  fun_cases Client.append with
  | case1 reader message lines messages hProducer error wal walFile hAppend =>
      intro h
      cases h
      refine ⟨reader, message, lines, messages, hProducer, Or.inl ?_⟩
      have hRejected : ¬WithinLimits message := by
        intro hLimits
        cases hAppend.symm.trans (append_done _ _ hLimits)
      rw [WriteAheadLog.append] at hAppend
      cases hFrame : serializeLogMessage message with
      | error encodeError =>
          rw [hFrame] at hAppend
          cases hAppend
          exact ⟨hRejected, rfl⟩
      | ok frame => exact absurd (serializeLogMessage_eq_ok_iff.mp hFrame).1 hRejected
  | case2 reader message lines messages hProducer wal walFile hAppend =>
      intro h
      cases h
      refine ⟨reader, message, lines, messages, hProducer, Or.inr ?_⟩
      have hLimits : WithinLimits message := by
        by_contra hRejected
        rw [WriteAheadLog.append] at hAppend
        cases hFrame : serializeLogMessage message with
        | error encodeError =>
            rw [hFrame] at hAppend
            cases hAppend
        | ok frame => exact hRejected (serializeLogMessage_eq_ok_iff.mp hFrame).1
      cases hAppend.symm.trans (append_done _ _ hLimits)
      exact ⟨hLimits, rfl⟩
  | case3 =>
      intro h
      cases h

/-! The steps of a round, forwards. -/

section Forward
variable {config : ClientConfig} {reader : FileTailReader} {line : Bytes} {lines : List Bytes}
  {message : LogMessage} {messages : List LogMessage}

theorem step_allocate {timestampMs : Int64}
    (hSession : client.session = some session)
    (hProducer : session.producer = .collecting reader (line :: lines) messages)
    (hFull : session.state.nextId ≠ ClientState.maxId) :
    Client.step config client (.allocate timestampMs .saved) = some { client with
      stateFile := some session.state.advanced.stateText
      session := some { session with
        state := session.state.advanced
        producer := .appending reader (messageOf session.state reader timestampMs line)
          lines messages } } := by
  have hNext : session.state.nextMessageId client.stateFile .saved =
      (.ok session.state.nextId, session.state.advanced, some session.state.advanced.stateText) := by
    rw [ClientState.nextMessageId, if_neg hFull]
    rfl
  rw [Client.step, hSession]
  change client.allocate session timestampMs .saved = _
  rw [allocate, hProducer]
  dsimp only
  rw [hNext]
  rfl

theorem step_append_taken
    (hSession : client.session = some session)
    (hProducer : session.producer = .appending reader message lines messages)
    (hLimits : WithinLimits message) :
    Client.step config client .append = some { client with
      walFile := some (readFile client.walFile ++ WriteAheadLog.walFrame message)
      history := client.history ++ [message]
      session := some { session with
        wal := { pending := session.wal.pending ++ [message] }
        producer := .collecting reader lines (messages ++ [message]) } } := by
  rw [Client.step, hSession]
  change client.append session = _
  rw [append, hProducer]
  dsimp only
  rw [WriteAheadLog.append_done _ _ hLimits]

theorem step_append_rejected
    (hSession : client.session = some session)
    (hProducer : session.producer = .appending reader message lines messages)
    (hRejected : ¬WithinLimits message) :
    Client.step config client .append = some { client with session := some session.producerFails } := by
  have hAppend : ∃ error, session.wal.append client.walFile message .done =
      (.error error, session.wal, client.walFile) := by
    rw [WriteAheadLog.append]
    cases hFrame : serializeLogMessage message with
    | error error => exact ⟨error, rfl⟩
    | ok frame => exact absurd (serializeLogMessage_eq_ok_iff.mp hFrame).1 hRejected
  obtain ⟨error, hAppend⟩ := hAppend
  rw [Client.step, hSession]
  change client.append session = _
  rw [append, hProducer]
  dsimp only
  rw [hAppend]
  rfl

end Forward

theorem frameStored_eq {message : LogMessage} (hLimits : WithinLimits message)
    (outcome : AppendOutcome) :
    frameStored message outcome = WriteAheadLog.frameStored message outcome := by
  cases outcome with
  | done => rfl
  | notOpened error => rfl
  | failed written error =>
      rw [frameStored, serializeLogMessage_walFrame hLimits]
      rfl

/-- A crash inside an append leaves the message logged, or an incomplete frame. -/
theorem crashInAppend_cases {outcome : AppendOutcome}
    (h : client.crashInAppend session outcome = some next) :
    ∃ message ∈ session.producer.unlogged, WithinLimits message ∧ ∃ walFile tail,
      readFile walFile = readFile client.walFile ++ tail ∧
      (tail = walFrame message ∧
          next = { client.stopped with walFile, history := client.history ++ [message] } ∨
        Torn tail ∧ next = { client.stopped with walFile }) := by
  revert h
  fun_cases Client.crashInAppend with
  | case1 => nofun
  | case2 reader message lines messages hProducer hEncoded walFile history =>
      intro h
      cases h
      have hLimits : WithinLimits message := by
        cases hFrame : serializeLogMessage message with
        | error encodeError =>
            rw [hFrame] at hEncoded
            exact absurd rfl hEncoded
        | ok frame => exact (serializeLogMessage_eq_ok_iff.mp hFrame).1
      obtain ⟨tail, hFile, hTail⟩ := append_file session.wal client.walFile hLimits outcome
      have hHistory : history = if WriteAheadLog.frameStored message outcome then
          client.history ++ [message] else client.history := by
        rw [← frameStored_eq hLimits]
      refine ⟨message, by rw [hProducer]; rfl, hLimits, walFile, tail, hFile, ?_⟩
      by_cases hStored : WriteAheadLog.frameStored message outcome = true
      · rw [if_pos hStored] at hTail hHistory
        rw [hHistory]
        exact Or.inl ⟨hTail, rfl⟩
      · rw [if_neg hStored] at hTail hHistory
        rw [hHistory]
        exact Or.inr ⟨hTail, rfl⟩
  | case3 => nofun

theorem checkpoint_cases {outcome : SaveOutcome}
    (h : client.checkpoint session outcome = some next) :
    ∃ reader messages updated, session.producer = .collecting reader [] messages ∧
      updated = session.state.withCheckpoint reader.committedOffset reader.deviceId reader.inode ∧
      ∃ stateFile,
        (outcome ≠ .saved ∧
            next = { client with stateFile, session := some session.producerFails } ∧
            (stateFile = client.stateFile ∨ stateFile = some updated.stateText) ∨
          next = { client with
              stateFile
              session := some { session with
                state := updated, producer := .enqueuing reader messages } } ∧
            (stateFile = client.stateFile ∧ updated = session.state ∨
              stateFile = some updated.stateText)) := by
  revert h
  fun_cases Client.checkpoint with
  | case1 reader messages hProducer error state stateFile hUpdate =>
      intro h
      cases h
      refine ⟨reader, messages, _, hProducer, rfl, stateFile, Or.inl ?_⟩
      rcases session.state.updateFileCheckpoint_cases client.stateFile reader.committedOffset
        reader.deviceId reader.inode outcome with ⟨hWhy, _, _, hEnd, hFile⟩ | ⟨_, hEnd, _⟩
      · cases hUpdate.symm.trans hEnd
        exact ⟨hWhy, rfl, hFile⟩
      · cases hUpdate.symm.trans hEnd
  | case2 reader messages hProducer state stateFile hUpdate =>
      intro h
      cases h
      refine ⟨reader, messages, _, hProducer, rfl, stateFile, Or.inr ?_⟩
      rcases session.state.updateFileCheckpoint_cases client.stateFile reader.committedOffset
        reader.deviceId reader.inode outcome with ⟨_, _, _, hEnd, _⟩ | ⟨_, hEnd, hFile⟩
      · cases hUpdate.symm.trans hEnd
      · cases hUpdate.symm.trans hEnd
        exact ⟨rfl, hFile⟩
  | case3 => nofun

section Confirm
variable (hWithin : ∀ message ∈ session.wal.pending, WithinLimits message)
  (hFile : readFile client.walFile = walBytes session.wal.pending)
include hWithin hFile

/-- A reply that does not confirm the batch closes the connection; one that does
compacts the log and moves on to the next batch. -/
theorem reply_cases {frame : Bytes} (h : client.reply session frame = some next) :
    ∃ messages, session.consumer = .awaiting messages ∧
      (confirmedBy messages frame = none ∧ next = { client with
          connection := client.connection + 1
          session := some { session with consumer := .delivering messages } } ∨
        ∃ confirmedId walFile, confirmedBy messages frame = some confirmedId ∧
          readFile walFile = walBytes (keptAfter confirmedId session.wal.pending) ∧
          next = { client with
            walFile
            session := some { session with
              wal := { pending := keptAfter confirmedId session.wal.pending }
              consumer := .delivering (messages.drop sendBatchSize) } }) := by
  revert h
  fun_cases Client.reply with
  | case1 messages hConsumer hConfirmed =>
      intro h
      cases h
      exact ⟨messages, hConsumer, Or.inl ⟨hConfirmed, rfl⟩⟩
  | case2 messages hConsumer confirmedId hConfirmed error wal walFile hConfirm =>
      obtain ⟨file, hEnd, _⟩ := confirm_saved hWithin hFile confirmedId
      cases hConfirm.symm.trans hEnd
  | case3 messages hConsumer confirmedId hConfirmed wal walFile hConfirm =>
      intro h
      cases h
      obtain ⟨file, hEnd, hNew⟩ := confirm_saved hWithin hFile confirmedId
      cases hConfirm.symm.trans hEnd
      exact ⟨messages, hConsumer, Or.inr ⟨confirmedId, _, hConfirmed, hNew, rfl⟩⟩
  | case4 => nofun

/-- A crash inside the compaction leaves the old or the compacted file. -/
theorem crashInReply_cases {frame : Bytes} {outcome : SaveOutcome}
    (h : client.crashInReply session frame outcome = some next) :
    ∃ messages confirmedId walFile, session.consumer = .awaiting messages ∧
      confirmedBy messages frame = some confirmedId ∧
      next = { client.stopped with walFile } ∧
      (readFile walFile = walBytes session.wal.pending ∨
        readFile walFile = walBytes (keptAfter confirmedId session.wal.pending)) := by
  revert h
  fun_cases Client.crashInReply with
  | case1 => nofun
  | case2 messages hConsumer confirmedId hConfirmed walFile =>
      intro h
      cases h
      have hNew := confirm_file hWithin hFile confirmedId outcome
      refine ⟨messages, confirmedId, walFile, hConsumer, hConfirmed, rfl, ?_⟩
      by_cases hRenamed : renamed outcome = true
      · rw [if_pos hRenamed] at hNew
        exact Or.inr hNew
      · rw [if_neg hRenamed] at hNew
        exact Or.inl hNew
  | case3 => nofun

end Confirm

/-! One step. -/

/-- What the actions do: who may act, and what changes. -/
inductive Acts (config : ClientConfig) (client : Client) : ClientAction → Client → Prop
  | appendLog {bytes : Bytes} {log : FileSystem} (hLog : extendLog client.log bytes = some log) :
      Acts config client (.appendLog bytes) { client with log }
  | changeLog {log : FileSystem} : Acts config client (.changeLog log) { client with log }
  | deleteState (hDown : client.session = none) :
      Acts config client .deleteState { client with stateFile := none }
  | start {generated : Bytes} {walOutcome stateOutcome : SaveOutcome} {next : Client}
      (hDown : client.session = none)
      (hStart : client.start config generated walOutcome stateOutcome = some next) :
      Acts config client (.start generated walOutcome stateOutcome) next
  | thread {action : ThreadAction} {session moved : Session} {disconnects : Bool}
      (hSession : client.session = some session)
      (hMoved : session.threadStep config client.log action = some (moved, disconnects)) :
      Acts config client (.thread action) { client with
        session := some moved
        connection := if disconnects then client.connection + 1 else client.connection }
  | allocate {timestampMs : Int64} {outcome : SaveOutcome} {session : Session} {next : Client}
      (hSession : client.session = some session)
      (hNext : client.allocate session timestampMs outcome = some next) :
      Acts config client (.allocate timestampMs outcome) next
  | append {session : Session} {next : Client} (hSession : client.session = some session)
      (hNext : client.append session = some next) : Acts config client .append next
  | checkpoint {outcome : SaveOutcome} {session : Session} {next : Client}
      (hSession : client.session = some session)
      (hNext : client.checkpoint session outcome = some next) :
      Acts config client (.checkpoint outcome) next
  | reply {frame : Bytes} {session : Session} {next : Client}
      (hSession : client.session = some session)
      (hNext : client.reply session frame = some next) : Acts config client (.reply frame) next
  | finish {session : Session} (hSession : client.session = some session)
      (hFinished : session.producer = .finished) : Acts config client .finish client.stopped
  | crash {session : Session} (hSession : client.session = some session) :
      Acts config client .crash client.stopped
  | crashInAppend {outcome : AppendOutcome} {session : Session} {next : Client}
      (hSession : client.session = some session)
      (hNext : client.crashInAppend session outcome = some next) :
      Acts config client (.crashInAppend outcome) next
  | crashInReply {frame : Bytes} {outcome : SaveOutcome} {session : Session} {next : Client}
      (hSession : client.session = some session)
      (hNext : client.crashInReply session frame outcome = some next) :
      Acts config client (.crashInReply frame outcome) next

theorem acts_of_step {config : ClientConfig} {action : ClientAction}
    (h : client.step config action = some next) : Acts config client action next := by
  cases action with
  | appendLog bytes =>
      obtain ⟨log, hLog, rfl⟩ := Option.map_eq_some_iff.mp h
      exact .appendLog hLog
  | changeLog log =>
      cases h
      exact .changeLog
  | deleteState =>
      rw [Client.step] at h
      split_ifs at h with hSome
      cases h
      exact .deleteState (Option.not_isSome_iff_eq_none.mp hSome)
  | start generated walOutcome stateOutcome =>
      rw [Client.step] at h
      split_ifs at h with hSome
      exact .start (Option.not_isSome_iff_eq_none.mp hSome) h
  | thread action =>
      obtain ⟨session, hSession, h⟩ := Option.bind_eq_some_iff.mp h
      obtain ⟨⟨moved, disconnects⟩, hMoved, h⟩ := Option.bind_eq_some_iff.mp h
      cases h
      exact .thread hSession hMoved
  | allocate timestampMs outcome =>
      obtain ⟨session, hSession, h⟩ := Option.bind_eq_some_iff.mp h
      exact .allocate hSession h
  | append =>
      obtain ⟨session, hSession, h⟩ := Option.bind_eq_some_iff.mp h
      exact .append hSession h
  | checkpoint outcome =>
      obtain ⟨session, hSession, h⟩ := Option.bind_eq_some_iff.mp h
      exact .checkpoint hSession h
  | reply frame =>
      obtain ⟨session, hSession, h⟩ := Option.bind_eq_some_iff.mp h
      exact .reply hSession h
  | finish =>
      obtain ⟨session, hSession, h⟩ := Option.bind_eq_some_iff.mp h
      split_ifs at h with hEnded
      cases h
      exact .finish hSession hEnded.1
  | crash =>
      obtain ⟨session, hSession, h⟩ := Option.bind_eq_some_iff.mp h
      cases h
      exact .crash hSession
  | crashInAppend outcome =>
      obtain ⟨session, hSession, h⟩ := Option.bind_eq_some_iff.mp h
      exact .crashInAppend hSession h
  | crashInReply frame outcome =>
      obtain ⟨session, hSession, h⟩ := Option.bind_eq_some_iff.mp h
      exact .crashInReply hSession h

end Client
end LogBridge
