import LogBridge.Client.Pipeline
import LogBridge.WriteAheadLog.Scan

/-! What the consumer sends is always accepted by the encoder. Whatever the data
directory held when the process started, the messages on their way through it were
checked one by one, and ten of them fit in one frame. -/
namespace LogBridge

open Checked Protocol Storage WriteAheadLog

/-- The messages between the write-ahead log and their confirmation. -/
def Session.inFlight (session : Session) : List LogMessage :=
  session.consumer.held.getD [] ++ (session.queue ++ session.producer.unpushed.getD [])

/-- What `serializeLogBatch` asks of the messages that the consumer hands to
`deliverWithRetry`. The size is that of the running payload before each record. -/
structure EncodableBatch (clientId : Bytes) (messages : List LogMessage) : Prop where
  ne_nil : messages ≠ []
  length_le : messages.length ≤ maxBatchMessageCount
  clientId_eq : ∀ message ∈ messages, message.clientId = clientId
  idsIncreasing : IdsIncreasing messages
  within : ∀ message ∈ messages, WithinLimits message
  size_le : ∀ before rest, messages = before ++ rest →
    ∃ size ≤ maxFramePayloadLength, logBatchPayloadSize clientId before 0 batchPrefixSize = .ok size
  encoded : ∃ frame, serializeLogBatch messages = .ok frame ∧
    frame.length ≤ frameHeaderSize + maxFramePayloadLength

namespace Client

variable {client next : Client} {config : ClientConfig} {session moved : Session}

/-- The invariant of the running process, for any content of the data directory. -/
structure Sendable (session : Session) : Prop where
  valid : PendingValid session.inFlight
  clientId_eq : ∀ message ∈ session.inFlight, message.clientId = session.state.clientId
  below : ∀ message ∈ session.inFlight, message.id < session.state.nextId
  unlogged : ∀ message ∈ session.producer.unlogged, message.clientId = session.state.clientId ∧
    message.id < session.state.nextId ∧ ∀ other ∈ session.inFlight, other.id < message.id

/-! A start from any files. -/

/-- The recovered messages were checked by the log, and against the state. -/
theorem opened_sendable {recovered : List LogMessage} {sourcePath : Bytes} {base state : ClientState}
    (hValid : PendingValid recovered) (hCorrected : ClientState.Corrected base sourcePath recovered state) :
    Sendable (openedSession recovered state) := by
  have hInFlight : (openedSession recovered state).inFlight = recovered := by
    simp [openedSession, Session.inFlight, Consumer.held, Producer.unpushed]
  constructor
  · rw [hInFlight]
    exact hValid
  · rw [hInFlight]
    exact fun message hMem =>
      (hCorrected.sameClient message hMem).trans hCorrected.clientId_eq.symm
  · rw [hInFlight]
    exact hCorrected.recovered_lt
  · intro message hMem
    cases hMem

theorem start_sendable {generated : Bytes} {walOutcome stateOutcome : SaveOutcome}
    (hDown : client.session = none)
    (hStart : client.start config generated walOutcome stateOutcome = some next)
    (hNext : next.session = some moved) : Sendable moved := by
  revert hStart
  fun_cases Client.start with
  | case5 hPath wal walFile hOpen recovered hFresh generatedIds state stateFile hState =>
      intro hStart
      cases hStart
      cases hNext
      have hValid := (construct_loaded hOpen).2.1
      rcases ClientState.construct_cases hState with ⟨_, _, hError⟩ |
        ⟨base, corrected, _, hCorrected, ⟨_, _, _, hResult⟩ | ⟨_, hResult | ⟨_, hError⟩⟩⟩
      · cases hError
      · cases hResult
        exact opened_sendable hValid hCorrected
      · cases hResult
        exact opened_sendable hValid hCorrected
      · cases hError
  | case3 =>
      intro hStart
      cases hStart
  | _ =>
      intro hStart
      cases hStart
      cases hNext.symm.trans hDown

/-! The steps. -/

/-- Messages may be dropped, and the next id may grow. -/
theorem Sendable.frame (h : Sendable session) (hPart : moved.inFlight.Sublist session.inFlight)
    (hClient : moved.state.clientId = session.state.clientId)
    (hNextId : session.state.nextId ≤ moved.state.nextId)
    (hUnlogged : ∀ message ∈ moved.producer.unlogged, message ∈ session.producer.unlogged) :
    Sendable moved where
  valid := h.valid.sublist hPart
  clientId_eq message hMem := (h.clientId_eq message (hPart.subset hMem)).trans hClient.symm
  below message hMem := UInt64.lt_of_lt_of_le (h.below message (hPart.subset hMem)) hNextId
  unlogged message hMem := by
    obtain ⟨hSame, hBelow, hLater⟩ := h.unlogged message (hUnlogged message hMem)
    exact ⟨hSame.trans hClient.symm, UInt64.lt_of_lt_of_le hBelow hNextId,
      fun other hOther => hLater other (hPart.subset hOther)⟩

theorem threadStep_inFlight {log : FileSystem} {action : ThreadAction} {disconnects : Bool}
    (h : session.threadStep config log action = some (moved, disconnects)) :
    moved.inFlight.Sublist session.inFlight := by
  revert h
  fun_cases Session.threadStep <;> intro h <;> cases h <;>
    simp_all [Session.producerFails, Session.inFlight, Producer.unpushed, Consumer.held]
  -- the head of the main loop: a batch is begun, or the thread ends
  split_ifs <;> rfl

theorem sendable_allocate {timestampMs : Int64} {outcome : SaveOutcome} (h : Sendable session)
    (hStep : client.allocate session timestampMs outcome = some next)
    (hNext : next.session = some moved) : Sendable moved := by
  obtain ⟨reader, line, lines, messages, hProducer, ⟨stateFile, rfl, _⟩ | ⟨hRoom, rfl⟩⟩ :=
    allocate_cases hStep
  · cases hNext
    refine h.frame ?_ rfl (UInt64.le_refl _) nofun
    rw [Session.inFlight, Session.inFlight, hProducer]
    simp [Session.producerFails, Producer.unpushed]
  · cases hNext
    have hAdvances : session.state.nextId < session.state.nextId + 1 :=
      ClientState.lt_add_one_of_ne_maxId hRoom
    have hSame : ({ session with
        state := session.state.advanced
        producer := .appending reader (messageOf session.state reader timestampMs line)
          lines messages } : Session).inFlight = session.inFlight := by
      rw [Session.inFlight, Session.inFlight, hProducer]
      rfl
    constructor
    · rw [hSame]
      exact h.valid
    · rw [hSame]
      exact h.clientId_eq
    · rw [hSame]
      exact fun message hMem => UInt64.lt_trans (h.below message hMem) hAdvances
    · rw [hSame]
      intro message hMem
      cases hMem
      exact ⟨rfl, hAdvances, h.below⟩

/-- The encoder of the log has checked the limits of the message. -/
theorem sendable_append (h : Sendable session) (hStep : client.append session = some next)
    (hNext : next.session = some moved) : Sendable moved := by
  obtain ⟨reader, message, lines, messages, hProducer, ⟨_, rfl⟩ | ⟨hLimits, rfl⟩⟩ := append_cases hStep
  · cases hNext
    refine h.frame ?_ rfl (UInt64.le_refl _) nofun
    rw [Session.inFlight, Session.inFlight, hProducer]
    simp [Session.producerFails, Producer.unpushed]
  · cases hNext
    obtain ⟨hClient, hBelow, hLater⟩ := h.unlogged message (by rw [hProducer]; rfl)
    have hAdded : ({ session with
        wal := { pending := session.wal.pending ++ [message] }
        producer := .collecting reader lines (messages ++ [message]) } : Session).inFlight =
          session.inFlight ++ [message] := by
      rw [Session.inFlight, Session.inFlight, hProducer]
      simp [Producer.unpushed]
    constructor
    · rw [hAdded]
      refine h.valid.concat hLimits hLater fun other hOther => ?_
      exact (h.clientId_eq other hOther).trans hClient.symm
    · rw [hAdded]
      intro other hOther
      rcases List.mem_append.mp hOther with hOld | hNew
      · exact h.clientId_eq other hOld
      · rwa [List.mem_singleton.mp hNew]
    · rw [hAdded]
      intro other hOther
      rcases List.mem_append.mp hOther with hOld | hNew
      · exact h.below other hOld
      · rwa [List.mem_singleton.mp hNew]
    · intro other hOther
      cases hOther

theorem sendable_checkpoint {outcome : SaveOutcome} (h : Sendable session)
    (hStep : client.checkpoint session outcome = some next)
    (hNext : next.session = some moved) : Sendable moved := by
  obtain ⟨reader, messages, updated, hProducer, rfl, stateFile, ⟨_, rfl, _⟩ | ⟨rfl, _⟩⟩ :=
    checkpoint_cases hStep
  · cases hNext
    refine h.frame ?_ rfl (UInt64.le_refl _) (fun _ hUnlogged => by cases hUnlogged)
    rw [Session.inFlight, Session.inFlight, hProducer]
    simp [Session.producerFails, Producer.unpushed]
  · cases hNext
    refine h.frame ?_ rfl (UInt64.le_refl _) (fun _ hUnlogged => by cases hUnlogged)
    rw [Session.inFlight, Session.inFlight, hProducer]
    exact List.Sublist.refl _

/-- A reply drops the first batch, or gives it back to be sent again. -/
theorem sendable_reply {frame : Bytes} (h : Sendable session)
    (hStep : client.reply session frame = some next) (hNext : next.session = some moved) :
    Sendable moved := by
  revert hStep
  fun_cases Client.reply with
  | case1 messages hConsumer _ =>
      intro hStep
      cases hStep
      cases hNext
      refine h.frame ?_ rfl (UInt64.le_refl _) fun _ hMem => hMem
      rw [Session.inFlight, Session.inFlight, hConsumer]
      exact List.Sublist.refl _
  | case2 messages hConsumer _ _ _ _ _ _ =>
      intro hStep
      cases hStep
      cases hNext
      refine h.frame ?_ rfl (UInt64.le_refl _) fun _ hMem => hMem
      rw [Session.inFlight, Session.inFlight, hConsumer]
      exact List.Sublist.refl _
  | case3 messages hConsumer _ _ _ _ _ =>
      intro hStep
      cases hStep
      cases hNext
      refine h.frame ?_ rfl (UInt64.le_refl _) fun _ hMem => hMem
      rw [Session.inFlight, Session.inFlight, hConsumer]
      exact (List.drop_sublist _ _).append_right _
  | case4 =>
      intro hStep
      cases hStep

theorem sendable_step {action : ClientAction}
    (h : ∀ session, client.session = some session → Sendable session)
    (hStep : client.step config action = some next) :
    ∀ session, next.session = some session → Sendable session := by
  intro moved hNext
  cases acts_of_step hStep with
  | appendLog hLog => exact h moved hNext
  | changeLog => exact h moved hNext
  | deleteState hDown => exact h moved hNext
  | start hDown hStart => exact start_sendable hDown hStart hNext
  | thread hSome hMoved =>
      cases hNext
      obtain ⟨_, hState, hUnlogged⟩ := Session.threadStep_keeps hMoved
      refine (h _ hSome).frame (threadStep_inFlight hMoved) ?_ ?_ hUnlogged
      · rw [hState]
      · rw [hState]
        exact UInt64.le_refl _
  | allocate hSome hAct => exact sendable_allocate (h _ hSome) hAct hNext
  | append hSome hAct => exact sendable_append (h _ hSome) hAct hNext
  | checkpoint hSome hAct => exact sendable_checkpoint (h _ hSome) hAct hNext
  | reply hSome hAct => exact sendable_reply (h _ hSome) hAct hNext
  | finish _ hFinished => cases hNext
  | crash _ => cases hNext
  | crashInAppend _ hAct =>
      obtain ⟨_, _, _, _, _, _, ⟨_, rfl⟩ | ⟨_, rfl⟩⟩ := crashInAppend_cases hAct
      · cases hNext
      · cases hNext
  | crashInReply _ hAct =>
      revert hAct
      fun_cases Client.crashInReply <;> intro hAct <;> cases hAct
      cases hNext

/-! The size of a batch. -/

/-- The longest record. -/
def maxRecordLength : Nat :=
  logRecordFixedSize + maxClientIdLength + maxSourceLength + maxContentLength

theorem records_length_le {messages : List LogMessage}
    (h : ∀ message ∈ messages, WithinLimits message) :
    (messages.map logRecordBytes).flatten.length ≤ messages.length * maxRecordLength := by
  induction messages with
  | nil => exact Nat.le_refl 0
  | cons message rest ih =>
      obtain ⟨hFirst, hRest⟩ := List.forall_mem_cons.mp h
      have hRecord : (logRecordBytes message).length ≤ maxRecordLength := by
        have hClient := hFirst.clientId_length_le
        have hSource := hFirst.source_length_le
        have hContent := hFirst.content_length_le
        rw [logRecordBytes_length, maxRecordLength]
        omega
      have hOthers := ih hRest
      rw [List.map_cons, List.flatten_cons, List.length_append, List.length_cons, Nat.succ_mul]
      omega

/-- Messages of the log, at most ten of them, fit in one frame. -/
theorem encodable {messages : List LogMessage} {clientId : Bytes} (hValid : PendingValid messages)
    (hClient : ∀ message ∈ messages, message.clientId = clientId) (hSome : messages ≠ [])
    (hLength : messages.length ≤ sendBatchSize) : EncodableBatch clientId messages := by
  have hTen : batchPrefixSize + sendBatchSize * maxRecordLength ≤ maxFramePayloadLength := by decide
  have hFits : batchPrefixSize + (messages.map logRecordBytes).flatten.length ≤ maxFramePayloadLength := by
    have hRecords := records_length_le hValid.within
    have hBatch := Nat.mul_le_mul_right maxRecordLength hLength
    omega
  have hCount : messages.length ≤ maxBatchMessageCount := hLength.trans (by decide)
  constructor
  · exact hSome
  · exact hCount
  · exact hClient
  · exact hValid.idsIncreasing
  · exact hValid.within
  · rintro before rest rfl
    have hStart : batchPrefixSize ≤ maxFramePayloadLength := by decide
    rw [List.map_append, List.flatten_append, List.length_append] at hFits
    have hBefore := List.sublist_append_left before rest
    have hPart := hValid.sublist hBefore
    refine ⟨_, ?_, (logBatchPayloadSize_eq_ok_iff hStart).mpr ⟨?_, hPart.idsIncreasing, ?_, rfl⟩⟩
    · omega
    · intro message hMem
      refine ⟨hClient message (hBefore.subset hMem), ?_, hPart.within message hMem⟩
      exact UInt64.pos_iff_ne_zero.mpr (hPart.within message hMem).id_ne_zero
    · omega
  · rw [← logBatchPayload_length] at hFits
    have hBatch : BatchWithinLimits messages :=
      ⟨hSome, hCount, hValid.within, hValid.sameClient, hValid.idsIncreasing, hFits⟩
    refine ⟨_, serializeLogBatch_eq_ok_iff.mpr ⟨hBatch, rfl⟩, ?_⟩
    rw [frameBytes_length]
    omega

/-- Every span that the consumer hands to `deliverWithRetry` is encodable, so an
attempt to send it never fails for its content: where the connection holds, the
batch is sent. This is for any files, any lines and any order of the threads. -/
theorem batches_encodable (config : ClientConfig) (initial client : Client) (actions : List ClientAction)
    (session : Session) (messages : List LogMessage) (hDown : initial.session = none)
    (hRun : Runs.run (Client.step config) initial actions = some client)
    (hSession : client.session = some session)
    (hConsumer : session.consumer = .delivering messages) (hSome : messages ≠ []) :
    EncodableBatch session.state.clientId (Session.batch messages) ∧
      (session.running = true → session.threadStep config client.log (.attempt .sent) =
        some ({ session with consumer := .awaiting messages }, false)) := by
  have hAll : ∀ session, client.session = some session → Sendable session := by
    refine @Runs.invariant _ _ _ _ _ _
      (fun client : Client => ∀ session, client.session = some session → Sendable session)
      (fun _ => True) ?_ (fun _ _ _ _ h hStep => sendable_step h hStep) (fun _ _ => trivial) hRun
    intro session hSession
    cases hDown.symm.trans hSession
  have h := hAll session hSession
  have hPart : (Session.batch messages).Sublist session.inFlight := by
    rw [Session.inFlight, hConsumer]
    exact (List.take_sublist _ _).trans (List.sublist_append_left _ _)
  have hNonempty : Session.batch messages ≠ [] := by
    rw [Session.batch]
    simpa [sendBatchSize] using hSome
  have hEncodable := encodable (h.valid.sublist hPart)
    (fun message hMem => h.clientId_eq message (hPart.subset hMem)) hNonempty
    (List.length_take_le _ _)
  refine ⟨hEncodable, fun hRunning => ?_⟩
  obtain ⟨frame, hFrame, _⟩ := hEncodable.encoded
  rw [Session.threadStep, hConsumer]
  simp [hSome, hRunning, hFrame]

/-- One line on its way to the consumer. -/
def batchActions : List ClientAction :=
  sampleActions ++ [.thread .push, .thread (.attempt .sent), .thread .consume, .thread .popOne,
    .thread .popDone]

theorem batch_run : ∃ client session message,
    Runs.run (Client.step sampleConfig) { log := sampleLog } batchActions = some client ∧
      client.session = some session ∧ session.consumer = .delivering [message] := by
  have hOpen : Client.step sampleConfig (sampleStarted sampleLog .opening)
      (.thread (.openReader {})) = some (sampleStarted sampleLog (.polling sampleReader)) := rfl
  simp only [batchActions, sampleActions, List.cons_append, List.nil_append, Runs.run,
    sample_start (show sampleLog.path = _ from rfl), hOpen, sample_poll, Option.bind_some]
  exact ⟨_, _, _, rfl, rfl, rfl⟩

theorem batches_encodable_sample : ∃ clientId message, EncodableBatch clientId [message] := by
  obtain ⟨client, session, message, hRun, hSession, hConsumer⟩ := batch_run
  have h := batches_encodable sampleConfig { log := sampleLog } client batchActions session [message]
    rfl hRun hSession hConsumer (List.cons_ne_nil message [])
  exact ⟨session.state.clientId, message, h.1⟩

end Client
end LogBridge
