import LogBridge.Client.Collection

/-! Collection without crashes. A round of the producer logs its lines one by
one and moves the checkpoint at its end. Where an exception ends the round after
its first line was logged, the checkpoint stays behind the log and the next
session logs the same lines again; so collection is exact along the runs in
which no round breaks off in between, and only there. -/
namespace LogBridge.Client

open Checked FileTailReader Protocol Storage

variable {client next : Client} {config : ClientConfig} {session : Session} {fileId : FileId}
  {content : Bytes} {contents : List Bytes} {state : ClientState}

/-! The condition on a run. -/

/-- The encoder takes the line as a message content, with this path as the source. -/
def Encodable (path line : Bytes) : Prop :=
  path.length ≤ maxSourceLength ∧ line.length ≤ maxContentLength

instance (path line : Bytes) : Decidable (Encodable path line) :=
  inferInstanceAs (Decidable (_ ∧ _))

/-- All lines are logged: the encoder takes them and the ids suffice. -/
def AllFit (path : Bytes) (nextId : UInt64) (lines : List Bytes) : Prop :=
  (∀ line ∈ lines, Encodable path line) ∧ nextId.toNat + lines.length ≤ ClientState.maxId.toNat

instance (path : Bytes) (nextId : UInt64) (lines : List Bytes) :
    Decidable (AllFit path nextId lines) :=
  inferInstanceAs (Decidable (_ ∧ _))

/-- The first line is not logged: the id space is used up or the encoder rejects it. -/
def FirstFails (path : Bytes) (nextId : UInt64) (lines : List Bytes) : Prop :=
  ∃ line ∈ lines.head?, nextId = ClientState.maxId ∨ ¬Encodable path line

/-- The round is logged to its end, or it fails at its first line. -/
def RoundFits (path : Bytes) (nextId : UInt64) (lines : List Bytes) : Prop :=
  AllFit path nextId lines ∨ FirstFails path nextId lines

/-- The complete lines that the next read returns. -/
def unreadLines (reader : FileTailReader) (content : Bytes) : List Bytes :=
  logLines (reader.pending ++ content.drop reader.offset.toNat)

/-- The condition, on the state before an action: a round fits, and a start
does not lose the checkpoint of a path that the state file cannot hold. -/
def StepFits (config : ClientConfig) (fileId : FileId) (client : Client) : ClientAction → Prop
  | .thread (.poll _) => ∀ session reader, client.session = some session →
      session.running = true → session.producer = .polling reader →
      RoundFits reader.path session.state.nextId (unreadLines reader (client.logBytes fileId))
  | .start _ _ _ => Text.newline ∉ config.logPath ∨ client.history = []
  | _ => True

/-- The actions of a run without crashes and failing saves, on a log file that
stays and only grows. -/
def IsClean : ClientAction → Prop
  | .appendLog _ | .thread _ | .append | .reply _ | .finish => True
  | .start _ walOutcome stateOutcome => walOutcome = .saved ∧ stateOutcome = .saved
  | .allocate _ outcome | .checkpoint outcome => outcome = .saved
  | .changeLog _ | .deleteState | .crash | .crashInAppend _ | .crashInReply _ _ => False

/-! The invariant. -/

/-- The complete lines before the offset. -/
def linesBefore (content : Bytes) (offset : UInt64) : List Bytes :=
  logLines (content.take offset.toNat)

/-- The checkpoint of the state lies in the file. -/
structure CheckpointValid (logPath : Bytes) (fileId : FileId) (content : Bytes)
    (state : ClientState) : Prop where
  readable : ClientState.Readable state
  sourcePath_eq : state.sourcePath = logPath
  atLineStart : AtLineStart content state.fileOffset.toNat
  identity : IdentityMatches state.fileDeviceId state.fileInode fileId

/-- The reader of the log file. -/
structure ReaderValid (logPath : Bytes) (fileId : FileId) (content : Bytes)
    (reader : FileTailReader) : Prop where
  tracks : Tracks reader fileId content
  path_eq : reader.path = logPath

/-- The part of the invariant that depends on where the producer stands. Within
a round the logged contents are ahead of the checkpoint by the messages of the
round, and behind the reader by its remaining lines. -/
def ProducerExact (logPath : Bytes) (fileId : FileId) (content : Bytes) (contents : List Bytes)
    (state : ClientState) : Producer → Prop
  | .opening | .closing | .finished => contents = linesBefore content state.fileOffset
  | .polling reader | .enqueuing reader _ =>
      ReaderValid logPath fileId content reader ∧ contents = linesBefore content state.fileOffset ∧
        contents = linesBefore content reader.offset
  | .collecting reader lines messages =>
      ReaderValid logPath fileId content reader ∧
        contents = linesBefore content state.fileOffset ++ messages.map LogMessage.content ∧
        contents ++ lines = linesBefore content reader.offset ∧
        (AllFit logPath state.nextId lines ∨ messages = [] ∧ FirstFails logPath state.nextId lines)
  | .appending reader message lines messages =>
      ReaderValid logPath fileId content reader ∧
        contents = linesBefore content state.fileOffset ++ messages.map LogMessage.content ∧
        contents ++ message.content :: lines = linesBefore content reader.offset ∧
        (WithinLimits message ∧ AllFit logPath state.nextId lines ∨
          messages = [] ∧ ¬WithinLimits message)

/-- The state file of a stopped process, with the contents logged so far. -/
def StoppedExact (logPath : Bytes) (fileId : FileId) (content : Bytes) (contents : List Bytes) :
    Option Bytes → Prop
  | none => contents = []
  | some data => ∃ stored : ClientState, data = stored.stateText ∧
      CheckpointValid logPath fileId content stored ∧ contents = linesBefore content stored.fileOffset

/-- The invariant. While the process runs, the file holds the state in memory. -/
structure Exact (config : ClientConfig) (fileId : FileId) (client : Client) : Prop where
  path : client.log.path = some fileId
  down : client.session = none →
    StoppedExact config.logPath fileId (client.logBytes fileId) client.contents client.stateFile
  saved : ∀ session, client.session = some session →
    client.stateFile = some session.state.stateText
  memory : ∀ session, client.session = some session →
    CheckpointValid config.logPath fileId (client.logBytes fileId) session.state
  producer : ∀ session, client.session = some session →
    ProducerExact config.logPath fileId (client.logBytes fileId) client.contents session.state
      session.producer

theorem linesBefore_append {offset : UInt64} (h : offset.toNat ≤ content.length) (more : Bytes) :
    linesBefore (content ++ more) offset = linesBefore content offset := by
  rw [linesBefore, List.take_append_of_le_length h, linesBefore]

theorem CheckpointValid.grow {logPath : Bytes} (h : CheckpointValid logPath fileId content state)
    (more : Bytes) : CheckpointValid logPath fileId (content ++ more) state :=
  { h with atLineStart := h.atLineStart.append more }

theorem ReaderValid.grow {logPath : Bytes} {reader : FileTailReader}
    (h : ReaderValid logPath fileId content reader) (more : Bytes) :
    ReaderValid logPath fileId (content ++ more) reader ∧
      linesBefore (content ++ more) reader.offset = linesBefore content reader.offset :=
  ⟨⟨h.tracks.append more, h.path_eq⟩, linesBefore_append h.tracks.offset_le more⟩

theorem ProducerExact.grow {logPath : Bytes} {producer : Producer}
    (h : ProducerExact logPath fileId content contents state producer)
    (hOffset : state.fileOffset.toNat ≤ content.length) (more : Bytes) :
    ProducerExact logPath fileId (content ++ more) contents state producer := by
  have hState := linesBefore_append hOffset more
  cases producer with
  | opening => exact Eq.trans h hState.symm
  | closing => exact Eq.trans h hState.symm
  | finished => exact Eq.trans h hState.symm
  | polling reader =>
      obtain ⟨hReader, hExact, hRead⟩ := h
      obtain ⟨hGrown, hOffset⟩ := hReader.grow more
      exact ⟨hGrown, hState ▸ hExact, hOffset ▸ hRead⟩
  | enqueuing reader messages =>
      obtain ⟨hReader, hExact, hRead⟩ := h
      obtain ⟨hGrown, hOffset⟩ := hReader.grow more
      exact ⟨hGrown, hState ▸ hExact, hOffset ▸ hRead⟩
  | collecting reader lines messages =>
      obtain ⟨hReader, hExact, hRead, hFits⟩ := h
      obtain ⟨hGrown, hOffset⟩ := hReader.grow more
      exact ⟨hGrown, hState ▸ hExact, hOffset ▸ hRead, hFits⟩
  | appending reader message lines messages =>
      obtain ⟨hReader, hExact, hRead, hFits⟩ := h
      obtain ⟨hGrown, hOffset⟩ := hReader.grow more
      exact ⟨hGrown, hState ▸ hExact, hOffset ▸ hRead, hFits⟩

theorem StoppedExact.grow {logPath : Bytes} {stateFile : Option Bytes}
    (h : StoppedExact logPath fileId content contents stateFile) (more : Bytes) :
    StoppedExact logPath fileId (content ++ more) contents stateFile := by
  cases stateFile with
  | none => exact h
  | some data =>
      obtain ⟨stored, hText, hCheckpoint, hExact⟩ := h
      refine ⟨stored, hText, hCheckpoint.grow more, ?_⟩
      rw [linesBefore_append hCheckpoint.atLineStart.1]
      exact hExact

theorem CheckpointValid.advanced {logPath : Bytes}
    (h : CheckpointValid logPath fileId content state) (hFull : state.nextId ≠ ClientState.maxId) :
    CheckpointValid logPath fileId content state.advanced :=
  ⟨h.readable.advanced hFull, h.sourcePath_eq, h.atLineStart, h.identity⟩

theorem CheckpointValid.withCheckpoint {logPath : Bytes} {offset deviceId inode : UInt64}
    (h : CheckpointValid logPath fileId content state) (hStart : AtLineStart content offset.toNat)
    (hIdentity : IdentityMatches deviceId inode fileId) :
    CheckpointValid logPath fileId content (state.withCheckpoint offset deviceId inode) :=
  ⟨h.readable.withCheckpoint offset deviceId inode, h.sourcePath_eq, hStart, hIdentity⟩

/-- A message of this client is within the limits exactly if its line is encodable. -/
theorem withinLimits_messageOf (reader : FileTailReader) (timestampMs : Int64) (line : Bytes)
    (hReadable : ClientState.Readable state) (hClientId : IsGenerated state.clientId) :
    WithinLimits (messageOf state reader timestampMs line) ↔ Encodable reader.path line := by
  constructor
  · intro h
    exact ⟨h.source_length_le, h.content_length_le⟩
  · intro h
    refine ⟨hReadable.nextId_ne_zero, hReadable.clientId_ne_nil, ?_, h.1, h.2⟩
    change state.clientId.length ≤ maxClientIdLength
    rw [hClientId.1]
    decide

theorem exact_of_down (hPath : client.log.path = some fileId) (hSession : client.session = none)
    (hFile : StoppedExact config.logPath fileId (client.logBytes fileId) client.contents
      client.stateFile) : Exact config fileId client where
  path := hPath
  down _ := hFile
  saved session hSome := by
    rw [hSession] at hSome
    cases hSome
  memory session hSome := by
    rw [hSession] at hSome
    cases hSome
  producer session hSome := by
    rw [hSession] at hSome
    cases hSome

theorem exact_of_running (hPath : client.log.path = some fileId)
    (hSession : client.session = some session)
    (hSaved : client.stateFile = some session.state.stateText)
    (hCheckpoint : CheckpointValid config.logPath fileId (client.logBytes fileId) session.state)
    (hProducer : ProducerExact config.logPath fileId (client.logBytes fileId) client.contents
      session.state session.producer) : Exact config fileId client where
  path := hPath
  down hNone := by
    rw [hSession] at hNone
    cases hNone
  saved other hOther := by
    obtain rfl := Option.some.inj (hSession.symm.trans hOther)
    exact hSaved
  memory other hOther := by
    obtain rfl := Option.some.inj (hSession.symm.trans hOther)
    exact hCheckpoint
  producer other hOther := by
    obtain rfl := Option.some.inj (hSession.symm.trans hOther)
    exact hProducer

/-! Each action keeps the invariant. -/

theorem Exact.appendLog {bytes : Bytes} {log : FileSystem} (h : Exact config fileId client)
    (hLog : extendLog client.log bytes = some log) : Exact config fileId { client with log } := by
  obtain ⟨hPath, hBytes⟩ := extendLog_cases h.path hLog
  have hGrown : logBytes { client with log } fileId = client.logBytes fileId ++ bytes := hBytes
  constructor
  · exact hPath
  · intro hSession
    rw [hGrown]
    exact (h.down hSession).grow bytes
  · exact h.saved
  · intro session hSession
    rw [hGrown]
    exact (h.memory session hSession).grow bytes
  · intro session hSession
    rw [hGrown]
    exact (h.producer session hSession).grow (h.memory session hSession).atLineStart.1 bytes

/-- The lines that a read returns are the unread ones. -/
theorem unreadLines_eq {reader nextReader : FileTailReader} {fileSystem : FileSystem}
    {outcome : PollOutcome} {lines : List Bytes} (hPath : fileSystem.path = some fileId)
    (hTracks : Tracks reader fileId (fileSystem.content fileId).bytes)
    (hRead : reader.readNewLines fileSystem outcome = (.ok lines, nextReader)) :
    unreadLines reader (fileSystem.content fileId).bytes = lines := by
  obtain ⟨_, _, hLines⟩ := readNewLines_tracks hPath hTracks hRead
  have hSplit := logLines_append ((fileSystem.content fileId).bytes.take reader.offset.toNat)
    ((fileSystem.content fileId).bytes.drop reader.offset.toNat)
  rw [List.take_append_drop, ← hTracks.pending_eq, hLines] at hSplit
  exact (List.append_cancel_left hSplit).symm

/-- A move of the producer keeps its part, when a round that it reads fits. -/
theorem ProducerExact.move {log : FileSystem} {action : ThreadAction} {before after : Producer}
    (hPath : log.path = some fileId)
    (hCheckpoint : CheckpointValid config.logPath fileId (log.content fileId).bytes session.state)
    (hFits : ∀ outcome reader, action = .poll outcome → session.running = true →
      before = .polling reader →
      RoundFits reader.path session.state.nextId (unreadLines reader (log.content fileId).bytes))
    (h : ProducerExact config.logPath fileId (log.content fileId).bytes contents session.state before)
    (hMove : Session.ProducerMove config log session action before after) :
    ProducerExact config.logPath fileId (log.content fileId).bytes contents session.state after := by
  cases hMove with
  | stays => exact h
  | opens hOpen =>
      obtain ⟨hTracks, hOffset⟩ := construct_tracks hPath hCheckpoint.atLineStart hOpen
      rcases hOffset with hOffset | ⟨_, hOther⟩
      · exact ⟨⟨hTracks, construct_path hOpen⟩, h, hOffset ▸ h⟩
      · exact absurd hCheckpoint.identity hOther
  | @reads reader nextReader outcome lines hAction hRunning hRead =>
      obtain ⟨hReader, hExact, hRound⟩ := h
      obtain ⟨hTracks, hEnd, hLines⟩ := readNewLines_tracks hPath hReader.tracks hRead
      have hNextPath : nextReader.path = config.logPath := by
        rw [← hReader.path_eq, ← readNewLines_path reader log outcome, hRead]
      have hRoundFits := hFits outcome reader hAction (Bool.not_eq_false _ ▸ hRunning) rfl
      rw [unreadLines_eq hPath hReader.tracks hRead, hReader.path_eq] at hRoundFits
      refine ⟨⟨hTracks, hNextPath⟩, ?_, ?_, hRoundFits.imp id fun hFirst => ⟨rfl, hFirst⟩⟩
      · rw [List.map_nil, List.append_nil]
        exact hExact
      · rw [linesBefore, hEnd, List.take_length, hLines, hRound]
        rfl
  | nextRound => exact h
  | pushes => exact h
  | openFails => exact h
  | leavesLoop => exact h.2.1
  | givesUp => exact h.2.1
  | ends => exact h

/-- A message that the encoder rejects is the first of its round. -/
theorem ProducerExact.rejected {logPath : Bytes} {reader : FileTailReader} {message : LogMessage}
    {lines : List Bytes} {messages : List LogMessage}
    (h : ProducerExact logPath fileId content contents state (.appending reader message lines messages))
    (hRejected : ¬WithinLimits message) : contents = linesBefore content state.fileOffset := by
  obtain ⟨_, hExact, _, hFits⟩ := h
  rcases hFits with ⟨hTaken, _⟩ | ⟨rfl, _⟩
  · exact absurd hTaken hRejected
  · rw [hExact, List.map_nil, List.append_nil]

theorem ProducerExact.logged {logPath : Bytes} {reader : FileTailReader} {message : LogMessage}
    {lines : List Bytes} {messages : List LogMessage}
    (h : ProducerExact logPath fileId content contents state (.appending reader message lines messages))
    (hLimits : WithinLimits message) :
    ProducerExact logPath fileId content (contents ++ [message.content]) state
      (.collecting reader lines (messages ++ [message])) := by
  obtain ⟨hReader, hExact, hRound, hFits⟩ := h
  refine ⟨hReader, ?_, ?_, Or.inl (hFits.resolve_right fun hOther => hOther.2 hLimits).2⟩
  · rw [hExact, List.map_append, List.append_assoc]
    rfl
  · rw [← hRound, List.append_assoc]
    rfl

/-- A checkpoint at the start of the file is exact while nothing is logged. -/
theorem checkpointValid_zero {logPath : Bytes} (hReadable : ClientState.Readable state)
    (hPath : state.sourcePath = logPath) (hOffset : state.fileOffset = 0)
    (hDevice : state.fileDeviceId = 0) (hContents : contents = []) :
    CheckpointValid logPath fileId content state ∧
      contents = linesBefore content state.fileOffset := by
  refine ⟨⟨hReadable, hPath, ?_, Or.inl hDevice⟩, ?_⟩
  · rw [hOffset]
    exact ⟨Nat.zero_le _, rfl⟩
  · rw [hContents, hOffset]
    rfl

/-- The constructor of the state keeps an exact checkpoint. It drops it where the
stored path was cut at a newline, and then nothing may have been logged. -/
theorem StoppedExact.corrected {logPath generated : Bytes} {stateFile nextFile : Option Bytes}
    {recovered : List LogMessage} {base corrected : ClientState}
    (h : StoppedExact logPath fileId content contents stateFile)
    (hLost : Text.newline ∉ logPath ∨ contents = [])
    (hBase : ClientState.loadOrCreate stateFile recovered generated = .ok base)
    (hCorrected : ClientState.Corrected base logPath recovered corrected)
    (hReadable : ClientState.Readable corrected)
    (hSaved : nextFile = some corrected.stateText ∨
      nextFile = stateFile ∧ stateFile.isSome ∧ corrected = base) :
    (CheckpointValid logPath fileId content corrected ∧
      contents = linesBefore content corrected.fileOffset) ∧
      nextFile = some corrected.stateText := by
  cases stateFile with
  | none =>
      have hZero : corrected.fileOffset = 0 ∧ corrected.fileDeviceId = 0 := by
        have hNew : base.fileOffset = 0 ∧ base.fileDeviceId = 0 := by
          cases recovered with
          | nil =>
              cases hBase
              exact ⟨rfl, rfl⟩
          | cons front rest =>
              cases hBase
              exact ⟨rfl, rfl⟩
        rcases hCorrected.checkpoint with ⟨_, hOffset, hDevice, _⟩ | ⟨_, hOffset, hDevice, _⟩
        · exact ⟨hOffset.trans hNew.1, hDevice.trans hNew.2⟩
        · exact ⟨hOffset, hDevice⟩
      refine ⟨checkpointValid_zero hReadable hCorrected.sourcePath_eq hZero.1 hZero.2 h, ?_⟩
      rcases hSaved with hSaved | ⟨_, hSome, _⟩
      · exact hSaved
      · cases hSome
  | some data =>
      obtain ⟨stored, rfl, hValid, hExact⟩ := h
      rw [ClientState.loadOrCreate, ClientState.load_stateText hValid.readable] at hBase
      cases hBase
      rcases hCorrected.checkpoint with ⟨hSame, hOffset, hDevice, hInode⟩ | ⟨hOther, hOffset, hDevice, _⟩
      · refine ⟨⟨⟨hReadable, hCorrected.sourcePath_eq, ?_, ?_⟩, ?_⟩, ?_⟩
        · rw [hOffset]
          exact hValid.atLineStart
        · rw [hDevice, hInode]
          exact hValid.identity
        · rw [hOffset]
          exact hExact
        · rcases hSaved with hSaved | ⟨hKept, _, rfl⟩
          · exact hSaved
          · rw [hKept, show stored.sourcePath.takeWhile Text.inLine = stored.sourcePath from
              hSame.trans hValid.sourcePath_eq.symm]
      · have hCut : Text.newline ∈ logPath := by
          by_contra hWhole
          apply hOther
          change stored.sourcePath.takeWhile Text.inLine = logPath
          rw [hValid.sourcePath_eq, List.takeWhile_eq_self_iff]
          intro byte hMem
          have hNe : byte ≠ Text.newline := fun hEq => hWhole (hEq ▸ hMem)
          simpa [Text.inLine] using hNe
        have hNone : contents = [] := hLost.resolve_left fun hWhole => hWhole hCut
        refine ⟨checkpointValid_zero hReadable hCorrected.sourcePath_eq hOffset hDevice hNone, ?_⟩
        rcases hSaved with hSaved | ⟨_, _, rfl⟩
        · exact hSaved
        · exact absurd hCorrected.sourcePath_eq hOther

theorem Exact.start {generated : Bytes} {walOutcome stateOutcome : SaveOutcome}
    (h : Exact config fileId client) (hConsistent : Consistent client)
    (hFits : Text.newline ∉ config.logPath ∨ client.history = [])
    (hSession : client.session = none)
    (hStep : client.start config generated walOutcome stateOutcome = some next) :
    Exact config fileId next := by
  obtain ⟨pending, tail, hDirectory⟩ := hConsistent.down hSession
  obtain ⟨hHistory, hLog, hEnds⟩ := start_cases hSession hDirectory hStep
  have hBytes : next.logBytes fileId = client.logBytes fileId := by rw [logBytes, hLog, logBytes]
  have hContents : next.contents = client.contents := by rw [contents, hHistory, contents]
  have hPath : next.log.path = some fileId := hLog ▸ h.path
  have hDown := h.down hSession
  rcases hEnds with ⟨rest, _, hStopped, hKept⟩ |
    ⟨base, corrected, hNext, hBase, hCorrected, hIdentifies, hOpened, hSaved⟩
  · refine exact_of_down hPath hStopped ?_
    rw [hBytes, hContents, hKept]
    exact hDown
  · have hReadable := hNext.readable hIdentifies
    have hLost : Text.newline ∉ config.logPath ∨ client.contents = [] :=
      hFits.imp id fun hNone => by rw [contents, hNone, List.map_nil]
    obtain ⟨⟨hValid, hExact⟩, hFile⟩ := hDown.corrected hLost hBase hCorrected hReadable hSaved
    rw [← hBytes] at hValid hExact
    rw [← hContents] at hExact
    rcases hOpened with hStopped | hOpened
    · refine exact_of_down hPath hStopped ?_
      rw [hFile]
      exact ⟨corrected, rfl, hValid, hExact⟩
    · exact exact_of_running hPath hOpened hFile hValid hExact

section Running
variable (h : Exact config fileId client) (hSession : client.session = some session)
include h hSession

theorem Exact.thread {action : ThreadAction} {moved : Session} {disconnects : Bool}
    {connection : Nat} (hFits : StepFits config fileId client (.thread action))
    (hMoved : session.threadStep config client.log action = some (moved, disconnects)) :
    Exact config fileId { client with session := some moved, connection } := by
  obtain ⟨_, hState, _⟩ := Session.threadStep_keeps hMoved
  have hCheckpoint := h.memory session hSession
  refine exact_of_running h.path rfl (hState ▸ h.saved session hSession) (hState ▸ hCheckpoint) ?_
  rw [hState]
  refine ProducerExact.move h.path hCheckpoint ?_ (h.producer session hSession)
    (Session.threadStep_producer hMoved)
  rintro outcome reader rfl hRunning hPolling
  exact hFits session reader hSession hRunning hPolling

/-- With saves that succeed an allocation fails only when the ids are used up. -/
theorem Exact.allocate {timestampMs : Int64} (hClientId : IsGenerated session.state.clientId)
    (hStep : client.allocate session timestampMs .saved = some next) : Exact config fileId next := by
  have hCheckpoint := h.memory session hSession
  have hProducer := h.producer session hSession
  obtain ⟨reader, line, lines, messages, hCollecting, hEnds⟩ := allocate_cases hStep
  rw [hCollecting] at hProducer
  obtain ⟨hReader, hExact, hRound, hFits⟩ := hProducer
  rcases hEnds with ⟨stateFile, rfl, hWhy, hFile⟩ | ⟨hFull, rfl⟩
  · have hFull : session.state.nextId = ClientState.maxId := hWhy.resolve_right fun hNot => hNot rfl
    obtain rfl : stateFile = client.stateFile := hFile.resolve_right fun hOther => hOther.1 hFull
    rcases hFits with ⟨_, hRoom⟩ | ⟨rfl, _⟩
    · rw [hFull, List.length_cons] at hRoom
      omega
    · rw [List.map_nil, List.append_nil] at hExact
      exact exact_of_running h.path rfl (h.saved session hSession) hCheckpoint hExact
  · have hLimits := withinLimits_messageOf reader timestampMs line hCheckpoint.readable hClientId
    rw [hReader.path_eq] at hLimits
    refine exact_of_running h.path rfl rfl (hCheckpoint.advanced hFull) ⟨hReader, hExact, hRound, ?_⟩
    rcases hFits with ⟨hAll, hRoom⟩ | ⟨hNil, first, hFirst, hFails⟩
    · refine Or.inl ⟨hLimits.mpr (hAll line (by simp)), fun other hMem => hAll other (by simp [hMem]), ?_⟩
      have hNext := ClientState.toNat_add_one_of_ne_maxId hFull
      rw [List.length_cons] at hRoom
      change (session.state.nextId + 1).toNat + lines.length ≤ _
      omega
    · obtain rfl := Option.some.inj hFirst
      exact Or.inr ⟨hNil, fun hTaken => hFails.resolve_left hFull (hLimits.mp hTaken)⟩

theorem Exact.append (hStep : client.append session = some next) : Exact config fileId next := by
  have hCheckpoint := h.memory session hSession
  have hProducer := h.producer session hSession
  obtain ⟨reader, message, lines, messages, hAppending, hEnds⟩ := append_cases hStep
  rw [hAppending] at hProducer
  rcases hEnds with ⟨hRejected, rfl⟩ | ⟨hLimits, rfl⟩
  · have hClosed := hProducer.rejected hRejected
    exact exact_of_running h.path rfl (h.saved session hSession) hCheckpoint hClosed
  · refine exact_of_running h.path rfl (h.saved session hSession) hCheckpoint ?_
    change ProducerExact _ _ (client.logBytes fileId)
      (contents { client with history := client.history ++ [message] }) _ _
    rw [contents_concat]
    exact hProducer.logged hLimits

theorem Exact.checkpoint (hStep : client.checkpoint session .saved = some next) :
    Exact config fileId next := by
  have hCheckpoint := h.memory session hSession
  have hProducer := h.producer session hSession
  obtain ⟨reader, messages, updated, hCollecting, rfl, stateFile, hEnds⟩ := checkpoint_cases hStep
  rw [hCollecting] at hProducer
  obtain ⟨hReader, hExact, hRound, hFits⟩ := hProducer
  rw [List.append_nil] at hRound
  obtain ⟨hStart, hLines⟩ := hReader.tracks.committedOffset
  have hCommitted : client.contents = linesBefore (client.logBytes fileId) reader.committedOffset :=
    hRound.trans hLines.symm
  have hValid := hCheckpoint.withCheckpoint hStart
    (Or.inr (Or.inr ⟨hReader.tracks.deviceId_eq, hReader.tracks.inode_eq⟩))
  rcases hEnds with ⟨hWhy, _⟩ | ⟨rfl, hFile⟩
  · exact absurd rfl hWhy
  · refine exact_of_running h.path rfl ?_ hValid ⟨hReader, hCommitted, hRound⟩
    rcases hFile with ⟨rfl, hSame⟩ | rfl
    · rw [hSame]
      exact h.saved session hSession
    · rfl

end Running

theorem Exact.reply {frame : Bytes} (h : Exact config fileId client)
    (hSession : client.session = some session) (hConsistent : Consistent client)
    (hStep : client.reply session frame = some next) : Exact config fileId next := by
  have hSaved := h.saved session hSession
  have hCheckpoint := h.memory session hSession
  have hProducer := h.producer session hSession
  obtain ⟨hDirectory, _⟩ := hConsistent.running session hSession
  obtain ⟨messages, _, hEnds⟩ :=
    reply_cases hDirectory.pendingValid.within hDirectory.walFile_eq hStep
  rcases hEnds with ⟨_, rfl⟩ | ⟨confirmedId, walFile, _, _, rfl⟩
  · exact exact_of_running h.path rfl hSaved hCheckpoint hProducer
  · exact exact_of_running h.path rfl hSaved hCheckpoint hProducer

/-- A session that has ended leaves the state file exact. -/
theorem Exact.finish (h : Exact config fileId client) (hSession : client.session = some session)
    (hFinished : session.producer = .finished) : Exact config fileId client.stopped := by
  have hProducer := h.producer session hSession
  rw [hFinished] at hProducer
  refine exact_of_down h.path rfl ?_
  change StoppedExact _ _ _ client.contents client.stateFile
  rw [h.saved session hSession]
  exact ⟨session.state, rfl, h.memory session hSession, hProducer⟩

/-- Every clean action that meets the condition keeps the invariant. -/
theorem Exact.step {action : ClientAction} (h : Exact config fileId client)
    (hConsistent : Consistent client) (hClean : IsClean action)
    (hFits : StepFits config fileId client action)
    (hStep : client.step config action = some next) : Exact config fileId next := by
  cases acts_of_step hStep with
  | appendLog hLog => exact h.appendLog hLog
  | changeLog => cases hClean
  | deleteState hDown => cases hClean
  | start hDown hStart => exact h.start hConsistent hFits hDown hStart
  | thread hSession hMoved => exact h.thread hSession hFits hMoved
  | @allocate _ outcome _ _ hSession hAct =>
      obtain rfl := show outcome = .saved from hClean
      obtain ⟨hDirectory, hValid⟩ := hConsistent.running _ hSession
      exact h.allocate hSession (hDirectory.generated _ hValid.state.known) hAct
  | append hSession hAct => exact h.append hSession hAct
  | @checkpoint outcome _ _ hSession hAct =>
      obtain rfl := show outcome = .saved from hClean
      exact h.checkpoint hSession hAct
  | reply hSession hAct => exact h.reply hSession hConsistent hAct
  | finish hSession hFinished => exact h.finish hSession hFinished
  | crash _ => cases hClean
  | crashInAppend _ hAct => cases hClean
  | crashInReply _ hAct => cases hClean

theorem exact_run {log : FileSystem} {actions : List ClientAction}
    (hPath : log.path = some fileId) (hClean : ∀ action ∈ actions, IsClean action)
    (hFits : Runs.Along (Client.step config) (StepFits config fileId) { log } actions)
    (hRun : Runs.run (Client.step config) { log } actions = some client) :
    Exact config fileId client := by
  have hCleanAlong : Runs.Along (Client.step config) (fun _ action => IsClean action) { log }
      actions := Runs.along_of_forall (fun _ _ hAction => hAction) hClean
  have hStart : Consistent { log } ∧ Exact config fileId { log } :=
    ⟨consistent_initial log, exact_of_down hPath rfl rfl⟩
  have hStep : ∀ state action next, IsClean action ∧ StepFits config fileId state action →
      Consistent state ∧ Exact config fileId state → Client.step config state action = some next →
      Consistent next ∧ Exact config fileId next := by
    intro state action next hMeets h hStep
    exact ⟨h.1.step hStep, h.2.step h.1 hMeets.1 hMeets.2 hStep⟩
  exact (@Runs.invariant_along _ _ _ _ _ _
    (fun state => Consistent state ∧ Exact config fileId state) _ hStart hStep
    (hCleanAlong.and hFits) hRun).2

/-- Exactly the complete lines before the checkpoint of the state file have been
logged, each once and in order. -/
def CollectedOnce (fileId : FileId) (client : Client) : Prop :=
  match client.stateFile with
  | none => client.contents = []
  | some data => ∃ stored, ClientState.load data = .ok stored ∧
      client.contents = linesBefore (client.logBytes fileId) stored.fileOffset

/-- Over every run without crashes and failing saves, on a log file that stays
and only grows: if every round is logged whole or fails at its first line, and
no start loses the checkpoint, then after every session each complete line
before the checkpoint has been logged once. -/
theorem collected_once (config : ClientConfig) (log : FileSystem) (fileId : FileId)
    (actions : List ClientAction) (client : Client) (hPath : log.path = some fileId)
    (hClean : ∀ action ∈ actions, IsClean action)
    (hFits : Runs.Along (Client.step config) (StepFits config fileId) { log } actions)
    (hRun : Runs.run (Client.step config) { log } actions = some client)
    (hStopped : client.session = none) : CollectedOnce fileId client := by
  have hDown := (exact_run hPath hClean hFits hRun).down hStopped
  rw [CollectedOnce]
  cases hFile : client.stateFile with
  | none =>
      rw [hFile] at hDown
      exact hDown
  | some data =>
      rw [hFile] at hDown
      obtain ⟨stored, rfl, hValid, hExact⟩ := hDown
      exact ⟨_, ClientState.load_stateText hValid.readable, hExact⟩

/-! A run that meets the condition. -/

/-- The line is logged, the checkpoint moves, and the session is stopped. -/
def cleanActions : List ClientAction :=
  sampleActions ++ [.thread .push, .thread .push, .thread .stop, .thread (.poll {}),
    .thread .closeQueue, .thread (.attempt .sent), .thread .consume, .finish]

theorem collected_once_sample : ∃ client,
    Runs.run (Client.step sampleConfig) { log := sampleLog } cleanActions = some client ∧
      client.contents = [[97]] ∧ CollectedOnce ⟨1, 1⟩ client := by
  have hRound : StepFits sampleConfig ⟨1, 1⟩ (sampleStarted sampleLog (.polling sampleReader))
      (.thread (.poll {})) := by
    intro session reader hSession _ hPolling
    cases hSession
    cases hPolling
    exact Or.inl (show AllFit [108] 1 [[97]] by decide)
  have hStopped : ∀ client session, Client.session client = some session →
      session.running = false →
      StepFits sampleConfig ⟨1, 1⟩ client (.thread (.poll {})) := by
    intro client session hSession hRunning other _ hOther hOtherRunning
    obtain rfl := Option.some.inj (hSession.symm.trans hOther)
    rw [hRunning] at hOtherRunning
    cases hOtherRunning
  have hNewline : Text.newline ∉ sampleConfig.logPath := by decide
  obtain ⟨hRun, hFits⟩ := show Runs.run (Client.step sampleConfig) { log := sampleLog }
      cleanActions = _ ∧ Runs.Along (Client.step sampleConfig) (StepFits sampleConfig ⟨1, 1⟩)
      { log := sampleLog } cleanActions from
    Runs.run_along_cons (Or.inl hNewline) (sample_start rfl) <| Runs.run_along_cons trivial rfl <|
    Runs.run_along_cons hRound sample_poll <| Runs.run_along_cons trivial rfl <|
    Runs.run_along_cons trivial rfl <| Runs.run_along_cons trivial rfl <|
    Runs.run_along_cons trivial rfl <| Runs.run_along_cons trivial rfl <|
    Runs.run_along_cons trivial rfl <| Runs.run_along_cons (hStopped _ _ rfl rfl) rfl <|
    Runs.run_along_cons trivial rfl <| Runs.run_along_cons trivial rfl <|
    Runs.run_along_cons trivial rfl <| Runs.run_along_cons trivial rfl <| ⟨rfl, trivial⟩
  have hClean : ∀ action ∈ cleanActions, IsClean action := by
    simp [cleanActions, sampleActions, IsClean]
  exact ⟨_, hRun, rfl, collected_once sampleConfig sampleLog ⟨1, 1⟩ cleanActions _ rfl hClean hFits
    hRun rfl⟩

/-! A run that does not: the encoder rejects the second line of a round. -/

/-- The line "a" and a second line. -/
def twoLines (line : Bytes) : Bytes := [97] ++ Text.newline :: (line ++ [Text.newline])

theorem twoLines_length (line : Bytes) : (twoLines line).length = line.length + 3 := by
  simp [twoLines]

def twoLineLog (line : Bytes) (hSize : line.length < 2 ^ 60) : FileSystem where
  path := some ⟨1, 1⟩
  content := fun _ => ⟨twoLines line, by rw [twoLines_length]; omega⟩

theorem logLines_twoLines {line : Bytes} (hLine : Text.newline ∉ line) :
    logLines (twoLines line) = [[97], stripCarriageReturn line] := by
  have hFirst : Text.newline ∉ ([97] : Bytes) := by decide
  rw [logLines, twoLines, Lines.complete_line hFirst, Lines.complete_line hLine, List.map_cons,
    List.map_cons]
  rfl

/-- The reader behind both lines. -/
def readerAtEnd (line : Bytes) : FileTailReader :=
  { sampleReader with offset := 0 + .ofNat (twoLines line).length }

theorem twoLines_read {line : Bytes} (hSize : line.length < 2 ^ 60) (hLine : Text.newline ∉ line) :
    sampleReader.readNewLines (twoLineLog line hSize) {} =
      (.ok [[97], stripCarriageReturn line], readerAtEnd line) := by
  have hLength := twoLines_length line
  have hToNat : (UInt64.ofNat (twoLines line).length).toNat = (twoLines line).length := by
    rw [UInt64.toNat_ofNat']
    omega
  have hNonzero : UInt64.ofNat (twoLines line).length ≠ 0 := by
    intro hZero
    rw [hZero, UInt64.toNat_zero] at hToNat
    omega
  have hTail : Lines.tail Text.newline (twoLines line) = [] := by
    have hText : twoLines line = ([97] ++ Text.newline :: line) ++ [Text.newline] := by simp [twoLines]
    rw [hText, Lines.tail_concat_separator]
  simp only [readNewLines, sampleReader, twoLineLog, readFromOpenFile, preadLoop, extractLines_eq]
  simp [replacedBy, pure, Except.pure, hNonzero, hToNat, logLines_twoLines hLine, hTail, readerAtEnd,
    sampleReader]

/-- The actions of a session that reads both lines and breaks off at the second. -/
def breakingActions : List ClientAction :=
  [.start sampleState.clientId .saved .saved, .thread (.openReader {}), .thread (.poll {}),
    .allocate 7 .saved, .append, .allocate 8 .saved, .append, .thread .closeQueue,
    .thread (.attempt .sent), .thread .consume, .finish]

theorem breaking_run {line : Bytes} (hSize : line.length < 2 ^ 60) (hLine : Text.newline ∉ line)
    (hLong : maxContentLength < (stripCarriageReturn line).length) : ∃ client,
    Runs.run (Client.step sampleConfig) { log := twoLineLog line hSize } breakingActions = some client ∧
      client.session = none ∧ client.contents = [[97]] ∧
      client.stateFile = some sampleState.advanced.advanced.stateText := by
  have hOpen : Client.step sampleConfig (sampleStarted (twoLineLog line hSize) .opening)
      (.thread (.openReader {})) =
        some (sampleStarted (twoLineLog line hSize) (.polling sampleReader)) := by
    simp [Client.step, Session.threadStep, sampleStarted, construct, openCurrentFile, twoLineLog,
      sampleState, sampleConfig, sampleReader, pure, Except.pure]
  have hPoll : Client.step sampleConfig (sampleStarted (twoLineLog line hSize) (.polling sampleReader))
      (.thread (.poll {})) = some (sampleStarted (twoLineLog line hSize)
        (.collecting (readerAtEnd line) [[97], stripCarriageReturn line] [])) := by
    simp [Client.step, sampleStarted, Session.threadStep, twoLines_read hSize hLine]
  have hReadable : ClientState.Readable sampleState := ⟨by decide, by decide, by decide⟩
  have hGenerated : IsGenerated sampleState.clientId := by decide
  have hTaken : WithinLimits (messageOf sampleState (readerAtEnd line) 7 [97]) :=
    (withinLimits_messageOf _ 7 [97] hReadable hGenerated).mpr ⟨show [108].length ≤ maxSourceLength by decide, by decide⟩
  have hRejected : ¬WithinLimits (messageOf sampleState.advanced (readerAtEnd line) 8
      (stripCarriageReturn line)) := fun h => Nat.not_le.mpr hLong h.content_length_le
  have hFirst : sampleState.nextId ≠ ClientState.maxId := by decide
  have hSecond : sampleState.advanced.nextId ≠ ClientState.maxId := by decide
  have hRun := show Runs.run (Client.step sampleConfig) { log := twoLineLog line hSize }
      breakingActions = _ from
    Runs.run_cons (sample_start rfl) <| Runs.run_cons hOpen <| Runs.run_cons hPoll <|
    Runs.run_cons (step_allocate rfl rfl hFirst) <| Runs.run_cons (step_append_taken rfl rfl hTaken) <|
    Runs.run_cons (step_allocate rfl rfl hSecond) <| Runs.run_cons (step_append_rejected rfl rfl hRejected) <|
    Runs.run_cons rfl <| Runs.run_cons rfl <| Runs.run_cons rfl <| Runs.run_cons rfl rfl
  exact ⟨_, hRun, rfl, rfl, rfl⟩
/-- A line that is one byte too long for the encoder. -/
def overlongLine : Bytes := List.replicate (maxContentLength + 1) 120

/-- Without the condition collection is not exact: the line before an overlong
line is logged, and the checkpoint stays before it. -/
theorem collected_once_fails_on_overlong_line :
    ¬∀ (config : ClientConfig) (log : FileSystem) (fileId : FileId) (actions : List ClientAction)
      (client : Client), log.path = some fileId → (∀ action ∈ actions, IsClean action) →
      Runs.run (Client.step config) { log } actions = some client → client.session = none →
      CollectedOnce fileId client := by
  intro hAlways
  have hLength : overlongLine.length = maxContentLength + 1 := List.length_replicate
  have hSize : overlongLine.length < 2 ^ 60 := by
    rw [hLength]
    decide
  have hLine : Text.newline ∉ overlongLine := by
    intro hMem
    exact absurd (List.eq_of_mem_replicate hMem) (by decide)
  have hStrip : stripCarriageReturn overlongLine = overlongLine := by
    rw [stripCarriageReturn, if_neg]
    intro hLast
    exact absurd (List.eq_of_mem_replicate (List.mem_of_getLast? hLast)) (by decide)
  have hLong : maxContentLength < (stripCarriageReturn overlongLine).length := by
    rw [hStrip, hLength]
    exact Nat.lt_succ_self _
  obtain ⟨client, hRun, hSession, hContents, hFile⟩ := breaking_run hSize hLine hLong
  have hClean : ∀ action ∈ breakingActions, IsClean action := by
    simp [breakingActions, IsClean]
  have hOnce := hAlways sampleConfig _ ⟨1, 1⟩ breakingActions client rfl hClean hRun hSession
  have hReadable : ClientState.Readable sampleState.advanced.advanced :=
    ⟨by decide, by decide, by decide⟩
  rw [CollectedOnce, hFile] at hOnce
  obtain ⟨stored, hLoad, hExact⟩ := hOnce
  rw [ClientState.load_stateText hReadable] at hLoad
  cases hLoad
  rw [hContents] at hExact
  cases hExact

end LogBridge.Client
