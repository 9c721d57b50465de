import LogBridge.Client.Identity

/-! Collection of the log file under crashes. The checkpoint in the state file
never runs ahead of the write-ahead log: every complete line before it has been
logged, in order. A crash may make the next session log a line again, but no
line is skipped. -/
namespace LogBridge.Client

open Checked FileTailReader Protocol Storage

variable {client next : Client} {config : ClientConfig} {session : Session} {fileId : FileId}

/-- The contents of the logged messages, oldest first. -/
def contents (client : Client) : List Bytes := client.history.map LogMessage.content

/-- The bytes of the log file. -/
def logBytes (client : Client) (fileId : FileId) : Bytes := (client.log.content fileId).bytes

/-- The offset is at the start of a line, and the lines before it are logged. -/
structure Collected (content : Bytes) (contents : List Bytes) (offset : UInt64) : Prop where
  atLineStart : AtLineStart content offset.toNat
  lines : (logLines (content.take offset.toNat)).Sublist contents

theorem Collected.start (content : Bytes) (contents : List Bytes) : Collected content contents 0 :=
  ⟨⟨Nat.zero_le _, rfl⟩, List.nil_sublist _⟩

theorem Collected.grow {content more : Bytes} {contents : List Bytes} {offset : UInt64}
    (h : Collected content contents offset) : Collected (content ++ more) contents offset where
  atLineStart := h.atLineStart.append more
  lines := by
    rw [List.take_append_of_le_length h.atLineStart.1]
    exact h.lines

theorem Collected.mono {content : Bytes} {contents longer : List Bytes} {offset : UInt64}
    (h : Collected content contents offset) (hLonger : contents.Sublist longer) :
    Collected content longer offset :=
  ⟨h.atLineStart, h.lines.trans hLonger⟩

/-- The reader has returned no lines but logged ones and those of the running round. -/
structure RoundCollected (fileId : FileId) (content : Bytes) (contents : List Bytes)
    (reader : FileTailReader) (remaining : List Bytes) : Prop where
  tracks : Tracks reader fileId content
  lines : (logLines (content.take reader.offset.toNat)).Sublist (contents ++ remaining)

theorem RoundCollected.grow {content more : Bytes} {contents : List Bytes} {reader : FileTailReader}
    {remaining : List Bytes} (h : RoundCollected fileId content contents reader remaining) :
    RoundCollected fileId (content ++ more) contents reader remaining where
  tracks := h.tracks.append more
  lines := by
    rw [List.take_append_of_le_length h.tracks.offset_le]
    exact h.lines

/-- At the end of a round everything before the committed offset is logged. -/
theorem RoundCollected.committed {content : Bytes} {contents : List Bytes} {reader : FileTailReader}
    (h : RoundCollected fileId content contents reader []) :
    Collected content contents reader.committedOffset := by
  obtain ⟨hStart, hLines⟩ := h.tracks.committedOffset
  refine ⟨hStart, ?_⟩
  rw [hLines, ← List.append_nil contents]
  exact h.lines

/-- A reader constructed from a checkpoint starts a round there, or at the start
of the file. -/
theorem RoundCollected.constructed {fileSystem : FileSystem} {contents : List Bytes} {path : Bytes}
    {offset deviceId inode : UInt64} {outcome : OpenOutcome} {reader : FileTailReader}
    (hPath : fileSystem.path = some fileId)
    (h : Collected (fileSystem.content fileId).bytes contents offset)
    (hOpen : construct path fileSystem offset deviceId inode outcome = .ok reader) :
    RoundCollected fileId (fileSystem.content fileId).bytes contents reader [] := by
  obtain ⟨hTracks, hOffset⟩ := construct_tracks hPath h.atLineStart hOpen
  refine ⟨hTracks, ?_⟩
  rw [List.append_nil]
  rcases hOffset with hOffset | ⟨hOffset, _⟩
  · rw [hOffset]
    exact h.lines
  · rw [hOffset]
    exact List.nil_sublist _

/-- A round adds the lines that it read. -/
theorem RoundCollected.read {fileSystem : FileSystem} {contents : List Bytes}
    {outcome : PollOutcome} {reader nextReader : FileTailReader} {lines : List Bytes}
    (hPath : fileSystem.path = some fileId)
    (h : RoundCollected fileId (fileSystem.content fileId).bytes contents reader [])
    (hRead : reader.readNewLines fileSystem outcome = (.ok lines, nextReader)) :
    RoundCollected fileId (fileSystem.content fileId).bytes contents nextReader lines := by
  obtain ⟨hTracks, hOffset, hLines⟩ := readNewLines_tracks hPath h.tracks hRead
  refine ⟨hTracks, ?_⟩
  rw [hOffset, List.take_length, hLines]
  have hOld := h.lines
  rw [List.append_nil] at hOld
  exact hOld.append (List.Sublist.refl lines)

/-- The state file, if there is one, is read back, and its checkpoint is collected. -/
def StateFileCollected (content : Bytes) (contents : List Bytes) (stateFile : Option Bytes) : Prop :=
  ∀ data, stateFile = some data → ∃ stored : ClientState,
    data = stored.stateText ∧ ClientState.Readable stored ∧
      Collected content contents stored.fileOffset

theorem StateFileCollected.grow {content more : Bytes} {contents : List Bytes}
    {stateFile : Option Bytes} (h : StateFileCollected content contents stateFile) :
    StateFileCollected (content ++ more) contents stateFile := by
  intro data hData
  obtain ⟨stored, hText, hReadable, hCollected⟩ := h data hData
  exact ⟨stored, hText, hReadable, hCollected.grow⟩

theorem StateFileCollected.mono {content : Bytes} {contents longer : List Bytes}
    {stateFile : Option Bytes} (h : StateFileCollected content contents stateFile)
    (hLonger : contents.Sublist longer) : StateFileCollected content longer stateFile := by
  intro data hData
  obtain ⟨stored, hText, hReadable, hCollected⟩ := h data hData
  exact ⟨stored, hText, hReadable, hCollected.mono hLonger⟩

theorem StateFileCollected.saved {content : Bytes} {contents : List Bytes} {state : ClientState}
    (hReadable : ClientState.Readable state) (h : Collected content contents state.fileOffset) :
    StateFileCollected content contents (some state.stateText) := by
  intro data hData
  exact ⟨state, (Option.some.inj hData).symm, hReadable, h⟩

/-- The constructor of the state keeps a collected checkpoint or starts over. -/
theorem StateFileCollected.corrected {content : Bytes} {contents : List Bytes}
    {stateFile : Option Bytes} {recovered : List LogMessage} {generated sourcePath : Bytes}
    {base corrected : ClientState} (h : StateFileCollected content contents stateFile)
    (hBase : ClientState.loadOrCreate stateFile recovered generated = .ok base)
    (hCorrected : ClientState.Corrected base sourcePath recovered corrected) :
    Collected content contents corrected.fileOffset := by
  have hOffset : Collected content contents base.fileOffset := by
    cases stateFile with
    | some data =>
        obtain ⟨stored, rfl, hReadable, hCollected⟩ := h data rfl
        rw [ClientState.loadOrCreate, ClientState.load_stateText hReadable] at hBase
        cases hBase
        exact hCollected
    | none =>
        cases recovered with
        | nil =>
            cases hBase
            exact Collected.start content contents
        | cons front rest =>
            cases hBase
            exact Collected.start content contents
  rcases hCorrected.checkpoint with ⟨_, hSame, _⟩ | ⟨_, hZero, _⟩
  · rw [hSame]
    exact hOffset
  · rw [hZero]
    exact Collected.start content contents

/-- The invariant: the checkpoints in the file and in memory, and the reader. -/
structure Collecting (fileId : FileId) (client : Client) : Prop where
  path : client.log.path = some fileId
  file : StateFileCollected (client.logBytes fileId) client.contents client.stateFile
  memory : ∀ session, client.session = some session →
    Collected (client.logBytes fileId) client.contents session.state.fileOffset
  producer : ∀ session, client.session = some session → ∀ reader,
    session.producer.reader = some reader →
      RoundCollected fileId (client.logBytes fileId) client.contents reader session.producer.remaining

theorem collecting_of_down (hPath : client.log.path = some fileId) (hSession : client.session = none)
    (hFile : StateFileCollected (client.logBytes fileId) client.contents client.stateFile) :
    Collecting fileId client where
  path := hPath
  file := hFile
  memory session hSome := by
    rw [hSession] at hSome
    cases hSome
  producer session hSome := by
    rw [hSession] at hSome
    cases hSome

theorem collecting_of_running (hPath : client.log.path = some fileId)
    (hSession : client.session = some session)
    (hFile : StateFileCollected (client.logBytes fileId) client.contents client.stateFile)
    (hMemory : Collected (client.logBytes fileId) client.contents session.state.fileOffset)
    (hProducer : ∀ reader, session.producer.reader = some reader →
      RoundCollected fileId (client.logBytes fileId) client.contents reader
        session.producer.remaining) : Collecting fileId client where
  path := hPath
  file := hFile
  memory other hOther := by
    obtain rfl := Option.some.inj (hSession.symm.trans hOther)
    exact hMemory
  producer other hOther := by
    obtain rfl := Option.some.inj (hSession.symm.trans hOther)
    exact hProducer

theorem contents_concat (client : Client) (message : LogMessage) :
    contents { client with history := client.history ++ [message] } =
      client.contents ++ [message.content] := by
  simp [contents]

theorem contents_sublist (client : Client) (message : LogMessage) :
    client.contents.Sublist (contents { client with history := client.history ++ [message] }) :=
  (List.sublist_append_left client.history [message]).map LogMessage.content

/-! Each action keeps the invariant. -/

theorem Collecting.appendLog {bytes : Bytes} {log : FileSystem} (h : Collecting fileId client)
    (hLog : extendLog client.log bytes = some log) : Collecting fileId { client with log } := by
  obtain ⟨hPath, hBytes⟩ := extendLog_cases h.path hLog
  have hGrown : logBytes { client with log } fileId = client.logBytes fileId ++ bytes := hBytes
  constructor
  · exact hPath
  · rw [hGrown]
    exact h.file.grow
  · intro session hSession
    rw [hGrown]
    exact (h.memory session hSession).grow
  · intro session hSession reader hReader
    rw [hGrown]
    exact (h.producer session hSession reader hReader).grow

theorem Collecting.start {generated : Bytes} {walOutcome stateOutcome : SaveOutcome}
    (h : Collecting fileId client) (hConsistent : Consistent client) (hSession : client.session = none)
    (hStep : client.start config generated walOutcome stateOutcome = some next) :
    Collecting fileId next := by
  obtain ⟨pending, tail, hDirectory⟩ := hConsistent.down hSession
  obtain ⟨hHistory, hLog, hEnds⟩ := start_cases hSession hDirectory hStep
  have hBytes : next.logBytes fileId = client.logBytes fileId := by rw [logBytes, hLog, logBytes]
  have hContents : next.contents = client.contents := by rw [contents, hHistory, contents]
  have hPath : next.log.path = some fileId := hLog ▸ h.path
  have hFile : StateFileCollected (next.logBytes fileId) next.contents client.stateFile := by
    rw [hBytes, hContents]
    exact h.file
  rcases hEnds with ⟨rest, _, hDown, hKept⟩ |
    ⟨base, corrected, hNext, hBase, hCorrected, hIdentifies, hOpened, hSaved⟩
  · exact collecting_of_down hPath hDown (hKept ▸ hFile)
  · have hMemory := hFile.corrected hBase hCorrected
    have hNextFile : StateFileCollected (next.logBytes fileId) next.contents next.stateFile := by
      rcases hSaved with hSaved | ⟨hKept, _⟩
      · rw [hSaved]
        exact .saved (hNext.readable hIdentifies) hMemory
      · exact hKept ▸ hFile
    rcases hOpened with hDown | hOpened
    · exact collecting_of_down hPath hDown hNextFile
    · exact collecting_of_running hPath hOpened hNextFile hMemory nofun

section Running
variable (h : Collecting fileId client) (hSession : client.session = some session)
include h hSession

theorem Collecting.thread {action : ThreadAction} {moved : Session} {disconnects : Bool}
    {connection : Nat}
    (hMoved : session.threadStep config client.log action = some (moved, disconnects)) :
    Collecting fileId { client with session := some moved, connection } := by
  obtain ⟨_, hState, _⟩ := Session.threadStep_keeps hMoved
  have hProducer := h.producer session hSession
  refine collecting_of_running h.path rfl h.file ?_ ?_
  · rw [hState]
    exact h.memory session hSession
  · intro reader hReader
    have hMove := Session.threadStep_producer hMoved
    generalize moved.producer = after, hBefore : session.producer = before
      at hMove hReader hProducer
    cases hMove with
    | stays => exact hProducer reader hReader
    | opens hOpen =>
        cases hReader
        exact .constructed h.path (h.memory session hSession) hOpen
    | reads _ _ hRead =>
        cases hReader
        exact .read h.path (hProducer _ rfl) hRead
    | nextRound => exact hProducer reader hReader
    | pushes => exact hProducer reader hReader
    | openFails => cases hReader
    | leavesLoop => cases hReader
    | givesUp => cases hReader
    | ends => cases hReader

theorem Collecting.allocate {timestampMs : Int64} {outcome : SaveOutcome}
    (hReadable : ClientState.Readable session.state)
    (hStep : client.allocate session timestampMs outcome = some next) : Collecting fileId next := by
  have hMemory := h.memory session hSession
  have hProducer := h.producer session hSession
  obtain ⟨reader, line, lines, messages, hCollecting, hEnds⟩ := allocate_cases hStep
  rcases hEnds with ⟨stateFile, rfl, _, rfl | ⟨hFull, rfl⟩⟩ | ⟨hFull, rfl⟩
  · exact collecting_of_running h.path rfl h.file hMemory nofun
  · exact collecting_of_running h.path rfl (.saved (hReadable.advanced hFull) hMemory) hMemory nofun
  · refine collecting_of_running h.path rfl (.saved (hReadable.advanced hFull) hMemory) hMemory ?_
    intro reader hReader
    cases hReader
    rw [hCollecting] at hProducer
    exact hProducer _ rfl

theorem Collecting.append (hStep : client.append session = some next) : Collecting fileId next := by
  have hMemory := h.memory session hSession
  have hProducer := h.producer session hSession
  obtain ⟨reader, message, lines, messages, hAppending, hEnds⟩ := append_cases hStep
  rcases hEnds with ⟨_, rfl⟩ | ⟨_, rfl⟩
  · exact collecting_of_running h.path rfl h.file hMemory nofun
  · have hLonger := client.contents_sublist message
    refine collecting_of_running h.path rfl (h.file.mono hLonger) (hMemory.mono hLonger) ?_
    intro other hOther
    cases hOther
    rw [hAppending] at hProducer
    obtain ⟨hTracks, hLines⟩ := hProducer _ rfl
    refine ⟨hTracks, ?_⟩
    change List.Sublist _ (contents { client with history := client.history ++ [message] } ++ lines)
    rw [contents_concat, List.append_assoc]
    exact hLines

theorem Collecting.checkpoint {outcome : SaveOutcome}
    (hReadable : ClientState.Readable session.state)
    (hStep : client.checkpoint session outcome = some next) : Collecting fileId next := by
  have hMemory := h.memory session hSession
  have hProducer := h.producer session hSession
  obtain ⟨reader, messages, updated, hCollecting, rfl, stateFile, hEnds⟩ := checkpoint_cases hStep
  rw [hCollecting] at hProducer
  have hRound := hProducer reader rfl
  have hUpdated := hReadable.withCheckpoint reader.committedOffset reader.deviceId reader.inode
  rcases hEnds with ⟨_, rfl, rfl | rfl⟩ | ⟨rfl, ⟨rfl, _⟩ | rfl⟩
  · exact collecting_of_running h.path rfl h.file hMemory nofun
  · exact collecting_of_running h.path rfl (.saved hUpdated hRound.committed) hMemory nofun
  · refine collecting_of_running h.path rfl h.file hRound.committed ?_
    intro other hOther
    cases hOther
    exact hRound
  · refine collecting_of_running h.path rfl (.saved hUpdated hRound.committed) hRound.committed ?_
    intro other hOther
    cases hOther
    exact hRound

theorem Collecting.reply {frame : Bytes} (hConsistent : Consistent client)
    (hStep : client.reply session frame = some next) : Collecting fileId next := by
  have hMemory := h.memory session hSession
  have hProducer := h.producer session hSession
  obtain ⟨hDirectory, _⟩ := hConsistent.running session hSession
  obtain ⟨messages, _, hEnds⟩ :=
    reply_cases hDirectory.pendingValid.within hDirectory.walFile_eq hStep
  rcases hEnds with ⟨_, rfl⟩ | ⟨confirmedId, walFile, _, _, rfl⟩
  · exact collecting_of_running h.path rfl h.file hMemory hProducer
  · exact collecting_of_running h.path rfl h.file hMemory hProducer

end Running

/-- The end of the process keeps what is on disk. -/
theorem Collecting.stopped (h : Collecting fileId client) : Collecting fileId client.stopped :=
  collecting_of_down h.path rfl h.file

theorem Collecting.crashInAppend {outcome : AppendOutcome} (h : Collecting fileId client)
    (hStep : client.crashInAppend session outcome = some next) : Collecting fileId next := by
  obtain ⟨message, _, _, walFile, tail, _, hEnds⟩ := crashInAppend_cases hStep
  rcases hEnds with ⟨_, rfl⟩ | ⟨_, rfl⟩
  · exact collecting_of_down h.path rfl (h.file.mono (client.contents_sublist message))
  · exact collecting_of_down h.path rfl h.file

theorem Consistent.readable (h : Consistent client) (hSession : client.session = some session) :
    ClientState.Readable session.state := by
  obtain ⟨hDirectory, hValid⟩ := h.running session hSession
  exact hDirectory.readable hValid.state

/-- Every action but a change of the log file keeps the invariant. -/
theorem Collecting.step {action : ClientAction} (h : Collecting fileId client)
    (hConsistent : Consistent client) (hAppendOnly : ∀ log, action ≠ .changeLog log)
    (hStep : client.step config action = some next) : Collecting fileId next := by
  cases acts_of_step hStep with
  | appendLog hLog => exact h.appendLog hLog
  | changeLog => exact absurd rfl (hAppendOnly _)
  | deleteState hDown =>
      refine collecting_of_down h.path hDown ?_
      intro data hData
      cases hData
  | start hDown hStart => exact h.start hConsistent hDown hStart
  | thread hSession hMoved => exact h.thread hSession hMoved
  | allocate hSession hAct => exact h.allocate hSession (hConsistent.readable hSession) hAct
  | append hSession hAct => exact h.append hSession hAct
  | checkpoint hSession hAct => exact h.checkpoint hSession (hConsistent.readable hSession) hAct
  | reply hSession hAct => exact h.reply hSession hConsistent hAct
  | finish _ hFinished => exact h.stopped
  | crash _ => exact h.stopped
  | crashInAppend _ hAct => exact h.crashInAppend hAct
  | crashInReply hSession hAct =>
      obtain ⟨hDirectory, _⟩ := hConsistent.running _ hSession
      obtain ⟨_, _, walFile, _, _, rfl, _⟩ :=
        crashInReply_cases hDirectory.pendingValid.within hDirectory.walFile_eq hAct
      exact collecting_of_down h.path rfl h.file

theorem collecting_run {log : FileSystem} {actions : List ClientAction}
    (hPath : log.path = some fileId)
    (hAppendOnly : ∀ action ∈ actions, ∀ other, action ≠ .changeLog other)
    (hRun : Runs.run (Client.step config) { log } actions = some client) :
    Collecting fileId client := by
  have hStart : Consistent { log } ∧ Collecting fileId { log } :=
    ⟨consistent_initial log, collecting_of_down hPath rfl nofun⟩
  have hStep : ∀ state action next, (∀ other, action ≠ ClientAction.changeLog other) →
      Consistent state ∧ Collecting fileId state → Client.step config state action = some next →
      Consistent next ∧ Collecting fileId next := by
    intro state action next hAllowed h hStep
    exact ⟨h.1.step hStep, h.2.step h.1 hAllowed hStep⟩
  exact (@Runs.invariant _ _ _ _ _ _ (fun state => Consistent state ∧ Collecting fileId state) _
    hStart hStep hAppendOnly hRun).2

/-- What a stored checkpoint promises to the next session. -/
structure CheckpointCollected (config : ClientConfig) (client : Client) (fileId : FileId)
    (stored : ClientState) : Prop where
  offset_le : stored.fileOffset.toNat ≤ (client.logBytes fileId).length
  afterNewline : stored.fileOffset.toNat = 0 ∨
    (client.logBytes fileId)[stored.fileOffset.toNat - 1]? = some Text.newline
  logged : (logLines ((client.logBytes fileId).take stored.fileOffset.toNat)).Sublist client.contents
  /-- A reader constructed from the checkpoint skips no line. -/
  skipsNone : ∀ opened polled reader nextReader lines,
    construct config.logPath client.log stored.fileOffset stored.fileDeviceId stored.fileInode
      opened = .ok reader →
    reader.readNewLines client.log polled = (.ok lines, nextReader) →
      (logLines (client.logBytes fileId)).Sublist (client.contents ++ lines)

/-- Over every run on a log file that stays at its path and only grows, with
failing calls and crashes at any point: the state file can be read, and the
lines before its checkpoint are logged in order. -/
theorem checkpoint_collected (config : ClientConfig) (log : FileSystem) (fileId : FileId)
    (actions : List ClientAction) (client : Client) (hPath : log.path = some fileId)
    (hAppendOnly : ∀ action ∈ actions, ∀ other, action ≠ .changeLog other)
    (hRun : Runs.run (Client.step config) { log } actions = some client) (data : Bytes)
    (hData : client.stateFile = some data) :
    ∃ stored, ClientState.load data = .ok stored ∧
      CheckpointCollected config client fileId stored := by
  have hCollecting := collecting_run hPath hAppendOnly hRun
  obtain ⟨stored, rfl, hReadable, hCollected⟩ := hCollecting.file data hData
  refine ⟨_, ClientState.load_stateText hReadable, hCollected.atLineStart.1,
    hCollected.atLineStart.after_newline, hCollected.lines, ?_⟩
  intro opened polled reader nextReader lines hOpen hRead
  have hRound := RoundCollected.constructed hCollecting.path hCollected hOpen
  obtain ⟨_, hOffset, _⟩ := readNewLines_tracks hCollecting.path hRound.tracks hRead
  have hLines := (hRound.read hCollecting.path hRead).lines
  rw [hOffset, List.take_length] at hLines
  exact hLines

theorem checkpoint_collected_sample : ∃ client data stored,
    Runs.run (Client.step sampleConfig) { log := sampleLog } sampleActions = some client ∧
      client.stateFile = some data ∧ ClientState.load data = .ok stored ∧
      CheckpointCollected sampleConfig client ⟨1, 1⟩ stored := by
  obtain ⟨client, data, hRun, _, hData⟩ := sample_run
  have hAppendOnly : ∀ action ∈ sampleActions, ∀ other, action ≠ .changeLog other := by
    simp [sampleActions]
  obtain ⟨stored, hLoad, hCollected⟩ := checkpoint_collected sampleConfig sampleLog ⟨1, 1⟩
    sampleActions client rfl hAppendOnly hRun data hData
  exact ⟨client, data, stored, hRun, hData, hLoad, hCollected⟩

end LogBridge.Client
