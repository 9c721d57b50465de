import LogBridge.Client.Pipeline

/-! A restart after any run. Whatever call a crash has interrupted, and whether or
not the state file was deleted since, the next start opens a session that holds the
unconfirmed messages again. -/
namespace LogBridge

open Checked Protocol Storage WriteAheadLog

/-- The arguments of the program are not empty. -/
structure ClientConfig.Named (config : ClientConfig) : Prop where
  logPath : config.logPath ≠ []
  walPath : config.walPath ≠ []
  statePath : config.statePath ≠ []

namespace ClientState

theorem foldl_max_ne_maxId {recovered : List LogMessage} {start : UInt64} (hStart : start ≠ maxId)
    (hRoom : ∀ message ∈ recovered, message.id ≠ maxId) :
    recovered.foldl (fun largest message => max largest message.id) start ≠ maxId := by
  induction recovered generalizing start with
  | nil => exact hStart
  | cons first rest ih =>
      rw [List.forall_mem_cons] at hRoom
      rw [List.foldl_cons]
      refine ih ?_ hRoom.2
      change (if start ≤ first.id then first.id else start) ≠ maxId
      split_ifs
      · exact hRoom.1
      · exact hStart

/-- The constructor accepts messages of its client, below the last id. -/
theorem correctNextId_of_room {state : ClientState} {recovered : List LogMessage} (changed : Bool)
    (hClient : ∀ message ∈ recovered, message.clientId = state.clientId)
    (hRoom : ∀ message ∈ recovered, message.id ≠ maxId) :
    ∃ result, state.correctNextId recovered changed = .ok result := by
  have hMaximum := foldl_max_ne_maxId (show (0 : UInt64) ≠ maxId by decide) hRoom
  have hNone : ¬∃ message ∈ recovered, message.clientId ≠ state.clientId := by
    rintro ⟨message, hMem, hOther⟩
    exact hOther (hClient message hMem)
  by_cases hBehind : state.nextId ≤ recovered.foldl (fun largest message => max largest message.id) 0
  · exact ⟨_, throwIf_bind_eq_ok_iff.mpr ⟨hNone, throwIf_bind_eq_ok_iff.mpr ⟨hMaximum, if_pos hBehind⟩⟩⟩
  · exact ⟨_, throwIf_bind_eq_ok_iff.mpr ⟨hNone, throwIf_bind_eq_ok_iff.mpr ⟨hMaximum, if_neg hBehind⟩⟩⟩

/-- Where the state can be loaded and the recovered messages are its own, the
constructor succeeds. -/
theorem construct_of_room {path sourcePath generated : Bytes} {file : Option Bytes}
    {recovered : List LogMessage} {base : ClientState} (hPath : path ≠ []) (hSource : sourcePath ≠ [])
    (hBase : loadOrCreate file recovered generated = .ok base)
    (hClient : ∀ message ∈ recovered, message.clientId = base.clientId)
    (hRoom : ∀ message ∈ recovered, message.id ≠ maxId) :
    ∃ state saved, construct path sourcePath file recovered generated .saved = (.ok state, saved) := by
  have hSame : (base.correctSource sourcePath file.isNone).1.clientId = base.clientId := by
    rw [correctSource]
    split_ifs
    · rfl
    · rfl
  obtain ⟨⟨state, changed⟩, hCorrect⟩ := correctNextId_of_room (base.correctSource sourcePath file.isNone).2
    (fun message hMem => (hClient message hMem).trans hSame.symm) hRoom
  have hPrepare : prepare sourcePath file recovered generated = .ok (state, changed) :=
    bind_eq_ok_iff.mpr ⟨base, hBase, hCorrect⟩
  rw [construct, if_neg (not_or.mpr ⟨hPath, hSource⟩), hPrepare]
  cases changed with
  | false => exact ⟨state, file, rfl⟩
  | true => exact ⟨state, some state.stateText, rfl⟩

end ClientState
namespace Client

variable {config : ClientConfig} {client next : Client} {session : Session}

/-! No logged message has the last id. -/

/-- What an action adds to the history was about to be logged. -/
theorem history_step {action : ClientAction} (hConsistent : Consistent client)
    (hStep : client.step config action = some next) :
    ∃ logged, next.history = client.history ++ logged ∧ ∀ message ∈ logged,
      ∃ session, client.session = some session ∧ message ∈ session.producer.unlogged := by
  have hNone : ∀ other : Client, other.history = client.history → ∃ logged,
      other.history = client.history ++ logged ∧ ∀ message ∈ logged,
        ∃ session, client.session = some session ∧ message ∈ session.producer.unlogged :=
    fun other hSame => ⟨[], by rw [hSame, List.append_nil], by simp⟩
  cases acts_of_step hStep with
  | appendLog hLog => exact hNone _ rfl
  | changeLog => exact hNone _ rfl
  | deleteState hDown => exact hNone _ rfl
  | start hDown hStart =>
      obtain ⟨pending, tail, hDirectory⟩ := hConsistent.down hDown
      exact hNone _ (start_cases hDown hDirectory hStart).1
  | thread hSession hMoved => exact hNone _ rfl
  | allocate hSession hAct =>
      obtain ⟨_, _, _, _, _, ⟨_, rfl, _⟩ | ⟨_, rfl⟩⟩ := allocate_cases hAct
      · exact hNone _ rfl
      · exact hNone _ rfl
  | append hSession hAct =>
      obtain ⟨_, message, _, _, hProducer, ⟨_, rfl⟩ | ⟨_, rfl⟩⟩ := append_cases hAct
      · exact hNone _ rfl
      · refine ⟨[message], rfl, ?_⟩
        intro other hMem
        rw [List.mem_singleton.mp hMem]
        exact ⟨_, hSession, by rw [hProducer]; rfl⟩
  | checkpoint hSession hAct =>
      obtain ⟨_, _, _, _, _, _, ⟨_, rfl, _⟩ | ⟨rfl, _⟩⟩ := checkpoint_cases hAct
      · exact hNone _ rfl
      · exact hNone _ rfl
  | reply hSession hAct =>
      obtain ⟨hDirectory, _⟩ := hConsistent.running _ hSession
      obtain ⟨_, _, ⟨_, rfl⟩ | ⟨_, _, _, _, rfl⟩⟩ :=
        reply_cases hDirectory.pendingValid.within hDirectory.walFile_eq hAct
      · exact hNone _ rfl
      · exact hNone _ rfl
  | finish hSession hFinished => exact hNone _ rfl
  | crash hSession => exact hNone _ rfl
  | crashInAppend hSession hAct =>
      obtain ⟨message, hMem, _, _, _, _, ⟨_, rfl⟩ | ⟨_, rfl⟩⟩ := crashInAppend_cases hAct
      · refine ⟨[message], rfl, ?_⟩
        intro other hOther
        rw [List.mem_singleton.mp hOther]
        exact ⟨_, hSession, hMem⟩
      · exact hNone _ rfl
  | crashInReply hSession hAct =>
      obtain ⟨hDirectory, _⟩ := hConsistent.running _ hSession
      obtain ⟨_, _, _, _, _, hNext, _⟩ := crashInReply_directory hDirectory hAct
      rw [hNext]
      exact hNone _ rfl

/-- The ids leave room for one more. -/
def HasRoom (client : Client) : Prop := ∀ message ∈ client.history, message.id ≠ ClientState.maxId

theorem HasRoom.step {action : ClientAction} (h : HasRoom client) (hConsistent : Consistent client)
    (hStep : client.step config action = some next) : HasRoom next := by
  obtain ⟨logged, hHistory, hLogged⟩ := history_step hConsistent hStep
  intro message hMem
  rw [hHistory, List.mem_append] at hMem
  rcases hMem with hOld | hNew
  · exact h message hOld
  · obtain ⟨session, hSession, hUnlogged⟩ := hLogged message hNew
    obtain ⟨_, hBelow, _⟩ := (hConsistent.running session hSession).2.unlogged message hUnlogged
    -- an id below another one is not the largest
    intro hLast
    rw [hLast, UInt64.lt_iff_toNat_lt] at hBelow
    have hLt := session.state.nextId.toNat_lt
    simp only [ClientState.maxId, UInt64.toNat_ofNat] at hBelow
    omega

theorem hasRoom_run {log : FileSystem} {actions : List ClientAction}
    (hRun : Runs.run (Client.step config) { log } actions = some client) : HasRoom client := by
  have hBoth : Consistent client ∧ HasRoom client := by
    refine Runs.induct (motive := fun _ client => Consistent client ∧ HasRoom client)
      ⟨consistent_initial log, by simp [HasRoom]⟩ ?_ hRun
    intro _ _ _ _ _ hPast hStep
    exact ⟨hPast.1.step hStep, hPast.2.step hPast.1 hStep⟩
  exact hBoth.2

/-! The start. -/

section Start
variable {pending : List LogMessage} {tail generated : Bytes}

/-- The stored state, the client id of the recovered messages or a generated id
is one of which the recovered messages are. -/
theorem DirectoryValid.base (h : DirectoryValid client pending tail) (generated : Bytes) :
    ∃ base, ClientState.loadOrCreate client.stateFile pending generated = .ok base ∧
      ∀ message ∈ pending, message.clientId = base.clientId := by
  cases hFile : client.stateFile with
  | some data =>
      obtain ⟨stored, rfl, hStored⟩ := h.stateFile data hFile
      exact ⟨_, ClientState.load_stateText (h.readable hStored), hStored.pending⟩
  | none =>
      cases pending with
      | nil => exact ⟨{ clientId := generated }, rfl, by simp⟩
      | cons front rest =>
          refine ⟨{ clientId := front.clientId }, rfl, ?_⟩
          intro message hMem
          exact h.pendingValid.sameClient message hMem front List.mem_cons_self

/-- A start whose calls succeed opens the session. -/
theorem start_of_room (hNamed : config.Named) (h : DirectoryValid client pending tail)
    (hRoom : HasRoom client) (hLog : client.log.path ≠ none)
    (hFresh : IsGenerated generated ∧ generated ∉ client.generatedIds) :
    ∃ next state, client.start config generated .saved .saved = some next ∧
      next.session = some (openedSession pending state) ∧
      WriteAheadLog.construct config.walPath client.walFile .saved =
        (.ok { pending }, next.walFile) := by
  obtain ⟨walFile, hLoad, _⟩ := load_eq h.walFile h.torn h.pendingValid
  have hWal : WriteAheadLog.construct config.walPath client.walFile .saved =
      (.ok { pending }, walFile) := by
    rw [WriteAheadLog.construct, if_neg hNamed.walPath]
    exact hLoad
  obtain ⟨base, hBase, hClient⟩ := h.base generated
  obtain ⟨state, saved, hState⟩ := ClientState.construct_of_room hNamed.statePath hNamed.logPath hBase hClient
    fun message hMem => hRoom message (h.suffix.subset hMem)
  have hUnused : ¬(client.generates pending = true ∧
      (¬IsGenerated generated ∨ generated ∈ client.generatedIds)) := by
    rintro ⟨_, hNot | hUsed⟩
    · exact hNot hFresh.1
    · exact hFresh.2 hUsed
  rw [Client.start, if_neg hLog, hWal]
  dsimp only
  rw [if_neg hUnused, hState]
  exact ⟨_, state, rfl, rfl, rfl⟩

end Start

/-- The session holds the messages that the log holds, which are the last ones
logged, under an id of the client, and its next id is above all ids logged under it. -/
structure Reopened (config : ClientConfig) (client next : Client) (session : Session) : Prop where
  opened : next.session = some session
  history : next.history = client.history
  wal : WriteAheadLog.construct config.walPath client.walFile .saved = (.ok session.wal, next.walFile)
  recovered : session.wal.pending <:+ client.history
  redelivers : session.consumer = .delivering session.wal.pending
  state : Identifies next.history next.generatedIds session.wal.pending session.state
  source : session.state.sourcePath = config.logPath

/-- Whatever stopped the process, and wherever: the next start that gets its
calls through opens a session. No run leaves a data directory that `main` refuses. -/
theorem restart_opens (config : ClientConfig) (log : FileSystem) (actions : List ClientAction)
    (client : Client) (generated : Bytes) (hNamed : config.Named)
    (hRun : Runs.run (Client.step config) { log } actions = some client)
    (hDown : client.session = none) (hLog : client.log.path ≠ none)
    (hFresh : IsGenerated generated ∧ generated ∉ client.generatedIds) :
    ∃ next session, client.step config (.start generated .saved .saved) = some next ∧
      Reopened config client next session := by
  have hConsistent := consistent_run hRun
  obtain ⟨pending, tail, hDirectory⟩ := hConsistent.down hDown
  obtain ⟨next, state, hStart, hOpened, hWal⟩ :=
    start_of_room hNamed hDirectory (hasRoom_run hRun) hLog hFresh
  obtain ⟨hHistory, _, hEnds⟩ := start_cases hDown hDirectory hStart
  have hStep : client.step config (.start generated .saved .saved) = some next := by
    rw [Client.step, hDown, if_neg (by simp)]
    exact hStart
  have hState : Identifies next.history next.generatedIds pending state ∧
      state.sourcePath = config.logPath := by
    rcases hEnds with ⟨_, _, hNone, _⟩ | ⟨_, corrected, _, _, hCorrected, hIdentifies, hSession, _⟩
    · cases hNone.symm.trans hOpened
    rcases hSession with hNone | hSession
    · cases hNone.symm.trans hOpened
    · have hSame := Option.some.inj (hOpened.symm.trans hSession)
      obtain rfl : state = corrected := congrArg Session.state hSame
      exact ⟨hIdentifies, hCorrected.sourcePath_eq⟩
  refine ⟨next, openedSession pending state, hStep, ?_⟩
  exact ⟨hOpened, hHistory, hWal, hDirectory.suffix, rfl, hState.1, hState.2⟩

/-! The sample client is killed while it writes a frame of its log, and the
state file is lost with it. -/

def killedActions : List ClientAction :=
  [.start sampleState.clientId .saved .saved, .thread (.openReader {}), .thread (.poll {}),
    .allocate 7 .saved, .crashInAppend (.failed 5 (.systemError "write")), .deleteState]

theorem restart_opens_sample : ∃ client, ∃ next session,
    Runs.run (Client.step sampleConfig) { log := sampleLog } killedActions = some client ∧
      client.step sampleConfig (.start (List.replicate 32 49) .saved .saved) = some next ∧
      Reopened sampleConfig client next session := by
  have hRun : ∃ client, Runs.run (Client.step sampleConfig) { log := sampleLog } killedActions = some client ∧
      client.session = none ∧ client.log.path = some ⟨1, 1⟩ ∧
      client.generatedIds = [List.replicate 32 48] := by
    have hOpen : Client.step sampleConfig (sampleStarted sampleLog .opening)
        (.thread (.openReader {})) = some (sampleStarted sampleLog (.polling sampleReader)) := rfl
    simp only [killedActions, Runs.run, sample_start (show sampleLog.path = _ from rfl), hOpen,
      sample_poll, Option.bind_some]
    exact ⟨_, rfl, rfl, rfl, rfl⟩
  obtain ⟨client, hRun, hDown, hLog, hIds⟩ := hRun
  obtain ⟨next, session, hReopened⟩ := restart_opens sampleConfig sampleLog killedActions client
    (List.replicate 32 49) ⟨by decide, by decide, by decide⟩ hRun hDown (by simp [hLog])
    ⟨by decide, by rw [hIds]; decide⟩
  exact ⟨client, next, session, hRun, hReopened⟩

end Client
end LogBridge
