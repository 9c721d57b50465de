import LogBridge.Client.Steps
import LogBridge.FileTailReader.Tracking

/-! Message identity over all sessions of a client. The next id in memory, and
the one in the state file, lie above every logged id of their client, and the
recovered messages are the last logged ones; so no id is given out twice, even
where the state file was deleted. -/
namespace LogBridge

open Checked Protocol Storage WriteAheadLog

namespace Client

variable {client : Client} {config : ClientConfig} {session : Session}

/-- The identity that a state carries belongs to the history: the client id is
known, no logged message of that client reaches the next id, and the pending
messages are of that client. -/
structure Identifies (history : List LogMessage) (generatedIds : List Bytes)
    (pending : List LogMessage) (state : ClientState) : Prop where
  known : state.clientId ∈ generatedIds
  nextId_ne_zero : state.nextId ≠ 0
  above : ∀ message ∈ history, message.clientId = state.clientId → message.id < state.nextId
  pending : ∀ message ∈ pending, message.clientId = state.clientId

/-- The data directory belongs to the history. An incomplete frame may follow
the pending messages. -/
structure DirectoryValid (client : Client) (pending : List LogMessage) (tail : Bytes) : Prop where
  increasing : client.history.Pairwise fun first second =>
    first.clientId = second.clientId → first.id < second.id
  known : ∀ message ∈ client.history, message.clientId ∈ client.generatedIds
  generated : ∀ clientId ∈ client.generatedIds, IsGenerated clientId
  suffix : pending <:+ client.history
  pendingValid : PendingValid pending
  walFile : readFile client.walFile = walBytes pending ++ tail
  torn : Torn tail
  stateFile : ∀ data, client.stateFile = some data →
    ∃ stored : ClientState, data = stored.stateText ∧
      Identifies client.history client.generatedIds pending stored

/-- The memory of the process belongs to the history, and the saved next id is
not behind the one in memory. -/
structure SessionValid (client : Client) (session : Session) : Prop where
  state : Identifies client.history client.generatedIds session.wal.pending session.state
  saved : ∃ stored : ClientState, client.stateFile = some stored.stateText ∧
    stored.clientId = session.state.clientId ∧ session.state.nextId ≤ stored.nextId
  unlogged : ∀ message ∈ session.producer.unlogged, message.clientId = session.state.clientId ∧
    message.id < session.state.nextId ∧
    ∀ other ∈ client.history, other.clientId = message.clientId → other.id < message.id

/-- The invariant. While the process runs, the pending messages are those in memory. -/
structure Consistent (client : Client) : Prop where
  down : client.session = none → ∃ pending tail, DirectoryValid client pending tail
  running : ∀ session, client.session = some session →
    DirectoryValid client session.wal.pending [] ∧ SessionValid client session

theorem consistent_of_down {pending : List LogMessage} {tail : Bytes}
    (hSession : client.session = none) (hDirectory : DirectoryValid client pending tail) :
    Consistent client where
  down _ := ⟨pending, tail, hDirectory⟩
  running := by
    intro session hSome
    rw [hSession] at hSome
    cases hSome

theorem consistent_of_running (hSession : client.session = some session)
    (hDirectory : DirectoryValid client session.wal.pending [])
    (hValid : SessionValid client session) : Consistent client where
  down hNone := by
    rw [hSession] at hNone
    cases hNone
  running := by
    intro other hOther
    obtain rfl := Option.some.inj (hSession.symm.trans hOther)
    exact ⟨hDirectory, hValid⟩

/-! What the parts of the invariant depend on. -/

section Frame
variable {pending : List LogMessage} {state : ClientState} {tail : Bytes}

/-- A state of the same client with a next id not below is as good. -/
theorem Identifies.of_le {history : List LogMessage} {generatedIds : List Bytes}
    {other : ClientState} (h : Identifies history generatedIds pending state)
    (hClient : other.clientId = state.clientId) (hLe : state.nextId ≤ other.nextId) :
    Identifies history generatedIds pending other where
  known := hClient ▸ h.known
  nextId_ne_zero := by
    intro hZero
    rw [hZero] at hLe
    exact h.nextId_ne_zero (UInt64.le_zero_iff.mp hLe)
  above message hMem hSame :=
    UInt64.lt_of_lt_of_le (h.above message hMem (hSame.trans hClient)) hLe
  pending message hMem := (h.pending message hMem).trans hClient.symm

theorem Identifies.generated {history : List LogMessage} {generatedIds others : List Bytes}
    (h : Identifies history generatedIds pending state)
    (hOthers : ∀ clientId ∈ generatedIds, clientId ∈ others) :
    Identifies history others pending state :=
  { h with known := hOthers _ h.known }

theorem Identifies.sublist {history part : List LogMessage} {generatedIds : List Bytes}
    (h : Identifies history generatedIds pending state) (hPart : part.Sublist pending) :
    Identifies history generatedIds part state :=
  { h with pending := fun message hMem => h.pending message (hPart.subset hMem) }

/-- The state file may be replaced by that of a state that belongs to the history. -/
theorem DirectoryValid.saved {next : Client} {stored : ClientState}
    (h : DirectoryValid client pending tail) (hWal : next.walFile = client.walFile)
    (hHistory : next.history = client.history) (hGenerated : next.generatedIds = client.generatedIds)
    (hFile : next.stateFile = some stored.stateText)
    (hStored : Identifies client.history client.generatedIds pending stored) :
    DirectoryValid next pending tail where
  increasing := hHistory ▸ h.increasing
  known := by simpa only [hHistory, hGenerated] using h.known
  generated := hGenerated ▸ h.generated
  suffix := hHistory ▸ h.suffix
  pendingValid := h.pendingValid
  walFile := hWal ▸ h.walFile
  torn := h.torn
  stateFile := by
    intro data hData
    rw [hHistory, hGenerated]
    exact ⟨stored, Option.some.inj (hData.symm.trans hFile), hStored⟩

/-- A confirmation drops the first pending messages. -/
theorem DirectoryValid.confirmed {next : Client} (h : DirectoryValid client pending tail)
    (confirmedId : UInt64)
    (hWal : readFile next.walFile = walBytes (keptAfter confirmedId pending))
    (hHistory : next.history = client.history) (hGenerated : next.generatedIds = client.generatedIds)
    (hState : next.stateFile = client.stateFile) :
    DirectoryValid next (keptAfter confirmedId pending) [] where
  increasing := hHistory ▸ h.increasing
  known := by simpa only [hHistory, hGenerated] using h.known
  generated := hGenerated ▸ h.generated
  suffix := hHistory ▸ (keptAfter_suffix h.pendingValid.idsIncreasing confirmedId).trans h.suffix
  pendingValid := h.pendingValid.filter _
  walFile := by rw [hWal, List.append_nil]
  torn := Torn.nil
  stateFile := by
    intro data hData
    obtain ⟨stored, hText, hStored⟩ := h.stateFile data (hState ▸ hData)
    rw [hHistory, hGenerated]
    exact ⟨stored, hText, hStored.sublist List.filter_sublist⟩

end Frame

/-- The session part does not depend on the rest of the process. -/
theorem SessionValid.frame {next : Client} {nextSession : Session} (h : SessionValid client session)
    (hHistory : next.history = client.history) (hGenerated : next.generatedIds = client.generatedIds)
    (hFile : next.stateFile = client.stateFile) (hState : nextSession.state = session.state)
    (hPending : nextSession.wal.pending.Sublist session.wal.pending)
    (hUnlogged : ∀ message ∈ nextSession.producer.unlogged, message ∈ session.producer.unlogged) :
    SessionValid next nextSession where
  state := by
    rw [hHistory, hGenerated, hState]
    exact h.state.sublist hPending
  saved := by
    rw [hFile, hState]
    exact h.saved
  unlogged := by
    intro message hMem
    rw [hHistory, hState]
    exact h.unlogged message (hUnlogged message hMem)

/-! Each action keeps the invariant. -/

/-- The client after the id of a session was generated. -/
def withGenerated (client : Client) (pending : List LogMessage) (generated : Bytes) : Client :=
  { client with
    generatedIds :=
      if client.generates pending then client.generatedIds ++ [generated] else client.generatedIds }

theorem mem_withGenerated {pending : List LogMessage} {generated clientId : Bytes}
    (h : clientId ∈ client.generatedIds) :
    clientId ∈ (client.withGenerated pending generated).generatedIds := by
  unfold withGenerated
  split_ifs
  · exact List.mem_append_left _ h
  · exact h

theorem DirectoryValid.withGenerated {pending : List LogMessage} {tail generated : Bytes}
    (h : DirectoryValid client pending tail)
    (hFresh : client.generates pending → IsGenerated generated ∧ generated ∉ client.generatedIds) :
    DirectoryValid (client.withGenerated pending generated) pending tail where
  increasing := h.increasing
  known message hMem := mem_withGenerated (h.known message hMem)
  generated := by
    unfold Client.withGenerated
    split_ifs with hGenerates
    · intro clientId hMem
      rcases List.mem_append.mp hMem with hOld | hNew
      · exact h.generated clientId hOld
      · rw [List.mem_singleton.mp hNew]
        exact (hFresh hGenerates).1
    · exact h.generated
  suffix := h.suffix
  pendingValid := h.pendingValid
  walFile := h.walFile
  torn := h.torn
  stateFile := by
    intro data hData
    obtain ⟨stored, hText, hStored⟩ := h.stateFile data hData
    exact ⟨stored, hText, hStored.generated fun clientId hMem => mem_withGenerated hMem⟩

theorem DirectoryValid.readable {pending : List LogMessage} {tail : Bytes} {state : ClientState}
    (hDirectory : DirectoryValid client pending tail)
    (h : Identifies client.history client.generatedIds pending state) :
    ClientState.Readable state :=
  ClientState.readable_of_generated (hDirectory.generated _ h.known) h.nextId_ne_zero

/-- A loaded state is the stored one, but for its source path. -/
theorem DirectoryValid.loaded {pending : List LogMessage} {tail generated data : Bytes}
    {base : ClientState} (h : DirectoryValid client pending tail) (hData : client.stateFile = some data)
    (hBase : ClientState.loadOrCreate client.stateFile pending generated = .ok base) :
    ∃ stored : ClientState, data = stored.stateText ∧
      Identifies client.history client.generatedIds pending stored ∧
      base = { stored with sourcePath := stored.sourcePath.takeWhile Text.inLine } := by
  obtain ⟨stored, rfl, hStored⟩ := h.stateFile data hData
  rw [hData, ClientState.loadOrCreate, ClientState.load_stateText (h.readable hStored)] at hBase
  exact ⟨stored, rfl, hStored, (Except.ok.inj hBase).symm⟩

/-- The constructor arrives at a state that belongs to the history: a loaded
state already did, the client id of recovered messages comes with an id above
theirs, and a generated id has no messages. -/
theorem identifies_corrected {pending : List LogMessage} {tail generated sourcePath : Bytes}
    {base corrected : ClientState} (h : DirectoryValid client pending tail)
    (hFresh : client.generates pending → IsGenerated generated ∧ generated ∉ client.generatedIds)
    (hBase : ClientState.loadOrCreate client.stateFile pending generated = .ok base)
    (hCorrected : ClientState.Corrected base sourcePath pending corrected) :
    Identifies client.history (client.withGenerated pending generated).generatedIds pending
      corrected := by
  have hSame : ∀ message ∈ pending, message.clientId = corrected.clientId := fun message hMem =>
    (hCorrected.sameClient message hMem).trans hCorrected.clientId_eq.symm
  cases hFile : client.stateFile with
  | some data =>
      obtain ⟨stored, _, hStored, rfl⟩ := h.loaded hFile hBase
      exact (hStored.generated fun clientId hMem => mem_withGenerated hMem).of_le hCorrected.clientId_eq hCorrected.nextId_le
  | none =>
      rw [hFile] at hBase
      cases pending with
      | nil =>
          cases hBase
          have hGenerates : client.generates [] = true := by simp [generates, hFile]
          have hNew := (hFresh hGenerates).2
          have hUnused : ∀ message ∈ client.history, message.clientId ≠ generated :=
            fun message hMem hEq => hNew (hEq ▸ h.known message hMem)
          have hFirst : Identifies client.history (client.withGenerated [] generated).generatedIds []
              { clientId := generated } := {
            known := by simp [Client.withGenerated, hGenerates]
            nextId_ne_zero := by simp
            above := fun message hMem hEq => absurd hEq (hUnused message hMem)
            pending := by simp }
          exact hFirst.of_le hCorrected.clientId_eq hCorrected.nextId_le
      | cons front rest =>
          cases hBase
          have hFront := List.mem_cons_self (a := front) (l := rest)
          have hAbove := hCorrected.recovered_lt front hFront
          obtain ⟨past, hHistory⟩ := h.suffix
          have hIncreasing := h.increasing
          rw [← hHistory, List.pairwise_append] at hIncreasing
          constructor
          · rw [hCorrected.clientId_eq]
            exact mem_withGenerated (h.known front (h.suffix.subset hFront))
          · intro hZero
            rw [hZero] at hAbove
            exact absurd hAbove UInt64.not_lt_zero
          · intro message hMem hClient
            have hMem : message ∈ past ++ front :: rest := hHistory ▸ hMem
            rcases List.mem_append.mp hMem with hPast | hPending
            · have hBefore := hIncreasing.2.2 message hPast front hFront
                (hClient.trans hCorrected.clientId_eq)
              exact UInt64.lt_trans hBefore hAbove
            · exact hCorrected.recovered_lt message hPending
          · exact hSame

/-- The session as it is opened. -/
def openedSession (pending : List LogMessage) (state : ClientState) : Session :=
  { wal := { pending }, state, consumer := .delivering pending }

/-- A start fails before the state is prepared, and then the state file is as it
was. Or it arrives at a corrected state, which is the loaded one or is in the
file; then it may still fail. -/
theorem start_cases {next : Client} {pending : List LogMessage} {tail generated : Bytes}
    {walOutcome stateOutcome : SaveOutcome} (hSession : client.session = none)
    (h : DirectoryValid client pending tail)
    (hStep : client.start config generated walOutcome stateOutcome = some next) :
    next.history = client.history ∧ next.log = client.log ∧
    ((∃ rest, DirectoryValid next pending rest ∧ next.session = none ∧
        next.stateFile = client.stateFile) ∨
      ∃ base corrected, DirectoryValid next pending [] ∧
        ClientState.loadOrCreate client.stateFile pending generated = .ok base ∧
        ClientState.Corrected base config.logPath pending corrected ∧
        Identifies next.history next.generatedIds pending corrected ∧
        (next.session = none ∨ next.session = some (openedSession pending corrected)) ∧
        (next.stateFile = some corrected.stateText ∨
          next.stateFile = client.stateFile ∧ client.stateFile.isSome ∧ corrected = base)) := by
  rw [Client.start] at hStep
  by_cases hLog : client.log.path = none
  · rw [if_pos hLog] at hStep
    cases hStep
    exact ⟨rfl, rfl, Or.inl ⟨tail, h, hSession, rfl⟩⟩
  rw [if_neg hLog] at hStep
  have hOpened := @construct_cases config.walPath _ _ _ h.walFile h.torn h.pendingValid walOutcome
  rcases hOpened with ⟨walFile, hWal, hNew⟩ | ⟨error, walFile, rest, hWal, hRest, hNew⟩
  · rw [hWal] at hStep
    dsimp only at hStep
    by_cases hUsed : client.generates pending = true ∧
        (¬IsGenerated generated ∨ generated ∈ client.generatedIds)
    · rw [if_pos hUsed] at hStep
      cases hStep
    rw [if_neg hUsed] at hStep
    have hFresh : client.generates pending →
        IsGenerated generated ∧ generated ∉ client.generatedIds := by
      intro hGenerates
      simpa [hGenerates] using hUsed
    have hWith := h.withGenerated hFresh
    have hCleared : DirectoryValid { client.withGenerated pending generated with walFile } pending
        [] := { hWith with walFile := by rw [hNew, List.append_nil], torn := Torn.nil }
    rcases hState : ClientState.construct config.statePath config.logPath client.stateFile pending
      generated stateOutcome with ⟨result, stateFile⟩
    rw [hState] at hStep
    have hCases := ClientState.construct_cases hState
    rcases hCases with ⟨rfl, error, rfl⟩ | ⟨base, corrected, hBase, hCorrected, hEnds⟩
    · cases hStep
      exact ⟨rfl, rfl, Or.inl ⟨[], hCleared, hSession, rfl⟩⟩
    · have hIdentifies := identifies_corrected h hFresh hBase hCorrected
      rcases hEnds with ⟨rfl, hSome, hSame, rfl⟩ | ⟨rfl, hResult⟩
      · cases hStep
        exact ⟨rfl, rfl, Or.inr ⟨base, corrected, { hCleared with }, hBase, hCorrected, hIdentifies,
          Or.inr rfl, Or.inr ⟨rfl, hSome, hSame⟩⟩⟩
      · have hSaved : DirectoryValid { client.withGenerated pending generated with
            walFile, stateFile := some corrected.stateText } pending [] :=
          hCleared.saved rfl rfl rfl rfl hIdentifies
        rcases hResult with rfl | ⟨error, rfl⟩
        · cases hStep
          exact ⟨rfl, rfl, Or.inr ⟨base, corrected, { hSaved with }, hBase, hCorrected, hIdentifies,
            Or.inr rfl, Or.inl rfl⟩⟩
        · cases hStep
          exact ⟨rfl, rfl, Or.inr ⟨base, corrected, hSaved, hBase, hCorrected, hIdentifies,
            Or.inl hSession, Or.inl rfl⟩⟩
  · rw [hWal] at hStep
    cases hStep
    exact ⟨rfl, rfl, Or.inl ⟨rest, { h with walFile := hNew, torn := hRest }, hSession, rfl⟩⟩

/-- A start opens the session, or it fails and leaves a directory that still
belongs to the history. -/
theorem Consistent.start {next : Client} {generated : Bytes} {walOutcome stateOutcome : SaveOutcome}
    (h : Consistent client) (hSession : client.session = none)
    (hStep : client.start config generated walOutcome stateOutcome = some next) :
    Consistent next := by
  obtain ⟨pending, tail, hDirectory⟩ := h.down hSession
  obtain ⟨_, _, hEnds⟩ := start_cases hSession hDirectory hStep
  rcases hEnds with ⟨rest, hNext, hDown, _⟩ |
    ⟨base, corrected, hNext, hBase, hCorrected, hIdentifies, hOpened, hFile⟩
  · exact consistent_of_down hDown hNext
  rcases hOpened with hDown | hOpened
  · exact consistent_of_down hDown hNext
  refine consistent_of_running hOpened hNext ⟨hIdentifies, ?_, nofun⟩
  rcases hFile with hSaved | ⟨hKept, hSome, rfl⟩
  · exact ⟨corrected, hSaved, rfl, UInt64.le_refl _⟩
  · obtain ⟨data, hData⟩ := Option.isSome_iff_exists.mp hSome
    obtain ⟨stored, rfl, _, rfl⟩ := hDirectory.loaded hData hBase
    exact ⟨stored, hKept.trans hData, rfl, UInt64.le_refl _⟩

section Running
variable {next : Client}

/-- The process ends; the directory stays. -/
theorem DirectoryValid.stopped (h : DirectoryValid client session.wal.pending []) :
    Consistent client.stopped :=
  consistent_of_down rfl { h with }

theorem Identifies.advanced {history pending : List LogMessage} {generatedIds : List Bytes}
    {state : ClientState} (h : Identifies history generatedIds pending state)
    (hFull : state.nextId ≠ ClientState.maxId) :
    Identifies history generatedIds pending state.advanced :=
  h.of_le rfl (UInt64.le_of_lt (ClientState.lt_add_one_of_ne_maxId hFull))

/-- An allocation raises the next id in memory and in the file; a failed one
raises it in the file at most. The allocated id is above all earlier ones. -/
theorem consistent_allocate {timestampMs : Int64} {outcome : SaveOutcome}
    (h : DirectoryValid client session.wal.pending []) (hSession : SessionValid client session)
    (hStep : client.allocate session timestampMs outcome = some next) : Consistent next := by
  obtain ⟨reader, line, lines, messages, _, hEnds⟩ := allocate_cases hStep
  rcases hEnds with ⟨stateFile, rfl, _, rfl | ⟨hFull, rfl⟩⟩ | ⟨hFull, rfl⟩
  · refine consistent_of_running rfl { h with } ?_
    exact hSession.frame rfl rfl rfl rfl (List.Sublist.refl _) nofun
  · have hLt := ClientState.lt_add_one_of_ne_maxId hFull
    refine consistent_of_running rfl (h.saved rfl rfl rfl rfl (hSession.state.advanced hFull)) ?_
    exact ⟨hSession.state, ⟨_, rfl, rfl, UInt64.le_of_lt hLt⟩, nofun⟩
  · have hAdvanced := hSession.state.advanced hFull
    refine consistent_of_running rfl (h.saved rfl rfl rfl rfl hAdvanced) ?_
    refine ⟨hAdvanced, ⟨_, rfl, rfl, UInt64.le_refl _⟩, ?_⟩
    intro other hOther
    cases hOther
    exact ⟨rfl, ClientState.lt_add_one_of_ne_maxId hFull, hSession.state.above⟩

/-- The unlogged message may follow the history and the pending messages. -/
theorem DirectoryValid.logged {message : LogMessage}
    (h : DirectoryValid client session.wal.pending []) (hSession : SessionValid client session)
    (hMessage : message ∈ session.producer.unlogged) (hLimits : WithinLimits message)
    (hHistory : next.history = client.history ++ [message])
    (hWal : readFile next.walFile = readFile client.walFile ++ walFrame message)
    (hGenerated : next.generatedIds = client.generatedIds)
    (hFile : next.stateFile = client.stateFile) :
    DirectoryValid next (session.wal.pending ++ [message]) [] ∧
      Identifies next.history next.generatedIds (session.wal.pending ++ [message]) session.state := by
  obtain ⟨hClient, hBelow, hAbove⟩ := hSession.unlogged message hMessage
  obtain ⟨stored, hText, hSame, hLe⟩ := hSession.saved
  have hIdentifies : Identifies next.history next.generatedIds (session.wal.pending ++ [message])
      session.state := by
    rw [hHistory, hGenerated]
    refine ⟨hSession.state.known, hSession.state.nextId_ne_zero, ?_, ?_⟩
    · intro other hMem hOther
      rcases List.mem_append.mp hMem with hOld | hNew
      · exact hSession.state.above other hOld hOther
      · rw [List.mem_singleton.mp hNew]
        exact hBelow
    · intro other hMem
      rcases List.mem_append.mp hMem with hOld | hNew
      · exact hSession.state.pending other hOld
      · rw [List.mem_singleton.mp hNew]
        exact hClient
  refine ⟨?_, hIdentifies⟩
  have hPending : ∀ other ∈ session.wal.pending, other.clientId = message.clientId :=
    fun other hMem => (hSession.state.pending other hMem).trans hClient.symm
  constructor
  · rw [hHistory]
    refine List.pairwise_append.mpr ⟨h.increasing, List.pairwise_singleton _ _, ?_⟩
    intro first hFirst second hSecond hEq
    rw [List.mem_singleton.mp hSecond] at hEq ⊢
    exact hAbove first hFirst hEq
  · rw [hHistory, hGenerated]
    intro other hMem
    rcases List.mem_append.mp hMem with hOld | hNew
    · exact h.known other hOld
    · rw [List.mem_singleton.mp hNew, hClient]
      exact hSession.state.known
  · exact hGenerated ▸ h.generated
  · obtain ⟨past, hPast⟩ := h.suffix
    exact ⟨past, by rw [hHistory, ← hPast, List.append_assoc]⟩
  · refine h.pendingValid.concat hLimits (fun other hMem => ?_) hPending
    exact hAbove other (h.suffix.subset hMem) (hPending other hMem)
  · rw [hWal, h.walFile]
    simp
  · exact Torn.nil
  · intro data hData
    exact ⟨stored, Option.some.inj (hData.symm.trans (hFile.trans hText)),
      hIdentifies.of_le hSame hLe⟩

theorem consistent_append (h : DirectoryValid client session.wal.pending [])
    (hSession : SessionValid client session) (hStep : client.append session = some next) :
    Consistent next := by
  obtain ⟨reader, message, lines, messages, hProducer, hEnds⟩ := append_cases hStep
  rcases hEnds with ⟨_, rfl⟩ | ⟨hLimits, rfl⟩
  · refine consistent_of_running rfl { h with } ?_
    exact hSession.frame rfl rfl rfl rfl (List.Sublist.refl _) nofun
  · have hMessage : message ∈ session.producer.unlogged := by rw [hProducer]; rfl
    let logged : Client := {
      client with
        walFile := some (readFile client.walFile ++ walFrame message)
        history := client.history ++ [message] }
    obtain ⟨hDirectory, hState⟩ : DirectoryValid logged _ [] ∧ _ :=
      h.logged hSession hMessage hLimits rfl rfl rfl rfl
    exact consistent_of_running rfl { hDirectory with } ⟨hState, hSession.saved, nofun⟩

/-- After a crash inside an append the directory holds the message or it does not. -/
theorem crashInAppend_directory {outcome : AppendOutcome}
    (h : DirectoryValid client session.wal.pending []) (hSession : SessionValid client session)
    (hStep : client.crashInAppend session outcome = some next) : next.session = none ∧
      ∃ logged tail, next.history = client.history ++ logged ∧
        DirectoryValid next (session.wal.pending ++ logged) tail := by
  obtain ⟨message, hMessage, hLimits, walFile, tail, hFile, hEnds⟩ := crashInAppend_cases hStep
  rcases hEnds with ⟨rfl, rfl⟩ | ⟨hTorn, rfl⟩
  · let logged : Client := { client with walFile, history := client.history ++ [message] }
    obtain ⟨hDirectory, _⟩ : DirectoryValid logged _ [] ∧ _ :=
      h.logged hSession hMessage hLimits rfl hFile rfl rfl
    exact ⟨rfl, [message], [], rfl, { hDirectory with }⟩
  · rw [h.walFile, List.append_nil] at hFile
    refine ⟨rfl, [], tail, (List.append_nil _).symm, ?_⟩
    rw [List.append_nil]
    exact { h with walFile := hFile, torn := hTorn }

theorem consistent_checkpoint {outcome : SaveOutcome}
    (h : DirectoryValid client session.wal.pending []) (hSession : SessionValid client session)
    (hStep : client.checkpoint session outcome = some next) : Consistent next := by
  obtain ⟨reader, messages, updated, _, hUpdated, stateFile, hEnds⟩ := checkpoint_cases hStep
  have hState : Identifies client.history client.generatedIds session.wal.pending updated := by
    rw [hUpdated]
    exact hSession.state.of_le rfl (UInt64.le_refl _)
  rcases hEnds with ⟨_, rfl, rfl | rfl⟩ | ⟨rfl, ⟨rfl, hSame⟩ | rfl⟩
  · refine consistent_of_running rfl { h with } ?_
    exact hSession.frame rfl rfl rfl rfl (List.Sublist.refl _) nofun
  · refine consistent_of_running rfl (h.saved rfl rfl rfl rfl hState) ?_
    exact ⟨hSession.state, ⟨_, rfl, by rw [hUpdated]; rfl, by rw [hUpdated]; exact UInt64.le_refl _⟩,
      nofun⟩
  · refine consistent_of_running rfl { h with } ?_
    exact hSession.frame rfl rfl rfl hSame (List.Sublist.refl _) nofun
  · refine consistent_of_running rfl (h.saved rfl rfl rfl rfl hState) ?_
    exact ⟨hState, ⟨_, rfl, rfl, UInt64.le_refl _⟩, nofun⟩

theorem DirectoryValid.walFile_eq (h : DirectoryValid client session.wal.pending []) :
    readFile client.walFile = walBytes session.wal.pending := by
  rw [h.walFile, List.append_nil]

/-- A reply either closes the connection or compacts the log. -/
theorem consistent_reply {frame : Bytes} (h : DirectoryValid client session.wal.pending [])
    (hSession : SessionValid client session) (hStep : client.reply session frame = some next) :
    Consistent next := by
  obtain ⟨messages, _, hEnds⟩ := reply_cases h.pendingValid.within h.walFile_eq hStep
  rcases hEnds with ⟨_, rfl⟩ | ⟨confirmedId, walFile, _, hFile, rfl⟩
  · refine consistent_of_running rfl { h with } ?_
    exact hSession.frame rfl rfl rfl rfl (List.Sublist.refl _) fun message hMem => hMem
  · refine consistent_of_running rfl (h.confirmed confirmedId hFile rfl rfl rfl) ?_
    exact hSession.frame rfl rfl rfl rfl List.filter_sublist fun message hMem => hMem

/-- After a crash inside the compaction the directory holds the old or the new
pending messages. -/
theorem crashInReply_directory {frame : Bytes} {outcome : SaveOutcome}
    (h : DirectoryValid client session.wal.pending [])
    (hStep : client.crashInReply session frame outcome = some next) :
    ∃ messages confirmedId pending, session.consumer = .awaiting messages ∧
      confirmedBy messages frame = some confirmedId ∧
      next = { client.stopped with walFile := next.walFile } ∧ DirectoryValid next pending [] ∧
      (pending = session.wal.pending ∨ pending = keptAfter confirmedId session.wal.pending) := by
  obtain ⟨messages, confirmedId, walFile, hConsumer, hConfirmed, rfl, hOld | hNew⟩ :=
    crashInReply_cases h.pendingValid.within h.walFile_eq hStep
  · exact ⟨messages, confirmedId, _, hConsumer, hConfirmed, rfl,
      { h with walFile := by rw [hOld, List.append_nil] }, Or.inl rfl⟩
  · exact ⟨messages, confirmedId, _, hConsumer, hConfirmed, rfl,
      h.confirmed confirmedId hNew rfl rfl rfl, Or.inr rfl⟩

end Running

theorem consistent_initial (log : FileSystem) : Consistent { log } := by
  refine consistent_of_down rfl (?_ : DirectoryValid { log } [] [])
  exact ⟨List.Pairwise.nil, nofun, nofun, List.suffix_rfl, PendingValid.nil, rfl, Torn.nil, nofun⟩

/-- The log file has no part in the identity. -/
theorem Consistent.withLog (h : Consistent client) (log : FileSystem) :
    Consistent { client with log } where
  down hNone := by
    obtain ⟨pending, tail, hDirectory⟩ := h.down hNone
    exact ⟨pending, tail, { hDirectory with }⟩
  running session hSome := by
    obtain ⟨hDirectory, hSession⟩ := h.running session hSome
    exact ⟨{ hDirectory with }, { hSession with }⟩

/-- Every action keeps the invariant. -/
theorem Consistent.step {next : Client} {action : ClientAction} (h : Consistent client)
    (hStep : client.step config action = some next) : Consistent next := by
  cases acts_of_step hStep with
  | appendLog hLog => exact h.withLog _
  | changeLog => exact h.withLog _
  | deleteState hDown =>
      obtain ⟨pending, tail, hDirectory⟩ := h.down hDown
      exact consistent_of_down hDown { hDirectory with stateFile := by simp }
  | start hDown hStart => exact h.start hDown hStart
  | thread hSome hMoved =>
      obtain ⟨hDirectory, hSession⟩ := h.running _ hSome
      obtain ⟨hWal, hState, hUnlogged⟩ := Session.threadStep_keeps hMoved
      refine consistent_of_running rfl ?_ ?_
      · rw [hWal]
        exact { hDirectory with }
      · exact hSession.frame rfl rfl rfl hState (by rw [hWal]) hUnlogged
  | allocate hSome hNext =>
      obtain ⟨hDirectory, hSession⟩ := h.running _ hSome
      exact consistent_allocate hDirectory hSession hNext
  | append hSome hNext =>
      obtain ⟨hDirectory, hSession⟩ := h.running _ hSome
      exact consistent_append hDirectory hSession hNext
  | checkpoint hSome hNext =>
      obtain ⟨hDirectory, hSession⟩ := h.running _ hSome
      exact consistent_checkpoint hDirectory hSession hNext
  | reply hSome hNext =>
      obtain ⟨hDirectory, hSession⟩ := h.running _ hSome
      exact consistent_reply hDirectory hSession hNext
  | finish hSome hFinished => exact (h.running _ hSome).1.stopped
  | crash hSome => exact (h.running _ hSome).1.stopped
  | crashInAppend hSome hNext =>
      obtain ⟨hDirectory, hSession⟩ := h.running _ hSome
      obtain ⟨hDown, _, _, _, hAfter⟩ := crashInAppend_directory hDirectory hSession hNext
      exact consistent_of_down hDown hAfter
  | crashInReply hSome hNext =>
      obtain ⟨hDirectory, _⟩ := h.running _ hSome
      obtain ⟨_, _, _, _, _, hStopped, hAfter, _⟩ := crashInReply_directory hDirectory hNext
      exact consistent_of_down (by rw [hStopped]; rfl) hAfter

theorem consistent_run {log : FileSystem} {actions : List ClientAction}
    (hRun : Runs.run (Client.step config) { log } actions = some client) : Consistent client := by
  refine Runs.induct (motive := fun _ client => Consistent client) (consistent_initial log) ?_ hRun
  intro _ _ _ _ _ h hStep
  exact h.step hStep

/-! The counter within a session. -/

/-- A state in which at most the counter was moved, by one. -/
structure CounterMoved (state next : ClientState) : Prop where
  clientId_eq : next.clientId = state.clientId
  nextId_eq : next.nextId.toNat = state.nextId.toNat ∨
    next.nextId.toNat = state.nextId.toNat + 1

theorem CounterMoved.refl (state : ClientState) : CounterMoved state state := ⟨rfl, Or.inl rfl⟩

theorem counterMoved_allocate {next : Client} {nextSession : Session} {timestampMs : Int64}
    {outcome : SaveOutcome} (hStep : client.allocate session timestampMs outcome = some next)
    (hNext : next.session = some nextSession) : CounterMoved session.state nextSession.state := by
  obtain ⟨reader, line, lines, messages, _, hEnds⟩ := allocate_cases hStep
  rcases hEnds with ⟨stateFile, rfl, _⟩ | ⟨hFull, rfl⟩
  · cases hNext
    exact CounterMoved.refl _
  · cases hNext
    exact ⟨rfl, Or.inr (ClientState.toNat_add_one_of_ne_maxId hFull)⟩

theorem counterMoved_checkpoint {next : Client} {nextSession : Session} {outcome : SaveOutcome}
    (hStep : client.checkpoint session outcome = some next)
    (hNext : next.session = some nextSession) : CounterMoved session.state nextSession.state := by
  obtain ⟨reader, messages, updated, _, rfl, stateFile, hEnds⟩ := checkpoint_cases hStep
  rcases hEnds with ⟨_, rfl, _⟩ | ⟨rfl, _⟩
  · cases hNext
    exact CounterMoved.refl _
  · cases hNext
    exact ⟨rfl, Or.inl rfl⟩

/-- Within a session the counter stays or moves up by one; it never wraps around. -/
theorem counterMoved_step {next : Client} {nextSession : Session} {action : ClientAction}
    (hStep : client.step config action = some next) (hSession : client.session = some session)
    (hNext : next.session = some nextSession) : CounterMoved session.state nextSession.state := by
  have hSame : next.session = client.session → CounterMoved session.state nextSession.state := by
    intro hEq
    obtain rfl := Option.some.inj (hSession.symm.trans (hEq.symm.trans hNext))
    exact CounterMoved.refl _
  cases acts_of_step hStep with
  | appendLog hLog => exact hSame rfl
  | changeLog => exact hSame rfl
  | deleteState hDown => cases hSession.symm.trans hDown
  | start hDown hStart => cases hSession.symm.trans hDown
  | thread hOther hMoved =>
      obtain rfl := Option.some.inj (hSession.symm.trans hOther)
      cases hNext
      rw [(Session.threadStep_keeps hMoved).2.1]
      exact CounterMoved.refl _
  | allocate hOther hAct =>
      obtain rfl := Option.some.inj (hSession.symm.trans hOther)
      exact counterMoved_allocate hAct hNext
  | append hOther hAct =>
      obtain rfl := Option.some.inj (hSession.symm.trans hOther)
      revert hAct
      fun_cases Client.append <;> intro hAct <;> cases hAct <;> cases hNext <;>
        exact CounterMoved.refl _
  | checkpoint hOther hAct =>
      obtain rfl := Option.some.inj (hSession.symm.trans hOther)
      exact counterMoved_checkpoint hAct hNext
  | reply hOther hAct =>
      obtain rfl := Option.some.inj (hSession.symm.trans hOther)
      revert hAct
      fun_cases Client.reply <;> intro hAct <;> cases hAct <;> cases hNext <;>
        exact CounterMoved.refl _
  | finish _ hFinished => cases hNext
  | crash _ => cases hNext
  | crashInAppend _ hAct =>
      revert hAct
      fun_cases Client.crashInAppend with
      | case1 =>
          intro h
          cases h
      | case2 =>
          intro hAct
          cases hAct
          cases hNext
      | case3 =>
          intro h
          cases h
  | crashInReply _ hAct =>
      revert hAct
      fun_cases Client.crashInReply with
      | case1 =>
          intro h
          cases h
      | case2 =>
          intro hAct
          cases hAct
          cases hNext
      | case3 =>
          intro h
          cases h

/-! The guarantee. -/

/-- What a history of sessions guarantees. -/
structure IdentityUnique (config : ClientConfig) (client : Client) : Prop where
  distinct : (client.history.map fun message => (message.clientId, message.id)).Nodup
  increasing : ∀ clientId,
    IdsIncreasing (client.history.filter fun message => message.clientId = clientId)
  /-- The id that would be given out next was never logged under the client id. -/
  counterAbove : ∀ session, client.session = some session → ∀ message ∈ client.history,
    message.clientId = session.state.clientId → message.id < session.state.nextId
  /-- Nothing but an increment by one happens to the counter of a session. -/
  counterMoves : ∀ session action next nextSession, client.session = some session →
    client.step config action = some next → next.session = some nextSession →
    nextSession.state.nextId.toNat = session.state.nextId.toNat ∨
      nextSession.state.nextId.toNat = session.state.nextId.toNat + 1
  /-- At its end the counter is not incremented: the call throws. -/
  counterThrows : ∀ session outcome, client.session = some session →
    session.state.nextId = ClientState.maxId →
    session.state.nextMessageId client.stateFile outcome =
      (.error (.overflowError "message ID space is exhausted"), session.state, client.stateFile)

theorem Consistent.history (h : Consistent client) :
    client.history.Pairwise fun first second =>
      first.clientId = second.clientId → first.id < second.id := by
  cases hSession : client.session with
  | none =>
      obtain ⟨pending, tail, hDirectory⟩ := h.down hSession
      exact hDirectory.increasing
  | some session => exact (h.running session hSession).1.increasing

/-- Over every history of sessions, with failing saves, crashes at any point,
a log file that changes in any way and a state file that may be deleted between
sessions: no message identity is used twice. -/
theorem identity_never_reused (config : ClientConfig) (log : FileSystem)
    (actions : List ClientAction) (client : Client)
    (hRun : Runs.run (Client.step config) { log } actions = some client) :
    IdentityUnique config client := by
  have hConsistent := consistent_run hRun
  have hHistory := hConsistent.history
  constructor
  · rw [List.Nodup, List.pairwise_map]
    refine hHistory.imp ?_
    intro first second hLt hSame
    obtain ⟨hClient, hId⟩ := Prod.mk.inj hSame
    exact UInt64.ne_of_lt (hLt hClient) hId
  · intro clientId
    have hPart := hHistory.sublist (List.filter_sublist (l := client.history)
      (p := fun message => decide (message.clientId = clientId)))
    refine hPart.imp_of_mem ?_
    intro first second hFirst hSecond hLt
    have hFirst := (List.mem_filter.mp hFirst).2
    have hSecond := (List.mem_filter.mp hSecond).2
    exact hLt ((of_decide_eq_true hFirst).trans (of_decide_eq_true hSecond).symm)
  · intro session hSession
    exact (hConsistent.running session hSession).2.state.above
  · intro session action next nextSession hSession hStep hNext
    exact (counterMoved_step hStep hSession hNext).nextId_eq
  · intro session outcome _ hFull
    rw [ClientState.nextMessageId, if_pos hFull]

/-! A run in which one line is logged and the checkpoint moves behind it. -/

def sampleConfig : ClientConfig := { logPath := [108], walPath := [119], statePath := [115] }

def sampleState : ClientState := { clientId := List.replicate 32 48, sourcePath := [108] }

/-- The log file holds the line "a". -/
def sampleLog : FileSystem := { path := some ⟨1, 1⟩, content := fun _ => ⟨[97, 10], by decide⟩ }

def sampleReader : FileTailReader :=
  { path := [108], openFile := some ⟨1, 1⟩, deviceId := 1, inode := 1 }

/-- The first session of a client that was started on an empty data directory. -/
def sampleStarted (log : FileSystem) (producer : Producer) : Client where
  stateFile := some sampleState.stateText
  log
  session := some { wal := {}, state := sampleState, producer, consumer := .delivering [] }
  generatedIds := [sampleState.clientId]

theorem sample_start {log : FileSystem} (h : log.path = some ⟨1, 1⟩) :
    Client.step sampleConfig { log } (.start sampleState.clientId .saved .saved) =
      some (sampleStarted log .opening) := by
  have hGenerated : IsGenerated sampleState.clientId := by decide
  have hState : ClientState.construct [115] [108] none [] sampleState.clientId .saved =
      (.ok sampleState, some sampleState.stateText) := rfl
  have hWal : WriteAheadLog.construct [119] none .saved = (.ok {}, none) := by
    simp [construct, load, loadLoop_end]
  simp [Client.step, Client.start, sampleConfig, h, hWal, hState, generates, hGenerated,
    sampleStarted]

theorem sample_poll :
    Client.step sampleConfig (sampleStarted sampleLog (.polling sampleReader)) (.thread (.poll {})) =
      some (sampleStarted sampleLog (.collecting { sampleReader with offset := 2 } [[97]] [])) := by
  have hRead : sampleReader.readNewLines sampleLog {} =
      (.ok [[97]], { sampleReader with offset := 2 }) := by
    simp [FileTailReader.readNewLines, sampleReader, sampleLog, FileTailReader.replacedBy,
      FileTailReader.readFromOpenFile, FileTailReader.preadLoop, FileTailReader.extractLines_eq]
    rfl
  simp [Client.step, sampleStarted, Session.threadStep, hRead]

def sampleActions : List ClientAction :=
  [.start sampleState.clientId .saved .saved, .thread (.openReader {}), .thread (.poll {}),
    .allocate 7 .saved, .append, .checkpoint .saved]

theorem sample_run : ∃ client data,
    Runs.run (Client.step sampleConfig) { log := sampleLog } sampleActions = some client ∧
      client.history.map LogMessage.content = [[97]] ∧ client.stateFile = some data := by
  have hOpen : Client.step sampleConfig (sampleStarted sampleLog .opening)
      (.thread (.openReader {})) = some (sampleStarted sampleLog (.polling sampleReader)) := rfl
  simp only [sampleActions, Runs.run, sample_start (show sampleLog.path = _ from rfl), hOpen,
    sample_poll, Option.bind_some]
  exact ⟨_, _, rfl, rfl, rfl⟩

theorem identity_never_reused_sample : ∃ client,
    Runs.run (Client.step sampleConfig) { log := sampleLog } sampleActions = some client ∧
      client.history.map LogMessage.content = [[97]] ∧ IdentityUnique sampleConfig client := by
  obtain ⟨client, _, hRun, hHistory, _⟩ := sample_run
  exact ⟨client, hRun, hHistory,
    identity_never_reused sampleConfig sampleLog sampleActions client hRun⟩

end Client
end LogBridge
