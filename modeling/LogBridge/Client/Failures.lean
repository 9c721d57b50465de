import LogBridge.Client.Pipeline

/-! Calls that fail while the client runs on. A failed append ends the producer and
may leave a part of its frame, or the whole frame, in the file. A failed compaction
has dropped the batch from memory but not from the file, and the batch is sent
again. So memory and file may differ, and the threads do not notice. -/
namespace LogBridge

open Checked Protocol Storage WriteAheadLog

namespace Session

/-- The session with other messages in its log. -/
def holding (session : Session) (pending : List LogMessage) : Session :=
  { session with wal := { pending } }

variable {config : ClientConfig} {log : FileSystem} {action : ThreadAction}
  {session next : Session} {disconnects : Bool} {pending : List LogMessage}

@[simp] theorem holding_state : (session.holding pending).state = session.state := rfl
@[simp] theorem holding_producer : (session.holding pending).producer = session.producer := rfl
@[simp] theorem holding_consumer : (session.holding pending).consumer = session.consumer := rfl
@[simp] theorem holding_queue : (session.holding pending).queue = session.queue := rfl
@[simp] theorem holding_pending : (session.holding pending).wal.pending = pending := rfl

/-- The threads do not look at the log. -/
theorem threadStep_holding (pending : List LogMessage)
    (h : session.threadStep config log action = some (next, disconnects)) :
    (session.holding pending).threadStep config log action =
      some (next.holding pending, disconnects) := by
  revert h
  fun_cases Session.threadStep config log session action <;> intro h <;> cases h <;>
    simp_all [Session.threadStep, holding, producerFails]

end Session

/-- The producer has left its loop. -/
def Producer.Ended (producer : Producer) : Prop := producer = .closing ∨ producer = .finished

theorem Producer.not_ended_of_unlogged {producer : Producer} {message : LogMessage}
    (h : message ∈ producer.unlogged) : ¬producer.Ended := by
  rintro (rfl | rfl) <;> cases h

theorem Session.threadStep_ended {config : ClientConfig} {log : FileSystem} {action : ThreadAction}
    {session next : Session} {disconnects : Bool} (hEnded : session.producer.Ended)
    (h : session.threadStep config log action = some (next, disconnects)) : next.producer.Ended := by
  have hMove := Session.threadStep_producer h
  rcases hEnded with hClosing | hFinished
  · rw [hClosing] at hMove
    generalize next.producer = after at hMove
    cases hMove with
    | stays => exact Or.inl rfl
    | ends => exact Or.inr rfl
  · rw [hFinished] at hMove
    generalize next.producer = after at hMove
    cases hMove with
    | stays => exact Or.inr rfl

namespace Client

/-- An append that throws. The catch branch ends the producer. -/
def failAppend (client : Client) (session : Session) (outcome : AppendOutcome) : Option Client :=
  match session.producer with
  | .appending _ message _ _ =>
      match session.wal.append client.walFile message outcome with
      | (.error _, wal, walFile) =>
          some { client with walFile, session := some { session with wal }.producerFails }
      | (.ok (), _, _) => none
  | _ => none

/-- A reply that confirms the batch, and a compaction that throws. The catch branch
closes the connection, and the batch is sent again. -/
def failReply (client : Client) (session : Session) (frame : Bytes) (outcome : SaveOutcome) :
    Option Client :=
  match session.consumer with
  | .awaiting messages =>
      match confirmedBy messages frame with
      | none => none
      | some confirmedId =>
          match session.wal.confirm client.walFile confirmedId outcome with
          | (.error _, wal, walFile) =>
              some { client with
                walFile
                connection := client.connection + 1
                session := some { session with wal, consumer := .delivering messages } }
          | (.ok (), _, _) => none
  | _ => none

/-- A start may find a message whose append had thrown. It is logged from now on. -/
def withRecovered (client : Client) : Client :=
  match client.session with
  | none => client
  | some session => { client with
      history := client.history ++ session.wal.pending.filter fun message => message ∉ client.history }

variable {client next : Client} {config : ClientConfig} {session : Session}

/-- What a failed append leaves: nothing, a part of the frame or all of it. -/
theorem failAppend_cases {outcome : AppendOutcome}
    (h : client.failAppend session outcome = some next) :
    ∃ message ∈ session.producer.unlogged, ∃ walFile added,
      next = { client with walFile, session := some session.producerFails } ∧
      readFile walFile = readFile client.walFile ++ added ∧
      (Torn added ∨ WithinLimits message ∧ added = walFrame message) := by
  revert h
  fun_cases Client.failAppend with
  | case1 reader message lines messages hProducer error wal walFile hAppend =>
      intro h
      cases h
      refine ⟨message, by rw [hProducer]; rfl, walFile, ?_⟩
      cases hFrame : serializeLogMessage message with
      | error encodeError =>
          rw [WriteAheadLog.append, hFrame] at hAppend
          cases hAppend
          exact ⟨[], rfl, (List.append_nil _).symm, Or.inl Torn.nil⟩
      | ok frame =>
          have hLimits := (serializeLogMessage_eq_ok_iff.mp hFrame).1
          obtain ⟨added, hFile, hAdded⟩ := append_file session.wal client.walFile hLimits outcome
          have hSame : wal = session.wal := by
            rw [WriteAheadLog.append, hFrame] at hAppend
            cases outcome with
            | done => cases hAppend
            | notOpened error =>
                cases hAppend
                rfl
            | failed written error =>
                cases hAppend
                rfl
          rw [hAppend] at hFile
          refine ⟨added, by rw [hSame], hFile, ?_⟩
          split_ifs at hAdded
          · exact Or.inr ⟨hLimits, hAdded⟩
          · exact Or.inl hAdded
  | case2 =>
      intro h
      cases h
  | case3 =>
      intro h
      cases h

/-! A confirmation, whatever the file holds. -/

theorem reply_refused {messages : List LogMessage} {frame : Bytes}
    (hAwaiting : session.consumer = .awaiting messages) (hNone : confirmedBy messages frame = none) :
    client.reply session frame = some { client with
      connection := client.connection + 1
      session := some { session with consumer := .delivering messages } } := by
  rw [reply, hAwaiting]
  simp only [hNone]

section Confirm
variable (hWithin : ∀ message ∈ session.wal.pending, WithinLimits message)
include hWithin

theorem reply_ends {frame : Bytes} (h : client.reply session frame = some next) :
    ∃ messages, session.consumer = .awaiting messages ∧
      (confirmedBy messages frame = none ∧ next = { client with
          connection := client.connection + 1
          session := some { session with consumer := .delivering messages } } ∨
        ∃ confirmedId walFile, confirmedBy messages frame = some confirmedId ∧
          (keptAfter confirmedId session.wal.pending = session.wal.pending ∧ walFile = client.walFile ∨
            walFile = some (walBytes (keptAfter confirmedId session.wal.pending))) ∧
          next = { client with
            walFile
            session := some { session with
              wal := { pending := keptAfter confirmedId session.wal.pending }
              consumer := .delivering (messages.drop sendBatchSize) } }) := by
  revert h
  fun_cases Client.reply with
  | case1 messages hConsumer hConfirmed =>
      intro h
      cases h
      exact ⟨messages, hConsumer, Or.inl ⟨hConfirmed, rfl⟩⟩
  | case2 messages hConsumer confirmedId hConfirmed error wal walFile hConfirm =>
      rw [confirm_eq hWithin] at hConfirm
      split_ifs at hConfirm
      · cases hConfirm
      · cases hConfirm
  | case3 messages hConsumer confirmedId hConfirmed wal walFile hConfirm =>
      intro h
      cases h
      refine ⟨messages, hConsumer, Or.inr ⟨confirmedId, walFile, hConfirmed, ?_⟩⟩
      rw [confirm_eq hWithin] at hConfirm
      split_ifs at hConfirm with hSame
      · cases hConfirm
        exact ⟨Or.inl ⟨hSame, rfl⟩, by rw [hSame]⟩
      · cases hConfirm
        exact ⟨Or.inr rfl, rfl⟩
  | case4 =>
      intro h
      cases h

/-- In a view the compaction succeeds. -/
theorem reply_confirmed {messages : List LogMessage} {frame : Bytes} {confirmedId : UInt64}
    (hFile : client.walFile = some (walBytes session.wal.pending))
    (hAwaiting : session.consumer = .awaiting messages)
    (hConfirmed : confirmedBy messages frame = some confirmedId) :
    client.reply session frame = some { client with
      walFile := some (walBytes (keptAfter confirmedId session.wal.pending))
      session := some { session with
        wal := { pending := keptAfter confirmedId session.wal.pending }
        consumer := .delivering (messages.drop sendBatchSize) } } := by
  have hConfirm : session.wal.confirm client.walFile confirmedId .saved =
      (.ok (), { pending := keptAfter confirmedId session.wal.pending },
        some (walBytes (keptAfter confirmedId session.wal.pending))) := by
    rw [confirm_eq hWithin]
    split_ifs with hSame
    · rw [hSame, hFile]
    · rfl
  rw [reply, hAwaiting]
  simp only [hConfirmed, hConfirm]

/-- Only a compaction with something to drop can fail, and it drops it in memory. -/
theorem failReply_cases {frame : Bytes} {outcome : SaveOutcome}
    (h : client.failReply session frame outcome = some next) :
    ∃ messages confirmedId walFile, session.consumer = .awaiting messages ∧
      confirmedBy messages frame = some confirmedId ∧
      (walFile = client.walFile ∨
        walFile = some (walBytes (keptAfter confirmedId session.wal.pending))) ∧
      next = { client with
        walFile
        connection := client.connection + 1
        session := some { session with
          wal := { pending := keptAfter confirmedId session.wal.pending }
          consumer := .delivering messages } } := by
  revert h
  fun_cases Client.failReply with
  | case1 =>
      intro h
      cases h
  | case2 messages hConsumer confirmedId hConfirmed error wal walFile hConfirm =>
      intro h
      cases h
      refine ⟨messages, confirmedId, walFile, hConsumer, hConfirmed, ?_⟩
      rw [confirm_eq hWithin] at hConfirm
      split_ifs at hConfirm with hSame
      · cases hConfirm
      · cases outcome with
        | saved => cases hConfirm
        | failedBeforeRename error =>
            cases hConfirm
            exact ⟨Or.inl rfl, rfl⟩
        | failedAfterRename error =>
            cases hConfirm
            exact ⟨Or.inr rfl, rfl⟩
  | case3 =>
      intro h
      cases h
  | case4 =>
      intro h
      cases h

theorem crashInReply_ends {frame : Bytes} {outcome : SaveOutcome}
    (h : client.crashInReply session frame outcome = some next) :
    ∃ messages confirmedId walFile, session.consumer = .awaiting messages ∧
      confirmedBy messages frame = some confirmedId ∧
      (walFile = client.walFile ∨
        walFile = some (walBytes (keptAfter confirmedId session.wal.pending))) ∧
      next = { client.stopped with walFile } := by
  revert h
  fun_cases Client.crashInReply with
  | case1 =>
      intro h
      cases h
  | case2 messages hConsumer confirmedId hConfirmed walFile =>
      intro h
      cases h
      refine ⟨messages, confirmedId, walFile, hConsumer, hConfirmed, ?_, rfl⟩
      change (session.wal.confirm client.walFile confirmedId outcome).2.2 = _ ∨
        (session.wal.confirm client.walFile confirmedId outcome).2.2 = _
      rw [confirm_eq hWithin]
      split_ifs
      · exact Or.inl rfl
      · cases outcome with
        | saved => exact Or.inr rfl
        | failedBeforeRename error => exact Or.inl rfl
        | failedAfterRename error => exact Or.inr rfl
  | case3 =>
      intro h
      cases h

end Confirm

/-! Views of the client, in which its memory and its file hold other messages. -/

/-- The client as if its log and its file held `pending`, and `extra` were logged. -/
def viewed (client : Client) (session : Session) (extra pending : List LogMessage) : Client :=
  { client with
    walFile := some (walBytes pending)
    history := client.history ++ extra
    session := some (session.holding pending) }

/-- A step that keeps the process running, and is the same step in every view. It
logs messages only if the producer is at work. -/
structure MovesOn (config : ClientConfig) (client : Client) (session : Session) (action : ClientAction)
    (next : Client) (moved : Session) (logged : List LogMessage) : Prop where
  session_eq : next.session = some moved
  pending_eq : moved.wal.pending = session.wal.pending ++ logged
  history_eq : next.history = client.history ++ logged
  file_eq : readFile next.walFile = readFile client.walFile ++ walBytes logged
  ended : session.producer.Ended → logged = [] ∧ moved.producer.Ended
  viewed : ∀ extra pending, logged = [] ∨ extra = [] →
    (client.viewed session extra pending).step config action =
      some (next.viewed moved extra (pending ++ logged))

variable {moved : Session} {action : ClientAction}

/-- A step that logs nothing and leaves the file alone. -/
theorem moves_nothing (hSession : next.session = some moved) (hWal : moved.wal = session.wal)
    (hHistory : next.history = client.history) (hFile : next.walFile = client.walFile)
    (hEnded : session.producer.Ended → moved.producer.Ended)
    (hViewed : ∀ extra pending, (client.viewed session extra pending).step config action =
      some (next.viewed moved extra pending)) :
    MovesOn config client session action next moved [] where
  session_eq := hSession
  pending_eq := by rw [hWal, List.append_nil]
  history_eq := by rw [hHistory, List.append_nil]
  file_eq := by rw [hFile, walBytes_nil, List.append_nil]
  ended h := ⟨rfl, hEnded h⟩
  viewed extra pending _ := by
    rw [List.append_nil]
    exact hViewed extra pending

theorem moves_thread {action : ThreadAction} {disconnects : Bool}
    (hMoved : session.threadStep config client.log action = some (moved, disconnects)) :
    MovesOn config client session (.thread action) { client with
      session := some moved
      connection := if disconnects then client.connection + 1 else client.connection } moved [] := by
  refine moves_nothing rfl (Session.threadStep_keeps hMoved).1 rfl rfl ?_ fun extra pending => ?_
  · intro hEnded
    exact Session.threadStep_ended hEnded hMoved
  · change ((session.holding pending).threadStep config client.log action).bind _ = _
    rw [Session.threadStep_holding pending hMoved]
    rfl

theorem moves_allocate {timestampMs : Int64} {outcome : SaveOutcome}
    (h : client.allocate session timestampMs outcome = some next) :
    ∃ moved, MovesOn config client session (.allocate timestampMs outcome) next moved [] := by
  have hWorking : ¬session.producer.Ended := by
    obtain ⟨reader, line, lines, messages, hProducer, _⟩ := allocate_cases h
    rw [hProducer]
    rintro (hEnded | hEnded) <;> cases hEnded
  revert h
  fun_cases Client.allocate client session timestampMs outcome with
  | case1 reader line lines messages hProducer error state stateFile hNext =>
      intro h
      cases h
      refine ⟨_, moves_nothing rfl rfl rfl rfl (fun hEnded => absurd hEnded hWorking) ?_⟩
      intro extra pending
      change (client.viewed session extra pending).allocate (session.holding pending) _ _ = _
      simp only [allocate, viewed, Session.holding, hProducer, hNext]
      rfl
  | case2 reader line lines messages hProducer id state stateFile hNext message =>
      intro h
      cases h
      refine ⟨_, moves_nothing rfl rfl rfl rfl (fun hEnded => absurd hEnded hWorking) ?_⟩
      intro extra pending
      change (client.viewed session extra pending).allocate (session.holding pending) _ _ = _
      simp only [allocate, viewed, Session.holding, hProducer, hNext]
      rfl
  | case3 =>
      intro h
      cases h

theorem moves_checkpoint {outcome : SaveOutcome}
    (h : client.checkpoint session outcome = some next) :
    ∃ moved, MovesOn config client session (.checkpoint outcome) next moved [] := by
  have hWorking : ¬session.producer.Ended := by
    obtain ⟨reader, messages, updated, hProducer, _⟩ := checkpoint_cases h
    rw [hProducer]
    rintro (hEnded | hEnded) <;> cases hEnded
  revert h
  fun_cases Client.checkpoint client session outcome with
  | case1 reader messages hProducer error state stateFile hUpdate =>
      intro h
      cases h
      refine ⟨_, moves_nothing rfl rfl rfl rfl (fun hEnded => absurd hEnded hWorking) ?_⟩
      intro extra pending
      change (client.viewed session extra pending).checkpoint (session.holding pending) _ = _
      simp only [checkpoint, viewed, Session.holding, hProducer, hUpdate]
      rfl
  | case2 reader messages hProducer state stateFile hUpdate =>
      intro h
      cases h
      refine ⟨_, moves_nothing rfl rfl rfl rfl (fun hEnded => absurd hEnded hWorking) ?_⟩
      intro extra pending
      change (client.viewed session extra pending).checkpoint (session.holding pending) _ = _
      simp only [checkpoint, viewed, Session.holding, hProducer, hUpdate]
  | case3 =>
      intro h
      cases h

/-- A logged message is added to every view. -/
theorem moves_append (h : client.append session = some next) :
    ∃ moved logged, MovesOn config client session .append next moved logged := by
  obtain ⟨reader, message, lines, messages, hProducer, hEnds⟩ := append_cases h
  have hUnlogged : message ∈ session.producer.unlogged := by
    rw [hProducer]
    rfl
  have hWorking := Producer.not_ended_of_unlogged hUnlogged
  rcases hEnds with ⟨hRejected, rfl⟩ | ⟨hLimits, rfl⟩
  · refine ⟨_, [], moves_nothing rfl rfl rfl rfl (fun hEnded => absurd hEnded hWorking) ?_⟩
    intro extra pending
    have hSession : (client.viewed session extra pending).session = some (session.holding pending) := rfl
    exact step_append_rejected hSession hProducer hRejected
  · refine ⟨_, [message], rfl, rfl, rfl, ?_, fun hEnded => absurd hEnded hWorking, ?_⟩
    · simp
    · rintro extra pending (hNone | rfl)
      · cases hNone
      · have hView : (client.viewed session [] pending).session = some (session.holding pending) := rfl
        rw [step_append_taken hView hProducer hLimits]
        simp [viewed, Session.holding]

/-- What the client does without a reply: it moves on, or the process ends. -/
theorem moves_of_step (hSession : client.session = some session) (hReply : action.takesReply = false)
    (hStep : client.step config action = some next) :
    (∃ moved logged, MovesOn config client session action next moved logged) ∨
      next = client.stopped ∨ ∃ outcome, client.crashInAppend session outcome = some next := by
  cases acts_of_step hStep with
  | @appendLog bytes log hLog =>
      refine Or.inl ⟨session, [], moves_nothing hSession rfl rfl rfl id ?_⟩
      intro extra pending
      change (extendLog client.log bytes).map _ = _
      rw [hLog]
      rfl
  | changeLog => exact Or.inl ⟨session, [], moves_nothing hSession rfl rfl rfl id fun _ _ => rfl⟩
  | deleteState hDown => cases hSession.symm.trans hDown
  | start hDown hStart => cases hSession.symm.trans hDown
  | thread hOther hMoved =>
      obtain rfl := Option.some.inj (hSession.symm.trans hOther)
      exact Or.inl ⟨_, [], moves_thread hMoved⟩
  | allocate hOther hAct =>
      obtain rfl := Option.some.inj (hSession.symm.trans hOther)
      obtain ⟨moved, hMoves⟩ := moves_allocate hAct
      exact Or.inl ⟨moved, [], hMoves⟩
  | append hOther hAct =>
      obtain rfl := Option.some.inj (hSession.symm.trans hOther)
      exact Or.inl (moves_append hAct)
  | checkpoint hOther hAct =>
      obtain rfl := Option.some.inj (hSession.symm.trans hOther)
      obtain ⟨moved, hMoves⟩ := moves_checkpoint hAct
      exact Or.inl ⟨moved, [], hMoves⟩
  | reply hOther hAct => cases hReply
  | finish hOther hFinished => exact Or.inr (Or.inl rfl)
  | crash hOther => exact Or.inr (Or.inl rfl)
  | crashInAppend hOther hAct =>
      obtain rfl := Option.some.inj (hSession.symm.trans hOther)
      exact Or.inr (Or.inr ⟨_, hAct⟩)
  | crashInReply hOther hAct => cases hReply

/-! The directory behind a view. -/

/-- The client as if `extra` were logged. -/
def foreseen (client : Client) (extra : List LogMessage) : Client :=
  { client with history := client.history ++ extra }

theorem foreseen_nil (client : Client) : client.foreseen [] = client := by
  rw [foreseen, List.append_nil]

/-- A start does not look at the history. -/
theorem start_foreseen (extra : List LogMessage) {generated : Bytes}
    {walOutcome stateOutcome : SaveOutcome}
    (h : client.start config generated walOutcome stateOutcome = some next) :
    (client.foreseen extra).start config generated walOutcome stateOutcome =
      some (next.foreseen extra) := by
  rw [Client.start] at h ⊢
  dsimp only [foreseen] at h ⊢
  by_cases hLog : client.log.path = none
  · rw [if_pos hLog] at h
    cases h
    exact if_pos hLog
  rw [if_neg hLog] at h
  refine (if_neg hLog).trans ?_
  revert h
  rcases construct config.walPath client.walFile walOutcome with ⟨error | wal, walFile⟩
  · intro h
    cases h
    rfl
  intro h
  dsimp only at h ⊢
  by_cases hUsed : client.generates wal.pending = true ∧
      (¬IsGenerated generated ∨ generated ∈ client.generatedIds)
  · rw [if_pos hUsed] at h
    cases h
  rw [if_neg hUsed] at h
  refine (if_neg hUsed).trans ?_
  revert h
  rcases ClientState.construct config.statePath config.logPath client.stateFile wal.pending generated
    stateOutcome with ⟨error | state, stateFile⟩
  · intro h
    cases h
    rfl
  · intro h
    cases h
    rfl

theorem Identifies.subset {history others : List LogMessage} {generatedIds : List Bytes}
    {pending part : List LogMessage} {state : ClientState}
    (h : Identifies history generatedIds pending state) (hHistory : ∀ message ∈ others, message ∈ history)
    (hPart : ∀ message ∈ part, message ∈ pending) : Identifies others generatedIds part state :=
  { h with
    above := fun message hMem => h.above message (hHistory message hMem)
    pending := fun message hMem => h.pending message (hPart message hMem) }

section Directory
variable {extra before kept stored : List LogMessage} {tail : Bytes}

/-- The file may be rewritten without the first messages and without those that
were never logged. -/
theorem DirectoryValid.withdrawn
    (h : DirectoryValid (client.foreseen extra) (before ++ kept ++ extra) tail)
    (hHistory : next.history = client.history) (hGenerated : next.generatedIds = client.generatedIds)
    (hState : next.stateFile = client.stateFile) (hFile : readFile next.walFile = walBytes kept) :
    DirectoryValid next kept [] := by
  have hOld : ∀ message ∈ client.history, message ∈ (client.foreseen extra).history :=
    fun message hMem => List.mem_append_left _ hMem
  have hPart : kept.Sublist (before ++ kept ++ extra) :=
    (List.sublist_append_right before kept).trans (List.sublist_append_left _ _)
  constructor
  · rw [hHistory]
    exact h.increasing.sublist (List.sublist_append_left _ _)
  · rw [hHistory, hGenerated]
    exact fun message hMem => h.known message (hOld message hMem)
  · rw [hGenerated]
    exact h.generated
  · obtain ⟨past, hPast⟩ := h.suffix
    refine ⟨past ++ before, ?_⟩
    rw [hHistory]
    have hWhole : past ++ before ++ kept ++ extra = client.history ++ extra := by
      simpa only [List.append_assoc, foreseen] using hPast
    exact List.append_cancel_right hWhole
  · exact h.pendingValid.sublist hPart
  · rw [hFile, List.append_nil]
  · exact Torn.nil
  · intro data hData
    obtain ⟨state, hText, hState⟩ := h.stateFile data (hState ▸ hData)
    refine ⟨state, hText, ?_⟩
    rw [hHistory, hGenerated]
    exact hState.subset hOld fun message hMem => hPart.subset hMem

/-- The messages that a start finds have been logged, or they are those foreseen. -/
theorem withRecovered_eq {state : ClientState}
    (hSession : next.session = some (openedSession (kept ++ extra) state))
    (h : DirectoryValid (next.foreseen extra) (kept ++ extra) tail) :
    next.withRecovered = next.foreseen extra := by
  obtain ⟨past, hPast⟩ := h.suffix
  rw [← List.append_assoc] at hPast
  have hKept : past ++ kept = next.history := List.append_cancel_right hPast
  have hOld : kept.filter (fun message => message ∉ next.history) = [] := by
    rw [List.filter_eq_nil_iff]
    intro message hMem
    simp [← hKept, hMem]
  have hNew : extra.filter (fun message => message ∉ next.history) = extra := by
    rw [List.filter_eq_self]
    intro message hMem
    refine decide_eq_true fun hLogged => ?_
    exact UInt64.lt_irrefl _ ((List.pairwise_append.mp h.increasing).2.2 message hLogged message hMem rfl)
  rw [withRecovered, hSession]
  dsimp only [openedSession]
  rw [List.filter_append, hOld, hNew, List.nil_append, foreseen, hSession]
  rfl

/-- In a view the memory agrees with the file. -/
theorem Consistent.viewedDirectory (h : Consistent (client.viewed session extra stored)) :
    DirectoryValid (client.viewed session extra stored) stored [] ∧
      SessionValid (client.viewed session extra stored) (session.holding stored) :=
  h.running _ rfl

theorem Consistent.viewedSelf (h : client.Consistent) (hSession : client.session = some session) :
    Consistent (client.viewed session [] session.wal.pending) := by
  obtain ⟨hDirectory, hValid⟩ := h.running session hSession
  rw [viewed, List.append_nil]
  exact consistent_of_running rfl { hDirectory with walFile := (List.append_nil _).symm } { hValid with }

/-- The directory of the client is that of the view, up to an incomplete frame. -/
theorem Consistent.directory (h : Consistent (client.viewed session extra stored))
    (hHistory : next.history = client.history) (hGenerated : next.generatedIds = client.generatedIds)
    (hState : next.stateFile = client.stateFile)
    (hFile : readFile next.walFile = walBytes stored ++ tail) (hTorn : Torn tail) :
    DirectoryValid (next.foreseen extra) stored tail := by
  obtain ⟨hDirectory, _⟩ := h.viewedDirectory
  have hSame : (next.foreseen extra).history = (client.viewed session extra stored).history := by
    rw [foreseen, hHistory]
    rfl
  constructor
  · exact hSame ▸ hDirectory.increasing
  · rw [hSame, foreseen, hGenerated]
    exact hDirectory.known
  · rw [foreseen, hGenerated]
    exact hDirectory.generated
  · exact hSame ▸ hDirectory.suffix
  · exact hDirectory.pendingValid
  · exact hFile
  · exact hTorn
  · intro data hData
    rw [hSame, foreseen, hGenerated]
    exact hDirectory.stateFile data (hState ▸ hData)

/-- What the threads do besides is of no account for the view. -/
theorem Consistent.viewedFrame (h : Consistent (client.viewed session extra stored))
    (hHistory : next.history = client.history) (hGenerated : next.generatedIds = client.generatedIds)
    (hFile : next.stateFile = client.stateFile) (hState : moved.state = session.state)
    (hUnlogged : ∀ message ∈ moved.producer.unlogged, message ∈ session.producer.unlogged) :
    Consistent (next.viewed moved extra stored) := by
  obtain ⟨_, hSession⟩ := h.viewedDirectory
  have hDirectory : (foreseen { next with walFile := some (walBytes stored) } extra).DirectoryValid
      stored [] := h.directory hHistory hGenerated hFile (List.append_nil _).symm Torn.nil
  refine consistent_of_running rfl { hDirectory with } ?_
  exact hSession.frame (by rw [viewed, hHistory]; rfl) hGenerated hFile hState
    (List.Sublist.refl _) hUnlogged

/-- The memory goes on with the messages that the file was rewritten to. -/
theorem Consistent.viewedWithdrawn
    (h : Consistent (client.viewed session extra (before ++ kept ++ extra)))
    (hHistory : next.history = client.history) (hGenerated : next.generatedIds = client.generatedIds)
    (hFile : next.stateFile = client.stateFile) (hState : moved.state = session.state)
    (hUnlogged : ∀ message ∈ moved.producer.unlogged, message ∈ session.producer.unlogged) :
    Consistent (next.viewed moved [] kept) := by
  obtain ⟨_, hIdentifies, hSaved, hBelow⟩ := h.viewedDirectory
  have hOld : ∀ message ∈ client.history, message ∈ client.history ++ extra :=
    fun message hMem => List.mem_append_left _ hMem
  have hPart : ∀ message ∈ kept, message ∈ before ++ kept ++ extra :=
    fun message hMem => List.mem_append_left _ (List.mem_append_right _ hMem)
  let whole : Client := { client with walFile := some (walBytes (before ++ kept ++ extra)) }
  have hWhole : (whole.foreseen extra).DirectoryValid (before ++ kept ++ extra) [] :=
    h.directory rfl rfl rfl (List.append_nil _).symm Torn.nil
  have hDirectory : DirectoryValid { next with walFile := some (walBytes kept) } kept [] :=
    hWhole.withdrawn hHistory hGenerated hFile rfl
  have hSession : SessionValid next (moved.holding kept) := by
    constructor
    · rw [hHistory, hGenerated, Session.holding_state, hState]
      exact hIdentifies.subset hOld hPart
    · rw [hFile, Session.holding_state, hState]
      exact hSaved
    · rw [hHistory, Session.holding_state, hState, Session.holding_producer]
      intro message hMem
      obtain ⟨hClient, hLt, hAbove⟩ := hBelow message (hUnlogged message hMem)
      exact ⟨hClient, hLt, fun other hOther => hAbove other (hOld other hOther)⟩
  rw [viewed, List.append_nil]
  exact consistent_of_running rfl { hDirectory with } { hSession with }

end Directory

end Client
end LogBridge
