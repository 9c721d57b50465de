import LogBridge.Client.Batches
import LogBridge.Client.Reopening
import LogBridge.System.Refinement

/-! No reachable state is a dead end. After one restart of the client, rounds of
a batch, its reply and its compaction deliver all that was ever logged. -/
namespace LogBridge

open Checked Protocol Storage WriteAheadLog Server

namespace System

variable {config : ClientConfig} {dedupPath : Bytes} {system : System} {pending : List LogMessage}
  {state : ClientState}

/-- The first batch of recovered messages is encodable. -/
theorem Joint.encoded (h : Joint system)
    (hSession : system.client.session = some (Client.openedSession pending state)) (hSome : pending ≠ []) :
    EncodableBatch state.clientId (Session.batch pending) := by
  obtain ⟨hDirectory, hValid⟩ := h.consistent.running _ hSession
  have hPart : (Session.batch pending).Sublist pending := List.take_sublist _ _
  have hNonempty : Session.batch pending ≠ [] := by
    rw [Session.batch]
    simpa [sendBatchSize] using hSome
  exact Client.encodable (hDirectory.pendingValid.sublist hPart)
    (fun message hMem => hValid.state.pending message (hPart.subset hMem)) hNonempty
    (List.length_take_le _ _)

/-- The opened session after its first batch was sent. -/
def awaitingSession (pending : List LogMessage) (state : ClientState) : Session :=
  { wal := { pending }, state, consumer := .awaiting pending }

/-- The reply to the first batch makes the client go on behind it. -/
theorem Joint.confirmed (config : ClientConfig) {last : LogMessage} (h : Joint system)
    (hSession : system.client.session = some (awaitingSession pending state))
    (hLast : (Session.batch pending).getLast? = some last) :
    ∃ next, system.client.step config (.reply (serializeAck last.id)) = some next ∧
      next.history = system.client.history ∧
      next.session = some (Client.openedSession (pending.drop sendBatchSize) state) := by
  obtain ⟨hDirectory, _⟩ := h.consistent.running _ hSession
  have hConfirmed : Client.confirmedBy pending (serializeAck last.id) = some last.id := by
    have hAck : deserializeAck (serializeAck last.id) = .ok ⟨last.id⟩ := deserializeAck_eq_ok_iff.mpr rfl
    rw [Client.confirmedBy, hAck, hLast]
    exact if_pos rfl
  have hKept : keptAfter last.id pending = pending.drop sendBatchSize := by
    have hSplit : Session.batch pending ++ pending.drop sendBatchSize = pending :=
      List.take_append_drop _ _
    have hIncreasing : IdsIncreasing (Session.batch pending ++ pending.drop sendBatchSize) := by
      rw [hSplit]
      exact hDirectory.pendingValid.idsIncreasing
    rw [← keptAfter_getLast hIncreasing hLast, hSplit]
  obtain ⟨file, hConfirm, _⟩ := confirm_saved hDirectory.pendingValid.within hDirectory.walFile_eq last.id
  have hReply : system.client.step config (.reply (serializeAck last.id)) =
      system.client.reply (awaitingSession pending state) (serializeAck last.id) := by
    rw [Client.step, hSession, Option.bind_eq_bind, Option.bind_some]
  rw [hReply, Client.reply]
  simp only [awaitingSession] at hConfirm ⊢
  rw [hConfirmed]
  simp only [hConfirm, hKept]
  exact ⟨_, rfl, rfl, rfl⟩

/-- The batch goes out. -/
theorem Joint.sends (config : ClientConfig) (dedupPath : Bytes) (h : Joint system)
    (hSession : system.client.session = some (Client.openedSession pending state)) (hSome : pending ≠ []) :
    ∃ next frame, system.step config dedupPath .send = some next ∧
      serializeLogBatch (Session.batch pending) = .ok frame ∧
      next.client = { system.client with session := some (awaitingSession pending state) } ∧
      next.batches = system.batches ++ [⟨system.client.connection, frame⟩] ∧
      next.replies = system.replies := by
  obtain ⟨frame, hFrame, _⟩ := (h.encoded hSession hSome).encoded
  have hOutgoing : (Client.openedSession pending state).outgoing = some frame := by
    change (serializeLogBatch (Session.batch pending)).toOption = some frame
    rw [hFrame]
    rfl
  obtain ⟨_, hConsumer, _, hAttempt, _⟩ := Client.attempt_of_outgoing config hSession hOutgoing
  cases hConsumer
  exact ⟨_, frame, step_send hSession hOutgoing hAttempt, hFrame, rfl, rfl, rfl⟩

/-- The server answers the last batch in flight. -/
theorem answers_last (config : ClientConfig) (dedupPath : Bytes) {packets : List Packet}
    {connection : Nat} {frame : Bytes} {messages : List LogMessage}
    (hBatches : system.batches = packets ++ [⟨connection, frame⟩])
    (hFrame : serializeLogBatch messages = .ok frame) :
    ∃ next last, system.step config dedupPath (.receiveBatch packets.length none) = some next ∧
      messages.getLast? = some last ∧ next.client = system.client ∧
      next.replies = system.replies ++ [⟨connection, serializeAck last.id⟩] := by
  have hPacket : system.batches[packets.length]? = some ⟨connection, frame⟩ := by
    rw [hBatches]
    exact List.getElem?_concat_length
  have hDecode := decodeLogBatch_of_serialize hFrame
  have hBatch := batchWithinLimits_of_decode hDecode
  exact ⟨_, _, Streams.step_receiveBatch config dedupPath hPacket hDecode hBatch none,
    List.getLast?_eq_some_getLast hBatch.ne_nil, rfl, rfl⟩

/-- One round: the batch goes out, the server answers it, and the reply is taken. -/
theorem Joint.round (config : ClientConfig) (dedupPath : Bytes) (h : Joint system)
    (hSession : system.client.session = some (Client.openedSession pending state)) (hSome : pending ≠ []) :
    ∃ next, Runs.run (System.step config dedupPath) system
        [.send, .receiveBatch system.batches.length none, .receiveReply system.replies.length] = some next ∧
      Joint next ∧ next.client.history = system.client.history ∧
      next.client.session = some (Client.openedSession (pending.drop sendBatchSize) state) := by
  obtain ⟨sent, frame, hSend, hFrame, hSent, hBatches, hReplies⟩ := h.sends config dedupPath hSession hSome
  have hSentJoint := h.step hSend
  obtain ⟨answered, last, hReceive, hLast, hClient, hAnswers⟩ :=
    answers_last config dedupPath hBatches hFrame
  have hAnsweredJoint := hSentJoint.step hReceive
  have hAwaiting : answered.client.session = some (awaitingSession pending state) := by rw [hClient, hSent]
  have hConnection : answered.client.connection = system.client.connection := by rw [hClient, hSent]
  obtain ⟨client, hReply, hHistory, hOpened⟩ := hAnsweredJoint.confirmed config hAwaiting hLast
  have hTake : answered.takeReply system.replies.length =
      some ⟨system.client.connection, serializeAck last.id⟩ := by
    rw [takeReply, hAnswers, hReplies, List.getElem?_concat_length, Option.bind_eq_bind, Option.bind_some,
      if_pos hConnection.symm]
    rfl
  have hTaken : answered.step config dedupPath (.receiveReply system.replies.length) =
      some { answered with client, replies := answered.replies.eraseIdx system.replies.length } := by
    rw [System.step, hTake, Option.bind_eq_bind, Option.bind_some, hReply]
    rfl
  refine ⟨_, Runs.run_cons hSend (Runs.run_cons hReceive (Runs.run_cons hTaken rfl)),
    hAnsweredJoint.step hTaken, ?_, hOpened⟩
  rw [hHistory, hClient, hSent]

/-- The rounds that messages take. -/
def rounds (count : Nat) : Nat := (count + (sendBatchSize - 1)) / sendBatchSize

/-- Rounds until nothing is pending. -/
theorem Joint.drains (config : ClientConfig) (dedupPath : Bytes) (h : Joint system)
    (hSession : system.client.session = some (Client.openedSession pending state)) :
    ∃ actions final, Runs.run (System.step config dedupPath) system actions = some final ∧
      Joint final ∧ final.client.history = system.client.history ∧
      final.client.session = some (Client.openedSession [] state) ∧
      actions.length = 3 * rounds pending.length := by
  induction hLength : pending.length using Nat.strongRecOn generalizing system pending with
  | ind count ih =>
      by_cases hSome : pending = []
      · subst hSome
        exact ⟨[], system, rfl, h, rfl, hSession, by rw [← hLength]; rfl⟩
      · have hPositive := List.length_pos_iff.mpr hSome
        obtain ⟨next, hRound, hNext, hHistory, hOpened⟩ := h.round config dedupPath hSession hSome
        have hFewer : (pending.drop sendBatchSize).length < count := by
          rw [List.length_drop, sendBatchSize]
          omega
        obtain ⟨rest, final, hRun, hFinal, hKept, hEmpty, hRest⟩ := ih _ hFewer hNext hOpened rfl
        refine ⟨_ ++ rest, final, Runs.run_trans hRound hRun, hFinal, hKept.trans hHistory, hEmpty, ?_⟩
        rw [List.length_append, hRest, List.length_drop]
        simp only [rounds, sendBatchSize, List.length_cons, List.length_nil]
        omega

/-! The restart of the client. -/

/-- A step of the system is a step of the client, or leaves the client as it is. A
start of the client is listed as one. -/
theorem client_of_step {action : SystemAction} {next : System}
    (hStep : system.step config dedupPath action = some next) :
    next.client = system.client ∨
      ∃ clientAction, system.client.step config clientAction = some next.client ∧
        ∀ generated walOutcome stateOutcome, clientAction = .start generated walOutcome stateOutcome →
          action = .client clientAction := by
  have hNone : ∀ (clientAction : ClientAction) (generated : Bytes) (walOutcome stateOutcome : SaveOutcome),
      clientAction.isLocal = false → clientAction = .start generated walOutcome stateOutcome →
        action = .client clientAction := by
    intro clientAction generated walOutcome stateOutcome hRemote hStart
    subst hStart
    cases hRemote
  cases action with
  | client clientAction =>
      rw [System.step] at hStep
      split_ifs at hStep with hLocal
      obtain ⟨client, hClient, rfl⟩ := Option.map_eq_some_iff.mp hStep
      exact Or.inr ⟨clientAction, hClient, fun _ _ _ _ => rfl⟩
  | send =>
      obtain ⟨session, _, hRest⟩ := Option.bind_eq_some_iff.mp hStep
      obtain ⟨client, hClient, hRest⟩ := Option.bind_eq_some_iff.mp hRest
      cases hRest
      exact Or.inr ⟨_, hClient, fun _ _ _ => hNone _ _ _ _ rfl⟩
  | receiveBatch index ackError =>
      obtain ⟨packet, _, hRest⟩ := Option.bind_eq_some_iff.mp hStep
      obtain ⟨server, _, hRest⟩ := Option.bind_eq_some_iff.mp hRest
      cases hRest
      exact Or.inl rfl
  | receiveReply index =>
      obtain ⟨packet, _, hRest⟩ := Option.bind_eq_some_iff.mp hStep
      obtain ⟨client, hClient, hRest⟩ := Option.bind_eq_some_iff.mp hRest
      cases hRest
      exact Or.inr ⟨_, hClient, fun _ _ _ => hNone _ _ _ _ rfl⟩
  | crashInReply index outcome =>
      obtain ⟨packet, _, hRest⟩ := Option.bind_eq_some_iff.mp hStep
      obtain ⟨client, hClient, hRest⟩ := Option.bind_eq_some_iff.mp hRest
      cases hRest
      exact Or.inr ⟨_, hClient, fun _ _ _ => hNone _ _ _ _ rfl⟩
  | loseBatch index =>
      cases hStep
      exact Or.inl rfl
  | loseReply index =>
      cases hStep
      exact Or.inl rfl
  | restartServer =>
      obtain ⟨server, _, rfl⟩ := Option.map_eq_some_iff.mp hStep
      exact Or.inl rfl

theorem joint_run {log : FileSystem} {actions : List SystemAction}
    (hRun : Runs.run (System.step config dedupPath) { client := { log } } actions = some system) :
    Joint system ∧ Client.HasRoom system.client := by
  refine Runs.induct (motive := fun _ system => Joint system ∧ Client.HasRoom system.client)
    ⟨joint_initial log, by simp [Client.HasRoom]⟩ ?_ hRun
  intro _ middle _ next _ hPast hStep
  refine ⟨hPast.1.step hStep, ?_⟩
  rcases client_of_step hStep with hSame | ⟨_, hClient, _⟩
  · rw [hSame]
    exact hPast.2
  · exact hPast.2.step hPast.1.consistent hClient

/-- The client is started. -/
theorem Joint.starts {generated : Bytes} (dedupPath : Bytes) (hNamed : config.Named) (h : Joint system)
    (hRoom : Client.HasRoom system.client) (hDown : system.client.session = none)
    (hLog : system.client.log.path ≠ none)
    (hFresh : IsGenerated generated ∧ generated ∉ system.client.generatedIds) :
    ∃ next pending state,
      system.step config dedupPath (.client (.start generated .saved .saved)) = some next ∧
      next.client.history = system.client.history ∧ pending <:+ system.client.history ∧
      next.client.session = some (Client.openedSession pending state) := by
  obtain ⟨pending, tail, hDirectory⟩ := h.consistent.down hDown
  obtain ⟨client, state, hStart, hOpened, _⟩ :=
    Client.start_of_room hNamed hDirectory hRoom hLog hFresh
  have hStep : system.client.step config (.start generated .saved .saved) = some client := by
    rw [Client.step, hDown, if_neg (by simp)]
    exact hStart
  exact ⟨_, pending, state, step_client rfl hStep,
    (Client.start_cases hDown hDirectory hStart).1, hDirectory.suffix, hOpened⟩

/-- A process that runs is killed, and then the client is started. -/
theorem Joint.reopens {generated : Bytes} (dedupPath : Bytes) (hNamed : config.Named) (h : Joint system)
    (hRoom : Client.HasRoom system.client) (hLog : system.client.log.path ≠ none)
    (hFresh : IsGenerated generated ∧ generated ∉ system.client.generatedIds) :
    ∃ actions next pending state, Runs.run (System.step config dedupPath) system actions = some next ∧
      Joint next ∧ next.client.history = system.client.history ∧ pending <:+ system.client.history ∧
      next.client.session = some (Client.openedSession pending state) ∧ actions.length ≤ 2 := by
  cases hSession : system.client.session with
  | none =>
      obtain ⟨next, pending, state, hStart, hHistory, hSuffix, hOpened⟩ :=
        h.starts dedupPath hNamed hRoom hSession hLog hFresh
      exact ⟨[_], next, pending, state, Runs.run_singleton hStart, h.step hStart, hHistory, hSuffix,
        hOpened, by simp⟩
  | some session =>
      have hCrash : system.client.step config .crash = some system.client.stopped := by
        rw [Client.step, hSession]
        rfl
      have hKilled : system.step config dedupPath (.client .crash) =
          some { system with client := system.client.stopped } := step_client rfl hCrash
      have hStopped := h.step hKilled
      obtain ⟨next, pending, state, hStart, hHistory, hSuffix, hOpened⟩ :=
        hStopped.starts dedupPath hNamed hRoom rfl hLog hFresh
      exact ⟨[_, _], next, pending, state, Runs.run_cons hKilled (Runs.run_singleton hStart),
        hStopped.step hStart, hHistory, hSuffix, hOpened, by simp⟩

/-- All that was logged is output, in order and once, and is compacted away. -/
structure Drained (config : ClientConfig) (system final : System) : Prop where
  history : final.client.history = system.client.history
  outputs : final.server.outputs = system.client.history
  compacted : ∃ file,
    WriteAheadLog.construct config.walPath final.client.walFile .saved = (.ok {}, file)
  saved : ∀ message ∈ system.client.history,
    message.id ≤ final.server.dedup.highestConfirmed message.clientId

/-- With nothing pending, all has been output. -/
theorem Joint.drained {final : System} (hNamed : config.Named) (hDedupPath : dedupPath ≠ [])
    (h : Joint final) (hHistory : final.client.history = system.client.history)
    (hSession : final.client.session = some (Client.openedSession [] state)) :
    Drained config system final := by
  have hEnds := h.endToEnd hDedupPath hNamed.walPath
  obtain ⟨pending, hHolds, before, hBefore, hPrefix⟩ := h.held
  obtain rfl : [] = pending := hHolds.memory _ hSession
  obtain ⟨tail, hDirectory⟩ := hHolds.directory
  obtain ⟨file, hLoad, _⟩ := load_eq hDirectory.walFile hDirectory.torn hDirectory.pendingValid
  have hWal : WriteAheadLog.construct config.walPath final.client.walFile .saved = (.ok {}, file) := by
    rw [WriteAheadLog.construct, if_neg hNamed.walPath]
    exact hLoad
  have hOutputs : final.server.outputs = final.client.history := by
    rw [List.append_nil] at hBefore
    rw [hBefore] at hPrefix
    exact h.delivered.outputs.eq_of_length_le hPrefix.length_le
  obtain ⟨others, otherFile, store, hOther, hStore, hSaved⟩ := hEnds.confirmed
  cases hWal.symm.trans hOther
  cases (construct_of_stored hDedupPath h.delivered.stored).symm.trans hStore
  refine ⟨hHistory, hOutputs.trans hHistory, ⟨file, hWal⟩, ?_⟩
  intro message hMem
  exact (hSaved message (hHistory ▸ hMem) (by simp)).2

/-- From every state that any interleaving, crash, lost frame or restart can lead to,
one restart of the client and then one batch, reply and compaction after the other,
ten messages at a time, deliver all that was ever logged. -/
theorem never_stuck (config : ClientConfig) (dedupPath generated : Bytes) (log : FileSystem)
    (past : List SystemAction) (system : System) (hNamed : config.Named) (hDedupPath : dedupPath ≠ [])
    (hRun : Runs.run (System.step config dedupPath) { client := { log } } past = some system)
    (hLog : system.client.log.path ≠ none)
    (hFresh : IsGenerated generated ∧ generated ∉ system.client.generatedIds) :
    ∃ future final, Runs.run (System.step config dedupPath) system future = some final ∧
      Drained config system final ∧
      future.length ≤ 2 + 3 * rounds system.client.history.length := by
  obtain ⟨hJoint, hRoom⟩ := joint_run hRun
  obtain ⟨restart, opened, pending, state, hRestart, hOpenedJoint, hKept, hSuffix, hOpened, hTwo⟩ :=
    hJoint.reopens dedupPath hNamed hRoom hLog hFresh
  obtain ⟨deliveries, final, hDeliver, hFinal, hHistory, hEmpty, hLength⟩ :=
    hOpenedJoint.drains config dedupPath hOpened
  refine ⟨restart ++ deliveries, final, Runs.run_trans hRestart hDeliver,
    hFinal.drained hNamed hDedupPath (hHistory.trans hKept) hEmpty, ?_⟩
  have hPending : rounds pending.length ≤ rounds system.client.history.length :=
    Nat.div_le_div_right (Nat.add_le_add_right hSuffix.length_le _)
  rw [List.length_append, hLength]
  omega

/-! The process is killed before it has sent anything. The message that it logged
comes out all the same. -/

def killedActions : List SystemAction :=
  [.client (.start Client.sampleState.clientId .saved .saved), .client (.thread (.openReader {})),
    .client (.thread (.poll {})), .client (.allocate 7 .saved), .client .append, .client .crash]

theorem never_stuck_sample : ∃ system future final,
    Runs.run (System.step Client.sampleConfig [100]) { client := { log := Client.sampleLog } }
      killedActions = some system ∧
    Runs.run (System.step Client.sampleConfig [100]) system future = some final ∧
    final.server.outputs.map LogMessage.content = [[97]] ∧ future.length ≤ 5 := by
  have hRun : ∃ system, Runs.run (System.step Client.sampleConfig [100])
      { client := { log := Client.sampleLog } } killedActions = some system ∧
      system.client.history.map LogMessage.content = [[97]] ∧ system.client.log.path = some ⟨1, 1⟩ ∧
      system.client.generatedIds = [List.replicate 32 48] := by
    refine ⟨_, Runs.run_cons (step_client rfl (Client.sample_start rfl)) <|
      Runs.run_cons (step_client rfl rfl) <|
      Runs.run_cons (step_client rfl Client.sample_poll) <|
      Runs.run_cons (step_client rfl rfl) <| Runs.run_cons (step_client rfl rfl) <|
      Runs.run_cons (step_client rfl rfl) rfl, rfl, rfl, rfl⟩
  obtain ⟨system, hRun, hHistory, hLog, hIds⟩ := hRun
  obtain ⟨future, final, hFuture, hDrained, hLength⟩ :=
    never_stuck Client.sampleConfig [100] (List.replicate 32 49) Client.sampleLog killedActions system
      ⟨by decide, by decide, by decide⟩ (by decide) hRun (by simp [hLog])
      ⟨by decide, by rw [hIds]; decide⟩
  have hOne : system.client.history.length = 1 := by
    have hCount := congrArg List.length hHistory
    rwa [List.length_map] at hCount
  refine ⟨system, future, final, hRun, hFuture, hDrained.outputs ▸ hHistory, ?_⟩
  rw [hOne] at hLength
  exact hLength

end System
end LogBridge
