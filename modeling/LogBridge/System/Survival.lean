import LogBridge.System.Failures
import LogBridge.System.Refinement
import LogBridge.WriteAheadLog.Failures

/-! The failing system does not lose messages. Each of its steps is matched by steps
of the ideal system, so what the client no longer holds has been output. -/
namespace LogBridge

open Checked Protocol Storage WriteAheadLog Watermark Server

namespace System

variable {config : ClientConfig} {dedupPath : Bytes} {system next : System} {shadow : Server}
  {ideal : Client} {session : Session} {acked pending old resent extra : List LogMessage} {tail : Bytes}

theorem Survives.exists_ideal (h : Survives dedupPath system shadow) :
    ∃ ideal acked pending, Ideal dedupPath system ideal shadow acked pending := by
  cases h with
  | down h => exact ⟨_, _, _, h.ideal⟩
  | up h => exact ⟨_, _, _, h.ideal⟩

/-! The server and the network. -/

/-- A watermark in memory never falls. -/
theorem le_handleBatch (server : Server) {messages : List LogMessage}
    (hBatch : BatchWithinLimits messages) (outcome : BatchOutcome) (clientId : Bytes) :
    server.dedup.highestConfirmed clientId ≤
      (server.handleBatch messages outcome).2.dedup.highestConfirmed clientId := by
  obtain ⟨latest, dedup, file, metrics, _, hEnds⟩ := handleBatch_cases server hBatch outcome
  have hAtomic := DedupStore.Session.confirm_atomic server.dedup server.file
    (messages.head hBatch.ne_nil).clientId latest outcome.save
  rcases hEnds with ⟨value, hConfirm, hNext⟩ | ⟨error, hConfirm, hNext⟩
  · rw [hConfirm] at hAtomic
    rw [hNext]
    by_cases hClient : clientId = (messages.head hBatch.ne_nil).clientId
    · rw [hClient]
      exact hAtomic.2
    · exact (hAtomic.1 clientId hClient).symm ▸ UInt64.le_refl _
  · rw [hConfirm] at hAtomic
    rw [hNext]
    exact (hAtomic clientId).symm ▸ UInt64.le_refl _

/-- A batch that is printed and perhaps not saved. The ideal server has saved it, and
its acknowledgement may get lost. -/
theorem Ideal.answers {index : Nat} {packet : Packet} {messages : List LogMessage}
    (config : ClientConfig) (hPath : dedupPath ≠ [])
    (h : Ideal dedupPath system ideal shadow acked pending)
    (hPacket : system.batches[index]? = some packet)
    (hDecode : decodeLogBatch packet.frame = .ok messages) (outcome : BatchOutcome) :
    Ideal dedupPath { system with
      server := (system.server.handleBatch messages outcome).2
      batches := system.batches.eraseIdx index
      replies := system.replies ++
        ((system.server.handleBatch messages outcome).2.acks.drop system.server.acks.length).map
          fun ack => { connection := packet.connection, frame := serializeAck ack.confirmedId } }
      ideal (shadow.handleBatch messages { ackError := outcome.ackError }).2 acked pending := by
  have hBatch := batchWithinLimits_of_decode hDecode
  have hHead := List.head_mem hBatch.ne_nil
  obtain ⟨others, clientId, hOthers, hSame, ⟨before, after, hWhole, _⟩, hOwn⟩ :=
    h.joint.batches packet (List.mem_of_getElem? hPacket)
  obtain rfl := Except.ok.inj (hDecode.symm.trans hOthers)
  have hKnown : ∀ message ∈ messages, message ∈ system.client.history := by
    intro message hMem
    rw [← h.logged, ← show _ = ideal.history from hWhole]
    exact List.mem_append_left _ (List.mem_append_right _ hMem)
  have hGenerated : IsGenerated clientId := by
    have hMem : messages.head hBatch.ne_nil ∈ ideal.history := h.logged ▸ hKnown _ hHead
    rw [← hSame _ hHead]
    exact h.joint.generated hMem
  let beside : System := { system with client := ideal, server := shadow }
  have hBeside : beside.batches[index]? = some packet := hPacket
  have hReceive := Streams.step_receiveBatch config dedupPath hBeside hDecode hBatch outcome.ackError
  have hJoint := h.joint.step hReceive
  have hServer := h.server.batch hPath hBatch hSame (isWord_of_generated hGenerated) hKnown outcome
  obtain ⟨dedup, file, metrics, hHandle, _⟩ := handleBatch_eq shadow hBatch outcome.ackError
  have hOutputs : shadow.outputs <+:
      (shadow.handleBatch messages { ackError := outcome.ackError }).2.outputs := by
    rw [hHandle]
    exact List.prefix_append _ _
  -- the acknowledgement, if there is one, is that of the ideal server
  have hAcks : ∀ ack ∈ (system.server.handleBatch messages outcome).2.acks.drop system.server.acks.length,
      ack.clientId = clientId ∧ ack.confirmedId = (messages.getLast hBatch.ne_nil).id := by
    obtain ⟨latest, store, saved, counts, _, ⟨_, _, hNext⟩ | ⟨_, _, hNext⟩⟩ :=
      handleBatch_cases system.server hBatch outcome
    · rw [hNext, List.drop_left]
      intro ack hMem
      rw [List.mem_singleton.mp hMem]
      exact ⟨hSame _ hHead, rfl⟩
    · rw [hNext, List.drop_length]
      simp
  refine ⟨?_, h.logged, hServer, ?_, h.history_eq, h.output.trans hOutputs, ?_⟩
  · refine hJoint.lose (fun other hMem => hMem) fun other hMem => ?_
    rcases List.mem_append.mp hMem with hOld | hNew
    · exact List.mem_append_left _ hOld
    · obtain ⟨ack, hAck, rfl⟩ := List.mem_map.mp hNew
      rw [(hAcks ack hAck).2]
      exact List.mem_append_right _ (List.mem_singleton_self _)
  · intro other hMem
    rcases List.mem_append.mp hMem with hOld | hNew
    · exact (h.replies other hOld).mono (le_handleBatch system.server hBatch outcome)
    · obtain ⟨ack, hAck, rfl⟩ := List.mem_map.mp hNew
      refine ⟨ack.confirmedId, clientId, rfl, ?_, hOwn⟩
      rw [← (hAcks ack hAck).1]
      exact hServer.remembers.ack_le (List.mem_of_mem_drop hAck)
  · intro message hMem
    exact UInt64.le_trans (h.covered message hMem) (le_handleBatch system.server hBatch outcome _)

/-- A restarted server reads watermarks that are not below those in memory. -/
theorem Ideal.restarts {server : Server} (h : Ideal dedupPath system ideal shadow acked pending)
    (hRestart : system.server.restart dedupPath = .ok server) :
    Ideal dedupPath { system with server } ideal shadow acked pending ∧
      (Agrees system.server shadow → Agrees server shadow) := by
  obtain ⟨disk, hOpen, hLe⟩ := h.server.remembers.opens
  obtain ⟨other, hOther, hRemembers, _⟩ := h.server.remembers.restart
  obtain rfl := Except.ok.inj (hOther.symm.trans hRestart)
  have hSame : other = { system.server with dedup := disk, metrics := {} } := by
    rw [Server.restart] at hRestart
    rw [show DedupStore.construct dedupPath system.server.file = _ from hOpen] at hRestart
    exact (Except.ok.inj hRestart).symm
  rw [hSame] at hRemembers ⊢
  have hBelow := h.server.below disk hOpen
  refine ⟨⟨h.joint, h.logged, ⟨hRemembers, h.server.below, h.server.sublist, h.server.known⟩, ?_,
    h.history_eq, h.output, ?_⟩, ?_⟩
  · intro packet hMem
    exact (h.replies packet hMem).mono hLe
  · intro message hMem
    exact UInt64.le_trans (h.covered message hMem) (hLe _)
  · rintro ⟨hOutputs, hWatermarks⟩
    refine ⟨hOutputs, fun clientId => UInt64.le_antisymm (hBelow clientId) ?_⟩
    rw [← hWatermarks]
    exact hLe clientId

/-- Frames may get lost. -/
theorem Ideal.lose {batches replies : List Packet}
    (h : Ideal dedupPath system ideal shadow acked pending)
    (hBatches : ∀ packet ∈ batches, packet ∈ system.batches)
    (hReplies : ∀ packet ∈ replies, packet ∈ system.replies) :
    Ideal dedupPath { system with batches, replies } ideal shadow acked pending :=
  { h with
    joint := h.joint.lose hBatches hReplies
    replies := fun packet hMem => h.replies packet (hReplies packet hMem) }

/-! The client at work. -/

theorem viewed_eq (client : Client) (session : Session) (pending : List LogMessage) :
    client.viewed session [] pending = { client with
      walFile := some (walBytes pending), session := some (session.holding pending) } := by
  rw [Client.viewed, List.append_nil]

theorem Up.work {action : ClientAction} {client : Client} {moved : Session} {logged : List LogMessage}
    {batches : List Packet} (h : Up dedupPath system session shadow acked old resent extra tail)
    (hMoves : Client.MovesOn config system.client session action client moved logged)
    (hJoint : Joint { system with
      client := client.viewed moved [] (resent ++ session.wal.pending ++ logged)
      server := shadow, batches }) :
    Up dedupPath { system with client, batches } moved shadow acked old resent extra tail := by
  have hStep := hMoves.viewed [] (resent ++ session.wal.pending) (Or.inr rfl)
  have hNothing : logged = [] ∨ extra = [] ∧ tail = [] := by
    rcases h.clean with hClean | hEnded
    · exact Or.inr hClean
    · exact Or.inl (hMoves.ended hEnded).1
  refine ⟨hMoves.session_eq, ?_, ?_, ?_, h.torn, ?_⟩
  · rw [List.append_assoc, ← hMoves.pending_eq] at hJoint hStep
    refine h.ideal.client hJoint (fun _ _ hOwn => hOwn.step h.ideal.joint.consistent hStep)
      (by rw [viewed_eq]) hMoves.history_eq ?_ h.ideal.output h.ideal.covered
    rw [hMoves.history_eq, ← h.ideal.history_eq, hMoves.pending_eq, List.append_assoc]
  · have hView := h.disk.step (hMoves.viewed extra _ (hNothing.imp id And.left))
    rw [hMoves.pending_eq]
    rcases hNothing with rfl | ⟨rfl, _⟩
    · simpa only [List.append_nil] using hView
    · simpa only [List.append_nil, List.append_assoc] using hView
  · rw [hMoves.file_eq, h.file, hMoves.pending_eq]
    rcases hNothing with rfl | ⟨rfl, rfl⟩
    · simp
    · simp
  · exact h.clean.imp id fun hEnded => (hMoves.ended hEnded).2

/-! The end of the process. -/

/-- The client goes down with what its file holds. -/
theorem Ideal.halts {client : Client} {added before kept : List LogMessage}
    (h : Ideal dedupPath system ideal shadow acked pending) (hDown : client.session = none)
    (hLe : ideal.connection ≤ client.connection)
    (hClosed : ideal.session = none ∨ ideal.connection < client.connection)
    (hHistory : client.history = system.client.history ++ added)
    (hDirectory : (client.foreseen extra).DirectoryValid (kept ++ extra) tail)
    (hEq : before ++ kept = client.history) (hOutput : before <+: shadow.outputs)
    (hCovered : ∀ message ∈ before,
      message.id ≤ system.server.dedup.highestConfirmed message.clientId) :
    Down dedupPath { system with client } shadow before kept extra tail := by
  have hWhole : (client.foreseen extra).DirectoryValid ([] ++ kept ++ extra) tail := hDirectory
  have hKept : Client.DirectoryValid { client with walFile := some (walBytes kept) } kept [] :=
    hWhole.withdrawn rfl rfl rfl rfl
  have hBelongs : ∀ connection clientId, ideal.Belongs connection clientId →
      Client.Belongs { client with walFile := some (walBytes kept) } connection clientId :=
    fun _ _ hOwn => belongs_down hOwn hDown hLe hClosed
  have hJoint : Joint { system with
      client := { client with walFile := some (walBytes kept) }, server := shadow } := by
    have hLonger : client.history = ideal.history ++ added := by rw [hHistory, h.logged]
    refine h.joint.replaced (Client.consistent_of_down hDown hKept) hLonger ?_ ?_ hBelongs
    · exact ⟨kept, Client.holds_of_down hDown hKept, before, hEq, hOutput⟩
    · intro session hSession
      cases hSession.symm.trans hDown
  exact ⟨hDown, h.client hJoint hBelongs rfl hHistory hEq hOutput hCovered, hDirectory⟩

theorem Up.old_suffix (h : Up dedupPath system session shadow acked old resent extra tail) :
    ∃ before, before ++ old = acked := by
  obtain ⟨past, hPast⟩ := h.disk.viewedDirectory.1.suffix
  refine ⟨past, ?_⟩
  have hHistory : past ++ (old ++ session.wal.pending ++ extra) =
      acked ++ session.wal.pending ++ extra := by
    rw [h.ideal.history_eq]
    exact hPast
  rw [← List.append_assoc, ← List.append_assoc] at hHistory
  exact List.append_cancel_right (List.append_cancel_right hHistory)

theorem Up.crash (h : Up dedupPath system session shadow acked old resent extra tail) :
    Survives dedupPath { system with client := system.client.stopped } shadow := by
  obtain ⟨before, hBefore⟩ := h.old_suffix
  have hDirectory : (system.client.stopped.foreseen extra).DirectoryValid _ tail :=
    h.disk.directory rfl rfl rfl h.file h.torn
  refine .down (h.ideal.halts rfl (Nat.le_succ _) (Or.inr (Nat.lt_succ_self _))
    (List.append_nil _).symm hDirectory (?_ : before ++ _ = _) ?_ ?_)
  · rw [← List.append_assoc, hBefore]
    exact h.ideal.history_eq
  · exact (hBefore ▸ List.prefix_append before old).trans h.ideal.output
  · intro message hMem
    exact h.ideal.covered message (hBefore ▸ List.mem_append_left old hMem)

/-- A producer at work finds the file as it should be. -/
theorem Up.clean_of_unlogged {message : LogMessage}
    (h : Up dedupPath system session shadow acked old resent extra tail)
    (hMessage : message ∈ session.producer.unlogged) : extra = [] ∧ tail = [] :=
  h.clean.resolve_right (Producer.not_ended_of_unlogged hMessage)

theorem Up.crashInAppend {client : Client} {outcome : AppendOutcome}
    (h : Up dedupPath system session shadow acked old resent extra tail)
    (hStep : system.client.crashInAppend session outcome = some client) :
    Survives dedupPath { system with client } shadow := by
  obtain ⟨message, hMessage, hLimits, walFile, added, hFile, hEnds⟩ := Client.crashInAppend_cases hStep
  obtain ⟨rfl, rfl⟩ := h.clean_of_unlogged hMessage
  obtain ⟨before, hBefore⟩ := h.old_suffix
  have hOutput : before <+: shadow.outputs :=
    (hBefore ▸ List.prefix_append before old).trans h.ideal.output
  have hCovered : ∀ message ∈ before,
      message.id ≤ system.server.dedup.highestConfirmed message.clientId := by
    intro message hMem
    exact h.ideal.covered message (hBefore ▸ List.mem_append_left old hMem)
  have hEq : before ++ (old ++ session.wal.pending) = system.client.history := by
    rw [← List.append_assoc, hBefore]
    exact h.ideal.history_eq
  have hClosed : system.client.connection < system.client.connection + 1 := Nat.lt_succ_self _
  rw [h.file, List.append_nil, List.append_nil] at hFile
  rcases hEnds with ⟨rfl, rfl⟩ | ⟨hTorn, rfl⟩
  · obtain ⟨hView, hSession⟩ := h.disk.viewedDirectory
    rw [List.append_nil] at hView hSession
    let client : Client :=
      { system.client.stopped with walFile, history := system.client.history ++ [message] }
    have hHistory : client.history =
        (system.client.viewed session [] (old ++ session.wal.pending)).history ++ [message] := by
      rw [viewed_eq]
    have hDirectory : (client.foreseen []).DirectoryValid
        (old ++ session.wal.pending ++ [message] ++ []) [] := by
      rw [Client.foreseen_nil, List.append_nil]
      exact (Client.DirectoryValid.logged hView hSession hMessage hLimits hHistory hFile rfl rfl).1
    refine .down (h.ideal.halts rfl hClosed.le (Or.inr hClosed) rfl hDirectory ?_ hOutput hCovered)
    rw [← hEq]
    simp only [List.append_assoc]
  · have hDirectory : (Client.foreseen { system.client.stopped with walFile } []).DirectoryValid
        (old ++ session.wal.pending ++ []) added := by
      refine h.disk.directory rfl rfl rfl ?_ hTorn
      rw [List.append_nil]
      exact hFile
    exact .down (h.ideal.halts rfl hClosed.le (Or.inr hClosed) (List.append_nil _).symm hDirectory hEq
      hOutput hCovered)

/-! A reply. -/

theorem keptAfter_append (confirmedId : UInt64) (first second : List LogMessage) :
    keptAfter confirmedId (first ++ second) = keptAfter confirmedId first ++ keptAfter confirmedId second :=
  List.filter_append ..

/-- The confirmation of a message covers all messages before it. -/
theorem keptAfter_eq_nil {confirmedId : UInt64} {first second : List LogMessage}
    (hIncreasing : IdsIncreasing (first ++ second))
    (hSome : keptAfter confirmedId second ≠ second) : keptAfter confirmedId first = [] := by
  obtain ⟨message, hMem, hLe⟩ : ∃ message ∈ second, message.id ≤ confirmedId := by
    by_contra hNone
    push Not at hNone
    exact hSome (keptAfter_eq_self_iff.mpr fun message hMem => UInt64.not_le.mp (hNone message hMem))
  rw [keptAfter, List.filter_eq_nil_iff]
  intro other hOther
  have hLt := (List.pairwise_append.mp hIncreasing).2.2 other hOther message hMem
  simpa using UInt64.le_trans (UInt64.le_of_lt hLt) hLe

/-- What a confirmation drops has been output, and the server remembers it. -/
theorem Up.confirms {packet : Packet} {messages : List LogMessage} {confirmedId : UInt64}
    (h : Up dedupPath system session shadow acked old resent extra tail)
    (hPacket : packet ∈ system.replies) (hConnection : packet.connection = system.client.connection)
    (hAwaiting : session.consumer = .awaiting messages)
    (hConfirmed : Client.confirmedBy messages packet.frame = some confirmedId) :
    ∃ dropped, dropped ++ keptAfter confirmedId session.wal.pending = session.wal.pending ∧
      acked ++ dropped <+: shadow.outputs ∧
      ∀ message ∈ acked ++ dropped,
        message.id ≤ system.server.dedup.highestConfirmed message.clientId := by
  obtain ⟨hDirectory, hSession⟩ := h.ideal.joint.consistent.running _ rfl
  have hIncreasing : IdsIncreasing (resent ++ session.wal.pending) :=
    hDirectory.pendingValid.idsIncreasing
  have hPending := hIncreasing.sublist (List.sublist_append_right resent _)
  obtain ⟨dropped, hDropped⟩ := keptAfter_suffix hPending confirmedId
  refine ⟨dropped, hDropped, ?_, ?_⟩
  · by_cases hSame : keptAfter confirmedId session.wal.pending = session.wal.pending
    · have hNothing : dropped = [] := by
        rw [hSame] at hDropped
        exact List.append_left_eq_self.mp hDropped
      rw [hNothing, List.append_nil]
      exact h.ideal.output
    · -- the batch reaches into the pending messages, so nothing before them is left
      have hHeld : (session.holding (resent ++ session.wal.pending)).consumer.held = some messages := by
        rw [Session.holding_consumer, hAwaiting]
        rfl
      obtain ⟨rest, hBatch, _⟩ := Client.batch_append (h.ideal.joint.piped _ rfl) hHeld
      have hKept := Client.keptAfter_confirmedBy hIncreasing hBatch hConfirmed
      obtain ⟨before, hBefore, hOutput⟩ :=
        h.ideal.joint.batchOutput rfl hPacket hConnection hBatch hConfirmed
      rw [← hKept, Session.holding_pending, keptAfter_append, keptAfter_eq_nil hIncreasing hSame,
        List.nil_append] at hBefore
      have hAll : before ++ keptAfter confirmedId session.wal.pending =
          acked ++ dropped ++ keptAfter confirmedId session.wal.pending := by
        rw [List.append_assoc, hDropped, h.ideal.history_eq, ← h.ideal.logged]
        exact hBefore
      exact List.append_cancel_right hAll ▸ hOutput
  · intro message hMem
    rcases List.mem_append.mp hMem with hOld | hNew
    · exact h.ideal.covered message hOld
    · obtain ⟨hFrame, _⟩ := Client.confirmedBy_cases hConfirmed
      obtain ⟨replyId, clientId, hReply, hCovered, hOwn⟩ := h.ideal.replies packet hPacket
      obtain rfl := serializeAck_injective (hReply.symm.trans hFrame)
      have hMessage : message ∈ session.wal.pending := hDropped ▸ List.mem_append_left _ hNew
      have hClient : message.clientId = clientId :=
        (hSession.state.pending message (List.mem_append_right _ hMessage)).trans
          (hOwn.running _ rfl hConnection)
      rw [hClient]
      refine UInt64.le_trans ?_ hCovered
      by_contra hAbove
      have hKept : message ∈ keptAfter replyId session.wal.pending :=
        List.mem_filter.mpr ⟨hMessage, decide_eq_true hAbove⟩
      rw [← hDropped] at hPending
      exact UInt64.lt_irrefl _ ((List.pairwise_append.mp hPending).2.2 message hNew message hKept)

/-- The client after a reply. Its file is as before, or it was rewritten, and the
ideal client takes a step that leaves it with `more` and the pending messages. -/
theorem Up.replied {action : ClientAction} {client : Client}
    (h : Up dedupPath system session shadow acked old resent extra tail)
    (moved : Session) (dropped more : List LogMessage)
    (hStep : (system.client.viewed session [] (resent ++ session.wal.pending)).step config action =
      some (client.viewed moved [] (more ++ moved.wal.pending)))
    (hJoint : Joint { system with
      client := client.viewed moved [] (more ++ moved.wal.pending), server := shadow })
    (hSame : client = { system.client with
      walFile := client.walFile, connection := client.connection, session := some moved })
    (hState : moved.state = session.state) (hProducer : moved.producer = session.producer)
    (hDropped : dropped ++ moved.wal.pending = session.wal.pending)
    (hFile : client.walFile = system.client.walFile ∨
      client.walFile = some (walBytes moved.wal.pending))
    (hOutput : acked ++ dropped <+: shadow.outputs)
    (hCovered : ∀ message ∈ acked ++ dropped,
      message.id ≤ system.server.dedup.highestConfirmed message.clientId) :
    Survives dedupPath { system with client } shadow := by
  have hRuns : client.session = some moved := by rw [hSame]
  have hHistory : client.history = system.client.history := by rw [hSame]
  have hGenerated : client.generatedIds = system.client.generatedIds := by rw [hSame]
  have hStateFile : client.stateFile = system.client.stateFile := by rw [hSame]
  have hUnlogged : ∀ message ∈ moved.producer.unlogged, message ∈ session.producer.unlogged :=
    fun message hMem => hProducer ▸ hMem
  have hIdeal : Ideal dedupPath { system with client }
      (client.viewed moved [] (more ++ moved.wal.pending)) shadow (acked ++ dropped)
      moved.wal.pending := by
    refine h.ideal.client hJoint (fun _ _ hOwn => hOwn.step h.ideal.joint.consistent hStep)
      (by rw [viewed_eq]) (hHistory.trans (List.append_nil _).symm) ?_ hOutput hCovered
    rw [List.append_assoc, hDropped, h.ideal.history_eq, hHistory]
  rcases hFile with hOld | hNew
  · have hView := h.disk.viewedFrame hHistory hGenerated hStateFile hState hUnlogged
    have hRead : readFile client.walFile =
        walBytes (old ++ session.wal.pending ++ extra) ++ tail := by
      rw [hOld]
      exact h.file
    rw [← hDropped, ← List.append_assoc] at hView hRead
    exact .up ⟨hRuns, hIdeal, hView, hRead, h.torn, hProducer ▸ h.clean⟩
  · have hView := h.disk
    rw [← hDropped, ← List.append_assoc] at hView
    have hKept := hView.viewedWithdrawn hHistory hGenerated hStateFile hState hUnlogged
    have hRead : readFile client.walFile = walBytes moved.wal.pending := by
      rw [hNew]
      rfl
    have hUp : Up dedupPath { system with client } moved shadow (acked ++ dropped) [] more [] [] := by
      refine ⟨hRuns, hIdeal, ?_, ?_, Torn.nil, Or.inl ⟨rfl, rfl⟩⟩
      · simpa only [List.nil_append, List.append_nil] using hKept
      · simpa only [List.nil_append, List.append_nil] using hRead
    exact .up hUp

theorem Up.within (h : Up dedupPath system session shadow acked old resent extra tail) :
    ∀ message ∈ resent ++ session.wal.pending, WithinLimits message := by
  obtain ⟨hDirectory, _⟩ := h.ideal.joint.consistent.running _ rfl
  exact hDirectory.pendingValid.within

theorem Up.withinPending (h : Up dedupPath system session shadow acked old resent extra tail) :
    ∀ message ∈ session.wal.pending, WithinLimits message :=
  fun message hMem => h.within message (List.mem_append_right resent hMem)

/-- A reply, refused or taken, with a compaction that succeeds. -/
theorem Up.reply (config : ClientConfig) {packet : Packet} {client : Client}
    (h : Up dedupPath system session shadow acked old resent extra tail)
    (hPacket : packet ∈ system.replies) (hConnection : packet.connection = system.client.connection)
    (hStep : system.client.reply session packet.frame = some client) :
    Survives dedupPath { system with client } shadow := by
  obtain ⟨messages, hAwaiting, hEnds⟩ := Client.reply_ends h.withinPending hStep
  have hHeld : (session.holding (resent ++ session.wal.pending)).consumer = .awaiting messages := hAwaiting
  rcases hEnds with ⟨hNone, rfl⟩ | ⟨confirmedId, walFile, hConfirmed, hFile, rfl⟩
  · have hIdealStep : (system.client.viewed session [] (resent ++ session.wal.pending)).step config
        (.reply packet.frame) = _ := Client.reply_refused hHeld hNone
    have hJoint := h.ideal.joint.reply hPacket hConnection hIdealStep
    refine h.replied { session with consumer := .delivering messages } [] resent hIdealStep hJoint
      rfl rfl rfl (List.nil_append _) (Or.inl rfl) ?_ ?_
    · rw [List.append_nil]
      exact h.ideal.output
    · rw [List.append_nil]
      exact h.ideal.covered
  · obtain ⟨dropped, hDropped, hOutput, hCovered⟩ := h.confirms hPacket hConnection hAwaiting hConfirmed
    have hIdealStep : (system.client.viewed session [] (resent ++ session.wal.pending)).step config
        (.reply packet.frame) = _ := Client.reply_confirmed h.within rfl hHeld hConfirmed
    have hJoint := h.ideal.joint.reply hPacket hConnection hIdealStep
    rw [Session.holding_pending, keptAfter_append] at hIdealStep hJoint
    let moved : Session := { session with
      wal := { pending := keptAfter confirmedId session.wal.pending }
      consumer := .delivering (messages.drop sendBatchSize) }
    exact h.replied moved dropped (keptAfter confirmedId resent) hIdealStep hJoint rfl rfl rfl hDropped
      (hFile.imp And.right id) hOutput hCovered

/-- A reply whose compaction throws. The ideal client loses the reply. -/
theorem Up.failReply (config : ClientConfig) {packet : Packet} {client : Client} {outcome : SaveOutcome}
    (h : Up dedupPath system session shadow acked old resent extra tail)
    (hPacket : packet ∈ system.replies) (hConnection : packet.connection = system.client.connection)
    (hStep : system.client.failReply session packet.frame outcome = some client) :
    Survives dedupPath { system with client } shadow := by
  obtain ⟨messages, confirmedId, walFile, hAwaiting, hConfirmed, hFile, rfl⟩ :=
    Client.failReply_cases h.withinPending hStep
  obtain ⟨dropped, hDropped, hOutput, hCovered⟩ := h.confirms hPacket hConnection hAwaiting hConfirmed
  have hMoved : session.threadStep config system.client.log .replyFails =
      some ({ session with consumer := .delivering messages }, true) := by
    rw [Session.threadStep, hAwaiting]
  let moved : Session := { session with
    wal := { pending := keptAfter confirmedId session.wal.pending }
    consumer := .delivering messages }
  let client : Client := { system.client with
    walFile, connection := system.client.connection + 1, session := some moved }
  have hSplit : resent ++ dropped ++ keptAfter confirmedId session.wal.pending =
      resent ++ session.wal.pending := by
    rw [List.append_assoc, hDropped]
  have hIdealStep : (system.client.viewed session [] (resent ++ session.wal.pending)).step config
      (.thread .replyFails) =
        some (client.viewed moved [] (resent ++ dropped ++ moved.wal.pending)) := by
    change ((session.holding _).threadStep config system.client.log .replyFails).bind _ =
      some (client.viewed moved [] (resent ++ dropped ++ keptAfter confirmedId session.wal.pending))
    rw [Session.threadStep_holding _ hMoved, hSplit]
    rfl
  exact h.replied moved dropped (resent ++ dropped) hIdealStep (h.ideal.joint.local rfl hIdealStep)
    rfl rfl rfl hDropped hFile hOutput hCovered

/-- A crash inside a compaction. -/
theorem Up.crashInReply {packet : Packet} {client : Client} {outcome : SaveOutcome}
    (h : Up dedupPath system session shadow acked old resent extra tail)
    (hPacket : packet ∈ system.replies) (hConnection : packet.connection = system.client.connection)
    (hStep : system.client.crashInReply session packet.frame outcome = some client) :
    Survives dedupPath { system with client } shadow := by
  obtain ⟨messages, confirmedId, walFile, hAwaiting, hConfirmed, rfl | rfl, rfl⟩ :=
    Client.crashInReply_ends h.withinPending hStep
  · exact h.crash
  · obtain ⟨dropped, hDropped, hOutput, hCovered⟩ := h.confirms hPacket hConnection hAwaiting hConfirmed
    have hWhole : (system.client.foreseen extra).DirectoryValid
        (old ++ dropped ++ keptAfter confirmedId session.wal.pending ++ extra) tail := by
      rw [List.append_assoc old, hDropped]
      exact h.disk.directory rfl rfl rfl h.file h.torn
    let client : Client := { system.client.stopped with
      walFile := some (walBytes (keptAfter confirmedId session.wal.pending)) }
    have hKept : client.DirectoryValid (keptAfter confirmedId session.wal.pending) [] :=
      hWhole.withdrawn rfl rfl rfl rfl
    have hDirectory : (client.foreseen []).DirectoryValid
        (keptAfter confirmedId session.wal.pending ++ []) [] := by
      rw [Client.foreseen_nil, List.append_nil]
      exact hKept
    refine .down (h.ideal.halts rfl (Nat.le_succ _) (Or.inr (Nat.lt_succ_self _))
      (List.append_nil _).symm hDirectory ?_ hOutput hCovered)
    rw [List.append_assoc, hDropped]
    exact h.ideal.history_eq

/-! A failed append. -/

/-- The ideal producer ends as well. -/
theorem Up.producerFails {walFile : Option Bytes}
    (h : Up dedupPath system session shadow acked old resent extra tail) :
    let client : Client := { system.client with walFile, session := some session.producerFails }
    Ideal dedupPath { system with client }
      (client.viewed session.producerFails [] (resent ++ session.wal.pending)) shadow acked
      session.wal.pending := by
  intro client
  have hConsistent : (client.viewed session.producerFails [] (resent ++ session.wal.pending)).Consistent := by
    refine h.ideal.joint.consistent.viewedFrame rfl rfl rfl rfl fun message hMem => ?_
    cases hMem
  have hBelongs : ∀ connection clientId,
      (system.client.viewed session [] (resent ++ session.wal.pending)).Belongs connection clientId →
      (client.viewed session.producerFails [] (resent ++ session.wal.pending)).Belongs connection
        clientId := by
    intro connection clientId hOwn
    constructor
    · exact hOwn.le
    · intro hDown
      cases hDown
    · intro moved hMoved hSame
      cases hMoved
      exact hOwn.running (session.holding (resent ++ session.wal.pending)) rfl hSame
  have hJoint : Joint { system with
      client := client.viewed session.producerFails [] (resent ++ session.wal.pending)
      server := shadow } := by
    obtain ⟨held, hHolds, hUnconfirmed⟩ := h.ideal.joint.held
    obtain rfl := hHolds.memory _ rfl
    refine h.ideal.joint.replaced hConsistent (List.append_nil _).symm
      ⟨_, hConsistent.holds rfl, hUnconfirmed⟩ ?_ hBelongs
    intro moved hMoved
    cases hMoved
    refine (h.ideal.joint.piped _ rfl).frame rfl rfl (fun _ hHeld => hHeld) fun _ hUnpushed => ?_
    cases hUnpushed
  exact h.ideal.client hJoint hBelongs (by rw [viewed_eq]) (List.append_nil _).symm h.ideal.history_eq
    h.ideal.output h.ideal.covered

theorem Up.failAppend {client : Client} {outcome : AppendOutcome}
    (h : Up dedupPath system session shadow acked old resent extra tail)
    (hStep : system.client.failAppend session outcome = some client) :
    Survives dedupPath { system with client } shadow := by
  obtain ⟨message, hMessage, walFile, added, rfl, hFile, hEnds⟩ := Client.failAppend_cases hStep
  obtain ⟨rfl, rfl⟩ := h.clean_of_unlogged hMessage
  rw [h.file, List.append_nil, List.append_nil] at hFile
  have hEnded : session.producerFails.producer.Ended := Or.inl rfl
  rcases hEnds with hTorn | ⟨hLimits, rfl⟩
  · refine .up ⟨rfl, h.producerFails, h.disk.viewedFrame rfl rfl rfl rfl ?_, ?_, hTorn, Or.inr hEnded⟩
    · intro other hMem
      cases hMem
    · rw [List.append_nil]
      exact hFile
  · -- the whole frame is in the file, and a start may find it there
    obtain ⟨hView, hSession⟩ := h.disk.viewedDirectory
    rw [List.append_nil] at hView hSession
    let client : Client := { system.client with walFile, session := some session.producerFails }
    let stored := old ++ session.wal.pending ++ [message]
    have hHistory : (client.viewed session.producerFails [message] stored).history =
        (system.client.viewed session [] (old ++ session.wal.pending)).history ++ [message] := by
      rw [viewed_eq]
      rfl
    have hRead : readFile (some (walBytes stored)) =
        readFile (some (walBytes (old ++ session.wal.pending))) ++ walFrame message := by
      simp [stored]
    obtain ⟨hDirectory, hState⟩ :=
      Client.DirectoryValid.logged hView hSession hMessage hLimits hHistory hRead rfl rfl
    have hNone : ∀ other ∈ (session.producerFails.holding stored).producer.unlogged,
        other.clientId = session.state.clientId ∧ other.id < session.state.nextId ∧
          ∀ earlier ∈ (client.viewed session.producerFails [message] stored).history,
            earlier.clientId = other.clientId → earlier.id < other.id := by
      intro other hMem
      cases hMem
    have hDisk : (client.viewed session.producerFails [message] stored).Consistent :=
      Client.consistent_of_running rfl hDirectory ⟨hState, hSession.saved, hNone⟩
    refine .up ⟨rfl, h.producerFails, hDisk, ?_, Torn.nil, Or.inr hEnded⟩
    rw [List.append_nil]
    exact hFile.trans hRead.symm

end System
end LogBridge
