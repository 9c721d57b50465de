import LogBridge.Client.Pipeline
import LogBridge.System.Model

/-! End-to-end delivery. What the server has output is at all times a prefix of
what the client has logged, and the client keeps every message that is not
covered by the saved watermark. -/
namespace LogBridge

open Checked Protocol Storage WriteAheadLog Watermark Server

namespace System

variable {config : ClientConfig} {dedupPath : Bytes} {system : System}

/-! The parts of the invariant. -/

/-- The messages are a segment of the history, and all earlier ones have been output. -/
def Due (history outputs messages : List LogMessage) : Prop :=
  ∃ before after, before ++ messages ++ after = history ∧ before <+: outputs

/-- The messages are the end of the history, and all earlier ones have been output. -/
def Unconfirmed (history outputs pending : List LogMessage) : Prop :=
  ∃ before, before ++ pending = history ∧ before <+: outputs

/-- The server has output a prefix of the history, and its saved watermarks are
the largest ids it has output. -/
structure Delivered (history : List LogMessage) (server : Server) : Prop where
  stored : Stored server
  outputs : server.outputs <+: history
  exact : ∀ clientId, Exact messageKey 0 (clientView clientId server)

/-- A batch in flight. -/
def BatchDue (client : Client) (outputs : List LogMessage) (packet : Packet) : Prop :=
  ∃ messages clientId, decodeLogBatch packet.frame = .ok messages ∧
    (∀ message ∈ messages, message.clientId = clientId) ∧
    Due client.history outputs messages ∧ client.Belongs packet.connection clientId

/-- A reply in flight: the watermark of the client covers it. -/
def ReplyCovered (client : Client) (dedup : DedupStore) (packet : Packet) : Prop :=
  ∃ confirmedId clientId, packet.frame = serializeAck confirmedId ∧
    confirmedId ≤ dedup.highestConfirmed clientId ∧ client.Belongs packet.connection clientId

/-- The joint invariant of client, server and network. -/
structure Joint (system : System) : Prop where
  consistent : system.client.Consistent
  delivered : Delivered system.client.history system.server
  held : ∃ pending, system.client.Holds pending ∧
    Unconfirmed system.client.history system.server.outputs pending
  piped : ∀ session, system.client.session = some session → Piped session
  batches : ∀ packet ∈ system.batches, BatchDue system.client system.server.outputs packet
  replies : ∀ packet ∈ system.replies, ReplyCovered system.client system.server.dedup packet

theorem segment_eq {history pending before batch rest : List LogMessage}
    (hBefore : before ++ pending = history) (hBatch : batch ++ rest = pending) :
    before ++ batch ++ rest = history := by
  rw [List.append_assoc, hBatch, hBefore]

theorem Due.logged {history outputs messages : List LogMessage} (h : Due history outputs messages)
    (added : List LogMessage) : Due (history ++ added) outputs messages := by
  obtain ⟨before, after, rfl, hBefore⟩ := h
  exact ⟨before, after ++ added, by simp, hBefore⟩

theorem BatchDue.step {client next : Client} {outputs added : List LogMessage} {packet : Packet}
    {action : ClientAction} (h : BatchDue client outputs packet) (hConsistent : client.Consistent)
    (hStep : client.step config action = some next) (hHistory : next.history = client.history ++ added) :
    BatchDue next outputs packet := by
  obtain ⟨messages, clientId, hDecode, hSame, hDue, hBelongs⟩ := h
  refine ⟨messages, clientId, hDecode, hSame, ?_, hBelongs.step hConsistent hStep⟩
  rw [hHistory]
  exact hDue.logged added

theorem BatchDue.output {client : Client} {outputs others : List LogMessage} {packet : Packet}
    (h : BatchDue client outputs packet) (hOutputs : outputs <+: others) :
    BatchDue client others packet := by
  obtain ⟨messages, clientId, hDecode, hSame, ⟨before, after, hWhole, hBefore⟩, hBelongs⟩ := h
  exact ⟨messages, clientId, hDecode, hSame, ⟨before, after, hWhole, hBefore.trans hOutputs⟩, hBelongs⟩

theorem ReplyCovered.step {client next : Client} {dedup : DedupStore} {packet : Packet}
    {action : ClientAction} (h : ReplyCovered client dedup packet) (hConsistent : client.Consistent)
    (hStep : client.step config action = some next) : ReplyCovered next dedup packet := by
  obtain ⟨confirmedId, clientId, hFrame, hLe, hBelongs⟩ := h
  exact ⟨confirmedId, clientId, hFrame, hLe, hBelongs.step hConsistent hStep⟩

/-- A step of the client that only adds to the history keeps the parts of the
invariant that do not speak of its log. -/
theorem Joint.clientStep {action : ClientAction} {next : Client} {added : List LogMessage}
    (h : Joint system) (hStep : system.client.step config action = some next)
    (hHistory : next.history = system.client.history ++ added)
    (hHeld : ∃ pending, next.Holds pending ∧ Unconfirmed next.history system.server.outputs pending) :
    Joint { system with client := next } where
  consistent := h.consistent.step hStep
  delivered := by
    refine ⟨h.delivered.stored, ?_, h.delivered.exact⟩
    rw [hHistory]
    exact h.delivered.outputs.trans (List.prefix_append _ _)
  held := hHeld
  piped _ hNext := Client.piped_step h.consistent h.piped hStep hNext
  batches packet hMem := (h.batches packet hMem).step h.consistent hStep hHistory
  replies packet hMem := (h.replies packet hMem).step h.consistent hStep

theorem Joint.local {action : ClientAction} {next : Client} (h : Joint system)
    (hReply : action.takesReply = false)
    (hStep : system.client.step config action = some next) :
    Joint { system with client := next } := by
  obtain ⟨pending, hHolds, before, hBefore, hOutputs⟩ := h.held
  obtain ⟨logged, hHistory, hNext⟩ := Client.logs_step h.consistent hHolds hReply hStep
  refine h.clientStep hStep hHistory ⟨pending ++ logged, hNext, before, ?_, hOutputs⟩
  rw [hHistory, ← hBefore, List.append_assoc]

/-! A reply. -/

theorem id_ne_zero_of_within {message : LogMessage} (h : WithinLimits message) :
    0 < messageKey message :=
  Nat.pos_of_ne_zero fun hZero => h.id_ne_zero (UInt64.toNat_inj.mp hZero)

/-- A reply that confirms the batch in progress comes after the output of the batch. -/
theorem Joint.batchOutput {session : Session} {messages later : List LogMessage} {packet : Packet}
    {confirmedId : UInt64} (h : Joint system) (hSession : system.client.session = some session)
    (hPacket : packet ∈ system.replies) (hConnection : packet.connection = system.client.connection)
    (hBatch : Session.batch messages ++ later = session.wal.pending)
    (hConfirmed : Client.confirmedBy messages packet.frame = some confirmedId) :
    Unconfirmed system.client.history system.server.outputs later := by
  obtain ⟨hFrame, last, hLast, rfl⟩ := Client.confirmedBy_cases hConfirmed
  obtain ⟨replyId, clientId, hReply, hCovered, hBelongs⟩ := h.replies packet hPacket
  obtain ⟨hDirectory, hValid⟩ := h.consistent.running session hSession
  obtain ⟨pending, hHolds, before, hBefore, hOutputs⟩ := h.held
  obtain rfl := hHolds.memory session hSession
  obtain rfl := serializeAck_injective (hReply.symm.trans hFrame)
  have hMem : last ∈ session.wal.pending := by
    rw [← hBatch]
    exact List.mem_append_left _ (List.mem_of_getLast? hLast)
  have hClient : last.clientId = clientId :=
    (hValid.state.pending last hMem).trans (hBelongs.running session hSession hConnection)
  have hReached : messageKey last ≤ reached LogMessage.clientId messageKey 0 clientId
      system.server.outputs := by
    have hExact : (system.server.dedup.highestConfirmed clientId).toNat = reached LogMessage.clientId
        messageKey 0 clientId system.server.outputs := h.delivered.exact clientId
    rw [← hExact]
    exact UInt64.le_iff_toNat_le.mp hCovered
  have hWhole := segment_eq hBefore hBatch
  refine ⟨before ++ Session.batch messages, hWhole, ?_⟩
  refine batch_emitted ?_ h.delivered.outputs hWhole hLast hClient
    (id_ne_zero_of_within (hDirectory.pendingValid.within last hMem)) hReached
  exact h.consistent.history.imp fun hLt hEq => UInt64.lt_iff_toNat_lt.mp (hLt hEq)

/-- Frames may get lost. -/
theorem Joint.lose {batches replies : List Packet} (h : Joint system)
    (hBatches : ∀ packet ∈ batches, packet ∈ system.batches)
    (hReplies : ∀ packet ∈ replies, packet ∈ system.replies) :
    Joint { system with batches, replies } :=
  { h with
    batches := fun packet hMem => h.batches packet (hBatches packet hMem)
    replies := fun packet hMem => h.replies packet (hReplies packet hMem) }

theorem Joint.reply {packet : Packet} {next : Client} (h : Joint system)
    (hPacket : packet ∈ system.replies) (hConnection : packet.connection = system.client.connection)
    (hStep : system.client.step config (.reply packet.frame) = some next) :
    Joint { system with client := next } := by
  have hNext := h.consistent.step hStep
  obtain ⟨session, hSession, hReply⟩ := Option.bind_eq_some_iff.mp hStep
  obtain ⟨hDirectory, _⟩ := h.consistent.running session hSession
  obtain ⟨messages, hAwaiting, hEnds⟩ :=
    Client.reply_cases hDirectory.pendingValid.within hDirectory.walFile_eq hReply
  obtain ⟨pending, hHolds, hUnconfirmed⟩ := h.held
  obtain rfl := hHolds.memory session hSession
  rcases hEnds with ⟨_, rfl⟩ | ⟨confirmedId, walFile, hConfirmed, _, rfl⟩
  · have hNextHolds := hNext.holds rfl
    exact h.clientStep hStep (List.append_nil _).symm ⟨_, hNextHolds, hUnconfirmed⟩
  · obtain ⟨rest, hBatch, _⟩ := Client.batch_append (h.piped session hSession) (by rw [hAwaiting]; rfl)
    have hKept :=
      Client.keptAfter_confirmedBy hDirectory.pendingValid.idsIncreasing hBatch hConfirmed
    have hNextHolds := hNext.holds rfl
    refine h.clientStep hStep (List.append_nil _).symm ⟨_, hNextHolds, ?_⟩
    rw [hKept]
    exact h.batchOutput hSession hPacket hConnection hBatch hConfirmed

theorem Joint.crashInReply {packet : Packet} {outcome : SaveOutcome} {next : Client} (h : Joint system)
    (hPacket : packet ∈ system.replies) (hConnection : packet.connection = system.client.connection)
    (hStep : system.client.step config (.crashInReply packet.frame outcome) = some next) :
    Joint { system with client := next } := by
  obtain ⟨session, hSession, hCrash⟩ := Option.bind_eq_some_iff.mp hStep
  obtain ⟨hDirectory, _⟩ := h.consistent.running session hSession
  obtain ⟨messages, confirmedId, kept, hAwaiting, hConfirmed, hStopped, hKept, hEnds⟩ :=
    Client.crashInReply_directory hDirectory hCrash
  obtain ⟨pending, hHolds, hUnconfirmed⟩ := h.held
  obtain rfl := hHolds.memory session hSession
  have hDown : next.session = none := by rw [hStopped]; rfl
  have hHistory : next.history = system.client.history := by rw [hStopped]; rfl
  refine h.clientStep hStep (hHistory.trans (List.append_nil _).symm)
    ⟨kept, Client.holds_of_down hDown hKept, ?_⟩
  rw [hHistory]
  rcases hEnds with rfl | rfl
  · exact hUnconfirmed
  · obtain ⟨rest, hBatch, _⟩ := Client.batch_append (h.piped session hSession) (by rw [hAwaiting]; rfl)
    rw [Client.keptAfter_confirmedBy hDirectory.pendingValid.idsIncreasing hBatch hConfirmed]
    exact h.batchOutput hSession hPacket hConnection hBatch hConfirmed

/-! A batch. -/

/-- The frame that a session sends holds the first pending messages. -/
theorem Joint.outgoing {session : Session} {frame : Bytes} (h : Joint system)
    (hSession : system.client.session = some session) (hFrame : session.outgoing = some frame) :
    BatchDue system.client system.server.outputs
      { connection := system.client.connection, frame } := by
  obtain ⟨hDirectory, hValid⟩ := h.consistent.running session hSession
  obtain ⟨pending, hHolds, before, hBefore, hOutputs⟩ := h.held
  obtain rfl := hHolds.memory session hSession
  revert hFrame
  fun_cases Session.outgoing with
  | case1 messages hDelivering hRunning =>
      intro hFrame
      have hEncoded : serializeLogBatch (Session.batch messages) = .ok frame := by
        cases hResult : serializeLogBatch (Session.batch messages) with
        | error error =>
            rw [hResult] at hFrame
            cases hFrame
        | ok encoded =>
            rw [hResult] at hFrame
            cases hFrame
            rfl
      obtain ⟨rest, hBatch, _⟩ :=
        Client.batch_append (h.piped session hSession) (by rw [hDelivering]; rfl)
      refine ⟨_, session.state.clientId, decodeLogBatch_of_serialize hEncoded, ?_, ?_, ?_⟩
      · intro message hMem
        refine hValid.state.pending message ?_
        rw [← hBatch]
        exact List.mem_append_left _ hMem
      · exact ⟨before, _, segment_eq hBefore hBatch, hOutputs⟩
      · refine ⟨Nat.le_refl _, ?_, ?_⟩
        · intro hDown
          cases hSession.symm.trans hDown
        · intro other hOther _
          rw [Option.some.inj (hOther.symm.trans hSession)]
  | case2 => nofun
  | case3 => nofun

theorem Joint.send {next : System} (h : Joint system) (hStep : system.send config = some next) :
    Joint next := by
  obtain ⟨session, hSession, hStep⟩ := Option.bind_eq_some_iff.mp hStep
  obtain ⟨client, hClient, hStep⟩ := Option.bind_eq_some_iff.mp hStep
  cases hStep
  have hLocal := h.local rfl hClient
  cases hOutgoing : session.outgoing with
  | none => exact hLocal
  | some frame =>
      refine { hLocal with batches := ?_ }
      intro packet hMem
      rcases List.mem_append.mp hMem with hOld | hNew
      · exact hLocal.batches packet hOld
      · rw [List.mem_singleton.mp hNew]
        obtain ⟨_, hHolds, _⟩ := h.held
        obtain ⟨logged, hHistory, _⟩ := Client.logs_step h.consistent hHolds rfl hClient
        exact (h.outgoing hSession hOutgoing).step h.consistent hClient hHistory

/-- An accepted batch continues the output, and its acknowledgement is covered by
the saved watermark. -/
theorem Delivered.batch {history messages : List LogMessage} {server : Server} {clientId : Bytes}
    (h : Delivered history server) (hBatch : BatchWithinLimits messages)
    (hSame : ∀ message ∈ messages, message.clientId = clientId) (hGenerated : IsGenerated clientId)
    (hOrder : history.Pairwise fun first second =>
      first.clientId = second.clientId → first.id < second.id)
    (hDue : Due history server.outputs messages) (ackError : Option Exception) :
    ∃ next confirmedId file, (server.handleBatch messages { ackError }).2 = next ∧
      Delivered history next ∧ server.outputs <+: next.outputs ∧
      (∀ other, server.dedup.highestConfirmed other ≤ next.dedup.highestConfirmed other) ∧
      next.acks = server.acks ++ [⟨clientId, confirmedId, file⟩] ∧
      confirmedId ≤ next.dedup.highestConfirmed clientId := by
  obtain ⟨before, after, hWhole, hBefore⟩ := hDue
  have hFront : (messages.head hBatch.ne_nil).clientId = clientId :=
    hSame _ (List.head_mem hBatch.ne_nil)
  have hStored := stored_handleBatch h.stored hBatch (hFront ▸ isWord_of_generated hGenerated) ackError
  have hView := clientView_handleBatch server hBatch ackError
  obtain ⟨dedup, file, metrics, hHandle, _, hWatermark⟩ := handleBatch_eq server hBatch ackError
  rw [hHandle] at hStored hView
  have hExact : (server.dedup.highestConfirmed clientId).toNat = reached LogMessage.clientId messageKey 0
      clientId server.outputs := h.exact clientId
  have hOutputs : server.outputs ++ messages.filter (fun message =>
      ¬message.id ≤ server.dedup.highestConfirmed (messages.head hBatch.ne_nil).clientId) <+: history := by
    have hPrefix := emitted_prefix (hOrder.imp fun hLt hEq => UInt64.lt_iff_toNat_lt.mp (hLt hEq))
      h.outputs hWhole hBefore hSame
      fun message hMem => id_ne_zero_of_within (hBatch.within message hMem)
    rw [← hExact] at hPrefix
    simpa only [hFront, UInt64.not_le, UInt64.lt_iff_toNat_lt] using hPrefix
  refine ⟨_, (messages.getLast hBatch.ne_nil).id, file, congrArg Prod.snd hHandle,
    ⟨hStored, hOutputs, ?_⟩, List.prefix_append _ _, ?_, ?_, ?_⟩
  · intro other
    rw [hView]
    split_ifs
    · exact (h.exact other).receive messages
    · exact h.exact other
  · intro other
    rw [UInt64.le_iff_toNat_le, hWatermark]
    split_ifs
    · exact (le_highest messageKey _ messages).1
    · exact Nat.le_refl _
  · rw [batchAck, hFront]
  · rw [UInt64.le_iff_toNat_le, hWatermark, if_pos hFront]
    exact (le_highest messageKey _ messages).2 _ (List.getLast_mem hBatch.ne_nil)

theorem ReplyCovered.mono {client : Client} {dedup other : DedupStore} {packet : Packet}
    (h : ReplyCovered client dedup packet)
    (hLe : ∀ clientId, dedup.highestConfirmed clientId ≤ other.highestConfirmed clientId) :
    ReplyCovered client other packet := by
  obtain ⟨confirmedId, clientId, hFrame, hCovered, hBelongs⟩ := h
  exact ⟨confirmedId, clientId, hFrame, UInt64.le_trans hCovered (hLe clientId), hBelongs⟩

/-- A logged message carries a generated client id. -/
theorem Joint.generated {message : LogMessage} (h : Joint system)
    (hMem : message ∈ system.client.history) : IsGenerated message.clientId := by
  obtain ⟨pending, hHolds, _⟩ := h.held
  obtain ⟨tail, hDirectory⟩ := hHolds.directory
  exact hDirectory.generated _ (hDirectory.known message hMem)

theorem Joint.receiveBatch {index : Nat} {ackError : Option Exception} {next : System}
    (h : Joint system) (hStep : system.receiveBatch dedupPath index ackError = some next) :
    Joint next := by
  obtain ⟨packet, hPacket, hStep⟩ := Option.bind_eq_some_iff.mp hStep
  obtain ⟨server, hServer, hStep⟩ := Option.bind_eq_some_iff.mp hStep
  cases hStep
  obtain ⟨messages, clientId, hDecode, hSame, hDue, hBelongs⟩ :=
    h.batches packet (List.mem_of_getElem? hPacket)
  have hBatch := batchWithinLimits_of_decode hDecode
  have hGenerated : IsGenerated clientId := by
    have hFront := List.head_mem hBatch.ne_nil
    obtain ⟨before, after, hWhole, _⟩ := hDue
    have hMem : messages.head hBatch.ne_nil ∈ system.client.history := by
      rw [← hWhole]
      exact List.mem_append_left _ (List.mem_append_right _ hFront)
    rw [← hSame _ hFront]
    exact h.generated hMem
  obtain ⟨after, confirmedId, file, hAfter, hDelivered, hOutputs, hLe, hAcks, hCovered⟩ :=
    h.delivered.batch hBatch hSame hGenerated h.consistent.history hDue ackError
  rw [Server.step, hDecode] at hServer
  obtain rfl : after = server := hAfter.symm.trans (Option.some.inj hServer)
  have hReplies : after.acks.drop system.server.acks.length = [⟨clientId, confirmedId, file⟩] := by
    rw [hAcks, List.drop_left]
  obtain ⟨pending, hHolds, before, hBefore, hPrefix⟩ := h.held
  refine ⟨h.consistent, hDelivered, ⟨pending, hHolds, before, hBefore, hPrefix.trans hOutputs⟩, h.piped, ?_, ?_⟩
  · intro other hMem
    exact (h.batches other (List.mem_of_mem_eraseIdx hMem)).output hOutputs
  · intro other hMem
    rcases List.mem_append.mp hMem with hOld | hNew
    · exact (h.replies other hOld).mono hLe
    · rw [hReplies] at hNew
      rw [List.mem_singleton.mp hNew]
      exact ⟨confirmedId, clientId, rfl, hCovered, hBelongs⟩

/-! Runs. -/

theorem mem_of_takeReply {index : Nat} {packet : Packet} (h : system.takeReply index = some packet) :
    packet ∈ system.replies ∧ packet.connection = system.client.connection := by
  obtain ⟨other, hOther, h⟩ := Option.bind_eq_some_iff.mp h
  split_ifs at h with hConnection
  cases h
  exact ⟨List.mem_of_getElem? hOther, hConnection⟩

theorem takesReply_of_isLocal {action : ClientAction} (h : action.isLocal = true) :
    action.takesReply = false := by
  cases action with
  | reply frame => cases h
  | crashInReply frame outcome => cases h
  | _ => rfl

theorem restart_of_stored {server next : Server} (hStored : Stored server)
    (hStep : server.step dedupPath .restart = some next) : next = { server with metrics := {} } := by
  have hPath : dedupPath ≠ [] := by
    rintro rfl
    cases hStep
  rw [Server.step, Server.restart, construct_of_stored hPath hStored] at hStep
  exact (Option.some.inj hStep).symm

/-- Every action keeps the joint invariant. -/
theorem Joint.step {action : SystemAction} {next : System} (h : Joint system)
    (hStep : system.step config dedupPath action = some next) : Joint next := by
  cases action with
  | client action =>
      rw [System.step] at hStep
      split_ifs at hStep with hLocal
      obtain ⟨client, hClient, rfl⟩ := Option.map_eq_some_iff.mp hStep
      exact h.local (takesReply_of_isLocal hLocal) hClient
  | send => exact h.send hStep
  | receiveBatch index ackError => exact h.receiveBatch hStep
  | receiveReply index =>
      obtain ⟨packet, hPacket, hStep⟩ := Option.bind_eq_some_iff.mp hStep
      obtain ⟨client, hClient, hStep⟩ := Option.bind_eq_some_iff.mp hStep
      cases hStep
      obtain ⟨hMem, hConnection⟩ := mem_of_takeReply hPacket
      have hNext := h.reply hMem hConnection hClient
      exact hNext.lose (fun packet hMem => hMem) fun packet hMem => List.mem_of_mem_eraseIdx hMem
  | crashInReply index outcome =>
      obtain ⟨packet, hPacket, hStep⟩ := Option.bind_eq_some_iff.mp hStep
      obtain ⟨client, hClient, hStep⟩ := Option.bind_eq_some_iff.mp hStep
      cases hStep
      obtain ⟨hMem, hConnection⟩ := mem_of_takeReply hPacket
      have hNext := h.crashInReply hMem hConnection hClient
      exact hNext.lose (fun packet hMem => hMem) fun packet hMem => List.mem_of_mem_eraseIdx hMem
  | loseBatch index =>
      cases hStep
      exact h.lose (fun packet hMem => List.mem_of_mem_eraseIdx hMem) fun packet hMem => hMem
  | loseReply index =>
      cases hStep
      exact h.lose (fun packet hMem => hMem) fun packet hMem => List.mem_of_mem_eraseIdx hMem
  | restartServer =>
      obtain ⟨server, hServer, rfl⟩ := Option.map_eq_some_iff.mp hStep
      obtain rfl := restart_of_stored h.delivered.stored hServer
      exact { h with delivered := { h.delivered with stored := { h.delivered.stored with } } }

/-- What holds of the whole system: no message is output twice or out of order,
and none is forgotten by the client before the server has saved its id. -/
structure EndToEnd (config : ClientConfig) (dedupPath : Bytes) (system : System) : Prop where
  outputs : system.server.outputs <+: system.client.history
  outputOnce :
    (system.server.outputs.map fun message => (message.clientId, message.id)).Nodup
  /-- A restart of both sides reads back this log and these watermarks. -/
  confirmed : ∃ pending file store,
    WriteAheadLog.construct config.walPath system.client.walFile .saved = (.ok { pending }, file) ∧
    DedupStore.construct dedupPath system.server.file = .ok store ∧
    ∀ message ∈ system.client.history, message ∉ pending → message ∈ system.server.outputs ∧
      message.id ≤ store.highestConfirmed message.clientId

theorem Joint.endToEnd (h : Joint system) (hDedupPath : dedupPath ≠ []) (hWalPath : config.walPath ≠ []) :
    EndToEnd config dedupPath system := by
  obtain ⟨pending, hHolds, before, hBefore, hPrefix⟩ := h.held
  obtain ⟨tail, hDirectory⟩ := hHolds.directory
  constructor
  · exact h.delivered.outputs
  · have hOrder := h.consistent.history.sublist h.delivered.outputs.sublist
    rw [List.Nodup, List.pairwise_map]
    refine hOrder.imp ?_
    intro first second hLt hSame
    obtain ⟨hClient, hId⟩ := Prod.mk.inj hSame
    exact UInt64.ne_of_lt (hLt hClient) hId
  · obtain ⟨file, hLoad, _⟩ := load_eq hDirectory.walFile hDirectory.torn hDirectory.pendingValid
    refine ⟨pending, file, system.server.dedup, ?_, ?_, ?_⟩
    · rw [WriteAheadLog.construct, if_neg hWalPath]
      exact hLoad
    · exact construct_of_stored hDedupPath h.delivered.stored
    · intro message hMem hGone
      rw [← hBefore, List.mem_append] at hMem
      have hOutput := hPrefix.subset (hMem.resolve_right hGone)
      refine ⟨hOutput, ?_⟩
      have hOwn : message ∈ (clientView message.clientId system.server).emitted :=
        List.mem_filter.mpr ⟨hOutput, decide_eq_true rfl⟩
      have hLargest := (le_highest messageKey 0 _).2 message hOwn
      rw [← h.delivered.exact message.clientId] at hLargest
      exact UInt64.le_iff_toNat_le.mpr hLargest

theorem joint_initial (log : FileSystem) : Joint { client := { log } } where
  consistent := Client.consistent_initial log
  delivered := by
    refine ⟨⟨Or.inl ⟨rfl, rfl⟩, by simp [DedupStore.Readable]⟩, List.prefix_rfl, ?_⟩
    intro clientId
    rfl
  held := by
    obtain ⟨pending, tail, hDirectory⟩ := (Client.consistent_initial log).down rfl
    obtain rfl := List.suffix_nil.mp hDirectory.suffix
    exact ⟨[], Client.holds_of_down rfl hDirectory, [], rfl, List.prefix_rfl⟩
  piped := nofun
  batches := nofun
  replies := nofun

/-- Over every interleaving of the client, the server and the network, with
connections that break, crashes of the client and restarts of the server. -/
theorem delivers_in_order (config : ClientConfig) (dedupPath : Bytes) (log : FileSystem)
    (actions : List SystemAction) (system : System) (hDedupPath : dedupPath ≠ [])
    (hWalPath : config.walPath ≠ [])
    (hRun : Runs.run (System.step config dedupPath) { client := { log } } actions = some system) :
    EndToEnd config dedupPath system := by
  have hJoint : Joint system := by
    refine Runs.induct (motive := fun _ system => Joint system) (joint_initial log) ?_ hRun
    intro _ _ _ _ _ h hStep
    exact h.step hStep
  exact hJoint.endToEnd hDedupPath hWalPath

/-! A run in which one line is logged, sent, printed and confirmed. -/

theorem step_client {action : ClientAction} {next : Client} (hLocal : action.isLocal = true)
    (hStep : system.client.step config action = some next) :
    system.step config dedupPath (.client action) = some { system with client := next } := by
  rw [System.step, if_pos hLocal, hStep]
  rfl

def sampleActions : List SystemAction :=
  [.client (.start Client.sampleState.clientId .saved .saved), .client (.thread (.openReader {})),
    .client (.thread (.poll {})), .client (.allocate 7 .saved), .client .append,
    .client (.checkpoint .saved), .client (.thread (.attempt .failed)), .client (.thread .consume),
    .client (.thread .push), .client (.thread .popOne), .client (.thread .popDone), .send,
    .receiveBatch 0 none, .receiveReply 0]

theorem delivers_in_order_sample : ∃ system,
    Runs.run (System.step Client.sampleConfig [100]) { client := { log := Client.sampleLog } }
      sampleActions = some system ∧
    system.server.outputs.map LogMessage.content = [[97]] ∧
    EndToEnd Client.sampleConfig [100] system := by
  have hRun : ∃ system, Runs.run (System.step Client.sampleConfig [100])
      { client := { log := Client.sampleLog } } sampleActions = some system ∧
      system.server.outputs.map LogMessage.content = [[97]] := by
    refine ⟨_, Runs.run_cons (step_client rfl (Client.sample_start rfl)) <|
      Runs.run_cons (step_client rfl rfl) <|
      Runs.run_cons (step_client rfl Client.sample_poll) <|
      -- the line is logged and the checkpoint saved
      Runs.run_cons (step_client rfl rfl) <| Runs.run_cons (step_client rfl rfl) <|
      Runs.run_cons (step_client rfl rfl) <|
      -- the message reaches the consumer
      Runs.run_cons (step_client rfl rfl) <| Runs.run_cons (step_client rfl rfl) <|
      Runs.run_cons (step_client rfl rfl) <| Runs.run_cons (step_client rfl rfl) <|
      Runs.run_cons (step_client rfl rfl) <|
      Runs.run_cons rfl <| Runs.run_cons rfl <| Runs.run_cons rfl rfl, rfl⟩
  obtain ⟨system, hRun, hOutputs⟩ := hRun
  exact ⟨system, hRun, hOutputs,
    delivers_in_order Client.sampleConfig [100] Client.sampleLog sampleActions system
      (by decide) (by decide) hRun⟩

end System
end LogBridge
