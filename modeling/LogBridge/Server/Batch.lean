import LogBridge.DedupStore.Persistence
import LogBridge.Library.Watermark
import LogBridge.Protocol.RoundTrip
import LogBridge.Server.Model

/-! The effect of one accepted batch. To the client of the batch the server is a
receiver with a watermark; the other clients see no change. -/
namespace LogBridge.Server

open Checked Protocol Storage Watermark

/-- Batches are compared by their message ids. -/
abbrev messageKey (message : LogMessage) : Nat := message.id.toNat

/-- Any accepted frame holds a batch that a sender could have sent. -/
theorem batchWithinLimits_of_decode {frame : Bytes} {messages : List LogMessage}
    (h : decodeLogBatch frame = .ok messages) : BatchWithinLimits messages := by
  obtain ⟨header, _, h⟩ := bind_eq_ok_iff.mp h
  split_ifs at h with hLog hBatch
  · obtain ⟨message, hMessage, h⟩ := bind_eq_ok_iff.mp h
    cases pure_eq_ok_iff.mp h
    have hLimits := (serializeLogMessage_eq_ok_iff.mp (deserializeLogMessage_eq_ok_iff.mp hMessage)).1
    have hLength := hLimits.logRecordBytes_length_le
    refine ⟨by simp, by simp [maxBatchMessageCount], by simpa using hLimits, by simp,
      List.pairwise_singleton _ _, ?_⟩
    rw [logBatchPayload_length]
    simp only [List.map_cons, List.map_nil, List.flatten_cons, List.flatten_nil, List.append_nil]
    rw [batchPrefixSize, maxFramePayloadLength] at *
    omega
  · exact (serializeLogBatch_eq_ok_iff.mp (deserializeLogBatch_eq_ok_iff.mp h)).1

theorem decodeLogBatch_of_serialize {messages : List LogMessage} {frame : Bytes}
    (h : serializeLogBatch messages = .ok frame) : decodeLogBatch frame = .ok messages := by
  obtain ⟨header, hHeader, hType, _⟩ := hasHeader_serializeLogBatch h
  refine bind_eq_ok_iff.mpr ⟨header, hHeader, ?_⟩
  rw [hType, if_neg (by decide), if_pos rfl]
  exact deserializeLogBatch_eq_ok_iff.mpr h

/-! The message loop. -/

/-- The loop only prints and counts. -/
theorem foldl_handleMessage (previousConfirmed latest : UInt64) (server : Server)
    (messages : List LogMessage) :
    ∃ metrics, (messages.foldl (handleMessage previousConfirmed) (server, latest)).1 =
      { server with
        outputs := server.outputs ++ messages.filter fun message => ¬message.id ≤ previousConfirmed
        metrics := metrics } := by
  induction messages generalizing server latest with
  | nil => exact ⟨server.metrics, by simp⟩
  | cons message rest ih =>
      rw [List.foldl_cons]
      by_cases hOld : message.id ≤ previousConfirmed
      · rw [handleMessage, if_pos hOld]
        obtain ⟨metrics, hRest⟩ := ih latest _
        exact ⟨metrics, by rw [hRest, List.filter_cons_of_neg (by simpa using hOld)]⟩
      · rw [handleMessage, if_neg hOld]
        obtain ⟨metrics, hRest⟩ := ih message.id _
        exact ⟨metrics, by
          rw [hRest, List.filter_cons_of_pos (by simpa using hOld)]
          simp⟩

/-- The local watermark of the loop ends as the largest id. -/
theorem latest_foldl_handleMessage (previousConfirmed : UInt64) (server : Server)
    {messages : List LogMessage} (h : IdsIncreasing messages) :
    (messages.foldl (handleMessage previousConfirmed) (server, previousConfirmed)).2.toNat =
      highest messageKey previousConfirmed.toNat messages := by
  induction messages using List.reverseRecOn with
  | nil => rfl
  | append_singleton messages last ih =>
      have hInit := ih (h.sublist (List.sublist_append_left _ _))
      rw [highest_concat h.toNat, List.foldl_append, List.foldl_cons,
        List.foldl_nil]
      generalize messages.foldl (handleMessage previousConfirmed) (server, previousConfirmed) =
        state at hInit
      rw [handleMessage]
      by_cases hOld : last.id ≤ previousConfirmed
      · have hLe : messageKey last ≤ previousConfirmed.toNat := UInt64.le_iff_toNat_le.mp hOld
        -- all earlier ids are smaller still, so the whole batch is old
        have hAll : highest messageKey previousConfirmed.toNat messages = previousConfirmed.toNat := by
          refine le_antisymm (highest_le_iff.mpr ⟨le_refl _, fun item hMem => ?_⟩)
            (le_highest _ _ _).1
          have hLt := (List.pairwise_append.mp h.toNat).2.2 item hMem last
            (by simp)
          exact hLt.le.trans hLe
        rw [if_pos hOld, hInit, hAll, max_eq_left hLe]
      · have hLt : previousConfirmed.toNat < messageKey last := by
          exact UInt64.lt_iff_toNat_lt.mp (UInt64.not_le.mp hOld)
        rw [if_neg hOld, max_eq_right hLt.le]

theorem processMessages_eq (server : Server) (clientId : Bytes) {messages : List LogMessage}
    (h : IdsIncreasing messages) :
    ∃ metrics latest, server.processMessages clientId messages =
        ({ server with
            outputs := server.outputs ++ messages.filter fun message =>
              ¬message.id ≤ server.dedup.highestConfirmed clientId
            metrics := metrics }, latest) ∧
      latest.toNat =
        highest messageKey (server.dedup.highestConfirmed clientId).toNat messages := by
  let received : Server := { server with metrics := { server.metrics with
    receivedMessages := server.metrics.receivedMessages + .ofNat messages.length } }
  let previousConfirmed := server.dedup.highestConfirmed clientId
  obtain ⟨metrics, hLoop⟩ :=
    foldl_handleMessage previousConfirmed previousConfirmed received messages
  exact ⟨metrics, _, Prod.ext hLoop rfl, latest_foldl_handleMessage previousConfirmed received h⟩

/-! One batch. -/

/-- The state file is the text of the watermarks and can be read back. -/
structure Stored (server : Server) : Prop where
  persisted : DedupStore.Persisted server.dedup server.file
  readable : DedupStore.Readable server.dedup.confirmed

/-- What one client sees of the server: its messages among the outputs and its
watermark. -/
def clientView (clientId : Bytes) (server : Server) : Receiver LogMessage Nat where
  emitted := server.outputs.filter fun message => message.clientId = clientId
  watermark := (server.dedup.highestConfirmed clientId).toNat

/-- The acknowledgement of a batch, sent with this state file. -/
def batchAck (messages : List LogMessage) (hNonempty : messages ≠ []) (file : Option Bytes) : SentAck where
  clientId := (messages.head hNonempty).clientId
  confirmedId := (messages.getLast hNonempty).id
  file := file

/-- A saved watermark of a batch is the larger of the old watermark and the
batch, for its client only. The save does not throw. -/
theorem confirm_batch {server : Server} {messages : List LogMessage} {latest : UInt64}
    {clientId : Bytes} (hClient : clientId ≠ []) (hPositive : ∃ message ∈ messages, message.id ≠ 0)
    (hLatest : latest.toNat =
      highest messageKey (server.dedup.highestConfirmed clientId).toNat messages) :
    ∃ watermark dedup file,
      server.dedup.confirm server.file clientId latest .saved = (.ok watermark, dedup, file) ∧
      (Stored server → DedupStore.IsWord clientId →
        DedupStore.Persisted dedup file ∧ DedupStore.Readable dedup.confirmed) ∧
      ∀ other, (dedup.highestConfirmed other).toNat =
        if clientId = other then
          highest messageKey (server.dedup.highestConfirmed other).toNat messages
        else (server.dedup.highestConfirmed other).toNat := by
  have hAll := le_highest messageKey (server.dedup.highestConfirmed clientId).toNat messages
  rcases DedupStore.confirm_saved_cases server.dedup server.file clientId latest with
    ⟨_, hArgument⟩ | ⟨hCall, _, _, hLe⟩ | ⟨hCall, _, hId, _⟩
  · -- the batch has a positive id, so neither argument is empty
    obtain ⟨message, hMem, hId⟩ := hPositive
    have hLe := hAll.2 message hMem
    rw [← hLatest] at hLe
    rcases hArgument with hEmpty | hZero
    · exact absurd hEmpty hClient
    · rw [hZero] at hLe
      exact absurd (UInt64.toNat_inj.mp (Nat.le_zero.mp hLe)) hId
  · refine ⟨_, _, _, hCall, fun hStored _ => ⟨hStored.persisted, hStored.readable⟩, fun other => ?_⟩
    split_ifs with hOther
    · subst hOther
      have hNat := UInt64.le_iff_toNat_le.mp hLe
      rw [hLatest] at hNat
      exact le_antisymm hAll.1 hNat
    · rfl
  · refine ⟨_, _, _, hCall, fun hStored hWord => ⟨Or.inr rfl, ?_⟩, fun other => ?_⟩
    · intro other confirmedId hGet
      rw [Std.ExtTreeMap.getElem?_insert] at hGet
      split_ifs at hGet with hOther
      · cases hGet
        rw [Std.compare_eq_iff_eq] at hOther
        exact ⟨hOther ▸ hWord, hId⟩
      · exact hStored.readable other confirmedId hGet
    · rw [DedupStore.highestConfirmed_insert]
      split_ifs with hOther
      · rw [hLatest, hOther]
      · rfl

/-- The exception of a batch is the one of its acknowledgement, if any. -/
def ackResult : Option Exception → Except Exception Unit
  | none => .ok ()
  | some error => .error error

theorem sendAck_eq (server : Server) (ack : SentAck) (ackError : Option Exception) :
    ∃ metrics, server.sendAck ack ackError =
      (ackResult ackError, { server with acks := server.acks ++ [ack], metrics }) := by
  cases ackError with
  | none => exact ⟨_, rfl⟩
  | some error => exact ⟨_, rfl⟩

/-- The effect of a batch: the new messages are printed, the watermark of the
client is saved, and then the acknowledgement is sent. -/
theorem handleBatch_eq (server : Server) {messages : List LogMessage}
    (hBatch : BatchWithinLimits messages) (ackError : Option Exception) :
    ∃ dedup file metrics, server.handleBatch messages { ackError } =
        (ackResult ackError, {
          dedup, file, metrics
          outputs := server.outputs ++ messages.filter fun message =>
            ¬message.id ≤ server.dedup.highestConfirmed (messages.head hBatch.ne_nil).clientId
          acks := server.acks ++ [batchAck messages hBatch.ne_nil file] }) ∧
      (Stored server → DedupStore.IsWord (messages.head hBatch.ne_nil).clientId →
        DedupStore.Persisted dedup file ∧ DedupStore.Readable dedup.confirmed) ∧
      ∀ other, (dedup.highestConfirmed other).toNat =
        if (messages.head hBatch.ne_nil).clientId = other then
          highest messageKey (server.dedup.highestConfirmed other).toNat messages
        else (server.dedup.highestConfirmed other).toNat := by
  obtain ⟨front, rest, rfl⟩ := List.exists_cons_of_ne_nil hBatch.ne_nil
  have hFront := hBatch.within front (List.mem_cons_self ..)
  obtain ⟨metrics, latest, hLoop, hLatest⟩ :=
    processMessages_eq server front.clientId hBatch.idsIncreasing
  obtain ⟨watermark, dedup, file, hConfirm, hFacts⟩ := confirm_batch hFront.clientId_ne_nil
    ⟨front, List.mem_cons_self .., hFront.id_ne_zero⟩ hLatest
  obtain ⟨finalMetrics, hAck⟩ := sendAck_eq
    { server with
      dedup, file, metrics
      outputs := server.outputs ++ (front :: rest).filter fun message =>
        ¬message.id ≤ server.dedup.highestConfirmed front.clientId }
    (batchAck (front :: rest) hBatch.ne_nil file) ackError
  refine ⟨dedup, file, finalMetrics, ?_, hFacts⟩
  simp only [handleBatch, hLoop, hConfirm]
  exact hAck

/-- To each client the server is a receiver with a watermark; batches of other
clients do not concern it. -/
theorem clientView_handleBatch (server : Server) {messages : List LogMessage}
    (hBatch : BatchWithinLimits messages) (ackError : Option Exception) (clientId : Bytes) :
    clientView clientId (server.handleBatch messages { ackError }).2 =
      if (messages.head hBatch.ne_nil).clientId = clientId then
        receive messageKey (clientView clientId server) messages
      else clientView clientId server := by
  obtain ⟨dedup, file, metrics, hHandle, _, hWatermark⟩ := handleBatch_eq server hBatch ackError
  have hSame : ∀ message ∈ messages,
      message.clientId = (messages.head hBatch.ne_nil).clientId := by
    intro message hMem
    exact hBatch.sameClient message hMem _ (List.head_mem hBatch.ne_nil)
  rw [hHandle, clientView, hWatermark]
  dsimp only
  rw [List.filter_append]
  split_ifs with hClient
  · rw [receive, clientView]
    congr 2
    rw [List.filter_filter]
    apply List.filter_congr
    intro message hMem
    simp [hSame message hMem, hClient, messageKey, UInt64.le_iff_toNat_le]
  · have hNone : ∀ message ∈ messages, message.clientId ≠ clientId := by
      intro message hMem
      rw [hSame message hMem]
      exact hClient
    rw [clientView, List.filter_filter]
    congr 1
    rw [List.append_right_eq_self, List.filter_eq_nil_iff]
    intro message hMem
    simp [hNone message hMem]

theorem stored_handleBatch {server : Server} {messages : List LogMessage}
    (hStored : Stored server) (hBatch : BatchWithinLimits messages)
    (hWord : DedupStore.IsWord (messages.head hBatch.ne_nil).clientId)
    (ackError : Option Exception) : Stored (server.handleBatch messages { ackError }).2 := by
  obtain ⟨dedup, file, metrics, hHandle, hKept, _⟩ := handleBatch_eq server hBatch ackError
  obtain ⟨hPersisted, hReadable⟩ := hKept hStored hWord
  rw [hHandle]
  exact ⟨hPersisted, hReadable⟩

theorem construct_of_stored {server : Server} {path : Bytes} (hPath : path ≠ [])
    (hStored : Stored server) : DedupStore.construct path server.file = .ok server.dedup :=
  DedupStore.construct_persisted hPath hStored.persisted hStored.readable

/-! The counters. -/

/-- Every received message is counted once as processed or as a duplicate. -/
def Balanced (server : Server) : Prop :=
  server.metrics.receivedMessages =
    server.metrics.processedMessages + server.metrics.duplicateMessages

theorem counts_handleMessage (previousConfirmed : UInt64) (state : Server × UInt64)
    (message : LogMessage) :
    (handleMessage previousConfirmed state message).1.metrics.receivedMessages =
        state.1.metrics.receivedMessages ∧
      (handleMessage previousConfirmed state message).1.metrics.processedMessages +
          (handleMessage previousConfirmed state message).1.metrics.duplicateMessages =
        state.1.metrics.processedMessages + state.1.metrics.duplicateMessages + 1 := by
  rw [handleMessage]
  split_ifs
  · exact ⟨rfl, (UInt64.add_assoc ..).symm⟩
  · refine ⟨rfl, ?_⟩
    dsimp only
    rw [UInt64.add_assoc, UInt64.add_comm 1, ← UInt64.add_assoc]

theorem counts_foldl_handleMessage (previousConfirmed : UInt64) (state : Server × UInt64)
    (messages : List LogMessage) :
    (messages.foldl (handleMessage previousConfirmed) state).1.metrics.receivedMessages =
        state.1.metrics.receivedMessages ∧
      (messages.foldl (handleMessage previousConfirmed) state).1.metrics.processedMessages +
          (messages.foldl (handleMessage previousConfirmed) state).1.metrics.duplicateMessages =
        state.1.metrics.processedMessages + state.1.metrics.duplicateMessages +
          .ofNat messages.length := by
  induction messages generalizing state with
  | nil => exact ⟨rfl, by simp⟩
  | cons message rest ih =>
      obtain ⟨hReceived, hSum⟩ := ih (handleMessage previousConfirmed state message)
      have hOne : (.ofNat (message :: rest).length : UInt64) = 1 + .ofNat rest.length := by
        rw [List.length_cons, Nat.add_comm, UInt64.ofNat_add]
        rfl
      obtain ⟨hStepReceived, hStepSum⟩ := counts_handleMessage previousConfirmed state message
      rw [List.foldl_cons, hReceived, hSum, hOne, hStepReceived, hStepSum, ← UInt64.add_assoc]
      exact ⟨rfl, rfl⟩

theorem balanced_handleBatch {server : Server} (h : Balanced server) (messages : List LogMessage)
    (outcome : BatchOutcome) : Balanced (server.handleBatch messages outcome).2 := by
  cases messages with
  | nil => exact h
  | cons front rest =>
      have hLoop : Balanced (server.processMessages front.clientId (front :: rest)).1 := by
        obtain ⟨hReceived, hSum⟩ := counts_foldl_handleMessage
          (server.dedup.highestConfirmed front.clientId)
          ({ server with metrics := { server.metrics with
            receivedMessages := server.metrics.receivedMessages + .ofNat (front :: rest).length } },
            server.dedup.highestConfirmed front.clientId) (front :: rest)
        rw [Balanced, processMessages, hReceived, hSum]
        exact congrArg (· + _) h
      rw [handleBatch]
      generalize server.processMessages front.clientId (front :: rest) = state at hLoop
      obtain ⟨after, latest⟩ := state
      dsimp only at hLoop ⊢
      rcases after.dedup.confirm after.file front.clientId latest outcome.save with
        ⟨error | watermark, dedup, file⟩
      · exact hLoop
      · obtain ⟨save, _ | error⟩ := outcome <;> exact hLoop

end LogBridge.Server
