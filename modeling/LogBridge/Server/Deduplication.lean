import LogBridge.Library.Runs
import LogBridge.Server.Batch

/-! Deduplication over runs of batches and restarts. For each client the server
is a receiver with a watermark, so its outputs do not depend on how the batches
of other clients are interleaved, and the saved watermark covers every
acknowledgement. -/
namespace LogBridge.Server

open Checked Protocol Watermark

/-- A complete frame on any connection, with the end of its acknowledgement, or
a restart of the server. -/
inductive ServerAction where
  | receive (frame : Bytes) (ackError : Option Exception)
  | restart
  deriving DecidableEq, Repr

/-- A frame that is not accepted ends its connection and changes nothing. -/
def step (path : Bytes) (server : Server) : ServerAction → Option Server
  | .receive frame ackError =>
      match decodeLogBatch frame with
      | .error _ => some server
      | .ok messages => some (server.handleBatch messages { ackError }).2
  | .restart => (server.restart path).toOption

/-- The batch of an action, when its frame is accepted. -/
def acceptedBatch : ServerAction → Option (List LogMessage)
  | .receive frame _ => (decodeLogBatch frame).toOption
  | .restart => none

def batches (actions : List ServerAction) : List (List LogMessage) := actions.filterMap acceptedBatch

/-- The accepted batches of one client, in order. -/
def batchesOf (clientId : Bytes) (actions : List ServerAction) : List (List LogMessage) :=
  (batches actions).filter fun messages => ∃ front ∈ messages.head?, front.clientId = clientId

/-- Every accepted message carries a generated client id. -/
def GeneratedIds (actions : List ServerAction) : Prop :=
  ∀ messages ∈ batches actions, ∀ message ∈ messages, IsGenerated message.clientId

/-- The acknowledged id is covered by the watermark in the file at that moment. -/
def AckCovered (path : Bytes) (ack : SentAck) : Prop :=
  ∃ store, DedupStore.construct path ack.file = .ok store ∧
    ack.confirmedId ≤ store.highestConfirmed ack.clientId

theorem isWord_of_generated {clientId : Bytes} (h : IsGenerated clientId) :
    DedupStore.IsWord clientId := by
  obtain ⟨hLength, hDigits⟩ := h
  have hSpaces : ∀ byte ∈ hexDigits, Text.isSpace byte = false := by
    simp [hexDigits, Text.isSpace]
  constructor
  · intro hEmpty
    rw [hEmpty] at hLength
    cases hLength
  · intro byte hMem
    exact hSpaces byte (hDigits byte hMem)

/-- What holds after a run. -/
structure RunFacts (path : Bytes) (actions : List ServerAction) (server : Server) : Prop where
  stored : Stored server
  view : ∀ clientId, clientView clientId server =
    receiveAll messageKey { emitted := [], watermark := 0 } (batchesOf clientId actions)
  acks : ∀ ack ∈ server.acks, AckCovered path ack

theorem runFacts_start (path : Bytes) : RunFacts path [] {} := by
  constructor
  · exact ⟨Or.inl ⟨rfl, rfl⟩, by simp [DedupStore.Readable]⟩
  · intro clientId
    rfl
  · intro ack hMem
    cases hMem

theorem batchesOf_concat_none {clientId : Bytes} {actions : List ServerAction} {action : ServerAction}
    (h : acceptedBatch action = none) :
    batchesOf clientId (actions ++ [action]) = batchesOf clientId actions := by
  simp [batchesOf, batches, List.filterMap_append, h]

theorem batchesOf_concat_some {clientId : Bytes} {actions : List ServerAction} {action : ServerAction}
    {messages : List LogMessage} (h : acceptedBatch action = some messages)
    (hNonempty : messages ≠ []) :
    batchesOf clientId (actions ++ [action]) = batchesOf clientId actions ++
      if (messages.head hNonempty).clientId = clientId then [messages] else [] := by
  have hHead : messages.head? = some (messages.head hNonempty) := List.head?_eq_some_head hNonempty
  split_ifs with hClient
  · simp [batchesOf, batches, List.filterMap_append, h, hHead, hClient]
  · simp [batchesOf, batches, List.filterMap_append, h, hHead, hClient]

/-- One action keeps the facts and is always possible. -/
theorem RunFacts.step {path : Bytes} {actions : List ServerAction} {action : ServerAction}
    {server : Server} (hPath : path ≠ []) (h : RunFacts path actions server)
    (hIds : ∀ messages ∈ acceptedBatch action, ∀ message ∈ messages, IsGenerated message.clientId) :
    ∃ next, Server.step path server action = some next ∧ RunFacts path (actions ++ [action]) next := by
  cases action with
  | restart =>
      have hConstruct := construct_of_stored hPath h.stored
      refine ⟨{ server with metrics := {} }, ?_, ⟨h.stored.persisted, h.stored.readable⟩, ?_, h.acks⟩
      · rw [Server.step, restart, hConstruct]
        rfl
      · intro clientId
        rw [batchesOf_concat_none rfl]
        exact h.view clientId
  | receive frame ackError =>
      cases hDecode : decodeLogBatch frame with
      | error error =>
          have hNone : acceptedBatch (.receive frame ackError) = none := by
            rw [acceptedBatch, hDecode]
            rfl
          refine ⟨server, by rw [Server.step, hDecode], h.stored, ?_, h.acks⟩
          intro clientId
          rw [batchesOf_concat_none hNone]
          exact h.view clientId
      | ok messages =>
          have hSome : acceptedBatch (.receive frame ackError) = some messages := by
            rw [acceptedBatch, hDecode]
            rfl
          have hBatch := batchWithinLimits_of_decode hDecode
          have hWord : DedupStore.IsWord (messages.head hBatch.ne_nil).clientId :=
            isWord_of_generated (hIds messages hSome _ (List.head_mem hBatch.ne_nil))
          have hStored := stored_handleBatch h.stored hBatch hWord ackError
          refine ⟨_, by rw [Server.step, hDecode], hStored, ?_, ?_⟩
          · intro clientId
            rw [clientView_handleBatch server hBatch, h.view,
              batchesOf_concat_some hSome hBatch.ne_nil]
            split_ifs
            · rw [receiveAll_concat]
            · rw [List.append_nil]
          · intro ack hMem
            obtain ⟨dedup, file, metrics, hHandle, hKept, hWatermark⟩ :=
              handleBatch_eq server hBatch ackError
            obtain ⟨hPersisted, hReadable⟩ := hKept h.stored hWord
            rw [hHandle] at hMem
            rcases List.mem_append.mp hMem with hOld | hNew
            · exact h.acks ack hOld
            · rw [List.mem_singleton.mp hNew]
              refine ⟨dedup, DedupStore.construct_persisted hPath hPersisted hReadable, ?_⟩
              rw [UInt64.le_iff_toNat_le]
              change _ ≤ (dedup.highestConfirmed (messages.head hBatch.ne_nil).clientId).toNat
              rw [hWatermark, if_pos rfl]
              exact (le_highest messageKey _ messages).2 _ (List.getLast_mem hBatch.ne_nil)

/-- Every run is possible to its end: no restart fails. -/
theorem runFacts_run {path : Bytes} (hPath : path ≠ []) (actions : List ServerAction)
    (hIds : GeneratedIds actions) :
    ∃ server, Runs.run (Server.step path) {} actions = some server ∧
      RunFacts path actions server := by
  induction actions using List.reverseRecOn with
  | nil => exact ⟨{}, rfl, runFacts_start path⟩
  | append_singleton actions action ih =>
      rw [GeneratedIds, batches, List.filterMap_append] at hIds
      obtain ⟨server, hRun, hFacts⟩ := ih fun messages hMem =>
        hIds messages (List.mem_append_left _ hMem)
      have hLast : ∀ messages ∈ acceptedBatch action, ∀ message ∈ messages,
          IsGenerated message.clientId := by
        intro messages hMem
        refine hIds messages (List.mem_append_right _ ?_)
        rw [List.filterMap_cons, Option.mem_def.mp hMem]
        exact List.mem_cons_self ..
      obtain ⟨next, hStep, hNext⟩ := hFacts.step hPath hLast
      exact ⟨next, (Runs.run_concat_eq_some_iff actions action).mpr ⟨server, hRun, hStep⟩, hNext⟩

theorem sound_view {path : Bytes} {actions : List ServerAction} {server : Server}
    (h : RunFacts path actions server) (clientId : Bytes) :
    Sound messageKey (clientView clientId server) := by
  rw [h.view]
  apply Sound.receiveAll
  · exact ⟨List.Pairwise.nil, by simp⟩
  · intro batch hMem
    obtain ⟨action, _, hAction⟩ := List.mem_filterMap.mp (List.mem_of_mem_filter hMem)
    cases action with
    | restart => cases hAction
    | receive frame ackError =>
        cases hDecode : decodeLogBatch frame with
        | error error =>
            rw [acceptedBatch, hDecode] at hAction
            cases hAction
        | ok messages =>
            rw [acceptedBatch, hDecode] at hAction
            cases hAction
            exact (batchWithinLimits_of_decode hDecode).idsIncreasing.toNat

theorem idsIncreasing_outputs {path : Bytes} {actions : List ServerAction} {server : Server}
    (h : RunFacts path actions server) (clientId : Bytes) :
    IdsIncreasing (server.outputs.filter fun message => message.clientId = clientId) := by
  refine (sound_view h clientId).increasing.imp ?_
  intro first second hLt
  exact UInt64.lt_iff_toNat_lt.mpr hLt

theorem nodup_outputs {path : Bytes} {actions : List ServerAction} {server : Server}
    (h : RunFacts path actions server) :
    (server.outputs.map fun message => (message.clientId, message.id)).Nodup := by
  rw [List.Nodup, List.pairwise_map]
  refine (pairwise_of_classes LogMessage.clientId (idsIncreasing_outputs h)).imp ?_
  intro first second hLt hSame
  obtain ⟨hClient, hId⟩ := Prod.mk.inj hSame
  exact UInt64.ne_of_lt (hLt hClient) hId

theorem watermark_eq {path : Bytes} {actions : List ServerAction} {server : Server}
    (h : RunFacts path actions server) (clientId : Bytes) :
    (server.dedup.highestConfirmed clientId).toNat =
      highest messageKey 0 (batchesOf clientId actions).flatten := by
  have hView := congrArg Receiver.watermark (h.view clientId)
  rwa [watermark_receiveAll] at hView

/-- The guarantees of the server after a run. -/
structure Deduplicated (path : Bytes) (actions : List ServerAction) (server : Server) : Prop where
  outputOnce : (server.outputs.map fun message => (message.clientId, message.id)).Nodup
  outputIncreasing : ∀ clientId,
    IdsIncreasing (server.outputs.filter fun message => message.clientId = clientId)
  ackDurable : ∀ ack ∈ server.acks, ∃ store, DedupStore.construct path ack.file = .ok store ∧
    ack.confirmedId ≤ store.highestConfirmed ack.clientId
  watermarkLargest : ∀ clientId, (server.dedup.highestConfirmed clientId).toNat =
    highest messageKey 0 (batchesOf clientId actions).flatten
  durable : DedupStore.construct path server.file = .ok server.dedup
  /-- Two runs with the same batches of a client agree on that client. -/
  independent : ∀ other otherServer clientId, GeneratedIds other →
    Runs.run (Server.step path) {} other = some otherServer →
    batchesOf clientId other = batchesOf clientId actions →
      (otherServer.outputs.filter fun message => message.clientId = clientId) =
        (server.outputs.filter fun message => message.clientId = clientId) ∧
      otherServer.dedup.highestConfirmed clientId = server.dedup.highestConfirmed clientId
  /-- A further batch throws nothing but the error of its acknowledgement. -/
  noArgumentError : ∀ frame messages ackError, decodeLogBatch frame = .ok messages →
    (server.handleBatch messages { ackError }).1 = ackResult ackError

/-- Runs of accepted batches of any clients, in any order and overlap, with
restarts between them: no run gets stuck and the guarantees hold after it. -/
theorem deduplicates (path : Bytes) (actions : List ServerAction) (hPath : path ≠ [])
    (hIds : GeneratedIds actions) :
    ∃ server, Runs.run (Server.step path) {} actions = some server ∧
      Deduplicated path actions server := by
  obtain ⟨server, hRun, hFacts⟩ := runFacts_run hPath actions hIds
  refine ⟨server, hRun, {
    outputOnce := nodup_outputs hFacts
    outputIncreasing := idsIncreasing_outputs hFacts
    ackDurable := hFacts.acks
    watermarkLargest := watermark_eq hFacts
    durable := construct_of_stored hPath hFacts.stored
    independent := ?_
    noArgumentError := ?_ }⟩
  · intro other otherServer clientId hOtherIds hOtherRun hSame
    obtain ⟨reached, hOther, hOtherFacts⟩ := runFacts_run hPath other hOtherIds
    rw [Option.some.inj (hOther.symm.trans hOtherRun)] at hOtherFacts
    have hView : clientView clientId otherServer = clientView clientId server := by
      rw [hOtherFacts.view, hFacts.view, hSame]
    exact ⟨congrArg Receiver.emitted hView,
      UInt64.toNat_inj.mp (congrArg Receiver.watermark hView)⟩
  · intro frame messages ackError hDecode
    obtain ⟨dedup, file, metrics, hHandle, _⟩ :=
      handleBatch_eq server (batchWithinLimits_of_decode hDecode) ackError
    rw [hHandle]

/-- A message with a generated client id. -/
def sampleMessage : LogMessage := { id := 3, clientId := List.replicate 32 48 }

/-- A message that arrives twice, with a restart of the server in between. -/
def sampleActions : List ServerAction :=
  let frame := frameBytes .log (logRecordBytes sampleMessage)
  [.receive frame (some (.systemError "cannot send protocol data")), .restart, .receive frame none]

theorem deduplicates_sample :
    ∃ server, Runs.run (Server.step [100]) {} sampleActions = some server ∧
      Deduplicated [100] sampleActions server := by
  have hBatches : batches sampleActions = [[sampleMessage], [sampleMessage]] := by decide
  have hIds : GeneratedIds sampleActions := by
    rw [GeneratedIds, hBatches]
    simp [sampleMessage, IsGenerated, hexDigits]
  exact deduplicates [100] sampleActions (by decide) hIds

end LogBridge.Server
