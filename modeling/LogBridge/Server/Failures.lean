import LogBridge.DedupStore.Failures
import LogBridge.Server.Batch

/-! Saves of the watermark that fail while the server runs on. A batch whose save
fails has been printed but is not acknowledged, so it may be printed again. A
batch whose save succeeded never is: every later output of its client lies above
the acknowledged id, in this process and after any restart. -/
namespace LogBridge.Server

open Checked Protocol Storage Watermark DedupStore

/-! One batch, with any ends of its calls. -/

variable {path : Bytes} {server next : Server} {messages : List LogMessage} {outcome : BatchOutcome}

/-- The messages of a batch that are printed. -/
def printed (server : Server) (messages : List LogMessage) (hNonempty : messages ≠ []) :
    List LogMessage :=
  messages.filter fun message =>
    ¬message.id ≤ server.dedup.highestConfirmed (messages.head hNonempty).clientId

/-- The batch is printed before the save; only a save that returns is followed by
the acknowledgement. -/
theorem handleBatch_cases (server : Server) (hBatch : BatchWithinLimits messages)
    (outcome : BatchOutcome) :
    ∃ latest dedup file metrics,
      latest.toNat = highest messageKey
        (server.dedup.highestConfirmed (messages.head hBatch.ne_nil).clientId).toNat messages ∧
      ((∃ value, server.dedup.confirm server.file (messages.head hBatch.ne_nil).clientId latest
            outcome.save = (.ok value, dedup, file) ∧
          (server.handleBatch messages outcome).2 = {
            dedup, file, metrics
            outputs := server.outputs ++ printed server messages hBatch.ne_nil
            acks := server.acks ++ [batchAck messages hBatch.ne_nil file] }) ∨
        ∃ error, server.dedup.confirm server.file (messages.head hBatch.ne_nil).clientId latest
            outcome.save = (.error error, dedup, file) ∧
          (server.handleBatch messages outcome).2 = {
            dedup, file, metrics
            outputs := server.outputs ++ printed server messages hBatch.ne_nil
            acks := server.acks }) := by
  obtain ⟨front, rest, rfl⟩ := List.exists_cons_of_ne_nil hBatch.ne_nil
  obtain ⟨metrics, latest, hLoop, hLatest⟩ :=
    processMessages_eq server front.clientId hBatch.idsIncreasing
  rcases hConfirm : server.dedup.confirm server.file front.clientId latest outcome.save with
    ⟨error | value, dedup, file⟩
  · refine ⟨latest, dedup, file, metrics, hLatest, Or.inr ⟨error, hConfirm, ?_⟩⟩
    simp only [handleBatch, hLoop, hConfirm]
    rfl
  · obtain ⟨finalMetrics, hAck⟩ := sendAck_eq
      { server with
        dedup, file, metrics
        outputs := server.outputs ++ printed server (front :: rest) hBatch.ne_nil }
      (batchAck (front :: rest) hBatch.ne_nil file) outcome.ackError
    refine ⟨latest, dedup, file, finalMetrics, hLatest, Or.inl ⟨value, hConfirm, ?_⟩⟩
    simp only [handleBatch, hLoop, hConfirm]
    exact congrArg Prod.snd hAck

/-- A confirmation that returns covers its argument. -/
theorem le_of_confirm_ok {store dedup : DedupStore} {file after : Option Bytes} {clientId : Bytes}
    {confirmedId value : UInt64} {save : SaveOutcome}
    (h : store.confirm file clientId confirmedId save = (.ok value, dedup, after)) :
    confirmedId ≤ value := by
  rcases confirm_cases store file clientId confirmedId save with
    ⟨hCall, _⟩ | ⟨hCall, _, _, hLe⟩ | ⟨_, _, _, ⟨_, hCall⟩ | ⟨error, ⟨_, hCall⟩ | ⟨_, hCall⟩⟩⟩
  · cases hCall.symm.trans h
  · cases hCall.symm.trans h
    exact hLe
  · cases hCall.symm.trans h
    exact UInt64.le_refl _
  · cases hCall.symm.trans h
  · cases hCall.symm.trans h

/-- The server as a store with the ids that it acknowledged. -/
def storeSession (server : Server) : Session where
  store := server.dedup
  file := server.file
  returned := server.acks.map fun ack => (ack.clientId, ack.confirmedId)

/-- The file opens to watermarks that are nowhere below those in memory, and these
cover every acknowledgement. -/
abbrev Remembers (path : Bytes) (server : Server) : Prop := Session.Sound path server.storeSession

theorem Remembers.ack_le (h : Remembers path server) {ack : SentAck} (hMem : ack ∈ server.acks) :
    ack.confirmedId ≤ server.dedup.highestConfirmed ack.clientId :=
  h.returned_le (ack.clientId, ack.confirmedId) (List.mem_map.mpr ⟨ack, hMem, rfl⟩)

theorem remembers_initial (hPath : path ≠ []) : Remembers path {} where
  readable := Readable.empty
  opens := ⟨{}, construct_persisted hPath (Or.inl ⟨rfl, rfl⟩) Readable.empty,
    fun _ => UInt64.le_refl _⟩
  returned_le := by simp [storeSession]

theorem Remembers.handleBatch (hPath : path ≠ []) (h : Remembers path server)
    (hBatch : BatchWithinLimits messages)
    (hWord : IsWord (messages.head hBatch.ne_nil).clientId) (outcome : BatchOutcome) :
    Remembers path (server.handleBatch messages outcome).2 := by
  obtain ⟨latest, dedup, file, metrics, hLatest, hEnds⟩ := handleBatch_cases server hBatch outcome
  rcases hEnds with ⟨value, hConfirm, hNext⟩ | ⟨error, hConfirm, hNext⟩
  · have hSound : Session.Sound path _ := h.confirm hPath hWord outcome.save (by
      rw [Session.step]
      dsimp only [storeSession]
      rw [hConfirm])
    rw [hNext]
    refine ⟨hSound.readable, hSound.opens, fun record hMem => ?_⟩
    obtain ⟨ack, hAck, rfl⟩ := List.mem_map.mp hMem
    rcases List.mem_append.mp hAck with hOld | hNew
    · exact hSound.returned_le _ (List.mem_append_left _ (List.mem_map.mpr ⟨ack, hOld, rfl⟩))
    · -- the last id of the batch is at most the id that was confirmed
      rw [List.mem_singleton.mp hNew]
      have hLast : (messages.getLast hBatch.ne_nil).id ≤ latest := by
        rw [UInt64.le_iff_toNat_le, hLatest]
        exact (le_highest messageKey _ messages).2 _ (List.getLast_mem hBatch.ne_nil)
      have hValue := hSound.returned_le _ (List.mem_append_right _ (List.mem_singleton_self _))
      exact UInt64.le_trans (UInt64.le_trans hLast (le_of_confirm_ok hConfirm)) hValue
  · have hSound : Session.Sound path _ := h.confirm hPath hWord outcome.save (by
      rw [Session.step]
      dsimp only [storeSession]
      rw [hConfirm])
    rw [hNext]
    exact hSound

theorem Remembers.restart (h : Remembers path server) :
    ∃ next, server.restart path = .ok next ∧ Remembers path next ∧
      next.outputs = server.outputs ∧ next.acks = server.acks := by
  obtain ⟨disk, hOpen, _⟩ := h.opens
  have hReopened : server.storeSession.step path .reopen =
      some { server.storeSession with store := disk } := by
    rw [Session.step, hOpen]
  have hSound := h.reopen hReopened
  refine ⟨{ server with dedup := disk, metrics := {} }, ?_, hSound, rfl, rfl⟩
  rw [Server.restart]
  rw [show DedupStore.construct path server.file = _ from hOpen]
  rfl

/-! Runs. -/

/-- A complete frame on any connection, with the ends of the save and of the
acknowledgement, or a restart of the server. -/
inductive FailingAction where
  | receive (frame : Bytes) (outcome : BatchOutcome)
  | restart
  deriving DecidableEq, Repr

def stepFailing (path : Bytes) (server : Server) : FailingAction → Option Server
  | .receive frame outcome =>
      match decodeLogBatch frame with
      | .error _ => some server
      | .ok messages => some (server.handleBatch messages outcome).2
  | .restart => (server.restart path).toOption

/-- The client ids of an accepted frame are words of the state file. -/
def NamesWords : FailingAction → Prop
  | .receive frame _ => ∀ messages, decodeLogBatch frame = .ok messages →
      ∀ message ∈ messages, IsWord message.clientId
  | .restart => True

/-- What has been printed since: each message lies above all ids that had been
acknowledged to its client before. -/
def PrintsAbove (before after : Server) : Prop :=
  ∃ added, after.outputs = before.outputs ++ added ∧ before.acks <+: after.acks ∧
    ∀ message ∈ added, ∀ ack ∈ before.acks, ack.clientId = message.clientId →
      ack.confirmedId < message.id

theorem PrintsAbove.refl (server : Server) : PrintsAbove server server :=
  ⟨[], (List.append_nil _).symm, List.prefix_rfl, by simp⟩

theorem PrintsAbove.trans {before middle after : Server} (hFirst : PrintsAbove before middle)
    (hSecond : PrintsAbove middle after) : PrintsAbove before after := by
  obtain ⟨first, hMiddle, hAcks, hFirst⟩ := hFirst
  obtain ⟨second, hAfter, hMore, hSecond⟩ := hSecond
  refine ⟨first ++ second, by rw [hAfter, hMiddle, List.append_assoc], hAcks.trans hMore, ?_⟩
  intro message hMem ack hAck hClient
  rcases List.mem_append.mp hMem with hOld | hNew
  · exact hFirst message hOld ack hAck hClient
  · exact hSecond message hNew ack (hAcks.subset hAck) hClient

theorem Remembers.printsAbove (h : Remembers path server) (hBatch : BatchWithinLimits messages)
    (outcome : BatchOutcome) : PrintsAbove server (server.handleBatch messages outcome).2 := by
  have hAbove : ∀ message ∈ printed server messages hBatch.ne_nil, ∀ ack ∈ server.acks,
      ack.clientId = message.clientId → ack.confirmedId < message.id := by
    intro message hMem ack hAck hClient
    obtain ⟨hMem, hNew⟩ := List.mem_filter.mp hMem
    have hSame := hBatch.sameClient message hMem _ (List.head_mem hBatch.ne_nil)
    have hLe := h.ack_le hAck
    rw [hClient, hSame] at hLe
    exact UInt64.lt_of_le_of_lt hLe (UInt64.not_le.mp (of_decide_eq_true hNew))
  obtain ⟨_, _, _, _, _, ⟨_, _, hNext⟩ | ⟨_, _, hNext⟩⟩ := handleBatch_cases server hBatch outcome
  · rw [hNext]
    exact ⟨_, rfl, List.prefix_append _ _, hAbove⟩
  · rw [hNext]
    exact ⟨_, rfl, List.prefix_rfl, hAbove⟩

/-- Every action is possible and keeps what the server remembers. -/
theorem Remembers.step {action : FailingAction} (hPath : path ≠ []) (h : Remembers path server)
    (hWords : NamesWords action) :
    ∃ next, stepFailing path server action = some next ∧ Remembers path next ∧
      PrintsAbove server next := by
  cases action with
  | restart =>
      obtain ⟨next, hRestart, hNext, hOutputs, hAcks⟩ := h.restart
      refine ⟨next, by rw [stepFailing, hRestart]; rfl, hNext, [], ?_, ?_, by simp⟩
      · rw [hOutputs, List.append_nil]
      · exact hAcks ▸ List.prefix_rfl
  | receive frame outcome =>
      cases hDecode : decodeLogBatch frame with
      | error error =>
          exact ⟨server, by rw [stepFailing, hDecode], h, PrintsAbove.refl server⟩
      | ok messages =>
          have hBatch := batchWithinLimits_of_decode hDecode
          have hWord := hWords messages hDecode _ (List.head_mem hBatch.ne_nil)
          exact ⟨_, by rw [stepFailing, hDecode], h.handleBatch hPath hBatch hWord outcome,
            h.printsAbove hBatch outcome⟩

theorem Remembers.run {actions : List FailingAction} (hPath : path ≠ []) (h : Remembers path server)
    (hWords : ∀ action ∈ actions, NamesWords action) :
    ∃ next, Runs.run (stepFailing path) server actions = some next ∧ Remembers path next ∧
      PrintsAbove server next := by
  induction actions generalizing server with
  | nil => exact ⟨server, rfl, h, PrintsAbove.refl server⟩
  | cons action rest ih =>
      rw [List.forall_mem_cons] at hWords
      obtain ⟨middle, hStep, hMiddle, hFirst⟩ := h.step hPath hWords.1
      obtain ⟨next, hRest, hNext, hSecond⟩ := ih hMiddle hWords.2
      exact ⟨next, Runs.run_cons hStep hRest, hNext, hFirst.trans hSecond⟩

/-- The save of a batch fails, and the batch is sent again. -/
def failingActions : List FailingAction :=
  let frame := frameBytes .log (logRecordBytes { id := 3, clientId := [97] })
  [.receive frame { save := .failedBeforeRename (.systemError "cannot write persistent file") },
    .receive frame {}]

end LogBridge.Server
