import LogBridge.Client.Failures
import LogBridge.Server.Failures
import LogBridge.System.Delivery

/-! The client and the server with storage calls that fail while the processes run
on. The failing system is compared with an ideal one, in which the compaction of a
confirmed batch, once tried, is made up for by the retry, and in which no save of a
watermark fails. -/
namespace LogBridge

open Checked Protocol Storage WriteAheadLog Watermark Server

/-- An action of the system, or a call of one side that throws. -/
inductive FailingSystemAction where
  | system (action : SystemAction)
  | failAppend (outcome : AppendOutcome)
  /-- The client receives a reply, and its compaction throws. -/
  | failReply (index : Nat) (outcome : SaveOutcome)
  /-- The server receives a batch; the save of the watermark may throw. -/
  | receiveBatch (index : Nat) (outcome : BatchOutcome)

/-- The action may leave a batch printed and its watermark unsaved. -/
def FailingSystemAction.FailsSave : FailingSystemAction → Prop
  | .receiveBatch _ outcome => outcome.save ≠ .saved
  | _ => False

namespace System

/-- The acknowledgement of a batch goes back only after the save. -/
def receiveBatchWith (dedupPath : Bytes) (system : System) (index : Nat) (outcome : BatchOutcome) :
    Option System := do
  let packet ← system.batches[index]?
  let server ← system.server.stepFailing dedupPath (.receive packet.frame outcome)
  let acks := server.acks.drop system.server.acks.length
  let replies := acks.map fun ack =>
    { connection := packet.connection, frame := serializeAck ack.confirmedId }
  return { system with
    server
    batches := system.batches.eraseIdx index
    replies := system.replies ++ replies }

def failReply (system : System) (index : Nat) (outcome : SaveOutcome) : Option System := do
  let packet ← system.takeReply index
  let session ← system.client.session
  let client ← system.client.failReply session packet.frame outcome
  return { system with client, replies := system.replies.eraseIdx index }

def failingStep (config : ClientConfig) (dedupPath : Bytes) (system : System) :
    FailingSystemAction → Option System
  | .system action =>
      (system.step config dedupPath action).map fun next =>
        match action with
        | .client (.start _ _ _) => { next with client := next.client.withRecovered }
        | _ => next
  | .failAppend outcome => do
      let session ← system.client.session
      let client ← system.client.failAppend session outcome
      return { system with client }
  | .failReply index outcome => system.failReply index outcome
  | .receiveBatch index outcome => system.receiveBatchWith dedupPath index outcome

variable {config : ClientConfig} {dedupPath : Bytes} {system : System} {history : List LogMessage}
  {server shadow : Server}

/-! The server. -/

/-- A server that prints a message again after a failed save, and the server that
would not have failed. -/
structure Mirrors (path : Bytes) (history : List LogMessage) (server shadow : Server) : Prop where
  remembers : Remembers path server
  below : ∀ disk, DedupStore.construct path server.file = .ok disk →
    ∀ clientId, disk.highestConfirmed clientId ≤ shadow.dedup.highestConfirmed clientId
  sublist : shadow.outputs.Sublist server.outputs
  known : ∀ message ∈ server.outputs, message ∈ history ∧ message.id ≠ 0 ∧
    message.id ≤ shadow.dedup.highestConfirmed message.clientId

namespace Mirrors

theorem le_shadow (h : Mirrors dedupPath history server shadow) (clientId : Bytes) :
    server.dedup.highestConfirmed clientId ≤ shadow.dedup.highestConfirmed clientId := by
  obtain ⟨disk, hOpen, hLe⟩ := h.remembers.opens
  exact UInt64.le_trans (hLe clientId) (h.below disk hOpen clientId)

theorem logged (h : Mirrors dedupPath history server shadow) (added : List LogMessage) :
    Mirrors dedupPath (history ++ added) server shadow :=
  { h with
    known := fun message hMem =>
      ⟨List.mem_append_left _ (h.known message hMem).1, (h.known message hMem).2⟩ }

/-- What a confirmation leaves in the file. -/
theorem confirm_disk {store dedup disk : DedupStore} {file after : Option Bytes} {clientId : Bytes}
    {confirmedId : UInt64} {save : SaveOutcome} {result : Except Exception UInt64}
    (hPath : dedupPath ≠ []) (hReadable : DedupStore.Readable store.confirmed)
    (hWord : DedupStore.IsWord clientId)
    (hCall : store.confirm file clientId confirmedId save = (result, dedup, after))
    (hOpen : DedupStore.construct dedupPath after = .ok disk) :
    after = file ∨ disk = { confirmed := store.confirmed.insert clientId confirmedId } := by
  have hInserted (hId : confirmedId ≠ 0) := DedupStore.Session.construct_stateText hPath
    (hReadable.insert hWord hId)
  rcases DedupStore.confirm_cases store file clientId confirmedId save with
    ⟨hEnd, _⟩ | ⟨hEnd, _⟩ | ⟨_, hId, _, ⟨_, hEnd⟩ | ⟨error, ⟨_, hEnd⟩ | ⟨_, hEnd⟩⟩⟩
  · cases hCall.symm.trans hEnd
    exact Or.inl rfl
  · cases hCall.symm.trans hEnd
    exact Or.inl rfl
  · cases hCall.symm.trans hEnd
    exact Or.inr (Except.ok.inj (hOpen.symm.trans (hInserted hId)))
  · cases hCall.symm.trans hEnd
    exact Or.inl rfl
  · cases hCall.symm.trans hEnd
    exact Or.inr (Except.ok.inj (hOpen.symm.trans (hInserted hId)))

/-- The failing server gets a batch, and so does the other one. -/
theorem batch {messages : List LogMessage} {clientId : Bytes}
    (h : Mirrors dedupPath history server shadow) (hPath : dedupPath ≠ [])
    (hBatch : BatchWithinLimits messages)
    (hSame : ∀ message ∈ messages, message.clientId = clientId)
    (hWord : DedupStore.IsWord clientId) (hKnown : ∀ message ∈ messages, message ∈ history)
    (outcome : BatchOutcome) :
    Mirrors dedupPath history (server.handleBatch messages outcome).2
      (shadow.handleBatch messages { ackError := outcome.ackError }).2 := by
  have hFront : (messages.head hBatch.ne_nil).clientId = clientId :=
    hSame _ (List.head_mem hBatch.ne_nil)
  have hWordFront : DedupStore.IsWord (messages.head hBatch.ne_nil).clientId := by rwa [hFront]
  have hRemembers := h.remembers.handleBatch hPath hBatch hWordFront outcome
  obtain ⟨dedup, file, metrics, hHandle, _, hWatermark⟩ :=
    handleBatch_eq shadow hBatch outcome.ackError
  obtain ⟨latest, after, afterFile, afterMetrics, hLatest, hEnds⟩ :=
    handleBatch_cases server hBatch outcome
  have hGrown : ∀ other, shadow.dedup.highestConfirmed other ≤ dedup.highestConfirmed other := by
    intro other
    rw [UInt64.le_iff_toNat_le, hWatermark]
    split_ifs
    · exact (le_highest messageKey _ messages).1
    · exact Nat.le_refl _
  have hOwn : ∀ message ∈ messages, message.id ≤ dedup.highestConfirmed message.clientId := by
    intro message hMem
    rw [hSame message hMem, UInt64.le_iff_toNat_le, hWatermark, if_pos hFront]
    exact (le_highest messageKey _ messages).2 message hMem
  obtain ⟨result, acks, hConfirm, hNext⟩ : ∃ result acks,
      server.dedup.confirm server.file (messages.head hBatch.ne_nil).clientId latest outcome.save =
        (result, after, afterFile) ∧
      (server.handleBatch messages outcome).2 = {
        dedup := after, file := afterFile, metrics := afterMetrics, acks
        outputs := server.outputs ++ server.printed messages hBatch.ne_nil } := by
    rcases hEnds with ⟨value, hConfirm, hNext⟩ | ⟨error, hConfirm, hNext⟩
    · exact ⟨_, _, hConfirm, hNext⟩
    · exact ⟨_, _, hConfirm, hNext⟩
  rw [hNext] at hRemembers ⊢
  rw [hHandle]
  refine ⟨hRemembers, ?_, ?_, ?_⟩
  · intro disk hOpen other
    rcases confirm_disk hPath h.remembers.readable hWordFront hConfirm hOpen with rfl | rfl
    · exact UInt64.le_trans (h.below disk hOpen other) (hGrown other)
    · rw [DedupStore.highestConfirmed_insert, UInt64.le_iff_toNat_le, hWatermark]
      have hBelow := fun other => UInt64.le_iff_toNat_le.mp (h.le_shadow other)
      split_ifs with hClient
      · rw [hLatest, ← hClient]
        exact highest_le_iff.mpr ⟨(hBelow _).trans (le_highest messageKey _ messages).1,
          (le_highest messageKey _ messages).2⟩
      · exact hBelow other
  · refine h.sublist.append ?_
    refine List.monotone_filter_right messages fun message hNew => ?_
    have hNew := of_decide_eq_true hNew
    refine decide_eq_true fun hOld => hNew ?_
    exact UInt64.le_trans hOld (h.le_shadow _)
  · intro message hMem
    rcases List.mem_append.mp hMem with hOld | hNew
    · obtain ⟨hIn, hId, hLe⟩ := h.known message hOld
      exact ⟨hIn, hId, UInt64.le_trans hLe (hGrown _)⟩
    · obtain ⟨hMem, hAbove⟩ := List.mem_filter.mp hNew
      refine ⟨hKnown message hMem, fun hZero => ?_, hOwn message hMem⟩
      exact of_decide_eq_true hAbove (hZero ▸ UInt64.zero_le)

end Mirrors

/-- No save has failed so far: the two servers print the same. -/
def Agrees (server shadow : Server) : Prop :=
  server.outputs = shadow.outputs ∧
    ∀ clientId, server.dedup.highestConfirmed clientId = shadow.dedup.highestConfirmed clientId

theorem Agrees.batch {messages : List LogMessage} (h : Agrees server shadow)
    (hBatch : BatchWithinLimits messages) (ackError : Option Exception) :
    Agrees (server.handleBatch messages { ackError }).2 (shadow.handleBatch messages { ackError }).2 := by
  obtain ⟨hOutputs, hWatermarks⟩ := h
  obtain ⟨dedup, file, metrics, hHandle, _, hWatermark⟩ := handleBatch_eq server hBatch ackError
  obtain ⟨shadowDedup, shadowFile, shadowMetrics, hShadow, _, hShadowWatermark⟩ :=
    handleBatch_eq shadow hBatch ackError
  rw [hHandle, hShadow]
  constructor
  · dsimp only
    rw [hOutputs, hWatermarks]
  · intro other
    have hNext := hWatermark other
    rw [hWatermarks, ← hShadowWatermark] at hNext
    exact UInt64.toNat_inj.mp hNext

/-! The client. -/

/-- A message of the history that a watermark of the server covers has been output. -/
theorem Delivered.mem_outputs {message : LogMessage} (h : Delivered history shadow)
    (hOrder : history.Pairwise fun first second =>
      first.clientId = second.clientId → first.id < second.id)
    (hMem : message ∈ history) (hId : message.id ≠ 0)
    (hLe : message.id ≤ shadow.dedup.highestConfirmed message.clientId) : message ∈ shadow.outputs := by
  obtain ⟨rest, hRest⟩ := h.outputs
  rw [← hRest] at hMem hOrder
  refine (List.mem_append.mp hMem).resolve_right fun hLater => ?_
  have hExact : (shadow.dedup.highestConfirmed message.clientId).toNat = reached LogMessage.clientId
      messageKey 0 message.clientId shadow.outputs := h.exact message.clientId
  have hPositive : 0 < messageKey message :=
    Nat.pos_of_ne_zero fun hZero => hId (UInt64.toNat_inj.mp hZero)
  have hAbove := reached_lt (hOrder.imp fun hLt hEq => UInt64.lt_iff_toNat_lt.mp (hLt hEq)) hLater rfl
    hPositive
  rw [← hExact] at hAbove
  exact absurd (UInt64.le_iff_toNat_le.mp hLe) hAbove.not_ge

/-- The client of a joint state may be replaced by one with a longer history and
the same connections. -/
theorem Joint.replaced {next : Client} {added : List LogMessage} (h : Joint system)
    (hConsistent : next.Consistent) (hHistory : next.history = system.client.history ++ added)
    (hHeld : ∃ pending, next.Holds pending ∧ Unconfirmed next.history system.server.outputs pending)
    (hPiped : ∀ session, next.session = some session → Piped session)
    (hBelongs : ∀ connection clientId, system.client.Belongs connection clientId →
      next.Belongs connection clientId) : Joint { system with client := next } where
  consistent := hConsistent
  delivered := by
    refine ⟨h.delivered.stored, ?_, h.delivered.exact⟩
    rw [hHistory]
    exact h.delivered.outputs.trans (List.prefix_append _ _)
  held := hHeld
  piped := hPiped
  batches packet hMem := by
    obtain ⟨messages, clientId, hDecode, hSame, hDue, hOwn⟩ := h.batches packet hMem
    refine ⟨messages, clientId, hDecode, hSame, ?_, hBelongs _ _ hOwn⟩
    rw [hHistory]
    exact hDue.logged added
  replies packet hMem := by
    obtain ⟨confirmedId, clientId, hFrame, hLe, hOwn⟩ := h.replies packet hMem
    exact ⟨confirmedId, clientId, hFrame, hLe, hBelongs _ _ hOwn⟩

/-- A client that is down owns no open connection. -/
theorem belongs_down {client next : Client} {connection : Nat} {clientId : Bytes}
    (h : client.Belongs connection clientId) (hDown : next.session = none)
    (hLe : client.connection ≤ next.connection)
    (hClosed : client.session = none ∨ client.connection < next.connection) :
    next.Belongs connection clientId where
  le := h.le.trans hLe
  down _ := by
    rcases hClosed with hBefore | hLt
    · exact (h.down hBefore).trans_le hLe
    · exact h.le.trans_lt hLt
  running session hSession := by cases hSession.symm.trans hDown

/-- The ideal client and server in place of the failing ones. All messages before the
pending ones have been output and are covered by the watermark in memory. -/
structure Ideal (dedupPath : Bytes) (system : System) (ideal : Client) (shadow : Server)
    (acked pending : List LogMessage) : Prop where
  joint : Joint { system with client := ideal, server := shadow }
  logged : ideal.history = system.client.history
  server : Mirrors dedupPath system.client.history system.server shadow
  replies : ∀ packet ∈ system.replies, ReplyCovered ideal system.server.dedup packet
  history_eq : acked ++ pending = system.client.history
  output : acked <+: shadow.outputs
  covered : ∀ message ∈ acked, message.id ≤ system.server.dedup.highestConfirmed message.clientId

theorem Ideal.client {ideal other next : Client} {added acked pending moreAcked others : List LogMessage}
    {batches : List Packet} (h : Ideal dedupPath system ideal shadow acked pending)
    (hJoint : Joint { system with client := other, server := shadow, batches })
    (hBelongs : ∀ connection clientId, ideal.Belongs connection clientId →
      other.Belongs connection clientId)
    (hLogged : other.history = next.history) (hHistory : next.history = system.client.history ++ added)
    (hEq : moreAcked ++ others = next.history) (hOutput : moreAcked <+: shadow.outputs)
    (hCovered : ∀ message ∈ moreAcked,
      message.id ≤ system.server.dedup.highestConfirmed message.clientId) :
    Ideal dedupPath { system with client := next, batches } other shadow moreAcked others where
  joint := hJoint
  logged := hLogged
  server := by
    rw [hHistory]
    exact h.server.logged added
  replies packet hMem := by
    obtain ⟨confirmedId, clientId, hFrame, hLe, hOwn⟩ := h.replies packet hMem
    exact ⟨confirmedId, clientId, hFrame, hLe, hBelongs _ _ hOwn⟩
  history_eq := hEq
  output := hOutput
  covered := hCovered

/-- The client is down. Its file holds the pending messages, a message whose append
had thrown, and an incomplete frame, as far as there are any. -/
structure Down (dedupPath : Bytes) (system : System) (shadow : Server)
    (acked pending extra : List LogMessage) (tail : Bytes) : Prop where
  stopped : system.client.session = none
  ideal : Ideal dedupPath system { system.client with walFile := some (walBytes pending) } shadow
    acked pending
  directory : (system.client.foreseen extra).DirectoryValid (pending ++ extra) tail

/-- The client runs. Its file may also hold old messages whose removal failed, and
the last of these may still be resent. -/
structure Up (dedupPath : Bytes) (system : System) (session : Session) (shadow : Server)
    (acked old resent extra : List LogMessage) (tail : Bytes) : Prop where
  runs : system.client.session = some session
  ideal : Ideal dedupPath system (system.client.viewed session [] (resent ++ session.wal.pending)) shadow
    acked session.wal.pending
  disk : (system.client.viewed session extra (old ++ session.wal.pending ++ extra)).Consistent
  file : readFile system.client.walFile = walBytes (old ++ session.wal.pending ++ extra) ++ tail
  torn : Torn tail
  clean : extra = [] ∧ tail = [] ∨ session.producer.Ended

/-- The failing system is behind the ideal one by nothing but repetitions. -/
inductive Survives (dedupPath : Bytes) (system : System) (shadow : Server) : Prop
  | down {acked pending extra : List LogMessage} {tail : Bytes}
      (h : Down dedupPath system shadow acked pending extra tail) : Survives dedupPath system shadow
  | up {session : Session} {acked old resent extra : List LogMessage} {tail : Bytes}
      (h : Up dedupPath system session shadow acked old resent extra tail) :
      Survives dedupPath system shadow

/-- What the network and the server do is done beside the ideal client as well. -/
theorem Survives.beside {next : System} {other : Server} (h : Survives dedupPath system shadow)
    (hClient : next.client = system.client)
    (hIdeal : ∀ ideal acked pending, Ideal dedupPath system ideal shadow acked pending →
      Ideal dedupPath next ideal other acked pending) : Survives dedupPath next other := by
  cases h with
  | down h => exact .down ⟨by rw [hClient]; exact h.stopped, by
      rw [hClient]; exact hIdeal _ _ _ h.ideal, by rw [hClient]; exact h.directory⟩
  | up h => exact .up ⟨by rw [hClient]; exact h.runs, by
      rw [hClient]; exact hIdeal _ _ _ h.ideal, by rw [hClient]; exact h.disk, by
      rw [hClient]; exact h.file, h.torn, h.clean⟩

end System
end LogBridge
