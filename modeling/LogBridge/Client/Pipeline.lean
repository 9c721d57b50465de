import LogBridge.Client.Identity

/-! The way of a message through the running process. The pending messages of the
write-ahead log are, in order, those the consumer holds, those in the queue and
those the producer still has to push. -/
namespace LogBridge

open Checked Protocol Storage WriteAheadLog

/-- The logged messages that are not pushed yet, unless the producer has given up. -/
def Producer.unpushed : Producer → Option (List LogMessage)
  | .opening | .polling _ => some []
  | .collecting _ _ messages | .appending _ _ _ messages => some messages
  | .enqueuing _ messages => some messages
  | .closing | .finished => none

/-- The messages the consumer holds, while it runs. -/
def Consumer.held : Consumer → Option (List LogMessage)
  | .delivering messages | .awaiting messages => some messages
  | .looping => some []
  | .batching batch => some batch
  | .finished => none

/-- The actions that can confirm messages. -/
def ClientAction.takesReply : ClientAction → Bool
  | .reply _ | .crashInReply _ _ => true
  | _ => false

/-- The pending messages pass the consumer in order. A producer that has given up
may leave some that are delivered in the next session. -/
def Piped (session : Session) : Prop :=
  ∀ held, session.consumer.held = some held → ∃ rest,
    held ++ (session.queue ++ rest) = session.wal.pending ∧
      ∀ unpushed, session.producer.unpushed = some unpushed → rest = unpushed

namespace Piped

variable {session moved : Session}

/-- A thread may stop, and it keeps its messages otherwise. -/
theorem frame (h : Piped session) (hWal : moved.wal = session.wal) (hQueue : moved.queue = session.queue)
    (hHeld : ∀ held, moved.consumer.held = some held → session.consumer.held = some held)
    (hUnpushed : ∀ unpushed, moved.producer.unpushed = some unpushed →
      session.producer.unpushed = some unpushed) : Piped moved := by
  intro held hMoved
  obtain ⟨rest, hPending, hRest⟩ := h held (hHeld held hMoved)
  rw [hWal, hQueue]
  exact ⟨rest, hPending, fun unpushed hSome => hRest unpushed (hUnpushed unpushed hSome)⟩

/-- A message moves from the producer to the queue. -/
theorem push {message : LogMessage} {rest : List LogMessage} (h : Piped session)
    (hWal : moved.wal = session.wal) (hConsumer : moved.consumer = session.consumer)
    (hQueue : moved.queue = session.queue ++ [message])
    (hBefore : session.producer.unpushed = some (message :: rest))
    (hAfter : moved.producer.unpushed = some rest) : Piped moved := by
  intro held hHeld
  obtain ⟨all, hPending, hAll⟩ := h held (hConsumer ▸ hHeld)
  obtain rfl := hAll _ hBefore
  refine ⟨rest, ?_, ?_⟩
  · rw [hWal, hQueue, List.append_assoc]
    exact hPending
  · intro unpushed hSome
    exact Option.some.inj (hAfter.symm.trans hSome)

/-- A message moves from the queue to the batch of the consumer. -/
theorem pop {message : LogMessage} {queue batch : List LogMessage} (h : Piped session)
    (hWal : moved.wal = session.wal) (hProducer : moved.producer = session.producer)
    (hBefore : session.queue = message :: queue) (hAfter : moved.queue = queue)
    (hHeld : session.consumer.held = some batch)
    (hBatch : moved.consumer.held = some (batch ++ [message])) : Piped moved := by
  intro held hMoved
  obtain rfl := Option.some.inj (hBatch.symm.trans hMoved)
  obtain ⟨rest, hPending, hRest⟩ := h batch hHeld
  refine ⟨rest, ?_, ?_⟩
  · rw [hWal, hAfter, ← hPending, hBefore]
    simp
  · rw [hProducer]
    exact hRest

theorem thread {config : ClientConfig} {log : FileSystem} {action : ThreadAction} {disconnects : Bool}
    (h : Piped session)
    (hMoved : session.threadStep config log action = some (moved, disconnects)) : Piped moved := by
  revert hMoved
  fun_cases Session.threadStep <;> intro hMoved <;> cases hMoved
  case case10 reader message rest hEnqueuing _ _ =>
      exact h.push rfl rfl rfl (by rw [hEnqueuing]; rfl) rfl
  case case25 hLooping =>
      refine h.frame rfl rfl ?_ fun unpushed hSome => hSome
      rw [hLooping]
      cases session.running with
      | false =>
          intro held hHeld
          cases hHeld
      | true => exact fun held hHeld => hHeld
  case case27 batch message rest hQueue hBatching _ =>
      exact h.pop rfl rfl hQueue rfl (by rw [hBatching]; rfl) rfl
  all_goals
    refine h.frame rfl rfl ?_ ?_ <;>
      simp_all [Session.producerFails, Producer.unpushed, Consumer.held]

end Piped
namespace Client

variable {client next : Client} {config : ClientConfig} {session moved : Session}

/-! What the consumer sends and confirms. -/

theorem confirmedBy_cases {messages : List LogMessage} {frame : Bytes} {confirmedId : UInt64}
    (h : confirmedBy messages frame = some confirmedId) :
    frame = serializeAck confirmedId ∧
      ∃ last, (Session.batch messages).getLast? = some last ∧ last.id = confirmedId := by
  revert h
  fun_cases confirmedBy with
  | case1 ack last hLast hAck hSame =>
      intro h
      cases h
      exact ⟨(deserializeAck_eq_ok_iff.mp hAck).symm, last, hLast, hSame.symm⟩
  | case2 => nofun
  | case3 => nofun

/-- The first batch is also the front of the pending messages. -/
theorem batch_append {messages : List LogMessage} (h : Piped session)
    (hHeld : session.consumer.held = some messages) : ∃ rest,
      Session.batch messages ++ (messages.drop sendBatchSize ++ (session.queue ++ rest)) =
        session.wal.pending ∧
      ∀ unpushed, session.producer.unpushed = some unpushed → rest = unpushed := by
  obtain ⟨rest, hPending, hRest⟩ := h messages hHeld
  refine ⟨rest, ?_, hRest⟩
  rw [← hPending, ← List.append_assoc, Session.batch, List.take_append_drop]

/-- A confirmation leaves what is behind the batch. -/
theorem keptAfter_confirmedBy {messages later : List LogMessage} {frame : Bytes}
    {confirmedId : UInt64} (hIncreasing : IdsIncreasing session.wal.pending)
    (hBatch : Session.batch messages ++ later = session.wal.pending)
    (hConfirmed : confirmedBy messages frame = some confirmedId) :
    keptAfter confirmedId session.wal.pending = later := by
  obtain ⟨_, last, hLast, rfl⟩ := confirmedBy_cases hConfirmed
  rw [← hBatch] at hIncreasing ⊢
  exact keptAfter_getLast hIncreasing hLast

/-! The pipeline over the actions of the client. -/

theorem piped_opened (pending : List LogMessage) (state : ClientState) :
    Piped (openedSession pending state) := by
  intro held hHeld
  cases hHeld
  refine ⟨[], by simp [openedSession], ?_⟩
  intro unpushed hSome
  exact Option.some.inj hSome

theorem piped_allocate {timestampMs : Int64} {outcome : SaveOutcome} (h : Piped session)
    (hStep : client.allocate session timestampMs outcome = some next)
    (hNext : next.session = some moved) : Piped moved := by
  obtain ⟨reader, line, lines, messages, hProducer, hEnds⟩ := allocate_cases hStep
  rcases hEnds with ⟨stateFile, rfl, _⟩ | ⟨_, rfl⟩
  · cases hNext
    exact h.frame rfl rfl (fun held hHeld => hHeld) nofun
  · cases hNext
    refine h.frame rfl rfl (fun held hHeld => hHeld) ?_
    rw [hProducer]
    exact fun unpushed hSome => hSome

/-- A logged message is last in the log and last among those to be pushed. -/
theorem piped_append (h : Piped session) (hStep : client.append session = some next)
    (hNext : next.session = some moved) : Piped moved := by
  obtain ⟨reader, message, lines, messages, hProducer, hEnds⟩ := append_cases hStep
  rcases hEnds with ⟨_, rfl⟩ | ⟨_, rfl⟩
  · cases hNext
    exact h.frame rfl rfl (fun held hHeld => hHeld) nofun
  · cases hNext
    intro held hHeld
    obtain ⟨rest, hPending, hRest⟩ := h held hHeld
    obtain rfl := hRest messages (by rw [hProducer]; rfl)
    refine ⟨rest ++ [message], ?_, ?_⟩
    · change _ = session.wal.pending ++ [message]
      rw [← hPending]
      simp
    · intro unpushed hSome
      exact Option.some.inj hSome

theorem piped_checkpoint {outcome : SaveOutcome} (h : Piped session)
    (hStep : client.checkpoint session outcome = some next)
    (hNext : next.session = some moved) : Piped moved := by
  obtain ⟨reader, messages, updated, hProducer, _, stateFile, hEnds⟩ := checkpoint_cases hStep
  rcases hEnds with ⟨_, rfl, _⟩ | ⟨rfl, _⟩
  · cases hNext
    exact h.frame rfl rfl (fun held hHeld => hHeld) nofun
  · cases hNext
    refine h.frame rfl rfl (fun held hHeld => hHeld) ?_
    rw [hProducer]
    exact fun unpushed hSome => hSome

/-- A confirmation takes the batch from the log and from the consumer. -/
theorem piped_reply {frame : Bytes} (h : Piped session)
    (hDirectory : DirectoryValid client session.wal.pending [])
    (hStep : client.reply session frame = some next) (hNext : next.session = some moved) :
    Piped moved := by
  obtain ⟨messages, hAwaiting, hEnds⟩ :=
    reply_cases hDirectory.pendingValid.within hDirectory.walFile_eq hStep
  have hHeld : session.consumer.held = some messages := by
    rw [hAwaiting]
    rfl
  rcases hEnds with ⟨_, rfl⟩ | ⟨confirmedId, walFile, hConfirmed, _, rfl⟩
  · cases hNext
    refine h.frame rfl rfl ?_ fun unpushed hSome => hSome
    rw [hHeld]
    exact fun held hSome => hSome
  · cases hNext
    obtain ⟨rest, hBatch, hRest⟩ := batch_append h hHeld
    intro held hSome
    cases hSome
    refine ⟨rest, ?_, hRest⟩
    exact (keptAfter_confirmedBy hDirectory.pendingValid.idsIncreasing hBatch hConfirmed).symm

/-- Every action keeps the pipeline of the running process. -/
theorem piped_step {action : ClientAction} (hConsistent : Consistent client)
    (h : ∀ session, client.session = some session → Piped session)
    (hStep : client.step config action = some next) (hNext : next.session = some moved) :
    Piped moved := by
  cases acts_of_step hStep with
  | appendLog hLog => exact h moved hNext
  | changeLog => exact h moved hNext
  | deleteState hDown => exact h moved hNext
  | start hDown hStart =>
      obtain ⟨pending, tail, hDirectory⟩ := hConsistent.down hDown
      obtain ⟨_, _, hEnds⟩ := start_cases hDown hDirectory hStart
      rcases hEnds with ⟨_, _, hStopped, _⟩ | ⟨_, corrected, _, _, _, _, hStopped | hOpened, _⟩
      · cases hNext.symm.trans hStopped
      · cases hNext.symm.trans hStopped
      · cases hNext.symm.trans hOpened
        exact piped_opened pending corrected
  | thread hSome hMoved =>
      cases hNext
      exact (h _ hSome).thread hMoved
  | allocate hSome hAct => exact piped_allocate (h _ hSome) hAct hNext
  | append hSome hAct => exact piped_append (h _ hSome) hAct hNext
  | checkpoint hSome hAct => exact piped_checkpoint (h _ hSome) hAct hNext
  | reply hSome hAct =>
      exact piped_reply (h _ hSome) (hConsistent.running _ hSome).1 hAct hNext
  | finish _ hFinished => cases hNext
  | crash _ => cases hNext
  | crashInAppend hSome hAct =>
      obtain ⟨hDirectory, hValid⟩ := hConsistent.running _ hSome
      have hStopped := (crashInAppend_directory hDirectory hValid hAct).1
      cases hNext.symm.trans hStopped
  | crashInReply hSome hAct =>
      obtain ⟨hDirectory, _⟩ := hConsistent.running _ hSome
      obtain ⟨_, _, _, _, _, hStopped, _⟩ := crashInReply_directory hDirectory hAct
      rw [hStopped] at hNext
      cases hNext

/-! The effect on the log. -/

/-- The directory holds these pending messages, and so does the running process. -/
structure Holds (client : Client) (pending : List LogMessage) : Prop where
  directory : ∃ tail, DirectoryValid client pending tail
  memory : ∀ session, client.session = some session → session.wal.pending = pending

theorem Consistent.holds (h : Consistent client) (hSession : client.session = some session) :
    Holds client session.wal.pending where
  directory := ⟨[], (h.running session hSession).1⟩
  memory other hOther := by rw [Option.some.inj (hSession.symm.trans hOther)]

theorem holds_of_down {pending : List LogMessage} {tail : Bytes} (hDown : client.session = none)
    (h : DirectoryValid client pending tail) : Holds client pending where
  directory := ⟨tail, h⟩
  memory session hSession := by cases hSession.symm.trans hDown

/-- The messages that an action adds to the history are added to the pending
messages. -/
def Logs (client next : Client) (pending : List LogMessage) : Prop :=
  ∃ logged, next.history = client.history ++ logged ∧ Holds next (pending ++ logged)

theorem logs_none {pending : List LogMessage} (hHistory : next.history = client.history)
    (h : Holds next pending) : Logs client next pending :=
  ⟨[], by rw [hHistory, List.append_nil], by rwa [List.append_nil]⟩

/-- A message leaves the log by a confirmation only. -/
theorem logs_step {pending : List LogMessage} {action : ClientAction} (hConsistent : Consistent client)
    (h : Holds client pending) (hReply : action.takesReply = false)
    (hStep : client.step config action = some next) : Logs client next pending := by
  have hNext := hConsistent.step hStep
  obtain ⟨tail, hDirectory⟩ := h.directory
  cases acts_of_step hStep with
  | appendLog hLog => exact logs_none rfl ⟨⟨tail, { hDirectory with }⟩, h.memory⟩
  | changeLog => exact logs_none rfl ⟨⟨tail, { hDirectory with }⟩, h.memory⟩
  | deleteState hDown =>
      exact logs_none rfl ⟨⟨tail, { hDirectory with stateFile := by simp }⟩, h.memory⟩
  | start hDown hStart =>
      obtain ⟨hHistory, _, hEnds⟩ := start_cases hDown hDirectory hStart
      rcases hEnds with ⟨_, hRest, hStopped, _⟩ | ⟨_, corrected, hOpen, _, _, _, hStopped | hOpened, _⟩
      · exact logs_none hHistory (holds_of_down hStopped hRest)
      · exact logs_none hHistory (holds_of_down hStopped hOpen)
      · exact logs_none hHistory (hNext.holds hOpened)
  | thread hSession hMoved =>
      obtain rfl := h.memory _ hSession
      rw [← (Session.threadStep_keeps hMoved).1]
      exact logs_none rfl (hNext.holds rfl)
  | allocate hSession hAct =>
      obtain rfl := h.memory _ hSession
      obtain ⟨_, _, _, _, _, ⟨_, rfl, _⟩ | ⟨_, rfl⟩⟩ := allocate_cases hAct
      · have hHolds := hNext.holds rfl
        exact logs_none rfl hHolds
      · have hHolds := hNext.holds rfl
        exact logs_none rfl hHolds
  | append hSession hAct =>
      obtain rfl := h.memory _ hSession
      obtain ⟨_, message, _, _, _, ⟨_, rfl⟩ | ⟨_, rfl⟩⟩ := append_cases hAct
      · have hHolds := hNext.holds rfl
        exact logs_none rfl hHolds
      · exact ⟨[message], rfl, hNext.holds rfl⟩
  | checkpoint hSession hAct =>
      obtain rfl := h.memory _ hSession
      obtain ⟨_, _, _, _, _, _, ⟨_, rfl, _⟩ | ⟨rfl, _⟩⟩ := checkpoint_cases hAct
      · have hHolds := hNext.holds rfl
        exact logs_none rfl hHolds
      · have hHolds := hNext.holds rfl
        exact logs_none rfl hHolds
  | reply hSession hAct => cases hReply
  | finish hSession hFinished => exact logs_none rfl (holds_of_down rfl { hDirectory with })
  | crash hSession => exact logs_none rfl (holds_of_down rfl { hDirectory with })
  | crashInAppend hSession hAct =>
      obtain ⟨hRunning, hValid⟩ := hConsistent.running _ hSession
      obtain ⟨hDown, logged, tail, hHistory, hLogged⟩ := crashInAppend_directory hRunning hValid hAct
      obtain rfl := h.memory _ hSession
      exact ⟨logged, hHistory, holds_of_down hDown hLogged⟩
  | crashInReply hSession hAct => cases hReply

/-! Connections. -/

theorem start_connection {generated : Bytes} {walOutcome stateOutcome : SaveOutcome}
    (hStep : client.start config generated walOutcome stateOutcome = some next) :
    next.connection = client.connection := by
  revert hStep
  fun_cases Client.start <;> intro hStep <;> cases hStep <;> rfl

/-- Connections are numbered upwards, and the end of the process ends its connection. -/
theorem step_connection {action : ClientAction} (hConsistent : Consistent client)
    (hStep : client.step config action = some next) : client.connection ≤ next.connection ∧
      (next.session = none → client.session = none ∨ client.connection < next.connection) := by
  have hStopped : client.connection ≤ client.stopped.connection ∧
      (client.stopped.session = none → client.session = none ∨
        client.connection < client.stopped.connection) :=
    ⟨Nat.le_succ _, fun _ => Or.inr (Nat.lt_succ_self _)⟩
  cases acts_of_step hStep with
  | appendLog hLog => exact ⟨Nat.le_refl _, Or.inl⟩
  | changeLog => exact ⟨Nat.le_refl _, Or.inl⟩
  | deleteState hDown => exact ⟨Nat.le_refl _, Or.inl⟩
  | start hDown hStart =>
      rw [start_connection hStart]
      exact ⟨Nat.le_refl _, fun _ => Or.inl hDown⟩
  | thread hSession hMoved =>
      constructor
      · dsimp only
        split_ifs
        · exact Nat.le_succ _
        · exact Nat.le_refl _
      · intro hNone
        cases hNone
  | allocate hSession hAct =>
      obtain ⟨_, _, _, _, _, ⟨_, rfl, _⟩ | ⟨_, rfl⟩⟩ := allocate_cases hAct
      · exact ⟨Nat.le_refl _, fun hNone => by cases hNone⟩
      · exact ⟨Nat.le_refl _, fun hNone => by cases hNone⟩
  | append hSession hAct =>
      obtain ⟨_, _, _, _, _, ⟨_, rfl⟩ | ⟨_, rfl⟩⟩ := append_cases hAct
      · exact ⟨Nat.le_refl _, fun hNone => by cases hNone⟩
      · exact ⟨Nat.le_refl _, fun hNone => by cases hNone⟩
  | checkpoint hSession hAct =>
      obtain ⟨_, _, _, _, _, _, ⟨_, rfl, _⟩ | ⟨rfl, _⟩⟩ := checkpoint_cases hAct
      · exact ⟨Nat.le_refl _, fun hNone => by cases hNone⟩
      · exact ⟨Nat.le_refl _, fun hNone => by cases hNone⟩
  | reply hSession hAct =>
      obtain ⟨hDirectory, _⟩ := hConsistent.running _ hSession
      obtain ⟨_, _, ⟨_, rfl⟩ | ⟨_, _, _, _, rfl⟩⟩ :=
        reply_cases hDirectory.pendingValid.within hDirectory.walFile_eq hAct
      · exact ⟨Nat.le_succ _, fun hNone => by cases hNone⟩
      · exact ⟨Nat.le_refl _, fun hNone => by cases hNone⟩
  | finish hSession hFinished => exact hStopped
  | crash hSession => exact hStopped
  | crashInAppend hSession hAct =>
      obtain ⟨_, _, _, _, _, _, ⟨_, rfl⟩ | ⟨_, rfl⟩⟩ := crashInAppend_cases hAct
      · exact hStopped
      · exact hStopped
  | crashInReply hSession hAct =>
      obtain ⟨hDirectory, _⟩ := hConsistent.running _ hSession
      obtain ⟨_, _, _, _, _, hNext, _⟩ := crashInReply_directory hDirectory hAct
      rw [hNext]
      exact hStopped

/-- The connection is of a process of this client id, or it is closed. -/
structure Belongs (client : Client) (connection : Nat) (clientId : Bytes) : Prop where
  le : connection ≤ client.connection
  down : client.session = none → connection < client.connection
  running : ∀ session, client.session = some session → connection = client.connection →
    session.state.clientId = clientId

/-- The client id of a process does not change. -/
theorem Belongs.step {action : ClientAction} {connection : Nat} {clientId : Bytes}
    (h : Belongs client connection clientId) (hConsistent : Consistent client)
    (hStep : client.step config action = some next) : Belongs next connection clientId := by
  obtain ⟨hLe, hEnds⟩ := step_connection hConsistent hStep
  constructor
  · exact h.le.trans hLe
  · intro hDown
    rcases hEnds hDown with hBefore | hLt
    · exact (h.down hBefore).trans_le hLe
    · exact h.le.trans_lt hLt
  · intro moved hMoved hSame
    have hEq : connection = client.connection := h.le.antisymm (hSame ▸ hLe)
    cases hSession : client.session with
    | none => exact absurd hEq (h.down hSession).ne
    | some session =>
        rw [(counterMoved_step hStep hSession hMoved).clientId_eq]
        exact h.running session hSession hEq

end Client
end LogBridge
