import LogBridge.System.Delivery

/-! The exchange on one connection. The client sends a batch only after the reply to
the batch before it, and gives up a connection on which something went wrong. So
there is at most one frame in flight on its connection: the batch that it waits
for, or the acknowledgement of this batch. -/
namespace LogBridge

open Checked Protocol Storage

/-! The frames of one connection. -/

/-- The frames of the packets on the connection, in order. -/
def framesOn (connection : Nat) (packets : List Packet) : List Bytes :=
  (packets.filter fun packet => packet.connection = connection).map Packet.frame

theorem framesOn_cons (connection : Nat) (packet : Packet) (packets : List Packet) :
    framesOn connection (packet :: packets) =
      if packet.connection = connection then packet.frame :: framesOn connection packets
      else framesOn connection packets := by
  rw [framesOn, List.filter_cons]
  by_cases hSame : packet.connection = connection
  · rw [if_pos (decide_eq_true hSame), if_pos hSame]
    rfl
  · rw [if_neg (by simpa using hSame), if_neg hSame]
    rfl

theorem framesOn_concat (connection : Nat) (packets : List Packet) (packet : Packet) :
    framesOn connection (packets ++ [packet]) = framesOn connection packets ++
      if packet.connection = connection then [packet.frame] else [] := by
  induction packets with
  | nil => exact framesOn_cons connection packet []
  | cons first rest ih =>
      rw [List.cons_append, framesOn_cons, framesOn_cons, ih]
      split_ifs
      · rfl
      · rfl
      · rfl
      · rfl

/-- The first frame of a connection has an index, and the removal of its packet
leaves the other frames. -/
theorem exists_packet {connection : Nat} {packets : List Packet} {frame : Bytes} {rest : List Bytes}
    (h : framesOn connection packets = frame :: rest) :
    ∃ index, packets[index]? = some ⟨connection, frame⟩ ∧
      framesOn connection (packets.eraseIdx index) = rest ∧
      ∀ other ≠ connection, framesOn other (packets.eraseIdx index) = framesOn other packets := by
  induction packets with
  | nil => cases h
  | cons packet packets ih =>
      obtain ⟨its, sent⟩ := packet
      rw [framesOn_cons] at h
      split_ifs at h with hSame
      · obtain ⟨rfl, rfl⟩ := List.cons.inj h
        obtain rfl : its = connection := hSame
        refine ⟨0, rfl, rfl, ?_⟩
        intro other hOther
        rw [framesOn_cons, if_neg (Ne.symm hOther)]
        rfl
      · obtain ⟨index, hIndex, hRest, hOthers⟩ := ih h
        refine ⟨index + 1, hIndex, ?_, ?_⟩
        · rw [List.eraseIdx_cons_succ, framesOn_cons, if_neg hSame]
          exact hRest
        · intro other hOther
          rw [List.eraseIdx_cons_succ, framesOn_cons, framesOn_cons, hOthers other hOther]

/-- The packet at an index, and the frames without it. -/
theorem framesOn_eraseIdx {packets : List Packet} {index : Nat} {packet : Packet}
    (h : packets[index]? = some packet) (connection : Nat) :
    ∃ before after, framesOn connection (packets.eraseIdx index) = before ++ after ∧
      framesOn connection packets = before ++
        (if packet.connection = connection then [packet.frame] else []) ++ after := by
  induction packets generalizing index with
  | nil => cases h
  | cons first rest ih =>
      cases index with
      | zero =>
          cases h
          refine ⟨[], framesOn connection rest, rfl, ?_⟩
          rw [framesOn_cons]
          split_ifs
          · rfl
          · rfl
      | succ index =>
          obtain ⟨before, after, hErased, hWhole⟩ := ih h
          rw [List.eraseIdx_cons_succ, framesOn_cons, framesOn_cons, hErased, hWhole]
          by_cases hSame : first.connection = connection
          · rw [if_pos hSame, if_pos hSame]
            exact ⟨first.frame :: before, after, rfl, rfl⟩
          · rw [if_neg hSame, if_neg hSame]
            exact ⟨before, after, rfl, rfl⟩

/-- The messages whose first batch has been sent, while the consumer waits for its reply. -/
def Consumer.awaited : Consumer → Option (List LogMessage)
  | .awaiting messages => some messages
  | _ => none

def Client.awaited (client : Client) : Option (List LogMessage) :=
  client.session.bind fun session => session.consumer.awaited

theorem Consumer.awaited_eq_some_iff {consumer : Consumer} {messages : List LogMessage} :
    consumer.awaited = some messages ↔ consumer = .awaiting messages := by
  cases consumer <;> simp [awaited]

namespace Session

variable {config : ClientConfig} {log : FileSystem} {action : ThreadAction}
  {session next : Session} {disconnects : Bool}

/-- An attempt that sends nothing and the actions of the other threads leave the
wait as it is, or they give the connection up. -/
theorem threadStep_awaited (hSilent : action = .attempt .sent → session.outgoing = none)
    (hMoved : session.threadStep config log action = some (next, disconnects)) :
    disconnects = true ∨ next.consumer.awaited = session.consumer.awaited := by
  revert hMoved
  fun_cases Session.threadStep <;> intro hMoved <;> cases hMoved <;>
    simp_all [Consumer.awaited, outgoing, producerFails, Except.toOption]
  split_ifs
  · rfl
  · rfl

end Session
namespace Client

variable {config : ClientConfig} {client next : Client}

/-- The actions that send a batch or take a reply. -/
def Exchanges (client : Client) : ClientAction → Prop
  | .thread (.attempt .sent) => ∃ session ∈ client.session, session.outgoing ≠ none
  | .reply _ | .crashInReply _ _ => True
  | _ => False

/-- All other actions leave the wait as it is, or they end the connection. -/
theorem awaited_step {action : ClientAction} (hOther : ¬Exchanges client action)
    (hStep : client.step config action = some next) :
    client.connection < next.connection ∨
      (next.connection = client.connection ∧ next.awaited = client.awaited) := by
  have hStopped : client.connection < client.stopped.connection := Nat.lt_succ_self _
  cases acts_of_step hStep with
  | appendLog hLog => exact Or.inr ⟨rfl, rfl⟩
  | changeLog => exact Or.inr ⟨rfl, rfl⟩
  | deleteState hDown => exact Or.inr ⟨rfl, rfl⟩
  | start hDown hStart =>
      refine Or.inr ⟨start_connection hStart, ?_⟩
      revert hStart
      fun_cases Client.start <;> intro hStart <;> cases hStart <;>
        simp [awaited, hDown, Consumer.awaited]
  | thread hSession hMoved =>
      have hEnds := Session.threadStep_awaited (by
        rintro rfl
        by_contra hOutgoing
        exact hOther ⟨_, hSession, hOutgoing⟩) hMoved
      rcases hEnds with rfl | hSame
      · exact Or.inl (Nat.lt_succ_self _)
      · dsimp only
        split_ifs
        · exact Or.inl (Nat.lt_succ_self _)
        · refine Or.inr ⟨rfl, ?_⟩
          rw [awaited, awaited, hSession]
          exact hSame
  | allocate hSession hAct =>
      obtain ⟨_, _, _, _, _, ⟨_, rfl, _⟩ | ⟨_, rfl⟩⟩ := allocate_cases hAct
      · exact Or.inr ⟨rfl, by rw [awaited, awaited, hSession]; rfl⟩
      · exact Or.inr ⟨rfl, by rw [awaited, awaited, hSession]; rfl⟩
  | append hSession hAct =>
      obtain ⟨_, _, _, _, _, ⟨_, rfl⟩ | ⟨_, rfl⟩⟩ := append_cases hAct
      · exact Or.inr ⟨rfl, by rw [awaited, awaited, hSession]; rfl⟩
      · exact Or.inr ⟨rfl, by rw [awaited, awaited, hSession]; rfl⟩
  | checkpoint hSession hAct =>
      obtain ⟨_, _, _, _, _, _, ⟨_, rfl, _⟩ | ⟨rfl, _⟩⟩ := checkpoint_cases hAct
      · exact Or.inr ⟨rfl, by rw [awaited, awaited, hSession]; rfl⟩
      · exact Or.inr ⟨rfl, by rw [awaited, awaited, hSession]; rfl⟩
  | reply hSession hAct => exact absurd trivial hOther
  | finish hSession hFinished => exact Or.inl hStopped
  | crash hSession => exact Or.inl hStopped
  | crashInAppend hSession hAct =>
      obtain ⟨_, _, _, _, _, _, ⟨_, rfl⟩ | ⟨_, rfl⟩⟩ := crashInAppend_cases hAct
      · exact Or.inl hStopped
      · exact Or.inl hStopped
  | crashInReply hSession hAct => exact absurd trivial hOther

/-- The attempt with a batch: it is sent on the connection, or the connection is
given up. -/
theorem attempt_of_outgoing (config : ClientConfig) {session : Session} {frame : Bytes}
    (hSession : client.session = some session) (hOutgoing : session.outgoing = some frame) :
    ∃ messages, session.consumer = .delivering messages ∧
      serializeLogBatch (Session.batch messages) = .ok frame ∧
      client.step config (.thread (.attempt .sent)) =
        some { client with session := some { session with consumer := .awaiting messages } } ∧
      client.step config (.thread (.attempt .failed)) =
        some { client with session := some session, connection := client.connection + 1 } := by
  unfold Session.outgoing at hOutgoing
  split at hOutgoing
  · next messages hConsumer =>
      split_ifs at hOutgoing with hRunning
      cases hSerialize : serializeLogBatch (Session.batch messages) with
      | error error =>
          rw [hSerialize] at hOutgoing
          cases hOutgoing
      | ok sent =>
          rw [hSerialize] at hOutgoing
          cases hOutgoing
          have hNonempty : messages ≠ [] := by
            rintro rfl
            cases hSerialize
          refine ⟨messages, hConsumer, hSerialize, ?_, ?_⟩
          · simp [step, hSession, Session.threadStep, hConsumer, hNonempty, hRunning, hSerialize]
          · simp [step, hSession, Session.threadStep, hConsumer, hNonempty, hRunning]
  · cases hOutgoing

end Client
namespace System

variable {config : ClientConfig} {dedupPath : Bytes} {system : System}

/-- The step that puts a frame in flight. -/
theorem step_send {session : Session} {frame : Bytes} {client : Client}
    (hSession : system.client.session = some session) (hOutgoing : session.outgoing = some frame)
    (hStep : system.client.step config (.thread (.attempt .sent)) = some client) :
    system.step config dedupPath .send = some { system with
      client, batches := system.batches ++ [⟨system.client.connection, frame⟩] } := by
  rw [System.step, System.send, hSession, Option.bind_eq_bind, Option.bind_some, hStep,
    Option.bind_eq_bind, Option.bind_some, hOutgoing]
  rfl

/-- What can be in flight on the connection of a client that waits for the reply to
the first batch of these messages. -/
inductive Exchange : Option (List LogMessage) → List Bytes → List Bytes → Prop
  /-- Nothing: no batch is awaited, or it was lost, or its reply was. -/
  | idle (awaited : Option (List LogMessage)) : Exchange awaited [] []
  | batch {messages : List LogMessage} {frame : Bytes}
      (hFrame : serializeLogBatch (Session.batch messages) = .ok frame) :
      Exchange (some messages) [frame] []
  | reply {messages : List LogMessage} {last : LogMessage}
      (hLast : (Session.batch messages).getLast? = some last) :
      Exchange (some messages) [] [serializeAck last.id]

theorem Exchange.lose {awaited : Option (List LogMessage)} {batches replies fewer less : List Bytes}
    (h : Exchange awaited batches replies) (hBatches : fewer.Sublist batches)
    (hReplies : less.Sublist replies) : Exchange awaited fewer less := by
  cases h with
  | idle =>
      rw [List.sublist_nil.mp hBatches, List.sublist_nil.mp hReplies]
      exact .idle awaited
  | batch hFrame =>
      rw [List.sublist_nil.mp hReplies]
      rcases List.sublist_cons_iff.mp hBatches with hNone | ⟨rest, rfl, hRest⟩
      · rw [List.sublist_nil.mp hNone]
        exact .idle _
      · rw [List.sublist_nil.mp hRest]
        exact .batch hFrame
  | reply hLast =>
      rw [List.sublist_nil.mp hBatches]
      rcases List.sublist_cons_iff.mp hReplies with hNone | ⟨rest, rfl, hRest⟩
      · rw [List.sublist_nil.mp hNone]
        exact .idle _
      · rw [List.sublist_nil.mp hRest]
        exact .reply hLast

/-- The exchange on the connection of the client; later connections are unused. -/
structure StopAndWait (system : System) : Prop where
  present : Exchange system.client.awaited (framesOn system.client.connection system.batches)
    (framesOn system.client.connection system.replies)
  unused : ∀ connection, system.client.connection < connection →
    framesOn connection system.batches = [] ∧ framesOn connection system.replies = []

theorem stopAndWait_initial (log : FileSystem) : StopAndWait { client := { log } } where
  present := .idle _
  unused _ _ := ⟨rfl, rfl⟩

/-- The client moves on, on the same connection or on a new one. -/
theorem StopAndWait.client {next : Client} (h : StopAndWait system)
    (hNext : system.client.connection < next.connection ∨
      (next.connection = system.client.connection ∧ next.awaited = system.client.awaited)) :
    StopAndWait { system with client := next } := by
  rcases hNext with hLt | ⟨hSame, hAwaited⟩
  · obtain ⟨hBatches, hReplies⟩ := h.unused next.connection hLt
    constructor
    · change Exchange next.awaited (framesOn next.connection system.batches)
        (framesOn next.connection system.replies)
      rw [hBatches, hReplies]
      exact .idle _
    · intro connection hLater
      exact h.unused connection (hLt.trans hLater)
  · constructor
    · change Exchange next.awaited (framesOn next.connection system.batches)
        (framesOn next.connection system.replies)
      rw [hSame, hAwaited]
      exact h.present
    · intro connection hLater
      exact h.unused connection (hSame ▸ hLater)

theorem framesOn_eraseIdx_sublist (connection : Nat) (packets : List Packet) (index : Nat) :
    (framesOn connection (packets.eraseIdx index)).Sublist (framesOn connection packets) :=
  ((List.eraseIdx_sublist packets index).filter _).map _

theorem StopAndWait.lose {batches replies : List Packet} (h : StopAndWait system)
    (hBatches : ∀ connection,
      (framesOn connection batches).Sublist (framesOn connection system.batches))
    (hReplies : ∀ connection,
      (framesOn connection replies).Sublist (framesOn connection system.replies)) :
    StopAndWait { system with batches, replies } where
  present := h.present.lose (hBatches _) (hReplies _)
  unused connection hLater := by
    obtain ⟨hNone, hEmpty⟩ := h.unused connection hLater
    have hNoBatch := hBatches connection
    have hNoReply := hReplies connection
    rw [hNone] at hNoBatch
    rw [hEmpty] at hNoReply
    exact ⟨List.sublist_nil.mp hNoBatch, List.sublist_nil.mp hNoReply⟩

theorem StopAndWait.send {next : System} (h : StopAndWait system)
    (hStep : system.send config = some next) : StopAndWait next := by
  obtain ⟨session, hSession, hRest⟩ := Option.bind_eq_some_iff.mp hStep
  obtain ⟨client, hClient, hRest⟩ := Option.bind_eq_some_iff.mp hRest
  cases hRest
  cases hOutgoing : session.outgoing with
  | none =>
      refine h.client (Client.awaited_step ?_ hClient)
      rintro ⟨other, hOther, hSome⟩
      rw [Option.some.inj (hOther.symm.trans hSession)] at hSome
      exact hSome hOutgoing
  | some frame =>
      obtain ⟨messages, hConsumer, hFrame, hSent, _⟩ :=
        Client.attempt_of_outgoing config hSession hOutgoing
      cases hSent.symm.trans hClient
      have hIdle : system.client.awaited = none := by
        rw [Client.awaited, hSession, Option.bind_some, hConsumer]
        rfl
      have hPresent := h.present
      rw [hIdle] at hPresent
      generalize hBatches : framesOn system.client.connection system.batches = batches at hPresent
      generalize hReplies : framesOn system.client.connection system.replies = replies at hPresent
      cases hPresent
      constructor
      · change Exchange (some messages) (framesOn system.client.connection (system.batches ++ [_]))
          (framesOn system.client.connection system.replies)
        rw [framesOn_concat, hBatches, hReplies, if_pos rfl]
        exact .batch hFrame
      · intro connection hLater
        obtain ⟨hNone, hEmpty⟩ := h.unused connection hLater
        refine ⟨?_, hEmpty⟩
        change framesOn connection (system.batches ++ [_]) = []
        rw [framesOn_concat, hNone, if_neg hLater.ne]
        rfl

/-- The server answers the awaited batch, or a batch of an old connection. -/
theorem StopAndWait.receiveBatch {index : Nat} {ackError : Option Exception} {next : System}
    (h : StopAndWait system) (hStep : system.receiveBatch dedupPath index ackError = some next) :
    StopAndWait next := by
  obtain ⟨packet, hPacket, hRest⟩ := Option.bind_eq_some_iff.mp hStep
  obtain ⟨server, hServer, hRest⟩ := Option.bind_eq_some_iff.mp hRest
  cases hRest
  have hErased := fun connection => framesOn_eraseIdx_sublist connection system.batches index
  rw [Server.step] at hServer
  cases hDecode : decodeLogBatch packet.frame with
  | error error =>
      rw [hDecode] at hServer
      cases hServer
      rw [List.drop_length, List.map_nil, List.append_nil]
      exact h.lose hErased fun _ => List.Sublist.refl _
  | ok messages =>
      rw [hDecode] at hServer
      cases hServer
      have hBatch := Server.batchWithinLimits_of_decode hDecode
      obtain ⟨dedup, file, metrics, hHandle, _⟩ := Server.handleBatch_eq system.server hBatch ackError
      rw [hHandle]
      dsimp only
      rw [List.drop_left, List.map_singleton]
      obtain ⟨before, after, hLeft, hWhole⟩ := framesOn_eraseIdx hPacket packet.connection
      rw [if_pos rfl] at hWhole
      rcases Nat.lt_trichotomy packet.connection system.client.connection with hOld | hSame | hLater
      · have hGone := h.lose hErased fun _ => List.Sublist.refl _
        constructor
        · change Exchange system.client.awaited _ (framesOn _ (system.replies ++ [_]))
          rw [framesOn_concat, if_neg hOld.ne, List.append_nil]
          exact hGone.present
        · intro connection hLater
          obtain ⟨hNone, hEmpty⟩ := hGone.unused connection hLater
          refine ⟨hNone, ?_⟩
          change framesOn connection (system.replies ++ [_]) = []
          rw [framesOn_concat, if_neg (hOld.trans hLater).ne, List.append_nil]
          exact hEmpty
      · have hPresent := h.present
        rw [← hSame, hWhole] at hPresent
        generalize hReplies : framesOn packet.connection system.replies = replies at hPresent
        generalize hAwaited : system.client.awaited = awaited at hPresent
        generalize hSplit : before ++ [packet.frame] ++ after = batches at hPresent
        cases hPresent with
        | idle => simp at hSplit
        | reply hLast => simp at hSplit
        | @batch awaitedMessages frame hFrame =>
            obtain ⟨rfl, hAfter⟩ : before = [] ∧ after = [] := by
              have hLength := congrArg List.length hSplit
              simp only [List.length_append, List.length_singleton] at hLength
              exact ⟨List.eq_nil_of_length_eq_zero (by omega), List.eq_nil_of_length_eq_zero (by omega)⟩
            rw [hAfter] at hSplit hLeft
            obtain rfl : packet.frame = frame := List.singleton_inj.mp hSplit
            cases hDecode.symm.trans (Server.decodeLogBatch_of_serialize hFrame)
            constructor
            · change Exchange system.client.awaited (framesOn _ (system.batches.eraseIdx index))
                (framesOn _ (system.replies ++ [_]))
              rw [← hSame, hLeft, framesOn_concat, hReplies, hAwaited, if_pos rfl]
              exact .reply (List.getLast?_eq_some_getLast hBatch.ne_nil)
            · intro connection hLater
              obtain ⟨hNone, hEmpty⟩ := h.unused connection hLater
              constructor
              · exact List.sublist_nil.mp (hNone ▸ hErased connection)
              · change framesOn connection (system.replies ++ [_]) = []
                rw [framesOn_concat, hEmpty, if_neg (hSame ▸ hLater.ne)]
                rfl
      · have hNone := (h.unused packet.connection hLater).1
        rw [hWhole] at hNone
        simp at hNone

/-- A reply on the connection of the client confirms the batch that it waits for. -/
theorem StopAndWait.confirms {index : Nat} {packet : Packet} (h : StopAndWait system)
    (hPacket : system.takeReply index = some packet) :
    ∃ messages last, system.client.awaited = some messages ∧
      Client.confirmedBy messages packet.frame = some last ∧
      framesOn system.client.connection system.batches = [] ∧
      framesOn system.client.connection (system.replies.eraseIdx index) = [] := by
  obtain ⟨other, hOther, hTake⟩ := Option.bind_eq_some_iff.mp hPacket
  split_ifs at hTake with hSame
  cases hTake
  obtain ⟨before, after, hLeft, hWhole⟩ := framesOn_eraseIdx hOther system.client.connection
  rw [if_pos hSame] at hWhole
  have hPresent := h.present
  rw [hWhole] at hPresent
  generalize hBatches : framesOn system.client.connection system.batches = batches at hPresent
  generalize hAwaited : system.client.awaited = awaited at hPresent
  generalize hSplit : before ++ [packet.frame] ++ after = replies at hPresent
  cases hPresent with
  | idle => simp at hSplit
  | batch hFrame => simp at hSplit
  | @reply messages last hLast =>
      obtain ⟨rfl, hAfter⟩ : before = [] ∧ after = [] := by
        have hLength := congrArg List.length hSplit
        simp only [List.length_append, List.length_singleton] at hLength
        exact ⟨List.eq_nil_of_length_eq_zero (by omega), List.eq_nil_of_length_eq_zero (by omega)⟩
      rw [hAfter] at hSplit hLeft
      refine ⟨messages, last.id, rfl, ?_, rfl, hLeft⟩
      have hFrame : packet.frame = serializeAck last.id := List.singleton_inj.mp hSplit
      have hAck : deserializeAck packet.frame = .ok ⟨last.id⟩ := deserializeAck_eq_ok_iff.mpr hFrame.symm
      rw [Client.confirmedBy, hAck, hLast]
      exact if_pos rfl

/-- A reply leaves nothing on the connection, whatever comes of it. -/
theorem StopAndWait.reply {index : Nat} {packet : Packet} {next : Client} (h : StopAndWait system)
    (hPacket : system.takeReply index = some packet)
    (hLe : system.client.connection ≤ next.connection) :
    StopAndWait { system with client := next, replies := system.replies.eraseIdx index } := by
  obtain ⟨_, _, _, _, hNone, hEmpty⟩ := h.confirms hPacket
  have hErased := fun connection => framesOn_eraseIdx_sublist connection system.replies index
  have hUnused : ∀ connection, system.client.connection ≤ connection →
      framesOn connection system.batches = [] ∧
        framesOn connection (system.replies.eraseIdx index) = [] := by
    intro connection hConnection
    rcases hConnection.lt_or_eq with hLater | rfl
    · obtain ⟨hNoBatch, hNoReply⟩ := h.unused connection hLater
      exact ⟨hNoBatch, List.sublist_nil.mp (hNoReply ▸ hErased connection)⟩
    · exact ⟨hNone, hEmpty⟩
  constructor
  · obtain ⟨hBatches, hReplies⟩ := hUnused next.connection hLe
    change Exchange next.awaited (framesOn next.connection system.batches)
      (framesOn next.connection (system.replies.eraseIdx index))
    rw [hBatches, hReplies]
    exact .idle _
  · intro connection hLater
    exact hUnused connection (hLe.trans (Nat.le_of_lt hLater))

theorem StopAndWait.step {action : SystemAction} {next : System} (h : StopAndWait system)
    (hConsistent : system.client.Consistent)
    (hStep : system.step config dedupPath action = some next) : StopAndWait next := by
  cases action with
  | client action =>
      rw [System.step] at hStep
      split_ifs at hStep with hLocal
      obtain ⟨client, hClient, rfl⟩ := Option.map_eq_some_iff.mp hStep
      refine h.client (Client.awaited_step ?_ hClient)
      intro hExchanges
      unfold Client.Exchanges at hExchanges
      split at hExchanges
      · cases hLocal
      · cases hLocal
      · cases hLocal
      · exact hExchanges
  | send => exact h.send hStep
  | receiveBatch index ackError => exact h.receiveBatch hStep
  | receiveReply index =>
      obtain ⟨packet, hPacket, hStep⟩ := Option.bind_eq_some_iff.mp hStep
      obtain ⟨client, hClient, hStep⟩ := Option.bind_eq_some_iff.mp hStep
      cases hStep
      exact h.reply hPacket (Client.step_connection hConsistent hClient).1
  | crashInReply index outcome =>
      obtain ⟨packet, hPacket, hStep⟩ := Option.bind_eq_some_iff.mp hStep
      obtain ⟨client, hClient, hStep⟩ := Option.bind_eq_some_iff.mp hStep
      cases hStep
      exact h.reply hPacket (Client.step_connection hConsistent hClient).1
  | loseBatch index =>
      cases hStep
      exact h.lose (fun connection => framesOn_eraseIdx_sublist connection _ _)
        fun _ => List.Sublist.refl _
  | loseReply index =>
      cases hStep
      exact h.lose (fun _ => List.Sublist.refl _)
        fun connection => framesOn_eraseIdx_sublist connection _ _
  | restartServer =>
      obtain ⟨server, hServer, rfl⟩ := Option.map_eq_some_iff.mp hStep
      exact ⟨h.present, h.unused⟩

end System
end LogBridge
