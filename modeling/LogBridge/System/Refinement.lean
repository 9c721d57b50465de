import LogBridge.Library.Simulation
import LogBridge.System.StopAndWait
import LogBridge.System.Streams

/-! The byte streams refine the frames in flight. A stream holds the frames of its
connection one after the other and then, on a connection that has been given up,
a part of one more frame. So a side receives complete frames only, in the order in
which they were sent. -/
namespace LogBridge

open Checked Protocol Storage Net

namespace Server

/-! The number of accepted clients is for the report only. -/

theorem handleMessage_withConnections (previousConfirmed latestProcessed connections : UInt64)
    (server : Server) (message : LogMessage) :
    handleMessage previousConfirmed (server.withConnections connections, latestProcessed) message =
      ((handleMessage previousConfirmed (server, latestProcessed) message).1.withConnections connections,
        (handleMessage previousConfirmed (server, latestProcessed) message).2) := by
  unfold handleMessage
  dsimp only
  split_ifs
  · rfl
  · rfl

theorem processMessages_withConnections (server : Server) (connections : UInt64) (clientId : Bytes)
    (messages : List LogMessage) :
    (server.withConnections connections).processMessages clientId messages =
      ((server.processMessages clientId messages).1.withConnections connections,
        (server.processMessages clientId messages).2) := by
  have hLoop : ∀ previousConfirmed server latestProcessed,
      messages.foldl (handleMessage previousConfirmed) (server.withConnections connections, latestProcessed) =
        ((messages.foldl (handleMessage previousConfirmed) (server, latestProcessed)).1.withConnections
          connections, (messages.foldl (handleMessage previousConfirmed) (server, latestProcessed)).2) := by
    intro previousConfirmed
    induction messages with
    | nil =>
        intro server latestProcessed
        rfl
    | cons message rest ih =>
        intro server latestProcessed
        rw [List.foldl_cons, List.foldl_cons, handleMessage_withConnections, ih]
  exact hLoop _ { server with metrics := { server.metrics with
    receivedMessages := server.metrics.receivedMessages + .ofNat messages.length } } _

theorem handleBatch_withConnections (server : Server) (connections : UInt64)
    (messages : List LogMessage) (outcome : BatchOutcome) :
    (server.withConnections connections).handleBatch messages outcome =
      ((server.handleBatch messages outcome).1,
        (server.handleBatch messages outcome).2.withConnections connections) := by
  cases messages with
  | nil => rfl
  | cons front rest =>
      unfold handleBatch
      dsimp only
      rw [processMessages_withConnections]
      dsimp only [withConnections]
      split
      · rfl
      · cases outcome.ackError with
        | none => rfl
        | some error => rfl

theorem step_restart_withConnections (server : Server) (connections : UInt64) (path : Bytes) :
    (server.withConnections connections).step path .restart = server.step path .restart := rfl

end Server

namespace Streams

/-! A stream. -/

/-- A part of a frame, without its end. -/
def Cut (tail : Bytes) : Prop := ∃ frame, Serialized frame ∧ tail <+: frame ∧ tail ≠ frame

theorem cut_nil : Cut [] := by
  refine ⟨serializeAck 0, .ack 0, List.nil_prefix, ?_⟩
  intro hEmpty
  have hLength := congrArg List.length hEmpty
  rw [serializeAck_eq, frameBytes_length] at hLength
  cases hLength

theorem Cut.length_lt {tail : Bytes} (h : Cut tail) : ∃ frame, Serialized frame ∧
    tail = frame.take tail.length ∧ tail.length < frame.length := by
  obtain ⟨frame, hFrame, hPrefix, hNe⟩ := h
  refine ⟨frame, hFrame, List.prefix_iff_eq_take.mp hPrefix, ?_⟩
  exact lt_of_le_of_ne hPrefix.length_le fun hLength => hNe (hPrefix.eq_of_length hLength)

theorem Cut.nextFrame_eq_none {tail : Bytes} (h : Cut tail) : nextFrame tail = none := by
  obtain ⟨frame, hFrame, hTake, hLt⟩ := h.length_lt
  rw [hTake]
  exact nextFrame_take_eq_none hFrame hLt

theorem Cut.mono {tail shorter : Bytes} (h : Cut tail) (hPrefix : shorter <+: tail) : Cut shorter := by
  obtain ⟨frame, hFrame, hTail, hNe⟩ := h
  refine ⟨frame, hFrame, hPrefix.trans hTail, ?_⟩
  rintro rfl
  exact hNe (hTail.eq_of_length (Nat.le_antisymm hTail.length_le hPrefix.length_le))

/-- The stream is the frames, and on a dead connection a part of one more. -/
def Carries (stream : Bytes) (frames : List Bytes) (dead : Prop) : Prop :=
  (∀ frame ∈ frames, Serialized frame) ∧
    ∃ tail, stream = frames.flatten ++ tail ∧ Cut tail ∧ (tail ≠ [] → dead)

theorem carries_nil (dead : Prop) : Carries [] [] dead :=
  ⟨by simp, [], rfl, cut_nil, fun hNe => absurd rfl hNe⟩

theorem Carries.mono {stream : Bytes} {frames : List Bytes} {dead deader : Prop}
    (h : Carries stream frames dead) (hDead : dead → deader) : Carries stream frames deader := by
  obtain ⟨hFrames, tail, hStream, hCut, hTail⟩ := h
  exact ⟨hFrames, tail, hStream, hCut, fun hNe => hDead (hTail hNe)⟩

theorem Carries.eq_flatten {stream : Bytes} {frames : List Bytes} {dead : Prop}
    (h : Carries stream frames dead) (hAlive : ¬dead) : stream = frames.flatten := by
  obtain ⟨_, tail, hStream, _, hTail⟩ := h
  have hEmpty : tail = [] := by
    by_contra hNe
    exact hAlive (hTail hNe)
  rw [hStream, hEmpty, List.append_nil]

/-- A whole frame goes out on a connection that is alive. -/
theorem Carries.frame {stream frame : Bytes} {frames : List Bytes} {dead : Prop}
    (h : Carries stream frames dead) (hAlive : ¬dead) (hFrame : Serialized frame) (deader : Prop) :
    Carries (stream ++ frame) (frames ++ [frame]) deader := by
  refine ⟨?_, [], ?_, cut_nil, fun hNe => absurd rfl hNe⟩
  · intro other hMem
    rcases List.mem_append.mp hMem with hOld | hNew
    · exact h.1 other hOld
    · rw [List.mem_singleton.mp hNew]
      exact hFrame
  · rw [h.eq_flatten hAlive, List.flatten_append, List.append_nil]
    simp

/-- A part of a frame goes out, and the connection is given up. -/
theorem Carries.cut {stream wire : Bytes} {frames : List Bytes} {dead deader : Prop}
    (h : Carries stream frames dead) (hAlive : ¬dead) (hCut : Cut wire) (hDeader : deader) :
    Carries (stream ++ wire) frames deader :=
  ⟨h.1, wire, by rw [h.eq_flatten hAlive], hCut, fun _ => hDeader⟩

/-- A received frame is the first one of the stream. -/
theorem Carries.receive {stream frame : Bytes} {frames : List Bytes} {dead : Prop}
    {socket left : Socket} (h : Carries stream frames dead) (hPrefix : socket.bytes <+: stream)
    (hReceive : receiveFrame socket = .ok (some frame, left)) :
    ∃ rest, frames = frame :: rest ∧
      Carries (stream.drop (socket.bytes.length - left.bytes.length)) rest dead := by
  obtain ⟨hFrames, tail, hStream, hCut, hTail⟩ := h
  obtain ⟨hNext, _⟩ := nextFrame_of_receiveFrame hReceive
  obtain ⟨more, hMore⟩ := hPrefix
  have hFound := nextFrame_append hNext more
  rw [hMore, hStream] at hFound
  cases frames with
  | nil =>
      rw [List.flatten_nil, List.nil_append, hCut.nextFrame_eq_none] at hFound
      cases hFound
  | cons first rest =>
      rw [List.forall_mem_cons] at hFrames
      rw [List.flatten_cons, List.append_assoc, nextFrame_of_serialized hFrames.1] at hFound
      obtain ⟨rfl, _⟩ := Prod.mk.inj (Option.some.inj hFound)
      obtain ⟨_, _, _, _, hBytes⟩ := nextFrame_eq_some_iff.mp hNext
      have hLength : socket.bytes.length - left.bytes.length = first.length := by
        rw [hBytes, List.length_append, Nat.add_sub_cancel]
      refine ⟨rest, rfl, hFrames.2, tail, ?_, hCut, hTail⟩
      rw [hLength, hStream, List.flatten_cons, List.append_assoc, List.drop_left]

/-- A call of `sendAll` that throws has not handed over the whole frame. -/
theorem sendLoop_ne_of_error {data : Bytes} {sentBytes : Nat} {results : List SendResult}
    {error : Exception} (h : (sendLoop data sentBytes results).2 = some (.error error)) :
    (sendLoop data sentBytes results).1.length < (data.drop sentBytes).length := by
  induction results generalizing sentBytes with
  | nil =>
      rw [sendLoop] at h
      split_ifs at h
      cases h
  | cons result rest ih =>
      by_cases hMore : sentBytes < data.length
      · have hLeft : 0 < (data.drop sentBytes).length := by
          rw [List.length_drop]
          omega
        cases result with
        | accepted more =>
            rw [sendLoop, if_pos hMore] at h ⊢
            dsimp only at h ⊢
            have hRest := ih h
            simp only [List.length_append, List.length_take, List.length_drop] at hRest ⊢
            omega
        | interrupted =>
            rw [sendLoop_interrupted] at h ⊢
            exact ih h
        | nothing =>
            rw [sendLoop, if_pos hMore]
            exact hLeft
        | failed =>
            rw [sendLoop, if_pos hMore]
            exact hLeft
      · rw [sendLoop_of_full (Nat.not_lt.mp hMore)] at h
        cases h

theorem sendAll_of_returned {frame : Bytes} {results : List SendResult}
    (h : (sendAll frame results).2 = some (.ok ())) : (sendAll frame results).1 = frame :=
  sendLoop_of_returned h

theorem sendAll_prefix (frame : Bytes) (results : List SendResult) :
    (sendAll frame results).1 <+: frame := sendLoop_prefix frame 0 results

theorem cut_of_error {frame : Bytes} {results : List SendResult} {error : Exception}
    (hFrame : Serialized frame) (h : (sendAll frame results).2 = some (.error error)) :
    Cut (sendAll frame results).1 := by
  refine ⟨frame, hFrame, sendAll_prefix frame results, ?_⟩
  intro hWhole
  have hLt := sendLoop_ne_of_error h
  rw [List.drop_zero] at hLt
  exact absurd (congrArg List.length hWhole) (Nat.ne_of_lt hLt)

/-! The relation. -/

/-- The connections that the server has not closed. -/
def held (streams : Streams) : List Nat := streams.serving.toList ++ streams.backlog

def Unopened (streams : Streams) (connection : Nat) : Prop :=
  streams.client.connection < connection ∨
    (connection = streams.client.connection ∧ streams.opened = false)

/-- The system of frames that the streams stand for. -/
structure Refines (streams : Streams) (system : System) : Prop where
  client : system.client = streams.client
  server : ∃ connections, streams.server = system.server.withConnections connections
  up : ∀ connection, Carries (streams.up connection) (framesOn connection system.batches)
    (connection < streams.client.connection)
  down : ∀ connection, Carries (streams.down connection) (framesOn connection system.replies)
    (connection ∉ streams.held)
  /-- A connection is served once. -/
  unopened : ∀ connection, streams.Unopened connection →
    streams.down connection = [] ∧ connection ∉ streams.held
  once : streams.held.Nodup

variable {config : ClientConfig} {dedupPath : Bytes} {streams : Streams} {system : System}

theorem refines_initial (log : FileSystem) : Refines { client := { log } } { client := { log } } where
  client := rfl
  server := ⟨0, rfl⟩
  up _ := carries_nil _
  down _ := carries_nil _
  unopened _ _ := ⟨rfl, List.not_mem_nil⟩
  once := List.nodup_nil

/-! What one part of a step does to the relation. -/

theorem Refines.clientTo (h : Refines streams system) (next : Client)
    (hLe : streams.client.connection ≤ next.connection) :
    Refines (streams.clientTo next) { system with client := next } where
  client := rfl
  server := h.server
  up connection := (h.up connection).mono fun hLt => hLt.trans_le hLe
  down := h.down
  unopened connection hUnopened := by
    refine h.unopened connection ?_
    rcases hUnopened with hLt | ⟨rfl, hOpened⟩
    · exact Or.inl (hLe.trans_lt hLt)
    · rcases hLe.lt_or_eq with hLt | hSame
      · exact Or.inl hLt
      · refine Or.inr ⟨hSame.symm, ?_⟩
        simpa [Streams.clientTo, hSame] using hOpened
  once := h.once

theorem Refines.opening (h : Refines streams system) : Refines streams.opening system := by
  unfold Streams.opening
  split_ifs with hOpened
  · exact h
  · obtain ⟨hDown, hHeld⟩ :=
      h.unopened streams.client.connection (Or.inr ⟨rfl, Bool.eq_false_iff.mpr hOpened⟩)
    have hSame : streams.serving.toList ++ (streams.backlog ++ [streams.client.connection]) =
        streams.held ++ [streams.client.connection] := (List.append_assoc _ _ _).symm
    refine { h with down := ?_, unopened := ?_, once := ?_ }
    · intro connection
      obtain ⟨hFrames, tail, hStream, hCut, hTail⟩ := h.down connection
      refine ⟨hFrames, tail, hStream, hCut, ?_⟩
      intro hNe hMem
      rw [held, hSame, List.mem_append, List.mem_singleton] at hMem
      rcases hMem with hOld | rfl
      · exact hTail hNe hOld
      · rw [hDown] at hStream
        exact hNe (List.append_eq_nil_iff.mp hStream.symm).2
    · intro connection hUnopened
      have hLt : streams.client.connection < connection := by
        rcases hUnopened with hLt | ⟨_, hClosed⟩
        · exact hLt
        · cases hClosed
      obtain ⟨hEmpty, hNot⟩ := h.unopened connection (Or.inl hLt)
      refine ⟨hEmpty, ?_⟩
      rw [held, hSame, List.mem_append, List.mem_singleton]
      rintro (hOld | rfl)
      · exact hNot hOld
      · exact absurd hLt (Nat.lt_irrefl _)
    · rw [held, hSame]
      refine List.pairwise_append.mpr ⟨h.once, List.pairwise_singleton _ _, ?_⟩
      intro other hMem last hLast
      rw [List.mem_singleton.mp hLast]
      rintro rfl
      exact hHeld hMem

theorem opening_client (streams : Streams) : streams.opening.client = streams.client := by
  unfold Streams.opening
  split_ifs
  · rfl
  · rfl

/-- The whole frame is on the wire. -/
theorem Refines.sendUp {frame : Bytes} (h : Refines streams system) (hFrame : Serialized frame) :
    Refines (streams.sendUp frame)
      { system with batches := system.batches ++ [⟨streams.client.connection, frame⟩] } := by
  refine { h with up := ?_ }
  intro connection
  rw [framesOn_concat]
  change Carries (Function.update streams.up _ _ connection) _ (connection < streams.client.connection)
  by_cases hSame : streams.client.connection = connection
  · rw [if_pos hSame, hSame, Function.update_self]
    refine (h.up connection).frame ?_ hFrame _
    rw [hSame]
    exact Nat.lt_irrefl _
  · rw [if_neg hSame, List.append_nil, Function.update_of_ne (Ne.symm hSame)]
    exact h.up connection

/-- A part of the frame is on the wire, and the client gives the connection up. -/
theorem Refines.sendCut {wire : Bytes} {next : Client} (h : Refines streams system) (hCut : Cut wire)
    (hLt : streams.client.connection < next.connection) :
    Refines ((streams.sendUp wire).clientTo next) { system with client := next } := by
  have hNext := h.clientTo next (Nat.le_of_lt hLt)
  refine { hNext with up := ?_ }
  intro connection
  change Carries (Function.update streams.up _ _ connection) _ (connection < next.connection)
  by_cases hSame : streams.client.connection = connection
  · rw [hSame, Function.update_self]
    refine (h.up connection).cut ?_ hCut (hSame ▸ hLt)
    rw [hSame]
    exact Nat.lt_irrefl _
  · rw [Function.update_of_ne (Ne.symm hSame)]
    exact hNext.up connection

/-- The first frame of a connection has been received. -/
theorem carries_take {stream : Nat → Bytes} {packets : List Packet} {index connection : Nat}
    {rest : List Bytes} {left : Bytes} {dead : Nat → Prop}
    (h : ∀ other, Carries (stream other) (framesOn other packets) (dead other))
    (hLeft : Carries left rest (dead connection))
    (hRest : framesOn connection (packets.eraseIdx index) = rest)
    (hOthers : ∀ other ≠ connection,
      framesOn other (packets.eraseIdx index) = framesOn other packets) (other : Nat) :
    Carries (Function.update stream connection left other) (framesOn other (packets.eraseIdx index))
      (dead other) := by
  by_cases hSame : other = connection
  · rw [hSame, Function.update_self, hRest]
    exact hLeft
  · rw [Function.update_of_ne hSame, hOthers other hSame]
    exact h other

/-- The server gives its connection up. -/
theorem Refines.disconnect (h : Refines streams system) :
    Refines { streams with serving := none } system := by
  have hHeld : ∀ connection ∈ streams.backlog, connection ∈ streams.held :=
    fun _ hMem => List.mem_append_right _ hMem
  refine { h with down := ?_, unopened := ?_, once := ?_ }
  · intro connection
    exact (h.down connection).mono fun hNot hMem => hNot (hHeld connection hMem)
  · intro connection hUnopened
    obtain ⟨hEmpty, hNot⟩ := h.unopened connection hUnopened
    exact ⟨hEmpty, fun hMem => hNot (hHeld connection hMem)⟩
  · exact h.once.sublist (List.sublist_append_right _ _)

/-! The client. -/

/-- The frames can answer a step of the streams. -/
abbrev Matched (config : ClientConfig) (dedupPath : Bytes) (system : System) (next : Streams) : Prop :=
  Runs.Answers (System.step config dedupPath) Refines system next

theorem Refines.local {action : ClientAction} {next : Client} (h : Refines streams system)
    (hLocal : action.isLocal = true) (hStep : streams.client.step config action = some next)
    (hLe : streams.client.connection ≤ next.connection) :
    Matched config dedupPath system (streams.clientTo next) := by
  rw [← h.client] at hStep
  exact Runs.answers_of_step (.client action) (System.step_client hLocal hStep) (h.clientTo next hLe)

/-- The whole batch is out, and the client has moved on. -/
theorem Refines.sent {frame : Bytes} (h : Refines streams system) (hFrame : Serialized frame)
    (client : Client) (hLe : streams.client.connection ≤ client.connection) :
    Refines ((streams.opening.sendUp frame).clientTo client)
      { system with client, batches := system.batches ++ [⟨system.client.connection, frame⟩] } := by
  have hNext := (h.opening.sendUp hFrame).clientTo client (by
    change streams.opening.client.connection ≤ client.connection
    rwa [opening_client])
  rwa [opening_client, ← h.client] at hNext

/-- A part of the batch is out, and the client has given the connection up. -/
theorem Refines.broken {wire : Bytes} (h : Refines streams system) (hCut : Cut wire) (client : Client)
    (hLt : streams.client.connection < client.connection) :
    Refines ((streams.opening.sendUp wire).clientTo client) { system with client } := by
  refine h.opening.sendCut hCut ?_
  rwa [opening_client]

theorem Refines.send {connects : Bool} {results : List SendResult} {next : Streams}
    (h : Refines streams system) (hStep : streams.send config connects results = some next) :
    Matched config dedupPath system next := by
  obtain ⟨session, hSession, hStep⟩ := Option.bind_eq_some_iff.mp hStep
  obtain ⟨frame, hOutgoing, hStep⟩ := Option.bind_eq_some_iff.mp hStep
  rw [← h.client] at hSession hStep
  obtain ⟨messages, _, hEncoded, hSent, hFailed⟩ :=
    Client.attempt_of_outgoing config hSession hOutgoing
  have hFrame : Serialized frame := .logBatch hEncoded
  have hGivenUp : streams.client.connection < system.client.connection + 1 := by
    rw [h.client]
    exact Nat.lt_succ_self _
  split_ifs at hStep
  · dsimp only at hStep
    obtain ⟨ending, hEnding, hStep⟩ := Option.bind_eq_some_iff.mp hStep
    obtain ⟨client, hClient, hStep⟩ := Option.bind_eq_some_iff.mp hStep
    cases hStep
    cases ending with
    | ok _ =>
        rw [sendAll_of_returned hEnding]
        obtain rfl := Option.some.inj (hSent.symm.trans hClient)
        exact Runs.answers_of_step .send (System.step_send hSession hOutgoing hSent)
          (h.sent hFrame _ (Nat.le_of_eq (congrArg Client.connection h.client).symm))
    | error error =>
        obtain rfl := Option.some.inj (hFailed.symm.trans hClient)
        exact Runs.answers_of_step (.client (.thread (.attempt .failed)))
          (System.step_client rfl hClient) (h.broken (cut_of_error hFrame hEnding) _ hGivenUp)
  · obtain ⟨client, hClient, hStep⟩ := Option.bind_eq_some_iff.mp hStep
    cases hStep
    obtain rfl := Option.some.inj (hFailed.symm.trans hClient)
    exact Runs.answers_of_step (.client (.thread (.attempt .failed)))
      (System.step_client rfl hClient) (h.clientTo _ (Nat.le_of_lt hGivenUp))

theorem Refines.crashInSend {connects : Bool} {results : List SendResult} {next : Streams}
    (h : Refines streams system) (hStep : streams.crashInSend config connects results = some next) :
    Matched config dedupPath system next := by
  obtain ⟨session, hSession, hStep⟩ := Option.bind_eq_some_iff.mp hStep
  obtain ⟨frame, hOutgoing, hStep⟩ := Option.bind_eq_some_iff.mp hStep
  rw [← h.client] at hSession hStep
  obtain ⟨messages, _, hEncoded, hSent, _⟩ :=
    Client.attempt_of_outgoing config hSession hOutgoing
  have hFrame : Serialized frame := .logBatch hEncoded
  split_ifs at hStep
  obtain ⟨client, hClient, hStep⟩ := Option.bind_eq_some_iff.mp hStep
  cases hStep
  obtain rfl : system.client.stopped = client := by
    rw [Client.step, hSession] at hClient
    exact Option.some.inj hClient
  have hStopped : streams.client.connection < system.client.stopped.connection := by
    rw [h.client]
    exact Nat.lt_succ_self _
  by_cases hWhole : (sendAll frame results).1 = frame
  · -- the frame is out, and only then the process stops
    rw [hWhole]
    refine Runs.answers_cons .send (System.step_send hSession hOutgoing hSent) ?_
    exact Runs.answers_of_step (.client .crash) (System.step_client rfl rfl)
      (h.sent hFrame system.client.stopped (Nat.le_of_lt hStopped))
  · have hCut : Cut (sendAll frame results).1 := ⟨frame, hFrame, sendAll_prefix frame results, hWhole⟩
    exact Runs.answers_of_step (.client .crash) (System.step_client rfl hClient)
      (h.broken hCut _ hStopped)

/-! The reply. -/

/-- A received frame is that of a packet in flight on the connection. -/
theorem Refines.reply {frame : Bytes} {socket left : Socket} (h : Refines streams system)
    (hPrefix : socket.bytes <+: streams.down streams.client.connection)
    (hReceive : receiveFrame socket = .ok (some frame, left)) :
    ∃ index, system.takeReply index = some ⟨system.client.connection, frame⟩ ∧
      Refines (streams.takeDown streams.client.connection socket left)
        { system with replies := system.replies.eraseIdx index } := by
  obtain ⟨rest, hFrames, hLeft⟩ := (h.down streams.client.connection).receive hPrefix hReceive
  obtain ⟨index, hIndex, hRest, hOthers⟩ := exists_packet hFrames
  refine ⟨index, ?_, { h with down := carries_take h.down hLeft hRest hOthers, unopened := ?_ }⟩
  · rw [System.takeReply, hIndex, Option.bind_eq_bind, Option.bind_some, h.client, if_pos rfl]
    rfl
  · intro connection hUnopened
    obtain ⟨hEmpty, hNot⟩ := h.unopened connection hUnopened
    refine ⟨?_, hNot⟩
    change Function.update streams.down _ _ connection = []
    by_cases hSame : connection = streams.client.connection
    · rw [hSame, Function.update_self, ← hSame, hEmpty, List.drop_nil]
    · rw [Function.update_of_ne hSame, hEmpty]

theorem Refines.receiveReply {socket : Socket} {next : Streams} (h : Refines streams system)
    (hConsistent : system.client.Consistent)
    (hStep : streams.receiveReply config socket = some next) :
    Matched config dedupPath system next := by
  unfold Streams.receiveReply at hStep
  dsimp only at hStep
  split_ifs at hStep with hReceivable
  rw [h.client] at hConsistent
  split at hStep
  · next frame left hReceive =>
      obtain ⟨client, hClient, hStep⟩ := Option.bind_eq_some_iff.mp hStep
      cases hStep
      obtain ⟨index, hTake, hNext⟩ := h.reply hReceivable.1 hReceive
      have hLe := (Client.step_connection hConsistent hClient).1
      rw [← h.client] at hClient
      refine Runs.answers_of_step (.receiveReply index) ?_ (hNext.clientTo client hLe)
      rw [System.step, hTake, Option.bind_eq_bind, Option.bind_some, hClient]
      rfl
  · obtain ⟨client, hClient, hStep⟩ := Option.bind_eq_some_iff.mp hStep
    cases hStep
    exact h.local rfl hClient (Client.step_connection hConsistent hClient).1

theorem Refines.crashInReply {socket : Socket} {outcome : SaveOutcome} {next : Streams}
    (h : Refines streams system) (hConsistent : system.client.Consistent)
    (hStep : streams.crashInReply config socket outcome = some next) :
    Matched config dedupPath system next := by
  unfold Streams.crashInReply at hStep
  dsimp only at hStep
  split_ifs at hStep with hReceivable
  rw [h.client] at hConsistent
  split at hStep
  · next frame left hReceive =>
      obtain ⟨client, hClient, hStep⟩ := Option.bind_eq_some_iff.mp hStep
      cases hStep
      obtain ⟨index, hTake, hNext⟩ := h.reply hReceivable.1 hReceive
      have hLe := (Client.step_connection hConsistent hClient).1
      rw [← h.client] at hClient
      refine Runs.answers_of_step (.crashInReply index outcome) ?_ (hNext.clientTo client hLe)
      rw [System.step, hTake, Option.bind_eq_bind, Option.bind_some, hClient]
      rfl
  · cases hStep

/-! The server. -/

theorem Refines.accept {next : Streams} (h : Refines streams system)
    (hStep : streams.accept = some next) : Matched config dedupPath system next := by
  unfold Streams.accept at hStep
  split at hStep
  · next connection rest hServing hBacklog =>
      cases hStep
      have hHeld : streams.held = connection :: rest := by
        rw [held, hServing, hBacklog]
        rfl
      obtain ⟨connections, hServer⟩ := h.server
      refine Runs.answers_of_related { h with
        server := ⟨streams.server.metrics.connections + 1, ?_⟩, down := ?_, unopened := ?_, once := ?_ }
      · rw [hServer]
        rfl
      · intro other
        have hDown := h.down other
        rwa [hHeld] at hDown
      · intro other hUnopened
        have hOther := h.unopened other hUnopened
        rwa [hHeld] at hOther
      · have hOnce := h.once
        rwa [hHeld] at hOnce
  · cases hStep

/-- The packet level handles an accepted batch. -/
theorem step_receiveBatch (config : ClientConfig) (dedupPath : Bytes) {index connection : Nat}
    {frame : Bytes} {messages : List LogMessage}
    (hPacket : system.batches[index]? = some ⟨connection, frame⟩)
    (hDecode : decodeLogBatch frame = .ok messages) (hBatch : BatchWithinLimits messages)
    (ackError : Option Exception) :
    system.step config dedupPath (.receiveBatch index ackError) = some { system with
      server := (system.server.handleBatch messages { ackError }).2
      batches := system.batches.eraseIdx index
      replies := system.replies ++
        [⟨connection, serializeAck (messages.getLast hBatch.ne_nil).id⟩] } := by
  obtain ⟨dedup, file, metrics, hHandle, _⟩ := Server.handleBatch_eq system.server hBatch ackError
  rw [System.step, System.receiveBatch, hPacket, Option.bind_eq_bind, Option.bind_some, Server.step,
    hDecode, Option.bind_eq_bind, Option.bind_some, hHandle]
  dsimp only
  rw [List.drop_left]
  rfl

/-- The bytes of the batch are taken, and the watermark is saved. -/
theorem Refines.handled {index connection : Nat} {socket left : Socket} {rest : List Bytes}
    (h : Refines streams system)
    (hLeft : Carries ((streams.up connection).drop (socket.bytes.length - left.bytes.length)) rest
      (connection < streams.client.connection))
    (hRest : framesOn connection (system.batches.eraseIdx index) = rest)
    (hOthers : ∀ other ≠ connection,
      framesOn other (system.batches.eraseIdx index) = framesOn other system.batches)
    (server : Server) (connections : UInt64) :
    Refines { streams.takeUp connection socket left with server := server.withConnections connections }
      { system with server, batches := system.batches.eraseIdx index } :=
  { h with
    server := ⟨connections, rfl⟩
    up := carries_take h.up hLeft hRest hOthers }

/-- The whole acknowledgement is on the wire. -/
theorem Refines.sendDown {connection : Nat} {frame : Bytes} (h : Refines streams system)
    (hServing : streams.serving = some connection) (hFrame : Serialized frame) :
    Refines (streams.sendDown connection frame)
      { system with replies := system.replies ++ [⟨connection, frame⟩] } := by
  have hHeld : connection ∈ streams.held := by
    rw [held, hServing]
    exact List.mem_cons_self ..
  refine { h with down := ?_, unopened := ?_ }
  · intro other
    rw [framesOn_concat]
    change Carries (Function.update streams.down _ _ other) _ (other ∉ streams.held)
    by_cases hSame : connection = other
    · rw [if_pos hSame, ← hSame, Function.update_self]
      exact (h.down connection).frame (not_not_intro hHeld) hFrame _
    · rw [if_neg hSame, List.append_nil, Function.update_of_ne (Ne.symm hSame)]
      exact h.down other
  · intro other hUnopened
    obtain ⟨hEmpty, hNot⟩ := h.unopened other hUnopened
    refine ⟨?_, hNot⟩
    have hNe : other ≠ connection := fun hSame => hNot (hSame ▸ hHeld)
    exact (Function.update_of_ne hNe _ _).trans hEmpty

/-- A part of the acknowledgement is on the wire, and the server gives the
connection up. -/
theorem Refines.sendDownCut {connection : Nat} {wire : Bytes} (h : Refines streams system)
    (hServing : streams.serving = some connection) (hCut : Cut wire) :
    Refines { streams.sendDown connection wire with serving := none } system := by
  have hHeld : connection ∈ streams.held := by
    rw [held, hServing]
    exact List.mem_cons_self ..
  have hGone : connection ∉ streams.backlog := by
    have hOnce := h.once
    rw [held, hServing] at hOnce
    exact (List.nodup_cons.mp hOnce).1
  refine { h.disconnect with down := ?_, unopened := ?_ }
  · intro other
    change Carries (Function.update streams.down _ _ other) _ (other ∉ streams.backlog)
    by_cases hSame : connection = other
    · rw [← hSame, Function.update_self]
      exact (h.down connection).cut (not_not_intro hHeld) hCut hGone
    · rw [Function.update_of_ne (Ne.symm hSame)]
      exact h.disconnect.down other
  · intro other hUnopened
    obtain ⟨hEmpty, hNot⟩ := h.unopened other hUnopened
    have hNe : other ≠ connection := fun hSame => hNot (hSame ▸ hHeld)
    exact ⟨(Function.update_of_ne hNe _ _).trans hEmpty, fun hMem => hNot (List.mem_append_right _ hMem)⟩

theorem receiveLogBatch_eq_ok {socket left : Socket} {messages : List LogMessage}
    (h : receiveLogBatch socket = .ok (some messages, left)) :
    ∃ frame, receiveFrame socket = .ok (some frame, left) ∧ decodeLogBatch frame = .ok messages := by
  obtain ⟨⟨_ | frame, _⟩, hReceive, h⟩ := bind_eq_ok_iff.mp h
  · cases h
  · obtain ⟨other, hDecode, h⟩ := bind_eq_ok_iff.mp h
    cases h
    exact ⟨frame, hReceive, hDecode⟩

theorem Refines.serve {socket : Socket} {results : List SendResult} {next : Streams}
    (h : Refines streams system) (hStep : streams.serve socket results = some next) :
    Matched config dedupPath system next := by
  obtain ⟨connection, hServing, hStep⟩ := Option.bind_eq_some_iff.mp hStep
  split_ifs at hStep with hReceivable
  split at hStep
  · cases hStep
    exact Runs.answers_of_related h.disconnect
  · cases hStep
    exact Runs.answers_of_related h.disconnect
  · next messages left hReceive =>
      obtain ⟨frame, hFrame, hDecode⟩ := receiveLogBatch_eq_ok hReceive
      have hBatch := Server.batchWithinLimits_of_decode hDecode
      obtain ⟨rest, hFrames, hLeft⟩ := (h.up connection).receive hReceivable.1 hFrame
      obtain ⟨index, hIndex, hRest, hOthers⟩ := exists_packet hFrames
      obtain ⟨last, hLast, hStep⟩ := Option.bind_eq_some_iff.mp hStep
      obtain rfl : messages.getLast hBatch.ne_nil = last :=
        Option.some.inj ((List.getLast?_eq_some_getLast hBatch.ne_nil).symm.trans hLast)
      dsimp only at hStep
      obtain ⟨ending, hEnding, hStep⟩ := Option.bind_eq_some_iff.mp hStep
      obtain ⟨connections, hServer⟩ := h.server
      have hAck : Serialized (serializeAck (messages.getLast hBatch.ne_nil).id) := .ack _
      have hHandled := h.handled hLeft hRest hOthers
        (system.server.handleBatch messages { ackError := sendError ending }).2 connections
      have hPacket := step_receiveBatch config dedupPath hIndex hDecode hBatch (sendError ending)
      obtain ⟨dedup, file, metrics, hHandle, _⟩ :=
        Server.handleBatch_eq system.server hBatch (sendError ending)
      rw [hServer, Server.handleBatch_withConnections] at hStep
      rw [hHandle] at hStep hHandled hPacket
      dsimp only at hStep hHandled hPacket
      rw [if_neg (by simp [Server.withConnections])] at hStep
      cases hStep
      cases ending with
      | ok _ =>
          rw [sendAll_of_returned hEnding]
          have hNext := hHandled.sendDown hServing hAck
          rw [← hServing]
          exact Runs.answers_of_step (.receiveBatch index _) hPacket hNext
      | error error =>
          -- the acknowledgement of the frames is lost
          have hNext := hHandled.sendDownCut hServing (cut_of_error hAck hEnding)
          refine Runs.answers_cons (.receiveBatch index _) hPacket
            (Runs.answers_of_step (.loseReply system.replies.length) ?_ hNext)
          rw [System.step, List.eraseIdx_append_of_length_le (Nat.le_refl _), Nat.sub_self]
          simp

theorem Refines.restartServer {next : Streams} (h : Refines streams system)
    (hStep : streams.restartServer dedupPath = some next) : Matched config dedupPath system next := by
  obtain ⟨server, hServer, rfl⟩ := Option.map_eq_some_iff.mp hStep
  obtain ⟨connections, hSame⟩ := h.server
  rw [hSame, Server.step_restart_withConnections] at hServer
  refine Runs.answers_of_step .restartServer
    (show _ = some { system with server } by rw [System.step, hServer]; rfl) ?_
  refine { h with
    server := ⟨server.metrics.connections, rfl⟩, down := ?_, unopened := ?_, once := List.nodup_nil }
  · intro connection
    exact (h.down connection).mono fun _ => List.not_mem_nil
  · intro connection hUnopened
    exact ⟨(h.unopened connection hUnopened).1, List.not_mem_nil⟩

/-- Every step of the streams is answered by the frames. -/
theorem Refines.step {action : StreamAction} {next : Streams} (h : Refines streams system)
    (hConsistent : system.client.Consistent)
    (hStep : streams.step config dedupPath action = some next) :
    Matched config dedupPath system next := by
  cases action with
  | client action =>
      rw [Streams.step] at hStep
      split_ifs at hStep with hLocal
      obtain ⟨client, hClient, rfl⟩ := Option.map_eq_some_iff.mp hStep
      rw [h.client] at hConsistent
      exact h.local (Bool.and_eq_true_iff.mp hLocal).1 hClient
        (Client.step_connection hConsistent hClient).1
  | send connects results => exact h.send hStep
  | crashInSend connects results => exact h.crashInSend hStep
  | receiveReply socket => exact h.receiveReply hConsistent hStep
  | crashInReply socket outcome => exact h.crashInReply hConsistent hStep
  | accept => exact h.accept hStep
  | serve socket results => exact h.serve hStep
  | restartServer => exact h.restartServer hStep

end Streams
end LogBridge
