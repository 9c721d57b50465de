import LogBridge.System.Refinement

/-! Delivery over the byte streams, for every way in which the connections cut and
break the frames. -/
namespace LogBridge

open Checked Protocol Storage Net

/-- The exceptions of a connection that ends or breaks. A malformed frame would
throw a `protocolError`. -/
def IsConnectionError : Exception → Prop
  | .runtimeError _ | .systemError _ => True
  | _ => False

namespace Streams

variable {config : ClientConfig} {dedupPath : Bytes} {streams : Streams} {system : System}

/-! What a stream without a complete frame looks like to the receiver. -/

theorem endOfStream_cases (ending : StreamEnd) (bytes : Bytes) :
    (bytes = [] ∧ ending = .closed ∧
        endOfStream ending bytes = .ok (none, { arrivals := [], ending := .closed })) ∨
      ∃ error, endOfStream ending bytes = .error error ∧ IsConnectionError error := by
  cases ending with
  | failed => exact Or.inr ⟨_, rfl, trivial⟩
  | closed =>
      by_cases hEmpty : bytes = []
      · exact Or.inl ⟨hEmpty, rfl, if_pos hEmpty⟩
      · exact Or.inr ⟨_, if_neg hEmpty, trivial⟩

/-- The header of a cut frame is that of the frame. -/
theorem Cut.header {tail : Bytes} (h : Cut tail) (hLong : frameHeaderSize ≤ tail.length) :
    ∃ header, parseFrameHeader (tail.take frameHeaderSize) = .ok header := by
  obtain ⟨frame, hFrame, hTake, _⟩ := h.length_lt
  have hNext := nextFrame_of_serialized hFrame []
  rw [List.append_nil] at hNext
  obtain ⟨header, _, hHeader, _⟩ := nextFrame_eq_some_iff.mp hNext
  refine ⟨header, ?_⟩
  rwa [hTake, List.take_take, Nat.min_eq_left hLong]

/-- A cut frame is never taken for a malformed one. -/
theorem receiveFrame_of_cut {socket : Socket} (h : Cut socket.bytes) :
    (socket.bytes = [] ∧ ∃ left, receiveFrame socket = .ok (none, left)) ∨
      ∃ error, receiveFrame socket = .error error ∧ IsConnectionError error := by
  rw [receiveFrame_of_none h.nextFrame_eq_none, noFrame]
  split_ifs with hShort
  · rcases endOfStream_cases socket.ending socket.bytes with ⟨hEmpty, _, hEnd⟩ | hError
    · exact Or.inl ⟨hEmpty, _, hEnd⟩
    · exact Or.inr hError
  · obtain ⟨header, hHeader⟩ := h.header (Nat.not_lt.mp hShort)
    rw [hHeader]
    refine Or.inr ?_
    rcases endOfStream_cases socket.ending (socket.bytes.drop frameHeaderSize) with
      ⟨_, _, hEnd⟩ | ⟨error, hEnd, hError⟩
    · exact ⟨.runtimeError "connection closed before the frame payload", by
        change (endOfStream _ _ >>= _) = _
        rw [hEnd]
        rfl, trivial⟩
    · exact ⟨error, by
        change (endOfStream _ _ >>= _) = _
        rw [hEnd]
        rfl, hError⟩

/-- What has arrived of a stream begins with its first frame, or it is a part of
one frame. -/
theorem Carries.arrived {stream arrived : Bytes} {frames : List Bytes} {dead : Prop}
    (h : Carries stream frames dead) (hPrefix : arrived <+: stream) :
    (∃ frame rest, nextFrame arrived = some (frame, rest)) ∨ Cut arrived := by
  obtain ⟨hFrames, tail, hStream, hCut, _⟩ := h
  cases frames with
  | nil =>
      rw [List.flatten_nil, List.nil_append] at hStream
      exact Or.inr (hCut.mono (hStream ▸ hPrefix))
  | cons first rest =>
      have hFirst : Serialized first := hFrames first (List.mem_cons_self ..)
      have hFront : first <+: stream := by
        rw [hStream, List.flatten_cons, List.append_assoc]
        exact List.prefix_append _ _
      rcases List.prefix_or_prefix_of_prefix hFront hPrefix with ⟨more, hMore⟩ | hShort
      · exact Or.inl ⟨first, more, hMore ▸ nextFrame_of_serialized hFirst more⟩
      · by_cases hSame : arrived = first
        · have hNext := nextFrame_of_serialized hFirst []
          rw [List.append_nil, ← hSame] at hNext
          exact Or.inl ⟨arrived, [], hNext⟩
        · exact Or.inr ⟨first, hFirst, hShort, hSame⟩

/-- The calls of a receiver: a frame of the stream, or the end of the connection. -/
theorem Carries.receiveFrame_cases {stream : Bytes} {frames : List Bytes} {dead : Prop} {socket : Socket}
    (h : Carries stream frames dead) (hPrefix : socket.bytes <+: stream) :
    (∃ frame rest left, frames = frame :: rest ∧ receiveFrame socket = .ok (some frame, left)) ∨
      (socket.bytes = [] ∧ ∃ left, receiveFrame socket = .ok (none, left)) ∨
      ∃ error, receiveFrame socket = .error error ∧ IsConnectionError error := by
  rcases h.arrived hPrefix with ⟨frame, rest, hNext⟩ | hCut
  · obtain ⟨left, hReceive, _⟩ := receiveFrame_of_some hNext
    obtain ⟨others, hFrames, _⟩ := h.receive hPrefix hReceive
    exact Or.inl ⟨frame, others, left, hFrames, hReceive⟩
  · exact Or.inr (receiveFrame_of_cut hCut)

/-! Runs. -/

/-- The frames that the streams stand for, with all that is known of them. -/
structure Represents (streams : Streams) (system : System) : Prop where
  refines : Refines streams system
  joint : System.Joint system
  exchange : System.StopAndWait system

theorem represents_initial (log : FileSystem) :
    Represents { client := { log } } { client := { log } } where
  refines := refines_initial log
  joint := System.joint_initial log
  exchange := System.stopAndWait_initial log

/-- Every step of the streams is answered by steps of the frames. -/
theorem Represents.step {action : StreamAction} {next : Streams} (h : Represents streams system)
    (hStep : streams.step config dedupPath action = some next) :
    Runs.Answers (System.step config dedupPath) Represents system next := by
  obtain ⟨actions, after, hRun, hRefines⟩ := h.refines.step h.joint.consistent hStep
  have hKept : System.Joint after ∧ System.StopAndWait after := by
    refine Runs.induct (motive := fun _ system => System.Joint system ∧ System.StopAndWait system)
      ⟨h.joint, h.exchange⟩ ?_ hRun
    intro _ middle action next _ hPast hNext
    exact ⟨hPast.1.step hNext, hPast.2.step hPast.1.consistent hNext⟩
  exact ⟨actions, after, hRun, hRefines, hKept.1, hKept.2⟩

theorem represents_run {log : FileSystem} {actions : List StreamAction}
    (hRun : Runs.run (Streams.step config dedupPath) { client := { log } } actions = some streams) :
    Runs.Answers (System.step config dedupPath) Represents { client := { log } } streams :=
  Runs.simulates (represents_initial log) (fun _ _ _ _ h hStep => h.step hStep) hRun

/-- The byte streams refine the frames in flight. -/
theorem refines_frames (config : ClientConfig) (dedupPath : Bytes) (log : FileSystem)
    (actions : List StreamAction) (streams : Streams)
    (hRun : Runs.run (Streams.step config dedupPath) { client := { log } } actions = some streams) :
    ∃ frameActions system,
      Runs.run (System.step config dedupPath) { client := { log } } frameActions = some system ∧
      Refines streams system := by
  obtain ⟨frameActions, system, hFrames, hRepresents⟩ := represents_run hRun
  exact ⟨frameActions, system, hFrames, hRepresents.refines⟩

/-- What the server meets on any connection. -/
theorem Represents.batches {connection : Nat} {socket : Socket} (h : Represents streams system)
    (hPrefix : socket.bytes <+: streams.up connection) :
    match receiveLogBatch socket with
    | .ok (some messages, _) =>
        System.Due streams.client.history streams.server.outputs messages
    | .ok (none, _) => socket.bytes = []
    | .error error => IsConnectionError error := by
  rcases (h.refines.up connection).receiveFrame_cases hPrefix with
    ⟨frame, rest, left, hFrames, hReceive⟩ | ⟨hEmpty, left, hReceive⟩ | ⟨error, hReceive, hError⟩
  · obtain ⟨index, hIndex, _⟩ := exists_packet hFrames
    obtain ⟨messages, clientId, hDecode, _, hDue, _⟩ :=
      h.joint.batches _ (List.mem_of_getElem? hIndex)
    obtain ⟨connections, hServer⟩ := h.refines.server
    have hBatch : receiveLogBatch socket = .ok (some messages, left) :=
      bind_eq_ok_iff.mpr ⟨(some frame, left), hReceive, bind_eq_ok_iff.mpr ⟨messages, hDecode, rfl⟩⟩
    rw [h.refines.client] at hDue
    rw [hBatch, hServer]
    exact hDue
  · rw [receiveLogBatch, hReceive]
    exact hEmpty
  · rw [receiveLogBatch, hReceive]
    exact hError

/-- What the client meets on its connection. -/
theorem Represents.replies {socket : Socket} (h : Represents streams system)
    (hPrefix : socket.bytes <+: streams.down streams.client.connection) :
    match receiveFrame socket with
    | .ok (some frame, _) => ∃ session messages confirmedId,
        streams.client.session = some session ∧ session.consumer = .awaiting messages ∧
          Client.confirmedBy messages frame = some confirmedId
    | .ok (none, _) => socket.bytes = []
    | .error error => IsConnectionError error := by
  rcases (h.refines.down _).receiveFrame_cases hPrefix with
    ⟨frame, rest, left, hFrames, hReceive⟩ | ⟨hEmpty, left, hReceive⟩ | ⟨error, hReceive, hError⟩
  · obtain ⟨index, hTake, _⟩ := h.refines.reply hPrefix hReceive
    obtain ⟨messages, confirmedId, hAwaited, hConfirmed, _⟩ := h.exchange.confirms hTake
    rw [h.refines.client] at hAwaited
    obtain ⟨session, hSession, hConsumer⟩ := Option.bind_eq_some_iff.mp hAwaited
    rw [hReceive]
    exact ⟨session, messages, confirmedId, hSession, Consumer.awaited_eq_some_iff.mp hConsumer, hConfirmed⟩
  · rw [hReceive]
    exact hEmpty
  · rw [hReceive]
    exact hError

/-- What holds of the client, the server and the bytes between them. -/
structure Delivers (config : ClientConfig) (dedupPath : Bytes) (streams : Streams) : Prop where
  endToEnd : System.EndToEnd config dedupPath { client := streams.client, server := streams.server }
  /-- A received batch is a segment of the log of the client, and the messages
  before it have been output. The server rejects nothing that the client sends. -/
  batches : ∀ connection socket, socket.bytes <+: streams.up connection →
    match receiveLogBatch socket with
    | .ok (some messages, _) => ∃ before after,
        before ++ messages ++ after = streams.client.history ∧ before <+: streams.server.outputs
    | .ok (none, _) => socket.bytes = []
    | .error error => IsConnectionError error

theorem delivers_over_streams (config : ClientConfig) (dedupPath : Bytes) (log : FileSystem)
    (actions : List StreamAction) (streams : Streams) (hDedupPath : dedupPath ≠ [])
    (hWalPath : config.walPath ≠ [])
    (hRun : Runs.run (Streams.step config dedupPath) { client := { log } } actions = some streams) :
    Delivers config dedupPath streams := by
  obtain ⟨_, system, _, hRepresents⟩ := represents_run hRun
  refine ⟨?_, fun connection socket hPrefix => hRepresents.batches hPrefix⟩
  have hEndToEnd := hRepresents.joint.endToEnd hDedupPath hWalPath
  obtain ⟨connections, hServer⟩ := hRepresents.refines.server
  have hClient := hRepresents.refines.client
  rw [hServer, ← hClient]
  exact ⟨hEndToEnd.outputs, hEndToEnd.outputOnce, hEndToEnd.confirmed⟩

/-- Whatever complete frame `receiveAck` returns confirms the batch that the consumer
waits for: no acknowledgement is late, foreign or malformed. -/
theorem replies_confirm (config : ClientConfig) (dedupPath : Bytes) (log : FileSystem)
    (actions : List StreamAction) (streams : Streams) (socket : Socket)
    (hRun : Runs.run (Streams.step config dedupPath) { client := { log } } actions = some streams)
    (hPrefix : socket.bytes <+: streams.down streams.client.connection) :
    match receiveFrame socket with
    | .ok (some frame, _) => ∃ session messages confirmedId,
        streams.client.session = some session ∧ session.consumer = .awaiting messages ∧
          Client.confirmedBy messages frame = some confirmedId
    | .ok (none, _) => socket.bytes = []
    | .error error => IsConnectionError error := by
  obtain ⟨_, system, _, hRepresents⟩ := represents_run hRun
  exact hRepresents.replies hPrefix

/-! A run in which the first sending of a batch breaks and the second one arrives
and is answered. -/

/-- All bytes arrive in one call. -/
def socketOf : Bytes → Socket
  | [] => { arrivals := [], ending := .failed }
  | byte :: more => { arrivals := [.data byte more], ending := .failed }

theorem socketOf_bytes (bytes : Bytes) : (socketOf bytes).bytes = bytes := by
  cases bytes with
  | nil => rfl
  | cons byte more => simp [socketOf]

theorem step_client {action : ClientAction} {next : Client}
    (hLocal : (action.isLocal && !usesNetwork streams.client action) = true)
    (hStep : streams.client.step config action = some next) :
    streams.step config dedupPath (.client action) = some (streams.clientTo next) := by
  rw [Streams.step, if_pos hLocal, hStep]
  rfl

/-- The server answers a batch that has arrived whole. -/
theorem step_serve {connection : Nat} {messages : List LogMessage} {last : LogMessage} {frame : Bytes}
    {results : List SendResult} (hServing : streams.serving = some connection)
    (hUp : streams.up connection = frame) (hDown : streams.down connection = [])
    (hFrame : serializeLogBatch messages = .ok frame) (hLast : messages.getLast? = some last)
    (hAck : sendAll (serializeAck last.id) results = (serializeAck last.id, some (.ok ()))) :
    ∃ next, streams.step config dedupPath (.serve (socketOf frame) results) = some next ∧
      next.client = streams.client ∧ next.down connection = serializeAck last.id := by
  have hNext : nextFrame (socketOf frame).bytes = some (frame, []) := by
    have hWhole := nextFrame_of_serialized (.logBatch hFrame) []
    rw [List.append_nil] at hWhole
    rwa [socketOf_bytes]
  obtain ⟨left, hReceive, _⟩ := receiveFrame_of_some hNext
  have hBatch : receiveLogBatch (socketOf frame) = .ok (some messages, left) :=
    bind_eq_ok_iff.mpr ⟨(some frame, left), hReceive,
      bind_eq_ok_iff.mpr ⟨messages, Server.decodeLogBatch_of_serialize hFrame, rfl⟩⟩
  obtain ⟨dedup, file, metrics, hHandle, _⟩ :=
    Server.handleBatch_eq streams.server (serializeLogBatch_eq_ok_iff.mp hFrame).1 none
  have hReceivable : Receivable (streams.up connection) (streams.clientClosed connection) (socketOf frame) := by
    have hBytes : (socketOf frame).bytes = streams.up connection := by rw [hUp, socketOf_bytes]
    refine ⟨hBytes ▸ List.prefix_rfl, ?_⟩
    cases frame <;> exact nofun
  have hServe : streams.serve (socketOf frame) results = some
      { (streams.takeUp connection (socketOf frame) left).sendDown connection (serializeAck last.id) with
        server := (streams.server.handleBatch messages { ackError := none }).2
        serving := some connection } := by
    simp [Streams.serve, hServing, hReceivable, hBatch, hLast, hAck, sendError, hHandle, Server.ackResult]
  refine ⟨_, hServe, rfl, ?_⟩
  change Function.update streams.down connection (streams.down connection ++ _) connection = _
  rw [Function.update_self, hDown, List.nil_append]

/-- The server meets the failure of a connection on which nothing more arrives. -/
theorem step_serve_broken {connection : Nat} (hServing : streams.serving = some connection) :
    streams.step config dedupPath (.serve (socketOf []) []) = some { streams with serving := none } := by
  have hReceivable : Receivable (streams.up connection) (streams.clientClosed connection) (socketOf []) :=
    ⟨List.nil_prefix, nofun⟩
  have hNext : nextFrame (socketOf []).bytes = none := rfl
  have hBatch : receiveLogBatch (socketOf []) = .error (.systemError "cannot receive protocol data") := by
    rw [receiveLogBatch, receiveFrame_of_none hNext]
    rfl
  simp [Streams.step, Streams.serve, hServing, hReceivable, hBatch]

def sampleActions : List StreamAction :=
  [.client (.start Client.sampleState.clientId .saved .saved), .client (.thread (.openReader {})),
    .client (.thread (.poll {})), .client (.allocate 7 .saved), .client .append,
    .client (.checkpoint .saved), .client (.thread (.attempt .failed)), .client (.thread .consume),
    .client (.thread .push), .client (.thread .popOne), .client (.thread .popDone),
    .send true [.accepted 4, .failed], .accept, .serve (socketOf []) [],
    .send true [.interrupted, .accepted 200], .accept]

def sampleMessage : LogMessage :=
  { id := 1, clientId := Client.sampleState.clientId, timestampMs := 7, source := [108], content := [97] }

def sampleFrame : Bytes := (serializeLogBatch [sampleMessage]).toOption.getD []

theorem sample_run : ∃ streams,
    Runs.run (Streams.step Client.sampleConfig [100]) { client := { log := Client.sampleLog } }
      sampleActions = some streams ∧ (streams.up 0).length = 5 ∧ streams.up 1 = sampleFrame ∧
      streams.down 1 = [] ∧ streams.serving = some 1 ∧ streams.client.connection = 1 ∧
      streams.client.awaited = some [sampleMessage] := by
  refine ⟨_, Runs.run_cons (step_client rfl (Client.sample_start rfl)) <|
    Runs.run_cons (step_client rfl rfl) <|
    Runs.run_cons (step_client rfl Client.sample_poll) <|
    -- the line is logged and reaches the consumer
    Runs.run_cons (step_client rfl rfl) <| Runs.run_cons (step_client rfl rfl) <|
    Runs.run_cons (step_client rfl rfl) <|
    Runs.run_cons (step_client rfl rfl) <| Runs.run_cons (step_client rfl rfl) <|
    Runs.run_cons (step_client rfl rfl) <| Runs.run_cons (step_client rfl rfl) <|
    Runs.run_cons (step_client rfl rfl) <|
    -- five bytes on the first connection, and the whole frame on the second
    Runs.run_cons rfl <| Runs.run_cons rfl <| Runs.run_cons (step_serve_broken rfl) <|
    Runs.run_cons rfl <| Runs.run_cons rfl rfl, ?_, ?_, ?_, ?_, ?_, ?_⟩
  · rfl
  · rfl
  · rfl
  · rfl
  · rfl
  · rfl

/-- The server answers the batch, and the acknowledgement is on its way. -/
theorem sample_answered : ∃ streams next : Streams,
    Runs.run (Streams.step Client.sampleConfig [100]) { client := { log := Client.sampleLog } }
      (sampleActions ++ [.serve (socketOf sampleFrame) [.accepted 50]]) = some next ∧
    next.client = streams.client ∧ streams.client.connection = 1 ∧
    streams.client.awaited = some [sampleMessage] ∧ next.down 1 = serializeAck 1 := by
  obtain ⟨streams, hRun, _, hUp, hDown, hServing, hConnection, hAwaited⟩ := sample_run
  have hFrame : serializeLogBatch [sampleMessage] = .ok sampleFrame := rfl
  have hAck : sendAll (serializeAck sampleMessage.id) [.accepted 50] =
      (serializeAck sampleMessage.id, some (.ok ())) := by decide
  obtain ⟨next, hServe, hClient, hNext⟩ := step_serve hServing hUp hDown hFrame rfl hAck
  exact ⟨streams, next, (Runs.run_concat_eq_some_iff _ _).mpr ⟨streams, hRun, hServe⟩, hClient,
    hConnection, hAwaited, hNext⟩

theorem refines_frames_sample : ∃ frameActions system, ∃ streams : Streams,
    streams.down 1 = serializeAck 1 ∧
    Runs.run (System.step Client.sampleConfig [100]) { client := { log := Client.sampleLog } }
      frameActions = some system ∧ Refines streams system := by
  obtain ⟨_, next, hRun, _, _, _, hDown⟩ := sample_answered
  obtain ⟨frameActions, system, hFrames, hRefines⟩ :=
    refines_frames Client.sampleConfig [100] Client.sampleLog _ next hRun
  exact ⟨frameActions, system, next, hDown, hFrames, hRefines⟩

theorem delivers_over_streams_sample : ∃ streams : Streams, streams.down 1 = serializeAck 1 ∧
    Delivers Client.sampleConfig [100] streams := by
  obtain ⟨_, next, hRun, _, _, _, hDown⟩ := sample_answered
  exact ⟨next, hDown, delivers_over_streams Client.sampleConfig [100] Client.sampleLog _ next
    (by decide) (by decide) hRun⟩

theorem replies_confirm_sample : ∃ frame left messages confirmedId, ∃ session : Session,
    receiveFrame (socketOf (serializeAck 1)) = .ok (some frame, left) ∧
      session.consumer = .awaiting messages ∧
      Client.confirmedBy messages frame = some confirmedId := by
  obtain ⟨streams, next, hRun, hClient, hConnection, _, hDown⟩ := sample_answered
  have hBytes : (socketOf (serializeAck 1)).bytes = next.down next.client.connection := by
    rw [hClient, hConnection, hDown, socketOf_bytes]
  have hPrefix : (socketOf (serializeAck 1)).bytes <+: next.down next.client.connection :=
    hBytes ▸ List.prefix_rfl
  have hConfirms := replies_confirm Client.sampleConfig [100] Client.sampleLog _ next
    (socketOf (serializeAck 1)) hRun hPrefix
  have hNext := nextFrame_of_serialized (.ack 1) []
  rw [List.append_nil, ← socketOf_bytes (serializeAck 1)] at hNext
  obtain ⟨left, hReceive, _⟩ := receiveFrame_of_some hNext
  rw [hReceive] at hConfirms
  obtain ⟨session, messages, confirmedId, _, hConsumer, hConfirmed⟩ := hConfirms
  exact ⟨_, left, messages, confirmedId, session, hReceive, hConsumer, hConfirmed⟩

end Streams
end LogBridge
