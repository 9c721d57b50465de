import LogBridge.Server.Batch

/-! One connection with arbitrary bytes. The effect is that of the batches in
the longest leading sequence of accepted frames, however the bytes arrive. -/
namespace LogBridge.Server

open Checked Protocol Net

/-- The batches handled in order, up to the first that throws. -/
def processBatches (server : Server) :
    List (List LogMessage) → List BatchOutcome → Option Exception × Server
  | [], _ => (none, server)
  | messages :: rest, outcomes =>
      match server.handleBatch messages (outcomes.headD {}) with
      | (.error error, server) => (some error, server)
      | (.ok (), server) => server.processBatches rest outcomes.tail

/-- The leading frames of a stream, as long as they are complete and accepted. -/
def leadingFrames (stream : Bytes) : List (Bytes × List LogMessage) :=
  match _hNext : nextFrame stream with
  | none => []
  | some (frame, rest) =>
      match decodeLogBatch frame with
      | .error _ => []
      | .ok messages => (frame, messages) :: leadingFrames rest
termination_by stream.length
decreasing_by exact length_lt_of_nextFrame _hNext

theorem leadingFrames_none {stream : Bytes} (h : nextFrame stream = none) :
    leadingFrames stream = [] := by
  rw [leadingFrames]
  split
  · rfl
  · next hNext =>
      rw [h] at hNext
      cases hNext

theorem leadingFrames_some {stream frame rest : Bytes} (h : nextFrame stream = some (frame, rest)) :
    leadingFrames stream =
      match decodeLogBatch frame with
      | .error _ => []
      | .ok messages => (frame, messages) :: leadingFrames rest := by
  conv_lhs => rw [leadingFrames]
  split
  · next hNext =>
      rw [h] at hNext
      cases hNext
  · next hNext =>
      rw [h] at hNext
      cases hNext
      rfl

/-- The frame is accepted as a batch. -/
def Accepted (frame : Bytes) : Prop := ∃ messages, decodeLogBatch frame = .ok messages

/-- An accepted frame at the front of a stream is its next frame: the header
declares exactly the frame. -/
theorem nextFrame_of_accepted {frame : Bytes} (h : Accepted frame) (rest : Bytes) :
    nextFrame (frame ++ rest) = some (frame, rest) := by
  obtain ⟨messages, h⟩ := h
  obtain ⟨header, _, h⟩ := bind_eq_ok_iff.mp h
  split_ifs at h with hLog hBatch
  · obtain ⟨message, hMessage, _⟩ := bind_eq_ok_iff.mp h
    obtain ⟨hLimits, rfl⟩ :=
      serializeLogMessage_eq_ok_iff.mp (deserializeLogMessage_eq_ok_iff.mp hMessage)
    have hLength := hLimits.logRecordBytes_length_le.trans (Nat.sub_le _ _)
    exact nextFrame_frameBytes .log hLength rest
  · obtain ⟨hLimits, rfl⟩ := serializeLogBatch_eq_ok_iff.mp (deserializeLogBatch_eq_ok_iff.mp h)
    exact nextFrame_frameBytes .logBatch hLimits.payload_le rest

/-- The frames and their batches are the longest leading sequence of a stream in
which every frame is complete and accepted. -/
structure LongestAccepted (stream : Bytes) (frames : List Bytes) (batches : List (List LogMessage)) :
    Prop where
  accepted : frames.map decodeLogBatch = batches.map Except.ok
  leading : ∃ rest, stream = frames.flatten ++ rest
  longest : ∀ other rest, stream = other.flatten ++ rest → (∀ frame ∈ other, Accepted frame) →
    other <+: frames

/-- No accepted frame starts the stream. -/
theorem LongestAccepted.nil {stream : Bytes}
    (h : ∀ frame rest, Accepted frame → stream ≠ frame ++ rest) : LongestAccepted stream [] [] := by
  refine ⟨rfl, ⟨stream, rfl⟩, fun other rest hStream hOther => ?_⟩
  cases other with
  | nil => exact List.nil_prefix
  | cons frame others =>
      rw [List.flatten_cons, List.append_assoc] at hStream
      exact absurd hStream (h frame _ (hOther frame (List.mem_cons_self ..)))

theorem LongestAccepted.cons {stream frame : Bytes} {frames : List Bytes}
    {messages : List LogMessage} {batches : List (List LogMessage)}
    (hDecode : decodeLogBatch frame = .ok messages) (h : LongestAccepted stream frames batches) :
    LongestAccepted (frame ++ stream) (frame :: frames) (messages :: batches) := by
  obtain ⟨rest, hRest⟩ := h.leading
  refine ⟨by rw [List.map_cons, List.map_cons, hDecode, h.accepted], ⟨rest, by simp [hRest]⟩, ?_⟩
  intro other after hStream hOther
  cases other with
  | nil => exact List.nil_prefix
  | cons first others =>
      rw [List.forall_mem_cons] at hOther
      rw [List.flatten_cons, List.append_assoc] at hStream
      have hNext := nextFrame_of_accepted ⟨messages, hDecode⟩ stream
      rw [hStream, nextFrame_of_accepted hOther.1] at hNext
      obtain ⟨rfl, hTail⟩ := Prod.mk.inj (Option.some.inj hNext)
      exact (List.cons_prefix_cons).mpr ⟨rfl, h.longest others after hTail.symm hOther.2⟩

theorem longestAccepted_leadingFrames (stream : Bytes) :
    LongestAccepted stream ((leadingFrames stream).map Prod.fst)
      ((leadingFrames stream).map Prod.snd) := by
  induction hLength : stream.length using Nat.strong_induction_on generalizing stream with
  | _ length ih =>
      have hNone : ∀ frame rest, nextFrame stream ≠ some (frame, rest) →
          Accepted frame → stream ≠ frame ++ rest := by
        rintro frame rest hNext hAccepted rfl
        exact hNext (nextFrame_of_accepted hAccepted rest)
      cases hNext : nextFrame stream with
      | none =>
          rw [leadingFrames_none hNext]
          exact LongestAccepted.nil fun frame rest => hNone frame rest (by rw [hNext]; exact nofun)
      | some found =>
          obtain ⟨frame, rest⟩ := found
          rw [leadingFrames_some hNext]
          cases hDecode : decodeLogBatch frame with
          | error error =>
              refine LongestAccepted.nil fun other after hAccepted hStream => ?_
              rw [hStream, nextFrame_of_accepted hAccepted] at hNext
              cases hNext
              obtain ⟨messages, hMessages⟩ := hAccepted
              rw [hDecode] at hMessages
              cases hMessages
          | ok messages =>
              obtain ⟨header, _, _, _, hStream⟩ := nextFrame_eq_some_iff.mp hNext
              have hShorter := length_lt_of_nextFrame hNext
              have hRest := ih rest.length (hLength ▸ hShorter) rest rfl
              conv =>
                arg 1
                rw [hStream]
              exact hRest.cons hDecode

/-! The batch loop follows the leading frames. -/

theorem receiveLogBatch_of_some {socket : Socket} {frame rest : Bytes}
    (h : nextFrame socket.bytes = some (frame, rest)) :
    ∃ next, next.bytes = rest ∧ next.ending = socket.ending ∧
      receiveLogBatch socket = (decodeLogBatch frame).map fun messages => (some messages, next) := by
  obtain ⟨next, hReceive, hBytes, hEnding⟩ := receiveFrame_of_some h
  refine ⟨next, hBytes, hEnding, ?_⟩
  rw [receiveLogBatch, hReceive]
  cases hDecode : decodeLogBatch frame with
  | error error =>
      change (decodeLogBatch frame >>= _) = _
      rw [hDecode]
      rfl
  | ok messages =>
      change (decodeLogBatch frame >>= _) = _
      rw [hDecode]
      rfl

theorem serveConnection_error {server : Server} {socket : Socket} {outcomes : List BatchOutcome}
    {error : Exception} (h : receiveLogBatch socket = .error error) :
    server.serveConnection socket outcomes = (some error, server) := by
  rw [serveConnection]
  split
  · next hReceive =>
      rw [h] at hReceive
      cases hReceive
      rfl
  · next hReceive =>
      rw [h] at hReceive
      cases hReceive
  · next hReceive =>
      rw [h] at hReceive
      cases hReceive

theorem serveConnection_end {server : Server} {socket next : Socket} {outcomes : List BatchOutcome}
    (h : receiveLogBatch socket = .ok (none, next)) :
    server.serveConnection socket outcomes = (none, server) := by
  rw [serveConnection]
  split
  · next hReceive =>
      rw [h] at hReceive
      cases hReceive
  · rfl
  · next hReceive =>
      rw [h] at hReceive
      cases hReceive

theorem serveConnection_batch {server : Server} {socket next : Socket}
    {outcomes : List BatchOutcome} {messages : List LogMessage}
    (h : receiveLogBatch socket = .ok (some messages, next)) :
    server.serveConnection socket outcomes =
      match server.handleBatch messages (outcomes.headD {}) with
      | (.error error, server) => (some error, server)
      | (.ok (), server) => server.serveConnection next outcomes.tail := by
  conv_lhs => rw [serveConnection]
  split
  · next hReceive =>
      rw [h] at hReceive
      cases hReceive
  · next hReceive =>
      rw [h] at hReceive
      cases hReceive
  · next hReceive =>
      rw [h] at hReceive
      cases hReceive
      rfl

/-- The loop does what processing the leading batches does. Apart from that,
how it ends depends on the bytes and their end only. -/
theorem serveConnection_eq (server : Server) (socket : Socket) (outcomes : List BatchOutcome) :
    ∃ ended, ∀ other : Socket, other.bytes = socket.bytes → other.ending = socket.ending →
      server.serveConnection other outcomes = (ended,
        (server.processBatches ((leadingFrames socket.bytes).map Prod.snd) outcomes).2) := by
  induction hLength : socket.bytes.length using Nat.strong_induction_on
    generalizing server socket outcomes with
  | _ length ih =>
      cases hNext : nextFrame socket.bytes with
      | none =>
          rw [leadingFrames_none hNext]
          -- the result of `receiveFrame` is fixed by the bytes and their end
          have hReceive : ∀ other : Socket, other.bytes = socket.bytes →
              other.ending = socket.ending →
              receiveFrame other = noFrame socket.ending socket.bytes := by
            intro other hBytes hEnding
            rw [receiveFrame_of_none (hBytes ▸ hNext), hBytes, hEnding]
          cases hResult : noFrame socket.ending socket.bytes with
          | error error =>
              refine ⟨some error, fun other hBytes hEnding => serveConnection_error ?_⟩
              rw [receiveLogBatch, hReceive other hBytes hEnding, hResult]
              rfl
          | ok result =>
              obtain ⟨_ | frame, next⟩ := result
              · refine ⟨none, fun other hBytes hEnding =>
                  serveConnection_end (show receiveLogBatch other = .ok (none, next) from ?_)⟩
                rw [receiveLogBatch, hReceive other hBytes hEnding, hResult]
                rfl
              · have hSome := nextFrame_of_receiveFrame ((hReceive socket rfl rfl).trans hResult)
                rw [hNext] at hSome
                cases hSome.1
      | some found =>
          obtain ⟨frame, rest⟩ := found
          rw [leadingFrames_some hNext]
          cases hDecode : decodeLogBatch frame with
          | error error =>
              refine ⟨some error, fun other hBytes _ => serveConnection_error ?_⟩
              obtain ⟨next, _, _, hReceive⟩ := receiveLogBatch_of_some (hBytes ▸ hNext)
              rw [hReceive, hDecode]
              rfl
          | ok messages =>
              have hBatch : ∀ other : Socket, other.bytes = socket.bytes →
                  other.ending = socket.ending → ∃ next, next.bytes = rest ∧
                    next.ending = socket.ending ∧
                    receiveLogBatch other = .ok (some messages, next) := by
                intro other hBytes hEnding
                obtain ⟨next, hRest, hNextEnding, hReceive⟩ :=
                  receiveLogBatch_of_some (hBytes ▸ hNext)
                rw [hDecode] at hReceive
                exact ⟨next, hRest, hNextEnding.trans hEnding, hReceive⟩
              dsimp only
              rw [List.map_cons, processBatches]
              cases hHandle : server.handleBatch messages (outcomes.headD {}) with
              | mk result after =>
                  cases result with
                  | error error =>
                      refine ⟨some error, fun other hBytes hEnding => ?_⟩
                      obtain ⟨next, _, _, hReceive⟩ := hBatch other hBytes hEnding
                      rw [serveConnection_batch hReceive, hHandle]
                  | ok result =>
                      obtain ⟨next, hRest, hEnding, _⟩ := hBatch socket rfl rfl
                      have hShorter := length_lt_of_nextFrame hNext
                      rw [← hRest, hLength] at hShorter
                      obtain ⟨ended, hEnded⟩ := ih _ hShorter after next outcomes.tail rfl
                      refine ⟨ended, fun other hOther hOtherEnding => ?_⟩
                      obtain ⟨otherNext, hOtherRest, hOtherNext, hReceive⟩ :=
                        hBatch other hOther hOtherEnding
                      rw [serveConnection_batch hReceive, hHandle, ← hRest]
                      exact hEnded otherNext (hOtherRest.trans hRest.symm)
                        (hOtherNext.trans hEnding.symm)

/-- With successful saves and sends every batch of the sequence is processed. -/
theorem processBatches_eq_foldl (server : Server) {batches : List (List LogMessage)}
    (h : ∀ messages ∈ batches, BatchWithinLimits messages) :
    server.processBatches batches [] =
      (none, batches.foldl (fun server messages => (server.handleBatch messages {}).2) server) := by
  induction batches generalizing server with
  | nil => rfl
  | cons messages rest ih =>
      rw [List.forall_mem_cons] at h
      obtain ⟨dedup, file, metrics, hHandle, _⟩ := handleBatch_eq server h.1 none
      rw [processBatches, List.headD_nil, List.tail_nil, List.foldl_cons]
      change (match server.handleBatch messages { ackError := none } with
        | (.error error, server) => (some error, server)
        | (.ok (), server) => server.processBatches rest []) =
          (none, rest.foldl _ (server.handleBatch messages { ackError := none }).2)
      rw [hHandle]
      exact ih _ h.2

/-- Whatever bytes a peer sends, wherever the stream ends and however `recv`
cuts it, the outputs, the watermarks and the acknowledgements of the connection
are those of the batches in the longest leading sequence of accepted frames,
handled in order. Nothing after that sequence has an effect. -/
theorem connection_effect (server : Server) (stream : Bytes) :
    ∃ frames batches, LongestAccepted stream frames batches ∧
      (∀ socket : Socket, socket.bytes = stream →
        (server.serveConnection socket []).2 =
          batches.foldl (fun server messages => (server.handleBatch messages {}).2) server) ∧
      (∀ (socket : Socket) (outcomes : List BatchOutcome), socket.bytes = stream →
        (server.serveConnection socket outcomes).2 =
          (server.processBatches batches outcomes).2) ∧
      ∀ (first second : Socket) (outcomes : List BatchOutcome), first.bytes = stream →
        second.bytes = stream → first.ending = second.ending →
        server.serveConnection first outcomes = server.serveConnection second outcomes := by
  have hLongest := longestAccepted_leadingFrames stream
  have hLimits : ∀ messages ∈ (leadingFrames stream).map Prod.snd, BatchWithinLimits messages := by
    intro messages hMem
    have hOk : Except.ok messages ∈ ((leadingFrames stream).map Prod.fst).map decodeLogBatch := by
      rw [hLongest.accepted]
      exact List.mem_map_of_mem hMem
    obtain ⟨frame, _, hDecode⟩ := List.mem_map.mp hOk
    exact batchWithinLimits_of_decode hDecode
  have hAll : ∀ (socket : Socket) (outcomes : List BatchOutcome), socket.bytes = stream →
      (server.serveConnection socket outcomes).2 =
        (server.processBatches ((leadingFrames stream).map Prod.snd) outcomes).2 := by
    rintro socket outcomes rfl
    obtain ⟨ended, hEnded⟩ := serveConnection_eq server socket outcomes
    rw [hEnded socket rfl rfl]
  refine ⟨_, _, hLongest, fun socket hBytes => ?_, hAll, ?_⟩
  · rw [hAll socket [] hBytes, processBatches_eq_foldl server hLimits]
  · rintro first second outcomes rfl hSecond hEnding
    obtain ⟨ended, hEnded⟩ := serveConnection_eq server first outcomes
    rw [hEnded first rfl rfl, hEnded second hSecond hEnding.symm]

/-- The counters stay balanced over any connection, whatever fails on it. -/
theorem balanced_serveClient {server : Server} (h : Balanced server) (socket : Socket)
    (outcomes : List BatchOutcome) : Balanced (server.serveClient socket outcomes) := by
  rw [serveClient]
  generalize hStart : ({ server with metrics := { server.metrics with
    connections := server.metrics.connections + 1 } } : Server) = start
  have hBalanced : Balanced start := by
    rw [← hStart]
    exact h
  clear hStart
  fun_induction serveConnection start socket outcomes with
  | case1 => exact hBalanced
  | case2 => exact hBalanced
  | case3 start socket outcomes messages next hReceive error after hHandle =>
      have hAfter := balanced_handleBatch hBalanced messages (outcomes.headD {})
      rwa [hHandle] at hAfter
  | case4 start socket outcomes messages next hReceive after hHandle ih =>
      have hAfter := balanced_handleBatch hBalanced messages (outcomes.headD {})
      rw [hHandle] at hAfter
      exact ih hAfter

end LogBridge.Server
