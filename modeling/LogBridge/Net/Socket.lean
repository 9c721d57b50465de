import LogBridge.Protocol.Frames

/-! Receiving frames from a connected socket. The socket is given by what the
calls of `recv` meet; how the bytes are cut into calls does not matter for the
frames that come out. -/
namespace LogBridge.Net

open Checked Protocol

/-- What one call of `recv` meets: bytes that have arrived, at least one, or a
signal. -/
inductive Arrival where
  | data (byte : UInt8) (more : Bytes)
  | interrupted
  deriving DecidableEq, Repr

/-- What `recv` reports after the last byte: the end of the stream or an error. -/
inductive StreamEnd where
  | closed
  | failed
  deriving DecidableEq, Repr

structure Socket where
  arrivals : List Arrival
  ending : StreamEnd := .closed
  deriving DecidableEq, Repr

/-- The result of one call of `recv`. -/
inductive RecvResult where
  | received (byte : UInt8) (more : Bytes)
  | closed
  | interrupted
  | failed
  deriving DecidableEq, Repr

namespace Socket

def arrivalBytes : Arrival → Bytes
  | .data byte more => byte :: more
  | .interrupted => []

/-- The bytes still to be received. -/
def bytes (socket : Socket) : Bytes := socket.arrivals.flatMap arrivalBytes

/-- One call of `recv` for `limit` bytes, at least one. Bytes beyond the limit
stay for the next call. -/
def recv (socket : Socket) (limit : Nat) : RecvResult × Socket :=
  match socket.arrivals with
  | [] =>
      match socket.ending with
      | .closed => (.closed, socket)
      | .failed => (.failed, socket)
  | .interrupted :: rest => (.interrupted, { socket with arrivals := rest })
  | .data byte more :: rest =>
      match more.drop (limit - 1) with
      | [] => (.received byte more, { socket with arrivals := rest })
      | next :: left =>
          (.received byte (more.take (limit - 1)), { socket with arrivals := .data next left :: rest })

@[simp] theorem bytes_nil (ending : StreamEnd) : bytes { arrivals := [], ending } = [] := rfl

@[simp] theorem bytes_data (byte : UInt8) (more : Bytes) (rest : List Arrival) (ending : StreamEnd) :
    bytes { arrivals := .data byte more :: rest, ending } =
      byte :: (more ++ bytes { arrivals := rest, ending }) := by
  simp [bytes, arrivalBytes]

/-- What each result of `recv` says about the bytes still to come. -/
theorem recv_spec (socket : Socket) (limit : Nat) :
    match socket.recv limit with
    | (.received byte more, next) =>
        socket.bytes = byte :: (more ++ next.bytes) ∧ next.ending = socket.ending ∧
          more.length ≤ limit - 1 ∧ next.arrivals.length ≤ socket.arrivals.length
    | (.interrupted, next) =>
        next.bytes = socket.bytes ∧ next.ending = socket.ending ∧
          next.arrivals.length < socket.arrivals.length
    | (.closed, next) => socket = { arrivals := [], ending := .closed } ∧ next = socket
    | (.failed, _) => socket = { arrivals := [], ending := .failed } := by
  obtain ⟨arrivals, ending⟩ := socket
  cases arrivals with
  | nil => cases ending <;> simp [recv]
  | cons arrival rest =>
      cases arrival with
      | interrupted => exact ⟨rfl, rfl, by simp⟩
      | data byte more =>
          rw [recv]
          dsimp only
          rcases hDrop : more.drop (limit - 1) with _ | ⟨first, left⟩
          · exact ⟨bytes_data .., rfl, List.drop_eq_nil_iff.mp hDrop, by simp⟩
          · have hMore : more = more.take (limit - 1) ++ first :: left := by
              rw [← hDrop, List.take_append_drop]
            refine ⟨?_, rfl, List.length_take_le _ _, by simp⟩
            rw [bytes_data, bytes_data]
            conv_lhs => rw [hMore]
            simp

end Socket

/-- The loop of `receiveExact`. The result `none` is the end of the stream
before the first byte. -/
def receiveExact (socket : Socket) (size : Nat) (received : Bytes) :
    Except Exception (Option Bytes × Socket) :=
  if _hMore : received.length < size then
    match _hRecv : socket.recv (size - received.length) with
    | (.received byte more, next) => receiveExact next size (received ++ byte :: more)
    | (.closed, next) =>
        if received = [] then return (none, next)
        else throw (.runtimeError "connection closed in the middle of a frame")
    | (.interrupted, next) => receiveExact next size received
    | (.failed, _) => throw (.systemError "cannot receive protocol data")
  else return (some received, socket)
termination_by size - received.length + socket.arrivals.length
decreasing_by
  · have hSpec := socket.recv_spec (size - received.length)
    rw [_hRecv] at hSpec
    simp only [List.length_append, List.length_cons]
    omega
  · have hSpec := socket.recv_spec (size - received.length)
    rw [_hRecv] at hSpec
    omega

def receiveFrame (socket : Socket) : Except Exception (Option Bytes × Socket) := do
  match ← receiveExact socket frameHeaderSize [] with
  | (none, socket) => return (none, socket)
  | (some headerBytes, socket) =>
      let header ← parseFrameHeader headerBytes
      match ← receiveExact socket header.payloadLength.toNat [] with
      | (none, _) => throw (.runtimeError "connection closed before the frame payload")
      | (some payload, socket) => return (some (headerBytes ++ payload), socket)

/-- The call returns the first `size` bytes when there are so many. -/
theorem receiveExact_of_le {socket : Socket} {size : Nat} {received : Bytes}
    (hReceived : received.length ≤ size) (hEnough : size ≤ (received ++ socket.bytes).length) :
    ∃ next, receiveExact socket size received =
        .ok (some ((received ++ socket.bytes).take size), next) ∧
      next.bytes = (received ++ socket.bytes).drop size ∧ next.ending = socket.ending := by
  fun_induction receiveExact socket size received with
  | case1 socket received hMore byte more next hRecv ih =>
      have hSpec := socket.recv_spec (size - received.length)
      rw [hRecv] at hSpec
      obtain ⟨hBytes, hEnding, hLength, _⟩ := hSpec
      have hTotal : received ++ byte :: more ++ next.bytes = received ++ socket.bytes := by
        simp [hBytes]
      rw [hTotal, hEnding] at ih
      apply ih ?_ hEnough
      simp only [List.length_append, List.length_cons]
      omega
  | case2 socket hMore next hRecv =>
      have hSpec := socket.recv_spec (size - ([] : Bytes).length)
      rw [hRecv] at hSpec
      rw [hSpec.1] at hEnough
      simp only [List.length_append, Socket.bytes_nil, List.length_nil] at hEnough
      omega
  | case3 socket received hMore next hRecv hEmpty =>
      have hSpec := socket.recv_spec (size - received.length)
      rw [hRecv] at hSpec
      rw [hSpec.1] at hEnough
      simp only [List.length_append, Socket.bytes_nil, List.length_nil] at hEnough
      omega
  | case4 socket received hMore next hRecv ih =>
      have hSpec := socket.recv_spec (size - received.length)
      rw [hRecv] at hSpec
      rw [hSpec.1, hSpec.2.1] at ih
      exact ih hReceived hEnough
  | case5 socket received hMore next hRecv =>
      have hSpec := socket.recv_spec (size - received.length)
      rw [hRecv] at hSpec
      rw [hSpec] at hEnough
      simp only [List.length_append, Socket.bytes_nil, List.length_nil] at hEnough
      omega
  | case6 socket received hFull =>
      have hSize : size = received.length := by omega
      refine ⟨socket, ?_, ?_, rfl⟩
      · rw [hSize, List.take_left]
        rfl
      · rw [hSize, List.drop_left]

/-- The result when the stream ends first: it does not depend on how the bytes
arrived. -/
def endOfStream (ending : StreamEnd) (received : Bytes) : Except Exception (Option Bytes × Socket) :=
  match ending with
  | .closed =>
      if received = [] then return (none, { arrivals := [], ending := .closed })
      else throw (.runtimeError "connection closed in the middle of a frame")
  | .failed => throw (.systemError "cannot receive protocol data")

theorem receiveExact_of_lt {socket : Socket} {size : Nat} {received : Bytes}
    (hShort : (received ++ socket.bytes).length < size) :
    receiveExact socket size received = endOfStream socket.ending (received ++ socket.bytes) := by
  fun_induction receiveExact socket size received with
  | case1 socket received hMore byte more next hRecv ih =>
      have hSpec := socket.recv_spec (size - received.length)
      rw [hRecv] at hSpec
      obtain ⟨hBytes, hEnding, _, _⟩ := hSpec
      have hTotal : received ++ byte :: more ++ next.bytes = received ++ socket.bytes := by
        simp [hBytes]
      rw [hTotal, hEnding] at ih
      exact ih hShort
  | case2 socket hMore next hRecv =>
      have hSpec := socket.recv_spec (size - ([] : Bytes).length)
      rw [hRecv] at hSpec
      obtain ⟨rfl, rfl⟩ := hSpec
      rfl
  | case3 socket received hMore next hRecv hEmpty =>
      have hSpec := socket.recv_spec (size - received.length)
      rw [hRecv] at hSpec
      obtain ⟨rfl, rfl⟩ := hSpec
      simp [endOfStream, hEmpty]
  | case4 socket received hMore next hRecv ih =>
      have hSpec := socket.recv_spec (size - received.length)
      rw [hRecv] at hSpec
      rw [hSpec.1, hSpec.2.1] at ih
      exact ih hShort
  | case5 socket received hMore next hRecv =>
      have hSpec := socket.recv_spec (size - received.length)
      rw [hRecv] at hSpec
      rw [hSpec]
      rfl
  | case6 socket received hFull =>
      simp only [List.length_append] at hShort
      omega

/-! Frames of a byte stream. -/

/-- The first frame of a stream and the bytes after it, where the header is
acceptable and the frame is complete. -/
def nextFrame (stream : Bytes) : Option (Bytes × Bytes) :=
  if stream.length < frameHeaderSize then none
  else
    match parseFrameHeader (stream.take frameHeaderSize) with
    | .error _ => none
    | .ok header =>
        let size := frameHeaderSize + header.payloadLength.toNat
        if stream.length < size then none else some (stream.take size, stream.drop size)

/-- What `receiveFrame` does where there is no such frame. -/
def noFrame (ending : StreamEnd) (stream : Bytes) : Except Exception (Option Bytes × Socket) :=
  if stream.length < frameHeaderSize then endOfStream ending stream
  else do
    let _ ← parseFrameHeader (stream.take frameHeaderSize)
    let _ ← endOfStream ending (stream.drop frameHeaderSize)
    throw (.runtimeError "connection closed before the frame payload")

theorem nextFrame_eq_some_iff {stream frame rest : Bytes} :
    nextFrame stream = some (frame, rest) ↔
      ∃ header, frameHeaderSize ≤ stream.length ∧
        parseFrameHeader (stream.take frameHeaderSize) = .ok header ∧
        frame.length = frameHeaderSize + header.payloadLength.toNat ∧ stream = frame ++ rest := by
  unfold nextFrame
  split_ifs with hShort
  · constructor
    · intro h
      cases h
    · rintro ⟨_, hLe, _⟩
      exact absurd hShort (Nat.not_lt.mpr hLe)
  · cases hHeader : parseFrameHeader (stream.take frameHeaderSize) with
    | error error => simp
    | ok header =>
        dsimp only
        constructor
        · intro h
          split_ifs at h with hCut
          cases h
          refine ⟨header, Nat.not_lt.mp hShort, rfl, ?_, (List.take_append_drop _ _).symm⟩
          rw [List.length_take]
          omega
        · rintro ⟨other, _, hOther, hLength, rfl⟩
          cases hOther
          rw [← hLength, if_neg (by simp), List.take_left, List.drop_left]

/-- A frame that declares its own payload length is found at the front. -/
theorem nextFrame_frameBytes (type : MessageType) {payload : Bytes}
    (h : payload.length ≤ maxFramePayloadLength) (rest : Bytes) :
    nextFrame (frameBytes type payload ++ rest) = some (frameBytes type payload, rest) := by
  have hToNat := toNat_payloadLength h
  refine nextFrame_eq_some_iff.mpr ⟨⟨version, type, .ofNat payload.length⟩, ?_, ?_, ?_, rfl⟩
  · rw [List.length_append, frameBytes_length]
    omega
  · have hTake : (frameBytes type payload ++ rest).take frameHeaderSize =
        frameHeaderBytes type (.ofNat payload.length) ++ [] := by
      rw [frameBytes, List.append_assoc, List.append_nil]
      exact List.take_left' (frameHeaderBytes_length ..)
    rw [hTake]
    exact parseFrameHeader_append (by rwa [hToNat]) []
  · rw [frameBytes_length, hToNat]

theorem receiveFrame_of_some {socket : Socket} {frame rest : Bytes}
    (h : nextFrame socket.bytes = some (frame, rest)) :
    ∃ next, receiveFrame socket = .ok (some frame, next) ∧ next.bytes = rest ∧
      next.ending = socket.ending := by
  obtain ⟨header, hLe, hHeader, hLength, hStream⟩ := nextFrame_eq_some_iff.mp h
  obtain ⟨afterHeader, hFirst, hBytes, hEnding⟩ :=
    receiveExact_of_le (Nat.zero_le frameHeaderSize)
      (show frameHeaderSize ≤ ([] ++ socket.bytes).length by simpa using hLe)
  rw [List.nil_append] at hFirst hBytes
  have hTotal := congrArg List.length hStream
  rw [List.length_append] at hTotal
  obtain ⟨next, hSecond, hRest, hNext⟩ :=
    receiveExact_of_le (Nat.zero_le header.payloadLength.toNat)
      (show header.payloadLength.toNat ≤ ([] ++ afterHeader.bytes).length by
        rw [List.nil_append, hBytes, List.length_drop]
        omega)
  rw [List.nil_append] at hSecond hRest
  refine ⟨next, ?_, ?_, hNext.trans hEnding⟩
  · rw [receiveFrame, hFirst]
    change (parseFrameHeader _ >>= _) = _
    rw [hHeader]
    change (receiveExact _ _ _ >>= _) = _
    rw [hSecond]
    change Except.ok _ = _
    rw [hBytes, ← List.take_add, ← hLength, hStream, List.take_left]
  · rw [hRest, hBytes, List.drop_drop, ← hLength, hStream, List.drop_left]

theorem receiveFrame_of_none {socket : Socket} (h : nextFrame socket.bytes = none) :
    receiveFrame socket = noFrame socket.ending socket.bytes := by
  unfold nextFrame at h
  unfold noFrame
  split_ifs at h ⊢ with hShort
  · rw [receiveFrame, receiveExact_of_lt (by simpa using hShort), List.nil_append]
    unfold endOfStream
    cases socket.ending with
    | failed => rfl
    | closed => split_ifs <;> rfl
  · obtain ⟨afterHeader, hFirst, hBytes, hEnding⟩ :=
      receiveExact_of_le (Nat.zero_le frameHeaderSize)
        (show frameHeaderSize ≤ ([] ++ socket.bytes).length by simpa using hShort)
    rw [List.nil_append] at hFirst hBytes
    rw [receiveFrame, hFirst]
    change (parseFrameHeader _ >>= _) = _
    cases hHeader : parseFrameHeader (socket.bytes.take frameHeaderSize) with
    | error error => rfl
    | ok header =>
        simp only [hHeader] at h
        split_ifs at h with hCut
        have hPayload : ([] ++ afterHeader.bytes).length < header.payloadLength.toNat := by
          rw [List.nil_append, hBytes, List.length_drop]
          omega
        change (receiveExact _ _ _ >>= _) = (endOfStream _ _ >>= _)
        rw [receiveExact_of_lt hPayload, List.nil_append, hBytes, hEnding]
        unfold endOfStream
        cases socket.ending with
        | failed => rfl
        | closed => split_ifs <;> rfl

theorem endOfStream_ne_some (ending : StreamEnd) (stream frame : Bytes) (next : Socket) :
    endOfStream ending stream ≠ .ok (some frame, next) := by
  unfold endOfStream
  cases ending with
  | failed => exact nofun
  | closed => split_ifs <;> exact nofun

/-- A returned frame is the next frame of the stream. -/
theorem nextFrame_of_receiveFrame {socket next : Socket} {frame : Bytes}
    (h : receiveFrame socket = .ok (some frame, next)) :
    nextFrame socket.bytes = some (frame, next.bytes) ∧ next.ending = socket.ending := by
  cases hNext : nextFrame socket.bytes with
  | none =>
      rw [receiveFrame_of_none hNext, noFrame] at h
      split_ifs at h
      · exact absurd h (endOfStream_ne_some _ _ _ _)
      · obtain ⟨_, _, h⟩ := bind_eq_ok_iff.mp h
        obtain ⟨_, _, h⟩ := bind_eq_ok_iff.mp h
        cases h
  | some found =>
      obtain ⟨found, rest⟩ := found
      obtain ⟨after, hReceive, rfl, hEnding⟩ := receiveFrame_of_some hNext
      cases h.symm.trans hReceive
      exact ⟨rfl, hEnding⟩

theorem length_lt_of_nextFrame {stream frame rest : Bytes}
    (h : nextFrame stream = some (frame, rest)) : rest.length < stream.length := by
  obtain ⟨header, _, _, hLength, rfl⟩ := nextFrame_eq_some_iff.mp h
  rw [List.length_append, hLength, frameHeaderSize]
  omega

end LogBridge.Net
