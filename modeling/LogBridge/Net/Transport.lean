import LogBridge.Net.Socket

/-! Frames over a byte stream, from the sender's loop over partial sends to the
receiver's loop over partial receives. The frames come out as they went in
however the bytes are cut on either side, and a stream that ends inside a frame
gives the frames before it and then an error. -/
namespace LogBridge.Net

open Checked Protocol

/-! Sending. -/

/-- The result of one call of `send`: it takes at least one byte, is interrupted
by a signal, takes nothing, or fails. -/
inductive SendResult where
  | accepted (more : Nat)
  | interrupted
  | nothing
  | failed
  deriving DecidableEq, Repr

/-- The loop of `sendAll` with the bytes it hands over. No result stands for a
call that still waits in `send`. -/
def sendLoop (data : Bytes) (sentBytes : Nat) :
    List SendResult → Bytes × Option (Except Exception Unit)
  | [] => if sentBytes < data.length then ([], none) else ([], some (.ok ()))
  | result :: rest =>
      if sentBytes < data.length then
        match result with
        | .accepted more =>
            let count := min (more + 1) (data.length - sentBytes)
            let (wire, ending) := sendLoop data (sentBytes + count) rest
            ((data.drop sentBytes).take count ++ wire, ending)
        | .interrupted => sendLoop data sentBytes rest
        | .nothing => ([], some (.error (.systemError "cannot send protocol data")))
        | .failed => ([], some (.error (.systemError "cannot send protocol data")))
      else ([], some (.ok ()))

def sendAll (data : Bytes) (results : List SendResult) : Bytes × Option (Except Exception Unit) :=
  sendLoop data 0 results

/-- The bytes that the results would take of an endless text. -/
def acceptedBytes : List SendResult → Nat
  | [] => 0
  | .accepted more :: rest => more + 1 + acceptedBytes rest
  | _ :: rest => acceptedBytes rest

/-- The connection stays up: there are short counts and signals only. -/
def Delivering (results : List SendResult) : Prop :=
  .nothing ∉ results ∧ .failed ∉ results

theorem sendLoop_of_full {data : Bytes} {sentBytes : Nat} (h : data.length ≤ sentBytes)
    (results : List SendResult) : sendLoop data sentBytes results = ([], some (.ok ())) := by
  cases results with
  | nil => exact if_neg (Nat.not_lt.mpr h)
  | cons result rest => exact if_neg (Nat.not_lt.mpr h)

theorem sendLoop_interrupted (data : Bytes) (sentBytes : Nat) (rest : List SendResult) :
    sendLoop data sentBytes (.interrupted :: rest) = sendLoop data sentBytes rest := by
  by_cases hMore : sentBytes < data.length
  · conv_lhs => rw [sendLoop, if_pos hMore]
  · rw [sendLoop_of_full (Nat.not_lt.mp hMore), sendLoop_of_full (Nat.not_lt.mp hMore)]

/-- The loop hands over the rest of the data in order, once the results have
taken so many bytes. -/
theorem sendLoop_eq {data : Bytes} {sentBytes : Nat} {results : List SendResult}
    (hDelivering : Delivering results) (hEnough : data.length ≤ sentBytes + acceptedBytes results) :
    sendLoop data sentBytes results = (data.drop sentBytes, some (.ok ())) := by
  induction results generalizing sentBytes with
  | nil =>
      rw [acceptedBytes, Nat.add_zero] at hEnough
      rw [sendLoop_of_full hEnough, List.drop_eq_nil_of_le hEnough]
  | cons result rest ih =>
      have hRest : Delivering rest :=
        ⟨fun hMem => hDelivering.1 (List.mem_cons_of_mem _ hMem),
          fun hMem => hDelivering.2 (List.mem_cons_of_mem _ hMem)⟩
      cases result with
      | accepted more =>
          by_cases hMore : sentBytes < data.length
          · rw [acceptedBytes] at hEnough
            have hLeft : data.length ≤
                sentBytes + min (more + 1) (data.length - sentBytes) + acceptedBytes rest := by omega
            have hNext := ih hRest hLeft
            rw [sendLoop, if_pos hMore]
            dsimp only
            rw [hNext, ← List.drop_drop, List.take_append_drop]
          · rw [sendLoop_of_full (Nat.not_lt.mp hMore), List.drop_eq_nil_of_le (Nat.not_lt.mp hMore)]
      | interrupted =>
          rw [sendLoop_interrupted]
          exact ih hRest hEnough
      | nothing => exact absurd (List.mem_cons_self ..) hDelivering.1
      | failed => exact absurd (List.mem_cons_self ..) hDelivering.2

/-- However the call goes, what it handed over is a prefix of the rest. -/
theorem sendLoop_prefix (data : Bytes) (sentBytes : Nat) (results : List SendResult) :
    (sendLoop data sentBytes results).1 <+: data.drop sentBytes := by
  induction results generalizing sentBytes with
  | nil =>
      rw [sendLoop]
      split_ifs
      · exact List.nil_prefix
      · exact List.nil_prefix
  | cons result rest ih =>
      by_cases hMore : sentBytes < data.length
      · cases result with
        | accepted more =>
            rw [sendLoop, if_pos hMore]
            dsimp only
            obtain ⟨left, hLeft⟩ := ih (sentBytes + min (more + 1) (data.length - sentBytes))
            refine ⟨left, ?_⟩
            rw [List.append_assoc, hLeft, ← List.drop_drop, List.take_append_drop]
        | interrupted =>
            rw [sendLoop_interrupted]
            exact ih sentBytes
        | nothing =>
            rw [sendLoop, if_pos hMore]
            exact List.nil_prefix
        | failed =>
            rw [sendLoop, if_pos hMore]
            exact List.nil_prefix
      · rw [sendLoop_of_full (Nat.not_lt.mp hMore)]
        exact List.nil_prefix

/-- A call that returns has handed over all of the rest. -/
theorem sendLoop_of_returned {data : Bytes} {sentBytes : Nat} {results : List SendResult}
    (h : (sendLoop data sentBytes results).2 = some (.ok ())) :
    (sendLoop data sentBytes results).1 = data.drop sentBytes := by
  induction results generalizing sentBytes with
  | nil =>
      rw [sendLoop] at h ⊢
      split_ifs at h ⊢ with hMore
      exact (List.drop_eq_nil_of_le (Nat.not_lt.mp hMore)).symm
  | cons result rest ih =>
      by_cases hMore : sentBytes < data.length
      · cases result with
        | accepted more =>
            rw [sendLoop, if_pos hMore] at h ⊢
            dsimp only at h ⊢
            rw [ih h, ← List.drop_drop, List.take_append_drop]
        | interrupted =>
            rw [sendLoop_interrupted] at h ⊢
            exact ih h
        | nothing =>
            rw [sendLoop, if_pos hMore] at h
            cases h
        | failed =>
            rw [sendLoop, if_pos hMore] at h
            cases h
      · rw [sendLoop_of_full (Nat.not_lt.mp hMore), List.drop_eq_nil_of_le (Nat.not_lt.mp hMore)]

/-- Frames sent one after the other, each with the results its `send` calls
meet. The first call that does not return ends the sending. -/
def sendFrames : List (Bytes × List SendResult) → Bytes × Option (Except Exception Unit)
  | [] => ([], some (.ok ()))
  | (frame, results) :: rest =>
      match sendAll frame results with
      | (wire, some (.ok ())) =>
          let (more, ending) := sendFrames rest
          (wire ++ more, ending)
      | (wire, ending) => (wire, ending)

/-- The results let the whole frame pass. -/
def Passes (send : Bytes × List SendResult) : Prop :=
  Delivering send.2 ∧ send.1.length ≤ acceptedBytes send.2

theorem sendFrames_eq {sends : List (Bytes × List SendResult)} (h : ∀ send ∈ sends, Passes send) :
    sendFrames sends = ((sends.map Prod.fst).flatten, some (.ok ())) := by
  induction sends with
  | nil => rfl
  | cons send rest ih =>
      obtain ⟨frame, results⟩ := send
      rw [List.forall_mem_cons] at h
      have hFirst : sendAll frame results = (frame, some (.ok ())) := by
        have hLoop := sendLoop_eq h.1.1 (show frame.length ≤ 0 + acceptedBytes results by
          rw [Nat.zero_add]
          exact h.1.2)
        rwa [List.drop_zero] at hLoop
      rw [sendFrames, hFirst]
      dsimp only
      rw [ih h.2]
      rfl

/-- However the calls go, a prefix of the frames reaches the wire. -/
theorem sendFrames_initial (sends : List (Bytes × List SendResult)) :
    (sendFrames sends).1 <+: (sends.map Prod.fst).flatten := by
  induction sends with
  | nil => exact List.prefix_rfl
  | cons send rest ih =>
      obtain ⟨frame, results⟩ := send
      have hPrefix : (sendAll frame results).1 <+: frame := sendLoop_prefix frame 0 results
      have hReturned : (sendAll frame results).2 = some (.ok ()) →
          (sendAll frame results).1 = frame := sendLoop_of_returned
      rw [sendFrames, List.map_cons, List.flatten_cons]
      rcases hSend : sendAll frame results with ⟨wire, _ | error | ⟨⟨⟩⟩⟩
      · rw [hSend] at hPrefix
        exact hPrefix.trans (List.prefix_append ..)
      · rw [hSend] at hPrefix
        exact hPrefix.trans (List.prefix_append ..)
      · rw [hSend] at hReturned
        obtain rfl : wire = frame := hReturned rfl
        exact (List.prefix_append_right_inj wire).mpr ih

/-! Receiving. -/

/-- The results of successive calls of `receiveFrame`, up to one that throws. -/
def receiveFrames : Nat → Socket → List (Except Exception (Option Bytes))
  | 0, _ => []
  | calls + 1, socket =>
      match receiveFrame socket with
      | .error error => [.error error]
      | .ok (frame, next) => .ok frame :: receiveFrames calls next

/-- The frames that the encoders produce. -/
inductive Serialized : Bytes → Prop where
  | log {message : LogMessage} {frame : Bytes} (h : serializeLogMessage message = .ok frame) :
      Serialized frame
  | logBatch {messages : List LogMessage} {frame : Bytes}
      (h : serializeLogBatch messages = .ok frame) : Serialized frame
  | ack (confirmedId : UInt64) : Serialized (serializeAck confirmedId)

/-- A serialized frame declares its own length. -/
theorem nextFrame_of_serialized {frame : Bytes} (h : Serialized frame) (rest : Bytes) :
    nextFrame (frame ++ rest) = some (frame, rest) := by
  cases h with
  | log h =>
      obtain ⟨hLimits, rfl⟩ := serializeLogMessage_eq_ok_iff.mp h
      exact nextFrame_frameBytes .log (hLimits.logRecordBytes_length_le.trans (Nat.sub_le _ _)) rest
  | logBatch h =>
      obtain ⟨hBatch, rfl⟩ := serializeLogBatch_eq_ok_iff.mp h
      exact nextFrame_frameBytes .logBatch hBatch.payload_le rest
  | ack confirmedId =>
      rw [serializeAck_eq]
      apply nextFrame_frameBytes
      rw [BigEndian.encode_length]
      decide

/-- More bytes behind a complete frame do not change it. -/
theorem nextFrame_append {stream frame rest : Bytes} (h : nextFrame stream = some (frame, rest))
    (more : Bytes) : nextFrame (stream ++ more) = some (frame, rest ++ more) := by
  obtain ⟨header, hLe, hHeader, hLength, hStream⟩ := nextFrame_eq_some_iff.mp h
  refine nextFrame_eq_some_iff.mpr ⟨header, ?_, ?_, hLength, ?_⟩
  · rw [List.length_append]
    omega
  · rwa [List.take_append_of_le_length hLe]
  · rw [hStream, List.append_assoc]

/-- A frame that is cut short is not found. -/
theorem nextFrame_take_eq_none {frame : Bytes} (h : Serialized frame) {size : Nat}
    (hCut : size < frame.length) : nextFrame (frame.take size) = none := by
  cases hNext : nextFrame (frame.take size) with
  | none => rfl
  | some found =>
      obtain ⟨other, rest⟩ := found
      have hOther := nextFrame_append hNext (frame.drop size)
      rw [List.take_append_drop] at hOther
      have hWhole := nextFrame_of_serialized h []
      rw [List.append_nil, hOther] at hWhole
      obtain ⟨rfl, _⟩ := Prod.mk.inj (Option.some.inj hWhole)
      obtain ⟨_, _, _, _, hStream⟩ := nextFrame_eq_some_iff.mp hNext
      have hLength := congrArg List.length hStream
      rw [List.length_append, List.length_take] at hLength
      omega

/-- Only an empty stream can end without an error. -/
theorem noFrame_eq_error (ending : StreamEnd) {stream : Bytes} (h : stream ≠ []) :
    ∃ error, noFrame ending stream = .error error := by
  unfold noFrame
  split_ifs with hShort
  · cases ending with
    | closed => exact ⟨_, if_neg h⟩
    | failed => exact ⟨_, rfl⟩
  · cases parseFrameHeader (stream.take frameHeaderSize) with
    | error error => exact ⟨error, rfl⟩
    | ok header =>
        change ∃ error, (endOfStream _ _ >>= _) = _
        cases endOfStream ending (stream.drop frameHeaderSize) with
        | error error => exact ⟨error, rfl⟩
        | ok _ => exact ⟨_, rfl⟩

/-- Only the end of a closed stream is reported as such, and the end stays. -/
theorem next_of_receiveFrame_none {socket next : Socket} (h : receiveFrame socket = .ok (none, next)) :
    next.bytes = [] ∧ next.ending = .closed := by
  cases hNext : nextFrame socket.bytes with
  | some found =>
      obtain ⟨frame, rest⟩ := found
      obtain ⟨_, hReceive, _, _⟩ := receiveFrame_of_some hNext
      cases h.symm.trans hReceive
  | none =>
      rw [receiveFrame_of_none hNext] at h
      by_cases hEmpty : socket.bytes = []
      · rw [hEmpty] at h
        cases hEnding : socket.ending with
        | closed =>
            rw [hEnding] at h
            cases h
            exact ⟨rfl, rfl⟩
        | failed =>
            rw [hEnding] at h
            cases h
      · obtain ⟨error, hError⟩ := noFrame_eq_error socket.ending hEmpty
        rw [hError] at h
        cases h

/-- After the last byte of a closed stream every call reports its end. -/
theorem receiveFrames_end {socket : Socket} (hBytes : socket.bytes = [])
    (hEnding : socket.ending = .closed) (calls : Nat) :
    receiveFrames calls socket = List.replicate calls (.ok none) := by
  induction calls generalizing socket with
  | zero => rfl
  | succ calls ih =>
      have hNext : nextFrame socket.bytes = none := by
        rw [hBytes]
        rfl
      have hReceive : receiveFrame socket = .ok (none, { arrivals := [], ending := .closed }) := by
        rw [receiveFrame_of_none hNext, hBytes, hEnding]
        rfl
      rw [receiveFrames, hReceive, List.replicate_succ]
      dsimp only
      rw [ih rfl rfl]

theorem receiveFrames_cons {frame rest : Bytes} {socket : Socket} (h : Serialized frame)
    (hBytes : socket.bytes = frame ++ rest) :
    ∃ next, next.bytes = rest ∧ next.ending = socket.ending ∧
      ∀ calls, receiveFrames (calls + 1) socket = .ok (some frame) :: receiveFrames calls next := by
  have hFound : nextFrame socket.bytes = some (frame, rest) := by
    rw [hBytes]
    exact nextFrame_of_serialized h rest
  obtain ⟨next, hReceive, hRest, hEnding⟩ := receiveFrame_of_some hFound
  refine ⟨next, hRest, hEnding, fun calls => ?_⟩
  rw [receiveFrames, hReceive]

theorem receiveFrames_flatten {frames : List Bytes} {socket : Socket}
    (hFrames : ∀ frame ∈ frames, Serialized frame) (hBytes : socket.bytes = frames.flatten)
    (hEnding : socket.ending = .closed) (more : Nat) :
    receiveFrames (frames.length + more) socket =
      frames.map (fun frame => .ok (some frame)) ++ List.replicate more (.ok none) := by
  induction frames generalizing socket with
  | nil =>
      rw [List.length_nil, Nat.zero_add]
      exact receiveFrames_end hBytes hEnding more
  | cons frame rest ih =>
      rw [List.forall_mem_cons] at hFrames
      rw [List.flatten_cons] at hBytes
      obtain ⟨next, hRest, hNext, hCalls⟩ := receiveFrames_cons hFrames.1 hBytes
      rw [List.length_cons, Nat.add_right_comm, hCalls, ih hFrames.2 hRest (hNext.trans hEnding)]
      rfl

/-- The position is the start of the stream or the end of a frame. -/
def IsBoundary (frames : List Bytes) (position : Nat) : Prop :=
  ∃ count, position = (frames.take count).flatten.length

theorem IsBoundary.cons {frames : List Bytes} {position : Nat} (h : IsBoundary frames position)
    (frame : Bytes) : IsBoundary (frame :: frames) (frame.length + position) := by
  obtain ⟨count, rfl⟩ := h
  refine ⟨count + 1, ?_⟩
  rw [List.take_succ_cons, List.flatten_cons, List.length_append]

/-- A stream cut inside a frame gives the frames that lie before the cut, and
then an error. -/
theorem receiveFrames_cut {frames : List Bytes} {socket : Socket} {position : Nat}
    (hFrames : ∀ frame ∈ frames, Serialized frame) (hCut : ¬IsBoundary frames position)
    (hInside : position ≤ frames.flatten.length)
    (hBytes : socket.bytes = frames.flatten.take position) :
    ∃ count error, (frames.take count).flatten.length < position ∧
      position < (frames.take (count + 1)).flatten.length ∧
      ∀ more, receiveFrames (count + 1 + more) socket =
        (frames.take count).map (fun frame => .ok (some frame)) ++ [.error error] := by
  induction frames generalizing socket position with
  | nil =>
      rw [List.flatten_nil, List.length_nil, Nat.le_zero] at hInside
      exact absurd ⟨0, hInside⟩ hCut
  | cons frame rest ih =>
      rw [List.forall_mem_cons] at hFrames
      rw [List.flatten_cons] at hBytes hInside
      have hStart : position ≠ 0 := fun hZero => hCut ⟨0, hZero⟩
      by_cases hShort : position < frame.length
      · rw [List.take_append_of_le_length hShort.le] at hBytes
        have hNone : nextFrame socket.bytes = none := by
          rw [hBytes]
          exact nextFrame_take_eq_none hFrames.1 hShort
        have hNonempty : socket.bytes ≠ [] := by
          rw [hBytes]
          apply List.ne_nil_of_length_pos
          rw [List.length_take]
          omega
        obtain ⟨error, hError⟩ := noFrame_eq_error socket.ending hNonempty
        refine ⟨0, error, Nat.pos_of_ne_zero hStart, by simpa using hShort, fun more => ?_⟩
        rw [Nat.zero_add, Nat.add_comm, receiveFrames, receiveFrame_of_none hNone, hError]
        rfl
      · obtain ⟨after, rfl⟩ := Nat.exists_eq_add_of_le (Nat.not_lt.mp hShort)
        rw [List.take_length_add_append] at hBytes
        rw [List.length_append] at hInside
        obtain ⟨next, hRest, _, hCalls⟩ := receiveFrames_cons hFrames.1 hBytes
        obtain ⟨count, error, hBefore, hAfter, hReceive⟩ :=
          ih hFrames.2 (fun hBoundary => hCut (hBoundary.cons frame)) (by omega) hRest
        refine ⟨count + 1, error, ?_, ?_, fun more => ?_⟩
        · rw [List.take_succ_cons, List.flatten_cons, List.length_append]
          omega
        · rw [List.take_succ_cons, List.flatten_cons, List.length_append]
          omega
        · rw [Nat.add_right_comm, hCalls, hReceive]
          rfl

/-- The frames among the results of successive calls. -/
def delivered (results : List (Except Exception (Option Bytes))) : List Bytes :=
  results.filterMap fun result =>
    match result with
    | .ok frame => frame
    | .error _ => none

/-- Whatever part of a stream of frames arrives, the delivered frames are the
first frames of the stream, unaltered. -/
theorem delivered_prefix {frames : List Bytes} {socket : Socket}
    (hFrames : ∀ frame ∈ frames, Serialized frame) (hBytes : socket.bytes <+: frames.flatten)
    (calls : Nat) : delivered (receiveFrames calls socket) <+: frames := by
  induction calls generalizing frames socket with
  | zero => exact List.nil_prefix
  | succ calls ih =>
      obtain ⟨left, hLeft⟩ := hBytes
      rw [receiveFrames]
      rcases hReceive : receiveFrame socket with error | ⟨_ | found, next⟩
      · exact List.nil_prefix
      · -- the stream has ended, and so has the one of the later calls
        have hEnd := next_of_receiveFrame_none hReceive
        exact ih hFrames ⟨frames.flatten, by rw [hEnd.1]; rfl⟩
      · obtain ⟨hFound, _⟩ := nextFrame_of_receiveFrame hReceive
        have hWhole := nextFrame_append hFound left
        rw [hLeft] at hWhole
        cases frames with
        | nil => cases hWhole
        | cons frame rest =>
            rw [List.forall_mem_cons] at hFrames
            rw [List.flatten_cons, nextFrame_of_serialized hFrames.1] at hWhole
            obtain ⟨rfl, hRest⟩ := Prod.mk.inj (Option.some.inj hWhole)
            exact List.cons_prefix_cons.mpr ⟨rfl, ih hFrames.2 ⟨left, hRest.symm⟩⟩

theorem serialized_of_sends {sends : List (Bytes × List SendResult)}
    (h : ∀ send ∈ sends, Serialized send.1) : ∀ frame ∈ sends.map Prod.fst, Serialized frame := by
  intro frame hMem
  obtain ⟨send, hSend, rfl⟩ := List.mem_map.mp hMem
  exact h send hSend

/-- Whatever goes wrong on either side, the receiver gets the first of the sent
frames, unaltered. -/
theorem delivered_of_sends {sends : List (Bytes × List SendResult)} {socket : Socket}
    (hFrames : ∀ send ∈ sends, Serialized send.1) (hBytes : socket.bytes <+: (sendFrames sends).1)
    (calls : Nat) : delivered (receiveFrames calls socket) <+: sends.map Prod.fst :=
  delivered_prefix (serialized_of_sends hFrames) (hBytes.trans (sendFrames_initial sends)) calls

/-- Every frame list survives the stream: all ways in which `send` takes the
bytes put the same stream on the wire, and all ways in which `recv` delivers it
give the frames back in order and then the end. A stream that ends elsewhere
than at a boundary gives the frames wholly before its end and then an error. -/
theorem frames_survive (sends : List (Bytes × List SendResult))
    (hFrames : ∀ send ∈ sends, Serialized send.1) (hPasses : ∀ send ∈ sends, Passes send) :
    ∃ wire, sendFrames sends = (wire, some (.ok ())) ∧ wire = (sends.map Prod.fst).flatten ∧
      (∀ socket more, socket.bytes = wire → socket.ending = .closed →
        receiveFrames (sends.length + (more + 1)) socket =
          sends.map (fun send => .ok (some send.1)) ++ List.replicate (more + 1) (.ok none)) ∧
      ∀ socket position, socket.bytes = wire.take position → position ≤ wire.length →
        ¬IsBoundary (sends.map Prod.fst) position →
        ∃ count error, ((sends.map Prod.fst).take count).flatten.length < position ∧
          position < ((sends.map Prod.fst).take (count + 1)).flatten.length ∧
          ∀ more, receiveFrames (count + 1 + more) socket =
            (sends.take count).map (fun send => .ok (some send.1)) ++ [.error error] := by
  have hSerialized := serialized_of_sends hFrames
  refine ⟨_, sendFrames_eq hPasses, rfl, ?_, ?_⟩
  · intro socket more hBytes hEnding
    have hReceive := receiveFrames_flatten hSerialized hBytes hEnding (more + 1)
    rwa [List.length_map, List.map_map] at hReceive
  · intro socket position hBytes hInside hCut
    obtain ⟨count, error, hBefore, hAfter, hReceive⟩ :=
      receiveFrames_cut hSerialized hCut hInside hBytes
    refine ⟨count, error, hBefore, hAfter, fun more => ?_⟩
    rw [hReceive, ← List.map_take, List.map_map]
    rfl

/-- Two acknowledgements, sent with a short count and a signal. -/
def sampleSends : List (Bytes × List SendResult) :=
  [(serializeAck 7, [.accepted 4, .interrupted, .accepted 14]), (serializeAck 9, [.accepted 19])]

/-- The first of them and one byte of the second, cut into pieces of other sizes. -/
def sampleSocket : Socket :=
  { arrivals := [.data 76 [71, 66], .interrupted, .data 49 [2, 2, 0, 0, 0, 0, 0, 8, 0, 0, 0, 0, 0],
      .data 0 [0, 7, 76]] }

theorem frames_survive_sample :
    ∃ error, receiveFrames 2 sampleSocket = [.ok (some (serializeAck 7)), .error error] := by
  have hFrames : ∀ send ∈ sampleSends, Serialized send.1 := by
    intro send hMem
    simp only [sampleSends, List.mem_cons, List.not_mem_nil, or_false] at hMem
    rcases hMem with rfl | rfl
    · exact .ack 7
    · exact .ack 9
  have hPasses : ∀ send ∈ sampleSends, Passes send := by
    intro send hMem
    simp only [sampleSends, List.mem_cons, List.not_mem_nil, or_false] at hMem
    rcases hMem with rfl | rfl
    · exact ⟨⟨by decide, by decide⟩, by decide⟩
    · exact ⟨⟨by decide, by decide⟩, by decide⟩
  have hCut : ¬IsBoundary (sampleSends.map Prod.fst) 21 := by
    rintro ⟨_ | _ | _ | count, hCount⟩
    · exact absurd hCount (by decide)
    · exact absurd hCount (by decide)
    · exact absurd hCount (by decide)
    · rw [List.take_of_length_le (by simp [sampleSends])] at hCount
      exact absurd hCount (by decide)
  obtain ⟨_, _, rfl, _, hCutStream⟩ := frames_survive sampleSends hFrames hPasses
  obtain ⟨count, error, hBefore, hAfter, hReceive⟩ :=
    hCutStream sampleSocket 21 (by decide) (by decide) hCut
  refine ⟨error, ?_⟩
  obtain _ | _ | count := count
  · exact absurd hAfter (by decide)
  · exact hReceive 0
  · rw [List.take_of_length_le (by simp [sampleSends])] at hBefore
    exact absurd hBefore (by decide)

end LogBridge.Net
