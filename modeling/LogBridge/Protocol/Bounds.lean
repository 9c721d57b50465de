import LogBridge.Protocol.Accesses
import LogBridge.Protocol.Frames

/-! The decoders stay inside their input, whatever the length and count fields
claim: the offset never leaves the input, so each raw index after a check is
valid, and the strings copied on the way fit between the offsets. -/
namespace LogBridge.Protocol

open Checked Traced

def IsProtocolError (error : Exception) : Prop := ∃ what, error = .protocolError what

/-- The only failures are protocol errors. -/
def FailsProperly {α : Type} (plain : Except Exception α) : Prop :=
  ∀ error, plain = .error error → IsProtocolError error

/-- All accesses are inside the input, failures are protocol errors, and the
copied bytes are related to the result or within the limit. -/
abbrev Stays {α : Type} (input : Bytes) (limit : Nat) (reader : Recorder α)
    (returned : α → Nat → Prop) : Prop :=
  Within (Access.Inside input) IsProtocolError Access.copied limit reader returned

variable {α β : Type} {input : Bytes} {offset limit : Nat}

/-! Checks of decoded values. -/

theorem throwIf_failsProperly {condition : Prop} [Decidable condition] {what : String} :
    FailsProperly (throwIf condition (.protocolError what)) := by
  intro error hError
  unfold throwIf at hError
  split_ifs at hError
  cases hError
  exact ⟨what, rfl⟩

theorem parseMessageType_failsProperly (rawType : UInt8) :
    FailsProperly (parseMessageType rawType) := by
  intro error hError
  unfold parseMessageType at hError
  split_ifs at hError with hLog hAck hBatch
  · cases hError
  · cases hError
  · cases hError
  · cases hError
    exact ⟨_, rfl⟩

theorem FailsProperly.check_bind {condition : Prop} [Decidable condition] {what : String}
    {next : Unit → Except Exception α} (hNext : FailsProperly (next ())) :
    FailsProperly (throwIf condition (.protocolError what) >>= next) := by
  by_cases hCondition : condition
  · intro error hError
    rw [throwIf_of hCondition] at hError
    cases hError
    exact ⟨what, rfl⟩
  · rw [throwIf_of_not hCondition]
    exact hNext

theorem checkLogBatchOrder_failsProperly (front previous : LogMessage) (rest : List LogMessage) :
    FailsProperly (checkLogBatchOrder front previous rest) := by
  induction rest generalizing previous with
  | nil =>
      intro error hError
      cases hError
  | cons message rest ih =>
      rw [checkLogBatchOrder]
      exact .check_bind (.check_bind (ih message))

theorem checkMessages_failsProperly (messages : List LogMessage) :
    FailsProperly (Recorded.checkMessages messages) := by
  cases messages with
  | nil =>
      intro error hError
      cases hError
  | cons front rest => exact checkLogBatchOrder_failsProperly front front rest

/-! The primitives. -/

theorem stays_emit {access : Access} (hInside : access.Inside input) (hFree : access.copied = 0) :
    Stays input limit (emit access) fun _ used => used = 0 ∧ True :=
  Within.emit hInside ⟨hFree, trivial⟩

/-- A check of decoded values. -/
theorem stays_lift {plain : Except Exception α} (h : FailsProperly plain) :
    Stays input limit (lift plain) fun value used => used = 0 ∧ plain = .ok value :=
  Within.lift (fun _ hPassed => ⟨rfl, hPassed⟩) h

theorem stays_check {condition : Prop} [Decidable condition] {what : String} :
    Stays input limit (lift (throwIf condition (.protocolError what)))
      fun _ used => used = 0 ∧ ¬condition := by
  apply (stays_lift throwIf_failsProperly).mono
  rintro _ used ⟨hUsed, hPassed⟩
  exact ⟨hUsed, throwIf_eq_ok_iff.mp hPassed⟩

/-- A check on the way copies nothing. -/
theorem Stays.check {condition : Prop} [Decidable condition] {what : String}
    {next : Unit → Recorder α} {returned : α → Nat → Prop}
    (hNext : Stays input limit (next ()) returned) :
    Stays input limit (lift (throwIf condition (.protocolError what)) >>= next) returned :=
  Within.bind_free stays_check fun _ _ => hNext

theorem stays_requireBytes (count : Nat) :
    Stays input limit (Recorded.requireBytes input offset count)
      fun _ used => used = 0 ∧ offset + count ≤ input.length := by
  rw [Recorded.requireBytes]
  split_ifs with hOffset
  · apply Within.lift
    · intro _ hPassed
      cases hPassed
    · intro error hError
      cases hError
      exact ⟨_, rfl⟩
  · have hRemaining : (Access.remaining input.length offset).Inside input :=
      ⟨rfl, Nat.not_lt.mp hOffset⟩
    apply Within.bind_free (stays_emit hRemaining rfl)
    intro _ _
    apply stays_check.mono
    rintro _ used ⟨hUsed, hEnough⟩
    exact ⟨hUsed, by omega⟩

theorem stays_byteAt {position : Nat} (h : position < input.length) :
    Stays input limit (Recorded.byteAt input position) fun _ used => used = 0 ∧ True := by
  have hByte : Protocol.byteAt input position = .ok input[position] :=
    byteAt_eq_ok_iff.mpr (List.getElem?_eq_getElem h)
  have hIndex : (Access.index position).Inside input := h
  apply Within.bind_free (stays_emit hIndex rfl)
  intro _ _
  apply Within.lift
  · exact fun _ _ => ⟨rfl, trivial⟩
  · intro error hError
    rw [hByte] at hError
    cases hError

theorem stays_moveTo (h : offset ≤ input.length) :
    Stays input limit (Recorded.moveTo offset) fun stop used => used = 0 ∧ stop = offset := by
  have hMoved : (Access.moved offset).Inside input := h
  apply Within.bind_free (stays_emit hMoved rfl)
  intro _ _
  exact Within.pure ⟨rfl, rfl⟩

/-! Numbers. They copy nothing and move the offset by their width. -/

/-- The result of a reader of so many bytes that copies nothing. -/
def Moved (input : Bytes) (offset width : Nat) (result : α × Nat) (used : Nat) : Prop :=
  used = 0 ∧ result.2 = offset + width ∧ result.2 ≤ input.length

/-- The end of each number reader. -/
theorem stays_moved {width : Nat} (value : α) (h : offset + width ≤ input.length) :
    Stays input limit (do
      let stop ← Recorded.moveTo (offset + width)
      return (value, stop)) (Moved input offset width) := by
  apply Within.bind_free (stays_moveTo h)
  rintro stop rfl
  exact Within.pure ⟨rfl, rfl, h⟩

/-- The byte loop of a number reader. -/
theorem stays_byteLoop {width : Nat} (step : α → UInt8 → α) (start : α)
    (h : offset + width ≤ input.length) :
    Stays input limit ((List.range width).foldlM (fun value index => do
      let byte ← Recorded.byteAt input (offset + index)
      return step value byte) start) fun _ used => used = 0 ∧ True := by
  apply (Within.foldlM _).mono (fun _ _ hUsed => ⟨hUsed, trivial⟩)
  intro value index hMem
  have hIndex := List.mem_range.mp hMem
  apply Within.bind_free (stays_byteAt (by omega))
  intro byte _
  exact Within.pure rfl

theorem stays_readUint8 :
    Stays input limit (Recorded.readUint8 input offset) (Moved input offset 1) := by
  apply Within.bind_free (stays_requireBytes 1)
  intro _ hEnough
  apply Within.bind_free (stays_byteAt (by omega))
  intro value _
  exact stays_moved value hEnough

theorem stays_readUint16 :
    Stays input limit (Recorded.readUint16 input offset) (Moved input offset 2) := by
  apply Within.bind_free (stays_requireBytes 2)
  intro _ hEnough
  apply Within.bind_free (stays_byteAt (by omega))
  intro high _
  apply Within.bind_free (stays_byteAt (by omega))
  intro low _
  exact stays_moved _ hEnough

theorem stays_readUint32 :
    Stays input limit (Recorded.readUint32 input offset) (Moved input offset 4) := by
  apply Within.bind_free (stays_requireBytes 4)
  intro _ hEnough
  apply Within.bind_free (stays_byteLoop _ _ hEnough)
  intro value _
  exact stays_moved value hEnough

theorem stays_readUint64 :
    Stays input limit (Recorded.readUint64 input offset) (Moved input offset 8) := by
  apply Within.bind_free (stays_requireBytes 8)
  intro _ hEnough
  apply Within.bind_free (stays_byteLoop _ _ hEnough)
  intro value _
  exact stays_moved value hEnough

/-! Readers that move the offset by at least what they copy. -/

/-- The copied bytes lie between the offset before and the offset after, or
before the end of the input where the reader fails. -/
def Advances (input : Bytes) (offset : Nat) (reader : Recorder (α × Nat)) : Prop :=
  Stays input (input.length - offset) reader
    fun result used => offset + used ≤ result.2 ∧ result.2 ≤ input.length

theorem Advances.pure {value : α} (h : offset ≤ input.length) :
    Advances input offset (pure (value, offset)) :=
  Within.pure ⟨Nat.le_refl _, h⟩

theorem Advances.of_moved {width : Nat} {reader : Recorder (α × Nat)}
    (h : Stays input (input.length - offset) reader (Moved input offset width)) :
    Advances input offset reader := by
  apply h.mono
  rintro ⟨_, stop⟩ used ⟨rfl, hStop, hLe⟩
  exact ⟨by omega, hLe⟩

/-- Consecutive readers. -/
theorem Advances.bind {first : Recorder (α × Nat)} {next : α × Nat → Recorder (β × Nat)}
    (h : Advances input offset first)
    (hNext : ∀ value stop, stop ≤ input.length → Advances input stop (next (value, stop))) :
    Advances input offset (first >>= next) := by
  apply Within.bind
  apply h.mono
  rintro ⟨value, stop⟩ used ⟨hUsed, hStop⟩
  dsimp only at hUsed hStop
  refine ⟨by omega, ?_⟩
  apply ((hNext value stop hStop).of_limit_le (by omega)).mono
  rintro ⟨_, last⟩ more ⟨hMore, hLast⟩
  exact ⟨by omega, hLast⟩

/-- A check between two readers. -/
theorem Advances.check {condition : Prop} [Decidable condition] {what : String}
    {next : Unit → Recorder (α × Nat)} (hNext : Advances input offset (next ())) :
    Advances input offset (lift (throwIf condition (.protocolError what)) >>= next) :=
  Stays.check hNext

theorem advances_readString (length : UInt32) :
    Advances input offset (Recorded.readString input offset length) := by
  apply Within.bind_free (stays_requireBytes length.toNat)
  intro _ hEnough
  have hCopy : (Access.copy offset length.toNat).Inside input := hEnough
  apply Within.bind
  apply Within.emit hCopy
  refine ⟨Nat.le_sub_of_add_le (by rw [Nat.add_comm]; exact hEnough), ?_⟩
  apply Within.bind_free (stays_moveTo hEnough)
  rintro stop rfl
  apply Within.pure
  exact ⟨by rw [Nat.add_zero]; exact Nat.le_refl _, hEnough⟩

example : (Recorded.readString [97, 98] 0 1).events = [.remaining 2 0, .copy 0 1, .moved 1] := rfl

theorem advances_readLogRecord (offset : Nat) :
    Advances input offset (Recorded.readLogRecord input offset) := by
  apply Advances.bind (.of_moved stays_readUint64)
  intro id _ _
  apply Advances.bind (.of_moved stays_readUint64)
  intro timestamp _ _
  apply Advances.bind (.of_moved stays_readUint32)
  intro clientIdLength _ _
  apply Advances.bind (.of_moved stays_readUint32)
  intro sourceLength _ _
  apply Advances.bind (.of_moved stays_readUint32)
  intro contentLength _ _
  apply Advances.check
  apply Advances.check
  apply Advances.check
  apply Advances.check
  apply Advances.bind (advances_readString clientIdLength)
  intro clientId _ _
  apply Advances.bind (advances_readString sourceLength)
  intro source _ _
  apply Advances.bind (advances_readString contentLength)
  intro content stop hStop
  exact Advances.pure hStop

theorem advances_readLogRecords (count : Nat) (hOffset : offset ≤ input.length) :
    Advances input offset (Recorded.readLogRecords input count offset) := by
  induction count generalizing offset with
  | zero => exact Advances.pure hOffset
  | succ count ih =>
      apply Advances.bind (advances_readLogRecord offset)
      intro message _ hMiddle
      apply Advances.bind (ih hMiddle)
      intro rest _ hStop
      exact Advances.pure hStop

/-! Whole frames. -/

/-- The payload length of a frame with an accepted header. -/
def declaredPayload (frame : Bytes) : Nat :=
  match parseFrameHeader frame with
  | .ok header => header.payloadLength.toNat
  | .error _ => 0

theorem stays_parseFrameHeader :
    Stays input limit (Recorded.parseFrameHeader input)
      fun header used => used = 0 ∧ declaredPayload input = header.payloadLength.toNat := by
  have hFree : Stays input limit (Recorded.parseFrameHeader input) fun _ used => used = 0 := by
    apply Within.bind_free (stays_requireBytes _)
    intro _ _
    apply Within.bind_free stays_readUint32
    intro magicField _
    apply Within.bind_free stays_readUint8
    intro versionField _
    apply Within.bind_free stays_readUint8
    intro rawType _
    apply Within.bind_free stays_readUint16
    intro reserved _
    apply Within.bind_free stays_readUint32
    intro payloadLength _
    apply Stays.check
    apply Stays.check
    apply Stays.check
    apply Stays.check
    apply Within.bind_free (stays_lift (parseMessageType_failsProperly _))
    intro type _
    exact Within.pure rfl
  apply hFree.with_result.mono
  rintro header used ⟨hUsed, hHeader⟩
  rw [Recorded.result_parseFrameHeader] at hHeader
  refine ⟨hUsed, ?_⟩
  rw [declaredPayload, hHeader]

/-- The checks before the payload of each frame. -/
theorem stays_header_checks {type : MessageType} {what : String}
    {body : FrameHeader → Recorder α} {returned : α → Nat → Prop}
    (hBody : ∀ header, input.length = frameHeaderSize + declaredPayload input →
      Stays input limit (body header) returned) :
    Stays input limit (do
      let header ← Recorded.parseFrameHeader input
      lift (throwIf (header.type ≠ type) (.protocolError what))
      lift (requireFrameSize input header)
      body header) returned := by
  apply Within.bind_free stays_parseFrameHeader
  intro header hDeclared
  apply Stays.check
  apply Within.bind_free stays_check
  intro _ hSize
  apply hBody header
  rw [hDeclared]
  exact not_not.mp hSize

/-- The bytes copied by a frame's deserializer are at most its payload. -/
def WithinPayload (input : Bytes) (reader : Recorder α) : Prop :=
  Stays input (declaredPayload input) reader fun _ used => used ≤ declaredPayload input

theorem Advances.withinPayload {reader : Recorder (α × Nat)} {next : α × Nat → Recorder β}
    (h : Advances input offset reader) (hOffset : frameHeaderSize ≤ offset)
    (hSize : input.length = frameHeaderSize + declaredPayload input)
    (hNext : ∀ result, ∀ limit, Stays input limit (next result) fun _ used => used = 0) :
    WithinPayload input (reader >>= next) := by
  apply Within.bind
  apply (h.of_limit_le (by omega)).mono
  rintro result used ⟨hUsed, hStop⟩
  refine ⟨by omega, ?_⟩
  apply (hNext result _).mono
  rintro _ more rfl
  omega

theorem deserializeLogMessage_withinPayload :
    WithinPayload input (Recorded.deserializeLogMessage input) := by
  apply stays_header_checks
  intro header hSize
  apply (advances_readLogRecord frameHeaderSize).withinPayload (Nat.le_refl _) hSize
  intro result limit
  apply Stays.check
  exact Within.pure rfl

theorem deserializeLogBatch_withinPayload :
    WithinPayload input (Recorded.deserializeLogBatch input) := by
  apply stays_header_checks
  intro header hSize
  apply Within.bind_free stays_readUint32
  rintro ⟨messageCount, offset⟩ ⟨hOffset, hLe⟩
  apply Stays.check
  apply (advances_readLogRecords messageCount.toNat hLe).withinPayload (by omega) hSize
  intro result limit
  apply Within.bind_free (stays_lift (checkMessages_failsProperly _))
  intro _ _
  apply Stays.check
  exact Within.pure rfl

theorem deserializeAck_withinPayload :
    WithinPayload input (Recorded.deserializeAck input) := by
  apply stays_header_checks
  intro header _
  apply Stays.check
  apply Within.bind_free stays_readUint64
  intro result _
  exact Within.pure (Nat.zero_le _)

/-! The four decoders. -/

/-- Every use of the input stays inside it, a failure is a protocol error, and
the copied strings fit into the payload. -/
structure StaysInside (input : Bytes) (reader : Recorder α) : Prop where
  inside : ∀ access ∈ reader.events, access.Inside input
  failure : FailsProperly reader.result
  copied : total Access.copied reader.events ≤ declaredPayload input

theorem WithinPayload.staysInside {reader : Recorder α} (h : WithinPayload input reader) :
    StaysInside input reader := by
  refine ⟨h.allowed, fun error hError => (h.failed error hError).1, ?_⟩
  cases hResult : reader.result with
  | ok value => exact h.returned value hResult
  | error error => exact (h.failed error hResult).2

/-- Whatever the input, each decoder returns a value or throws a protocol error
and stays inside its input. -/
theorem decoders_stay_inside (input : Bytes) :
    ((Recorded.parseFrameHeader input).result = parseFrameHeader input ∧
      StaysInside input (Recorded.parseFrameHeader input)) ∧
    ((Recorded.deserializeLogMessage input).result = deserializeLogMessage input ∧
      StaysInside input (Recorded.deserializeLogMessage input)) ∧
    ((Recorded.deserializeLogBatch input).result = deserializeLogBatch input ∧
      StaysInside input (Recorded.deserializeLogBatch input)) ∧
    ((Recorded.deserializeAck input).result = deserializeAck input ∧
      StaysInside input (Recorded.deserializeAck input)) := by
  refine ⟨⟨Recorded.result_parseFrameHeader input, ?_⟩,
    ⟨Recorded.result_deserializeLogMessage input, ?_⟩,
    ⟨Recorded.result_deserializeLogBatch input, ?_⟩, Recorded.result_deserializeAck input, ?_⟩
  · have hHeader : WithinPayload input (Recorded.parseFrameHeader input) := by
      apply stays_parseFrameHeader.mono
      rintro header used ⟨rfl, _⟩
      exact Nat.zero_le _
    exact hHeader.staysInside
  · exact deserializeLogMessage_withinPayload.staysInside
  · exact deserializeLogBatch_withinPayload.staysInside
  · exact deserializeAck_withinPayload.staysInside

end LogBridge.Protocol
