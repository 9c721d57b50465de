import LogBridge.Library.BigEndian
import LogBridge.Library.Segment
import LogBridge.Protocol.Format

/-! Each encoder appends a fixed byte string and each decoder accepts exactly
that byte string at its offset. Decoding and encoding of whole frames are both
read off these equivalences. -/
namespace LogBridge.Protocol

open Checked BigEndian

variable {input output : Bytes} {offset stop : Nat}

/-! What the encoders append. -/

theorem appendUint16_eq (value : UInt16) :
    appendUint16 output value = output ++ encode 2 value.toNat := by
  rw [← shiftOut16]
  simp [appendUint16]

theorem appendUint32_eq (value : UInt32) :
    appendUint32 output value = output ++ encode 4 value.toNat := by
  rw [← shiftOut32]
  simp [appendUint32]

theorem appendUint64_eq (value : UInt64) :
    appendUint64 output value = output ++ encode 8 value.toNat := by
  rw [← shiftOut64]
  simp [appendUint64]

/-- The twelve bytes of a frame header. -/
def frameHeaderBytes (type : MessageType) (payloadLength : UInt32) : Bytes :=
  encode 4 magic.toNat ++ ([version] ++ ([type.toUInt8] ++ (encode 2 0 ++
    encode 4 payloadLength.toNat)))

@[simp] theorem frameHeaderBytes_length (type : MessageType) (payloadLength : UInt32) :
    (frameHeaderBytes type payloadLength).length = frameHeaderSize := by
  simp [frameHeaderBytes, frameHeaderSize]

theorem appendFrameHeader_eq (type : MessageType) (payloadLength : UInt32) :
    appendFrameHeader output type payloadLength =
      output ++ frameHeaderBytes type payloadLength := by
  simp [appendFrameHeader, appendUint32_eq, appendUint16_eq, frameHeaderBytes]

/-- The bytes of one log record, without a frame header. -/
def logRecordBytes (message : LogMessage) : Bytes :=
  encode 8 message.id.toNat ++ (encode 8 message.timestampMs.toUInt64.toNat ++
    (encode 4 (UInt32.ofNat message.clientId.length).toNat ++
    (encode 4 (UInt32.ofNat message.source.length).toNat ++
    (encode 4 (UInt32.ofNat message.content.length).toNat ++
    (message.clientId ++ (message.source ++ message.content))))))

theorem logRecordBytes_length (message : LogMessage) :
    (logRecordBytes message).length = logRecordFixedSize + message.clientId.length +
      message.source.length + message.content.length := by
  simp only [logRecordBytes, logRecordFixedSize, List.length_append, encode_length]
  omega

theorem appendLogRecord_eq (message : LogMessage) :
    appendLogRecord output message = output ++ logRecordBytes message := by
  simp [appendLogRecord, appendUint64_eq, appendUint32_eq, logRecordBytes]

theorem foldl_appendLogRecord (messages : List LogMessage) :
    messages.foldl appendLogRecord output =
      output ++ (messages.map logRecordBytes).flatten := by
  induction messages generalizing output with
  | nil => simp
  | cons message rest ih => simp [ih, appendLogRecord_eq]

/-! What the decoders accept. -/

theorem requireBytes_eq_ok_iff {count : Nat} {result : Unit} :
    requireBytes input offset count = .ok result ↔ offset + count ≤ input.length := by
  rw [requireBytes, throwIf_eq_ok_iff]
  omega

theorem byteAt_eq_ok_iff {byte : UInt8} :
    byteAt input offset = .ok byte ↔ input[offset]? = some byte := by
  unfold byteAt
  cases input[offset]? with
  | none => simp [throw, throwThe, MonadExceptOf.throw]
  | some value => simp [pure_eq_ok_iff]

theorem segment_of_requireBytes {count : Nat} {result : Unit}
    (h : requireBytes input offset count = .ok result) :
    ∃ part, part.length = count ∧ Segment input offset part (offset + count) := by
  have hLe := requireBytes_eq_ok_iff.mp h
  refine ⟨_, ?_, Segment.of_le hLe⟩
  simp only [List.length_take, List.length_drop]
  omega

theorem requireBytes_of_segment {part : Bytes} (h : Segment input offset part stop) :
    requireBytes input offset part.length = .ok () := by
  have hLe := h.stop_le
  rw [h.stop_eq] at hLe
  exact requireBytes_eq_ok_iff.mpr hLe

/-- The byte loop of a reader folds over the segment it reads. -/
theorem foldlM_byteAt {σ : Type} (step : σ → UInt8 → σ) (initial : σ) {part : Bytes}
    (h : Segment input offset part stop) :
    (List.range part.length).foldlM (fun value index => do
      let byte ← byteAt input (offset + index)
      return step value byte) initial = (.ok (part.foldl step initial) : Except Exception σ) := by
  induction part using List.reverseRecOn generalizing stop with
  | nil => rfl
  | append_singleton part byte ih =>
      obtain ⟨middle, hInit, hLast⟩ := Segment.append_iff.mp h
      have hByte : byteAt input (offset + part.length) = .ok byte := by
        rw [← hInit.stop_eq]
        exact byteAt_eq_ok_iff.mpr (Segment.singleton_iff.mp hLast).2
      rw [List.length_append, List.length_singleton, List.range_succ, List.foldlM_append,
        ih hInit]
      simp only [List.foldlM_cons, List.foldlM_nil, List.foldl_append, List.foldl_cons,
        List.foldl_nil]
      change (byteAt input (offset + part.length) >>= _) >>= _ = _
      rw [hByte]
      rfl

/-- Reading a number and finding its code at the offset are the same. -/
theorem exists_segment_value_iff {width n : Nat} (h : n < 256 ^ width) :
    (∃ part, part.length = width ∧ Segment input offset part stop ∧ value part = n) ↔
      Segment input offset (encode width n) stop := by
  constructor
  · rintro ⟨part, hLength, hSegment, hValue⟩
    rwa [← (encode_eq_iff h).mpr ⟨hLength, hValue⟩]
  · intro hSegment
    exact ⟨_, encode_length width n, hSegment, value_encode h⟩

theorem readUint8_eq_ok_iff {value : UInt8} :
    readUint8 input offset = .ok (value, stop) ↔ Segment input offset [value] stop := by
  rw [Segment.singleton_iff]
  simp only [readUint8, bind_eq_ok_iff, requireBytes_eq_ok_iff, byteAt_eq_ok_iff, pure_eq_ok_iff,
    Prod.mk.injEq]
  constructor
  · rintro ⟨_, _, byte, hByte, rfl, rfl⟩
    exact ⟨rfl, hByte⟩
  · rintro ⟨rfl, hByte⟩
    have hLt := (List.getElem?_eq_some_iff.mp hByte).1
    exact ⟨(), by omega, value, hByte, rfl, rfl⟩

theorem readUint16_eq_ok_iff {result : UInt16} :
    readUint16 input offset = .ok (result, stop) ↔
      Segment input offset (encode 2 result.toNat) stop := by
  rw [← exists_segment_value_iff result.toNat_lt]
  simp only [readUint16, bind_eq_ok_iff, requireBytes_eq_ok_iff, byteAt_eq_ok_iff, pure_eq_ok_iff,
    Prod.mk.injEq]
  constructor
  · rintro ⟨_, _, high, hHigh, low, hLow, rfl, rfl⟩
    have hSegment : Segment input offset ([high] ++ [low]) (offset + 2) :=
      Segment.append_iff.mpr ⟨_, Segment.singleton_iff.mpr ⟨rfl, hHigh⟩,
        Segment.singleton_iff.mpr ⟨rfl, hLow⟩⟩
    exact ⟨[high, low], rfl, hSegment, (toNat_shiftIn16 high low).symm⟩
  · rintro ⟨part, hLength, hSegment, hValue⟩
    obtain ⟨high, low, rfl⟩ := List.length_eq_two.mp hLength
    have hLe := hSegment.stop_le
    obtain ⟨middle, hFirst, hSecond⟩ :=
      Segment.append_iff.mp (show Segment input offset ([high] ++ [low]) stop from hSegment)
    obtain ⟨rfl, hHigh⟩ := Segment.singleton_iff.mp hFirst
    obtain ⟨rfl, hLow⟩ := Segment.singleton_iff.mp hSecond
    refine ⟨(), by omega, high, hHigh, low, hLow, ?_, by omega⟩
    apply UInt16.toNat_inj.mp
    rw [toNat_shiftIn16, hValue]

theorem readUint32_eq_ok_iff {result : UInt32} :
    readUint32 input offset = .ok (result, stop) ↔
      Segment input offset (encode 4 result.toNat) stop := by
  rw [← exists_segment_value_iff result.toNat_lt]
  simp only [readUint32, bind_eq_ok_iff, pure_eq_ok_iff, Prod.mk.injEq]
  constructor
  · rintro ⟨_, hRequire, value, hFold, rfl, rfl⟩
    obtain ⟨part, hLength, hSegment⟩ := segment_of_requireBytes hRequire
    rw [← hLength, foldlM_byteAt _ _ hSegment] at hFold
    refine ⟨part, hLength, hSegment, ?_⟩
    rw [← Except.ok.inj hFold, toNat_shiftIn32 part hLength.le]
  · rintro ⟨part, hLength, hSegment, hValue⟩
    refine ⟨(), hLength ▸ requireBytes_of_segment hSegment, result, ?_, rfl, ?_⟩
    · rw [← hLength, foldlM_byteAt _ _ hSegment]
      congr 1
      apply UInt32.toNat_inj.mp
      rw [toNat_shiftIn32 part hLength.le, hValue]
    · rw [hSegment.stop_eq, hLength]

theorem readUint64_eq_ok_iff {result : UInt64} :
    readUint64 input offset = .ok (result, stop) ↔
      Segment input offset (encode 8 result.toNat) stop := by
  rw [← exists_segment_value_iff result.toNat_lt]
  simp only [readUint64, bind_eq_ok_iff, pure_eq_ok_iff, Prod.mk.injEq]
  constructor
  · rintro ⟨_, hRequire, value, hFold, rfl, rfl⟩
    obtain ⟨part, hLength, hSegment⟩ := segment_of_requireBytes hRequire
    rw [← hLength, foldlM_byteAt _ _ hSegment] at hFold
    refine ⟨part, hLength, hSegment, ?_⟩
    rw [← Except.ok.inj hFold, toNat_shiftIn64 part hLength.le]
  · rintro ⟨part, hLength, hSegment, hValue⟩
    refine ⟨(), hLength ▸ requireBytes_of_segment hSegment, result, ?_, rfl, ?_⟩
    · rw [← hLength, foldlM_byteAt _ _ hSegment]
      congr 1
      apply UInt64.toNat_inj.mp
      rw [toNat_shiftIn64 part hLength.le, hValue]
    · rw [hSegment.stop_eq, hLength]

theorem readString_eq_ok_iff {length : UInt32} {result : Bytes} :
    readString input offset length = .ok (result, stop) ↔
      result.length = length.toNat ∧ Segment input offset result stop := by
  simp only [readString, bind_eq_ok_iff, pure_eq_ok_iff, Prod.mk.injEq]
  constructor
  · rintro ⟨_, hRequire, rfl, rfl⟩
    have hLe := requireBytes_eq_ok_iff.mp hRequire
    refine ⟨?_, Segment.of_le hLe⟩
    simp only [List.length_take, List.length_drop]
    omega
  · rintro ⟨hLength, hSegment⟩
    refine ⟨(), hLength ▸ requireBytes_of_segment hSegment, ?_, ?_⟩
    · rw [← hLength, hSegment.take_drop_eq]
    · rw [hSegment.stop_eq, hLength]

end LogBridge.Protocol
