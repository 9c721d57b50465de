import LogBridge.Protocol.Records

/-! Whole frames. Each deserializer accepts a frame exactly when the matching
serializer produces it from the result, so decoding undoes encoding and only
canonical frames are accepted. -/
namespace LogBridge.Protocol

open Checked BigEndian

variable {frame : Bytes}

theorem parseMessageType_eq_ok_iff {rawType : UInt8} {type : MessageType} :
    parseMessageType rawType = .ok type ↔ rawType = type.toUInt8 := by
  constructor
  · intro h
    unfold parseMessageType at h
    split_ifs at h with hLog hAck hBatch
    · cases pure_eq_ok_iff.mp h
      exact hLog
    · cases pure_eq_ok_iff.mp h
      exact hAck
    · cases pure_eq_ok_iff.mp h
      exact hBatch
  · rintro rfl
    cases type <;> rfl

/-- A header is accepted when its twelve bytes stand at the start of the input
and its fields pass the checks. -/
theorem parseFrameHeader_eq_ok_iff {input : Bytes} {header : FrameHeader} :
    parseFrameHeader input = .ok header ↔
      header.version = version ∧ header.payloadLength.toNat ≤ maxFramePayloadLength ∧
        Segment input 0 (frameHeaderBytes header.type header.payloadLength) frameHeaderSize := by
  simp only [frameHeaderBytes, Segment.append_iff]
  constructor
  · intro h
    obtain ⟨_, hRequire, h⟩ := bind_eq_ok_iff.mp h
    obtain ⟨⟨magicField, o₁⟩, hMagic, h⟩ := bind_eq_ok_iff.mp h
    obtain ⟨⟨versionField, o₂⟩, hVersion, h⟩ := bind_eq_ok_iff.mp h
    obtain ⟨⟨rawType, o₃⟩, hType, h⟩ := bind_eq_ok_iff.mp h
    obtain ⟨⟨reserved, o₄⟩, hReserved, h⟩ := bind_eq_ok_iff.mp h
    obtain ⟨⟨payloadLength, o₅⟩, hPayload, h⟩ := bind_eq_ok_iff.mp h
    obtain ⟨hMagicEq, h⟩ := throwIf_bind_eq_ok_iff.mp h
    obtain ⟨hVersionEq, h⟩ := throwIf_bind_eq_ok_iff.mp h
    obtain ⟨hReservedEq, h⟩ := throwIf_bind_eq_ok_iff.mp h
    obtain ⟨hLimit, h⟩ := throwIf_bind_eq_ok_iff.mp h
    obtain ⟨type, hParse, h⟩ := bind_eq_ok_iff.mp h
    cases pure_eq_ok_iff.mp h
    rw [not_not] at hMagicEq hVersionEq hReservedEq
    subst hMagicEq hVersionEq hReservedEq
    rw [readUint32_eq_ok_iff] at hMagic hPayload
    rw [readUint8_eq_ok_iff] at hVersion hType
    rw [readUint16_eq_ok_iff] at hReserved
    rw [parseMessageType_eq_ok_iff.mp hParse] at hType
    refine ⟨rfl, by dsimp only; omega, o₁, hMagic, o₂, hVersion, o₃, hType, o₄, hReserved, ?_⟩
    have hStop : o₅ = frameHeaderSize := by
      have h₁ := hMagic.stop_eq
      have h₂ := hVersion.stop_eq
      have h₃ := hType.stop_eq
      have h₄ := hReserved.stop_eq
      have h₅ := hPayload.stop_eq
      simp only [encode_length, List.length_singleton] at h₁ h₂ h₃ h₄ h₅
      simp only [frameHeaderSize]
      omega
    rwa [← hStop]
  · rintro ⟨hVersionEq, hLimit, o₁, hMagic, o₂, hVersion, o₃, hType, o₄, hReserved, hPayload⟩
    obtain ⟨headerVersion, type, payloadLength⟩ := header
    dsimp only at hVersionEq hLimit hType hPayload
    subst hVersionEq
    refine bind_eq_ok_iff.mpr ⟨(), requireBytes_eq_ok_iff.mpr (by simpa using hPayload.stop_le), ?_⟩
    refine bind_eq_ok_iff.mpr ⟨_, readUint32_eq_ok_iff.mpr hMagic, ?_⟩
    refine bind_eq_ok_iff.mpr ⟨_, readUint8_eq_ok_iff.mpr hVersion, ?_⟩
    refine bind_eq_ok_iff.mpr ⟨_, readUint8_eq_ok_iff.mpr hType, ?_⟩
    have hReserved : readUint16 input o₃ = .ok (0, o₄) := readUint16_eq_ok_iff.mpr hReserved
    refine bind_eq_ok_iff.mpr ⟨_, hReserved, ?_⟩
    refine bind_eq_ok_iff.mpr ⟨_, readUint32_eq_ok_iff.mpr hPayload, ?_⟩
    refine throwIf_bind_eq_ok_iff.mpr ⟨not_not.mpr rfl, ?_⟩
    refine throwIf_bind_eq_ok_iff.mpr ⟨not_not.mpr rfl, ?_⟩
    refine throwIf_bind_eq_ok_iff.mpr ⟨not_not.mpr rfl, ?_⟩
    refine throwIf_bind_eq_ok_iff.mpr ⟨Nat.not_lt.mpr hLimit, ?_⟩
    exact bind_eq_ok_iff.mpr ⟨type, parseMessageType_eq_ok_iff.mpr rfl, rfl⟩

/-- The header of a frame that starts with header bytes. -/
theorem parseFrameHeader_append {type : MessageType} {payloadLength : UInt32}
    (hLimit : payloadLength.toNat ≤ maxFramePayloadLength) (rest : Bytes) :
    parseFrameHeader (frameHeaderBytes type payloadLength ++ rest) =
      .ok { version, type, payloadLength } := by
  refine parseFrameHeader_eq_ok_iff.mpr ⟨rfl, hLimit, [], rest, rfl, rfl, ?_⟩
  rw [frameHeaderBytes_length, Nat.zero_add]

theorem requireFrameSize_eq_ok_iff {header : FrameHeader} {result : Unit} :
    requireFrameSize frame header = .ok result ↔
      frame.length = frameHeaderSize + header.payloadLength.toNat := by
  rw [requireFrameSize, throwIf_eq_ok_iff, not_not]

/-- A frame of type `type` whose payload is `payload`. -/
def frameBytes (type : MessageType) (payload : Bytes) : Bytes :=
  frameHeaderBytes type (.ofNat payload.length) ++ payload

theorem toNat_payloadLength {payload : Bytes} (h : payload.length ≤ maxFramePayloadLength) :
    (UInt32.ofNat payload.length).toNat = payload.length :=
  toNat_ofNat_length h (by decide)

theorem frameBytes_length (type : MessageType) (payload : Bytes) :
    (frameBytes type payload).length = frameHeaderSize + payload.length := by
  simp [frameBytes]

/-- What the three deserializers check before they read the payload: the frame
is a header of the expected type followed by a payload of the declared length. -/
theorem header_checks_iff (type : MessageType) (error : Exception) :
    (∃ header, parseFrameHeader frame = .ok header ∧
        throwIf (header.type ≠ type) error = .ok () ∧ requireFrameSize frame header = .ok ()) ↔
      ∃ payload, payload.length ≤ maxFramePayloadLength ∧ frame = frameBytes type payload := by
  simp only [throwIf_eq_ok_iff, requireFrameSize_eq_ok_iff, parseFrameHeader_eq_ok_iff, not_not]
  constructor
  · rintro ⟨header, ⟨_, hLimit, hSegment⟩, rfl, hLength⟩
    have hFrame : frame = _ := hSegment.drop_eq
    have hPayload : (frame.drop frameHeaderSize).length = header.payloadLength.toNat := by
      rw [List.length_drop]
      omega
    refine ⟨frame.drop frameHeaderSize, hPayload.trans_le hLimit, ?_⟩
    rwa [frameBytes, hPayload, UInt32.ofNat_toNat]
  · rintro ⟨payload, hLimit, rfl⟩
    refine ⟨⟨version, type, .ofNat payload.length⟩, ⟨rfl, ?_, ?_⟩, rfl, ?_⟩
    · rwa [toNat_payloadLength hLimit]
    · exact ⟨[], payload, rfl, rfl, by rw [frameHeaderBytes_length, Nat.zero_add]⟩
    · rw [frameBytes_length, toNat_payloadLength hLimit]

/-- The payload of a frame is the segment after its header. -/
theorem segment_payload (type : MessageType) (payload : Bytes) :
    Segment (frameBytes type payload) frameHeaderSize payload (frameBytes type payload).length := by
  refine ⟨frameHeaderBytes type (.ofNat payload.length), [], by simp [frameBytes], by simp, ?_⟩
  exact frameBytes_length type payload

theorem eq_payload_of_segment {type : MessageType} {payload part : Bytes} {stop : Nat}
    (h : Segment (frameBytes type payload) frameHeaderSize part stop)
    (hStop : stop = (frameBytes type payload).length) : part = payload :=
  (hStop ▸ h).unique (segment_payload type payload)

/-! Single messages. -/

theorem serializeLogMessage_eq_ok_iff {message : LogMessage} :
    serializeLogMessage message = .ok frame ↔
      WithinLimits message ∧ frame = frameBytes .log (logRecordBytes message) := by
  simp only [serializeLogMessage, bind_eq_ok_iff, logRecordSize_eq_ok_iff, pure_eq_ok_iff,
    appendLogRecord_eq, appendFrameHeader_eq, List.nil_append, frameBytes]
  constructor
  · rintro ⟨_, ⟨hLimits, rfl⟩, rfl⟩
    exact ⟨hLimits, rfl⟩
  · rintro ⟨hLimits, rfl⟩
    exact ⟨_, ⟨hLimits, rfl⟩, rfl⟩

theorem deserializeLogMessage_eq_ok_iff {message : LogMessage} :
    deserializeLogMessage frame = .ok message ↔ serializeLogMessage message = .ok frame := by
  rw [serializeLogMessage_eq_ok_iff]
  constructor
  · intro h
    obtain ⟨header, hHeader, h⟩ := bind_eq_ok_iff.mp h
    obtain ⟨_, hType, h⟩ := bind_eq_ok_iff.mp h
    obtain ⟨_, hSize, h⟩ := bind_eq_ok_iff.mp h
    obtain ⟨payload, hLimit, rfl⟩ := (header_checks_iff _ _).mp ⟨header, hHeader, hType, hSize⟩
    obtain ⟨⟨value, stop⟩, hRecord, h⟩ := bind_eq_ok_iff.mp h
    obtain ⟨hStop, h⟩ := throwIf_bind_eq_ok_iff.mp h
    cases pure_eq_ok_iff.mp h
    obtain ⟨hLimits, hSegment⟩ := readLogRecord_eq_ok_iff.mp hRecord
    rw [eq_payload_of_segment hSegment (not_not.mp hStop)]
    exact ⟨hLimits, rfl⟩
  · rintro ⟨hLimits, rfl⟩
    have hLimit := hLimits.logRecordBytes_length_le.trans (Nat.sub_le _ _)
    obtain ⟨header, hHeader, hType, hSize⟩ := (header_checks_iff .log
      (.protocolError "frame is not a log message")).mpr ⟨_, hLimit, rfl⟩
    refine bind_eq_ok_iff.mpr ⟨header, hHeader, bind_eq_ok_iff.mpr ⟨(), hType, ?_⟩⟩
    refine bind_eq_ok_iff.mpr ⟨(), hSize, ?_⟩
    refine bind_eq_ok_iff.mpr ⟨_, readLogRecord_eq_ok_iff.mpr ⟨hLimits, segment_payload _ _⟩, ?_⟩
    exact throwIf_bind_eq_ok_iff.mpr ⟨not_not.mpr rfl, rfl⟩

/-! Batches. -/

/-- The payload of a batch: the message count and the records. -/
def logBatchPayload (messages : List LogMessage) : Bytes :=
  encode 4 (UInt32.ofNat messages.length).toNat ++ (messages.map logRecordBytes).flatten

theorem logBatchPayload_length (messages : List LogMessage) :
    (logBatchPayload messages).length =
      batchPrefixSize + (messages.map logRecordBytes).flatten.length := by
  rw [logBatchPayload, List.length_append, encode_length, batchPrefixSize]

/-- A batch that one client may send in one frame. -/
structure BatchWithinLimits (messages : List LogMessage) : Prop where
  ne_nil : messages ≠ []
  length_le : messages.length ≤ maxBatchMessageCount
  within : ∀ message ∈ messages, WithinLimits message
  sameClient : ∀ first ∈ messages, ∀ second ∈ messages, first.clientId = second.clientId
  idsIncreasing : IdsIncreasing messages
  payload_le : (logBatchPayload messages).length ≤ maxFramePayloadLength

theorem sameClient_cons_iff {front : LogMessage} {rest : List LogMessage} :
    (∀ first ∈ front :: rest, ∀ second ∈ front :: rest, first.clientId = second.clientId) ↔
      ∀ message ∈ rest, message.clientId = front.clientId := by
  constructor
  · intro h message hMem
    exact h message (List.mem_cons_of_mem _ hMem) front (List.mem_cons_self ..)
  · intro h
    have hFront : ∀ message ∈ front :: rest, message.clientId = front.clientId :=
      List.forall_mem_cons.mpr ⟨rfl, h⟩
    intro first hFirst second hSecond
    exact (hFront first hFirst).trans (hFront second hSecond).symm

theorem serializeLogBatch_eq_ok_iff {messages : List LogMessage} :
    serializeLogBatch messages = .ok frame ↔
      BatchWithinLimits messages ∧ frame = frameBytes .logBatch (logBatchPayload messages) := by
  cases messages with
  | nil =>
      constructor
      · intro h
        cases h
      · rintro ⟨hBatch, _⟩
        exact absurd rfl hBatch.ne_nil
  | cons front rest =>
      have hPrefix : batchPrefixSize ≤ maxFramePayloadLength := by decide
      simp only [serializeLogBatch, bind_eq_ok_iff, throwIf_eq_ok_iff, exists_const, Nat.not_lt,
        logBatchPayloadSize_eq_ok_iff hPrefix, pure_eq_ok_iff, foldl_appendLogRecord,
        appendUint32_eq, appendFrameHeader_eq, List.nil_append]
      rw [← logBatchPayload_length]
      constructor
      · rintro ⟨hLength, _, ⟨hAll, hIds, hTotal, rfl⟩, rfl⟩
        refine ⟨⟨by simp, hLength, fun message hMem => (hAll message hMem).2.2, ?_, hIds, hTotal⟩, ?_⟩
        · exact sameClient_cons_iff.mpr fun message hMem =>
            (hAll message (List.mem_cons_of_mem _ hMem)).1
        · simp [frameBytes, logBatchPayload]
      · rintro ⟨hBatch, rfl⟩
        refine ⟨hBatch.length_le, _, ⟨?_, hBatch.idsIncreasing, hBatch.payload_le, rfl⟩, ?_⟩
        · intro message hMem
          refine ⟨hBatch.sameClient message hMem front (List.mem_cons_self ..), ?_,
            hBatch.within message hMem⟩
          exact UInt64.pos_iff_ne_zero.mpr (hBatch.within message hMem).id_ne_zero
        · simp [frameBytes, logBatchPayload]

/-- The count field of a batch survives the cast of the encoder. -/
theorem toNat_messageCount {messages : List LogMessage}
    (h : messages.length ≤ maxBatchMessageCount) :
    (UInt32.ofNat messages.length).toNat = messages.length := by
  rw [UInt32.toNat_ofNat']
  simp only [maxBatchMessageCount] at h
  exact Nat.mod_eq_of_lt (by omega)

theorem deserializeLogBatch_eq_ok_iff {messages : List LogMessage} :
    deserializeLogBatch frame = .ok messages ↔ serializeLogBatch messages = .ok frame := by
  rw [serializeLogBatch_eq_ok_iff]
  constructor
  · intro h
    obtain ⟨header, hHeader, h⟩ := bind_eq_ok_iff.mp h
    obtain ⟨_, hType, h⟩ := bind_eq_ok_iff.mp h
    obtain ⟨_, hSize, h⟩ := bind_eq_ok_iff.mp h
    obtain ⟨payload, hLimit, rfl⟩ := (header_checks_iff _ _).mp ⟨header, hHeader, hType, hSize⟩
    obtain ⟨⟨messageCount, middle⟩, hCount, h⟩ := bind_eq_ok_iff.mp h
    obtain ⟨hCountLimit, h⟩ := throwIf_bind_eq_ok_iff.mp h
    obtain ⟨⟨records, stop⟩, hRecords, h⟩ := bind_eq_ok_iff.mp h
    rw [readUint32_eq_ok_iff] at hCount
    rw [not_or, Nat.not_lt] at hCountLimit
    obtain ⟨hLength, hWithin, hSegment⟩ :=
      (readLogRecords_eq_ok_iff hCount.stop_le).mp hRecords
    have hPos : messageCount.toNat ≠ 0 := fun hZero =>
      hCountLimit.1 (UInt32.toNat_inj.mp hZero)
    have hNonempty : records ≠ [] := by
      rintro rfl
      exact hPos hLength.symm
    obtain ⟨front, rest, rfl⟩ := List.exists_cons_of_ne_nil hNonempty
    obtain ⟨_, hOrder, h⟩ := bind_eq_ok_iff.mp h
    obtain ⟨hStop, h⟩ := throwIf_bind_eq_ok_iff.mp h
    cases pure_eq_ok_iff.mp h
    obtain ⟨hClients, hIds⟩ := checkLogBatchOrder_eq_ok_iff.mp hOrder
    have hBytes : logBatchPayload (front :: rest) = payload := by
      rw [logBatchPayload, hLength, UInt32.ofNat_toNat]
      exact eq_payload_of_segment (Segment.append_iff.mpr ⟨middle, hCount, hSegment⟩)
        (not_not.mp hStop)
    refine ⟨⟨hNonempty, hLength.trans_le hCountLimit.2, hWithin,
      sameClient_cons_iff.mpr hClients, hIds, ?_⟩, by rw [hBytes]⟩
    rwa [hBytes]
  · rintro ⟨hBatch, rfl⟩
    obtain ⟨header, hHeader, hType, hSize⟩ := (header_checks_iff .logBatch
      (.protocolError "frame is not a log batch")).mpr ⟨_, hBatch.payload_le, rfl⟩
    obtain ⟨middle, hCount, hRecords⟩ :=
      Segment.append_iff.mp (segment_payload .logBatch (logBatchPayload messages))
    have hToNat := toNat_messageCount hBatch.length_le
    obtain ⟨front, rest, rfl⟩ := List.exists_cons_of_ne_nil hBatch.ne_nil
    refine bind_eq_ok_iff.mpr ⟨header, hHeader, bind_eq_ok_iff.mpr ⟨(), hType, ?_⟩⟩
    refine bind_eq_ok_iff.mpr ⟨(), hSize, ?_⟩
    refine bind_eq_ok_iff.mpr ⟨_, readUint32_eq_ok_iff.mpr hCount, ?_⟩
    refine throwIf_bind_eq_ok_iff.mpr ⟨?_, ?_⟩
    · rw [hToNat, not_or, Nat.not_lt]
      refine ⟨fun hZero => ?_, hBatch.length_le⟩
      have hLength := congrArg UInt32.toNat hZero
      rw [hToNat] at hLength
      simp at hLength
    refine bind_eq_ok_iff.mpr ⟨_, (readLogRecords_eq_ok_iff hCount.stop_le).mpr
      ⟨hToNat.symm, hBatch.within, hRecords⟩, ?_⟩
    refine bind_eq_ok_iff.mpr ⟨(), checkLogBatchOrder_eq_ok_iff.mpr
      ⟨sameClient_cons_iff.mp hBatch.sameClient, hBatch.idsIncreasing⟩, ?_⟩
    exact throwIf_bind_eq_ok_iff.mpr ⟨not_not.mpr rfl, rfl⟩

/-! Acknowledgements. -/

theorem serializeAck_eq (confirmedId : UInt64) :
    serializeAck confirmedId = frameBytes .ack (encode 8 confirmedId.toNat) := by
  rw [serializeAck, appendUint64_eq, appendFrameHeader_eq, frameBytes, encode_length]
  rfl

theorem deserializeAck_eq_ok_iff {ack : AckMessage} :
    deserializeAck frame = .ok ack ↔ serializeAck ack.confirmedId = frame := by
  rw [serializeAck_eq]
  constructor
  · intro h
    obtain ⟨header, hHeader, h⟩ := bind_eq_ok_iff.mp h
    obtain ⟨_, hType, h⟩ := bind_eq_ok_iff.mp h
    obtain ⟨_, hSize, h⟩ := bind_eq_ok_iff.mp h
    obtain ⟨hPayloadSize, h⟩ := throwIf_bind_eq_ok_iff.mp h
    obtain ⟨⟨confirmedId, stop⟩, hRead, h⟩ := bind_eq_ok_iff.mp h
    cases pure_eq_ok_iff.mp h
    have hLength := requireFrameSize_eq_ok_iff.mp hSize
    rw [not_not.mp hPayloadSize] at hLength
    obtain ⟨payload, hLimit, rfl⟩ := (header_checks_iff _ _).mp ⟨header, hHeader, hType, hSize⟩
    rw [readUint64_eq_ok_iff] at hRead
    have hStop := hRead.stop_eq
    rw [encode_length] at hStop
    rw [eq_payload_of_segment hRead (hStop.trans hLength.symm)]
  · rintro rfl
    obtain ⟨header, hHeader, hType, hSize⟩ := (header_checks_iff .ack
      (.protocolError "frame is not an ack message")).mpr
        ⟨encode 8 ack.confirmedId.toNat, by rw [encode_length]; decide, rfl⟩
    refine bind_eq_ok_iff.mpr ⟨header, hHeader, bind_eq_ok_iff.mpr ⟨(), hType, ?_⟩⟩
    refine bind_eq_ok_iff.mpr ⟨(), hSize, ?_⟩
    refine throwIf_bind_eq_ok_iff.mpr ⟨?_, bind_eq_ok_iff.mpr
      ⟨_, readUint64_eq_ok_iff.mpr (segment_payload _ _), rfl⟩⟩
    have hLength := requireFrameSize_eq_ok_iff.mp hSize
    rw [frameBytes_length, encode_length] at hLength
    rw [not_not]
    apply UInt32.toNat_inj.mp
    change header.payloadLength.toNat = 8
    omega

theorem serializeAck_injective {first second : UInt64} (h : serializeAck first = serializeAck second) :
    first = second := by
  have hFirst : deserializeAck (serializeAck second) = .ok ⟨first⟩ := deserializeAck_eq_ok_iff.mpr h
  have hSecond : deserializeAck (serializeAck second) = .ok ⟨second⟩ := deserializeAck_eq_ok_iff.mpr rfl
  exact congrArg AckMessage.confirmedId (Except.ok.inj (hFirst.symm.trans hSecond))

end LogBridge.Protocol
