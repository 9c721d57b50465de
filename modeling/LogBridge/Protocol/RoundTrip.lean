import LogBridge.Protocol.Frames

/-! The decoders are inverse to the encoders: every value that can be encoded
is read back unchanged, and every frame that can be decoded is the encoding of
the value it decodes to. -/
namespace LogBridge.Protocol

/-- The frame starts with a header of this type that declares exactly the bytes
after the header. -/
def HasHeader (frame : Bytes) (type : MessageType) : Prop :=
  ∃ header, parseFrameHeader frame = .ok header ∧ header.type = type ∧
    frame.length = frameHeaderSize + header.payloadLength.toNat

theorem hasHeader_frameBytes (type : MessageType) {payload : Bytes}
    (h : payload.length ≤ maxFramePayloadLength) : HasHeader (frameBytes type payload) type := by
  have hToNat := toNat_payloadLength h
  refine ⟨⟨version, type, .ofNat payload.length⟩, ?_, rfl, ?_⟩
  · exact parseFrameHeader_append (by rwa [hToNat]) payload
  · rw [frameBytes_length, hToNat]

theorem hasHeader_serializeLogMessage {message : LogMessage} {frame : Bytes}
    (h : serializeLogMessage message = .ok frame) : HasHeader frame .log := by
  obtain ⟨hLimits, rfl⟩ := serializeLogMessage_eq_ok_iff.mp h
  exact hasHeader_frameBytes .log (hLimits.logRecordBytes_length_le.trans (Nat.sub_le _ _))

theorem hasHeader_serializeLogBatch {messages : List LogMessage} {frame : Bytes}
    (h : serializeLogBatch messages = .ok frame) : HasHeader frame .logBatch := by
  obtain ⟨hBatch, rfl⟩ := serializeLogBatch_eq_ok_iff.mp h
  exact hasHeader_frameBytes .logBatch hBatch.payload_le

theorem hasHeader_serializeAck (confirmedId : UInt64) :
    HasHeader (serializeAck confirmedId) .ack := by
  rw [serializeAck_eq]
  apply hasHeader_frameBytes
  rw [BigEndian.encode_length]
  decide

/-- Decoding undoes encoding for single messages, batches and acknowledgements,
over all values the encoders accept. -/
theorem decode_encode :
    (∀ message frame, serializeLogMessage message = .ok frame →
      HasHeader frame .log ∧ deserializeLogMessage frame = .ok message) ∧
    (∀ messages frame, serializeLogBatch messages = .ok frame →
      HasHeader frame .logBatch ∧ deserializeLogBatch frame = .ok messages) ∧
    (∀ confirmedId, HasHeader (serializeAck confirmedId) .ack ∧
      deserializeAck (serializeAck confirmedId) = .ok { confirmedId }) := by
  refine ⟨fun message frame h => ?_, fun messages frame h => ?_, fun confirmedId => ?_⟩
  · exact ⟨hasHeader_serializeLogMessage h, deserializeLogMessage_eq_ok_iff.mpr h⟩
  · exact ⟨hasHeader_serializeLogBatch h, deserializeLogBatch_eq_ok_iff.mpr h⟩
  · exact ⟨hasHeader_serializeAck confirmedId, deserializeAck_eq_ok_iff.mpr rfl⟩

/-- A message with a negative timestamp and an empty source. -/
def sampleMessage : LogMessage :=
  { id := 7, clientId := [99], timestampMs := -1, source := [], content := [104, 105] }

theorem decode_encode_sample :
    ∃ frame batchFrame, serializeLogMessage sampleMessage = .ok frame ∧
      serializeLogBatch [sampleMessage] = .ok batchFrame ∧
      deserializeLogMessage frame = .ok sampleMessage ∧
      deserializeLogBatch batchFrame = .ok [sampleMessage] := by
  refine ⟨_, _, rfl, rfl, ?_, ?_⟩
  · exact (decode_encode.1 sampleMessage _ rfl).2
  · exact (decode_encode.2.1 [sampleMessage] _ rfl).2

/-- The decoders accept only the encoders' own frames: the result encodes back
to the input, equal results come from equal frames, and every returned message
and batch keeps the limits of a sender. -/
theorem encode_decode :
    (∀ frame message, deserializeLogMessage frame = .ok message →
      serializeLogMessage message = .ok frame ∧ WithinLimits message) ∧
    (∀ frame messages, deserializeLogBatch frame = .ok messages →
      serializeLogBatch messages = .ok frame ∧ BatchWithinLimits messages) ∧
    (∀ frame ack, deserializeAck frame = .ok ack → serializeAck ack.confirmedId = frame) ∧
    (∀ first second message, deserializeLogMessage first = .ok message →
      deserializeLogMessage second = .ok message → first = second) ∧
    (∀ first second messages, deserializeLogBatch first = .ok messages →
      deserializeLogBatch second = .ok messages → first = second) ∧
    (∀ first second ack, deserializeAck first = .ok ack →
      deserializeAck second = .ok ack → first = second) := by
  simp only [deserializeLogMessage_eq_ok_iff, deserializeLogBatch_eq_ok_iff,
    deserializeAck_eq_ok_iff]
  refine ⟨fun frame message h => ⟨h, (serializeLogMessage_eq_ok_iff.mp h).1⟩,
    fun frame messages h => ⟨h, (serializeLogBatch_eq_ok_iff.mp h).1⟩, fun _ _ h => h, ?_, ?_, ?_⟩
  · intro first second message hFirst hSecond
    exact Except.ok.inj (hFirst.symm.trans hSecond)
  · intro first second messages hFirst hSecond
    exact Except.ok.inj (hFirst.symm.trans hSecond)
  · intro first second ack hFirst hSecond
    exact hFirst.symm.trans hSecond

theorem encode_decode_sample :
    ∃ frame, deserializeLogBatch frame = .ok [sampleMessage] ∧
      serializeLogBatch [sampleMessage] = .ok frame := by
  have hDecode := deserializeLogBatch_eq_ok_iff.mpr
    (rfl : serializeLogBatch [sampleMessage] = .ok _)
  exact ⟨_, hDecode, (encode_decode.2.1 _ _ hDecode).1⟩

end LogBridge.Protocol
