import LogBridge.Protocol.Fields

/-! Log records. A record is accepted by the decoder exactly when it is the
encoder's output for a message within the field limits, both for one record and
for the consecutive records of a batch. -/
namespace LogBridge.Protocol

open Checked BigEndian

/-- The field limits that the encoder and the decoder both enforce. -/
structure WithinLimits (message : LogMessage) : Prop where
  id_ne_zero : message.id ≠ 0
  clientId_ne_nil : message.clientId ≠ []
  clientId_length_le : message.clientId.length ≤ maxClientIdLength
  source_length_le : message.source.length ≤ maxSourceLength
  content_length_le : message.content.length ≤ maxContentLength

theorem logRecordSize_eq_ok_iff {message : LogMessage} {size : Nat} :
    logRecordSize message = .ok size ↔
      WithinLimits message ∧ size = (logRecordBytes message).length := by
  simp only [logRecordSize, throwIf_bind_eq_ok_iff, pure_eq_ok_iff, logRecordBytes_length, not_or,
    Nat.not_lt]
  constructor
  · rintro ⟨hId, ⟨hNonempty, hClient⟩, hSource, hContent, rfl⟩
    exact ⟨⟨hId, hNonempty, hClient, hSource, hContent⟩, rfl⟩
  · rintro ⟨⟨hId, hNonempty, hClient, hSource, hContent⟩, rfl⟩
    exact ⟨hId, ⟨hNonempty, hClient⟩, hSource, hContent, rfl⟩

/-- A length within a limit below `2 ^ 32` survives the cast of the encoder. -/
theorem toNat_ofNat_length {text : Bytes} {limit : Nat} (h : text.length ≤ limit)
    (hLimit : limit < 2 ^ 32) : (UInt32.ofNat text.length).toNat = text.length := by
  rw [UInt32.toNat_ofNat']
  exact Nat.mod_eq_of_lt (by omega)

theorem WithinLimits.clientId_length_toNat {message : LogMessage} (h : WithinLimits message) :
    (UInt32.ofNat message.clientId.length).toNat = message.clientId.length :=
  toNat_ofNat_length h.clientId_length_le (by decide)

theorem WithinLimits.source_length_toNat {message : LogMessage} (h : WithinLimits message) :
    (UInt32.ofNat message.source.length).toNat = message.source.length :=
  toNat_ofNat_length h.source_length_le (by decide)

theorem WithinLimits.content_length_toNat {message : LogMessage} (h : WithinLimits message) :
    (UInt32.ofNat message.content.length).toNat = message.content.length :=
  toNat_ofNat_length h.content_length_le (by decide)

theorem WithinLimits.logRecordBytes_length_le {message : LogMessage} (h : WithinLimits message) :
    (logRecordBytes message).length ≤ maxFramePayloadLength - batchPrefixSize := by
  have hClient := h.clientId_length_le
  have hSource := h.source_length_le
  have hContent := h.content_length_le
  rw [logRecordBytes_length]
  simp only [logRecordFixedSize, maxClientIdLength, maxSourceLength, maxContentLength,
    maxFramePayloadLength, batchPrefixSize] at *
  omega

theorem logRecordBytes_length_pos (message : LogMessage) : 0 < (logRecordBytes message).length := by
  rw [logRecordBytes_length, logRecordFixedSize]
  omega

theorem readLogRecord_eq_ok_iff {input : Bytes} {offset stop : Nat} {message : LogMessage} :
    readLogRecord input offset = .ok (message, stop) ↔
      WithinLimits message ∧ Segment input offset (logRecordBytes message) stop := by
  simp only [logRecordBytes, Segment.append_iff]
  constructor
  · intro h
    obtain ⟨⟨id, o₁⟩, hId, h⟩ := bind_eq_ok_iff.mp h
    obtain ⟨⟨timestamp, o₂⟩, hTimestamp, h⟩ := bind_eq_ok_iff.mp h
    obtain ⟨⟨clientIdLength, o₃⟩, hClientLength, h⟩ := bind_eq_ok_iff.mp h
    obtain ⟨⟨sourceLength, o₄⟩, hSourceLength, h⟩ := bind_eq_ok_iff.mp h
    obtain ⟨⟨contentLength, o₅⟩, hContentLength, h⟩ := bind_eq_ok_iff.mp h
    obtain ⟨hZero, h⟩ := throwIf_bind_eq_ok_iff.mp h
    obtain ⟨hClientLimit, h⟩ := throwIf_bind_eq_ok_iff.mp h
    obtain ⟨hSourceLimit, h⟩ := throwIf_bind_eq_ok_iff.mp h
    obtain ⟨hContentLimit, h⟩ := throwIf_bind_eq_ok_iff.mp h
    obtain ⟨⟨clientId, o₆⟩, hClient, h⟩ := bind_eq_ok_iff.mp h
    obtain ⟨⟨source, o₇⟩, hSource, h⟩ := bind_eq_ok_iff.mp h
    obtain ⟨⟨content, o₈⟩, hContent, h⟩ := bind_eq_ok_iff.mp h
    cases pure_eq_ok_iff.mp h
    rw [readUint64_eq_ok_iff] at hId hTimestamp
    rw [readUint32_eq_ok_iff] at hClientLength hSourceLength hContentLength
    rw [readString_eq_ok_iff] at hClient hSource hContent
    have hLimits : WithinLimits { id, clientId, timestampMs := .ofUInt64 timestamp, source, content } := by
      refine ⟨hZero, ?_, by dsimp only; omega, by dsimp only; omega, by dsimp only; omega⟩
      rintro rfl
      apply hClientLimit
      exact Or.inl (UInt32.toNat_inj.mp hClient.1.symm)
    refine ⟨hLimits, o₁, hId, o₂, hTimestamp, o₃, ?_, o₄, ?_, o₅, ?_, o₆, hClient.2, o₇, hSource.2,
      hContent.2⟩
    · rwa [hLimits.clientId_length_toNat, hClient.1]
    · rwa [hLimits.source_length_toNat, hSource.1]
    · rwa [hLimits.content_length_toNat, hContent.1]
  · rintro ⟨hLimits, o₁, hId, o₂, hTimestamp, o₃, hClientLength, o₄, hSourceLength, o₅,
      hContentLength, o₆, hClient, o₇, hSource, hContent⟩
    have hClientLe := hLimits.clientId_length_le
    have hSourceLe := hLimits.source_length_le
    have hContentLe := hLimits.content_length_le
    have hClientToNat := hLimits.clientId_length_toNat
    refine bind_eq_ok_iff.mpr ⟨_, readUint64_eq_ok_iff.mpr hId, ?_⟩
    refine bind_eq_ok_iff.mpr ⟨_, readUint64_eq_ok_iff.mpr hTimestamp, ?_⟩
    refine bind_eq_ok_iff.mpr ⟨_, readUint32_eq_ok_iff.mpr hClientLength, ?_⟩
    refine bind_eq_ok_iff.mpr ⟨_, readUint32_eq_ok_iff.mpr hSourceLength, ?_⟩
    refine bind_eq_ok_iff.mpr ⟨_, readUint32_eq_ok_iff.mpr hContentLength, ?_⟩
    refine throwIf_bind_eq_ok_iff.mpr ⟨hLimits.id_ne_zero, ?_⟩
    refine throwIf_bind_eq_ok_iff.mpr ⟨?_, ?_⟩
    · rw [hClientToNat, not_or, Nat.not_lt]
      refine ⟨fun hZero => hLimits.clientId_ne_nil (List.length_eq_zero_iff.mp ?_), hClientLe⟩
      rw [← hClientToNat, hZero]
      rfl
    refine throwIf_bind_eq_ok_iff.mpr ⟨by rw [hLimits.source_length_toNat]; omega, ?_⟩
    refine throwIf_bind_eq_ok_iff.mpr ⟨by rw [hLimits.content_length_toNat]; omega, ?_⟩
    refine bind_eq_ok_iff.mpr ⟨_, readString_eq_ok_iff.mpr ⟨hClientToNat.symm, hClient⟩, ?_⟩
    refine bind_eq_ok_iff.mpr
      ⟨_, readString_eq_ok_iff.mpr ⟨hLimits.source_length_toNat.symm, hSource⟩, ?_⟩
    exact bind_eq_ok_iff.mpr
      ⟨_, readString_eq_ok_iff.mpr ⟨hLimits.content_length_toNat.symm, hContent⟩, rfl⟩

/-! Consecutive records. -/

theorem readLogRecords_eq_ok_iff {input : Bytes} {count offset stop : Nat}
    {messages : List LogMessage} (hOffset : offset ≤ input.length) :
    readLogRecords input count offset = .ok (messages, stop) ↔
      messages.length = count ∧ (∀ message ∈ messages, WithinLimits message) ∧
        Segment input offset (messages.map logRecordBytes).flatten stop := by
  induction count generalizing offset messages with
  | zero =>
      simp only [readLogRecords, pure_eq_ok_iff, Prod.mk.injEq, List.length_eq_zero_iff]
      constructor
      · rintro ⟨rfl, rfl⟩
        simp [Segment.nil_iff, hOffset]
      · rintro ⟨rfl, _, hSegment⟩
        exact ⟨rfl, (Segment.nil_iff.mp hSegment).1.symm⟩
  | succ count ih =>
      constructor
      · intro h
        obtain ⟨⟨message, middle⟩, hRecord, h⟩ := bind_eq_ok_iff.mp h
        obtain ⟨⟨rest, last⟩, hRest, h⟩ := bind_eq_ok_iff.mp h
        cases pure_eq_ok_iff.mp h
        obtain ⟨hLimits, hSegment⟩ := readLogRecord_eq_ok_iff.mp hRecord
        obtain ⟨hLength, hAll, hSegments⟩ := (ih hSegment.stop_le).mp hRest
        refine ⟨by simp [hLength], by simpa using ⟨hLimits, hAll⟩, ?_⟩
        rw [List.map_cons, List.flatten_cons]
        exact Segment.append_iff.mpr ⟨middle, hSegment, hSegments⟩
      · rintro ⟨hLength, hAll, hSegments⟩
        obtain ⟨message, rest, rfl⟩ := List.exists_cons_of_length_eq_add_one hLength
        rw [List.map_cons, List.flatten_cons] at hSegments
        obtain ⟨middle, hSegment, hSegments⟩ := Segment.append_iff.mp hSegments
        rw [List.forall_mem_cons] at hAll
        refine bind_eq_ok_iff.mpr ⟨_, readLogRecord_eq_ok_iff.mpr ⟨hAll.1, hSegment⟩, ?_⟩
        exact bind_eq_ok_iff.mpr ⟨_, (ih hSegment.stop_le).mpr
          ⟨by simpa using hLength, hAll.2, hSegments⟩, rfl⟩

/-- Ids in strictly increasing order. -/
abbrev IdsIncreasing (messages : List LogMessage) : Prop :=
  messages.Pairwise fun first second => first.id < second.id

theorem IdsIncreasing.toNat {messages : List LogMessage} (h : IdsIncreasing messages) :
    messages.Pairwise fun first second => first.id.toNat < second.id.toNat :=
  h.imp fun hLt => UInt64.lt_iff_toNat_lt.mp hLt

theorem checkLogBatchOrder_eq_ok_iff {front previous : LogMessage} {rest : List LogMessage}
    {result : Unit} :
    checkLogBatchOrder front previous rest = .ok result ↔
      (∀ message ∈ rest, message.clientId = front.clientId) ∧ IdsIncreasing (previous :: rest) := by
  induction rest generalizing previous with
  | nil => simp [checkLogBatchOrder, pure_eq_ok_iff]
  | cons message rest ih =>
      simp only [checkLogBatchOrder, throwIf_bind_eq_ok_iff, ih, not_not, UInt64.not_le]
      constructor
      · rintro ⟨hClient, hLt, hClients, hIds⟩
        refine ⟨List.forall_mem_cons.mpr ⟨hClient, hClients⟩, List.pairwise_cons.mpr ⟨?_, hIds⟩⟩
        intro other hMem
        rcases List.mem_cons.mp hMem with rfl | hMem
        · exact hLt
        · exact UInt64.lt_trans hLt ((List.pairwise_cons.mp hIds).1 other hMem)
      · rintro ⟨hClients, hIds⟩
        obtain ⟨hFirst, hIds⟩ := List.pairwise_cons.mp hIds
        rw [List.forall_mem_cons] at hClients
        exact ⟨hClients.1, hFirst message (by simp), hClients.2, hIds⟩

/-- The validation loop accepts the messages of one client in increasing order
while the payload stays within the frame limit. -/
theorem logBatchPayloadSize_eq_ok_iff {clientId : Bytes} {messages : List LogMessage}
    {previousId : UInt64} {payloadSize total : Nat} (hSize : payloadSize ≤ maxFramePayloadLength) :
    logBatchPayloadSize clientId messages previousId payloadSize = .ok total ↔
      (∀ message ∈ messages,
        message.clientId = clientId ∧ previousId < message.id ∧ WithinLimits message) ∧
      IdsIncreasing messages ∧ total ≤ maxFramePayloadLength ∧
      total = payloadSize + (messages.map logRecordBytes).flatten.length := by
  induction messages generalizing previousId payloadSize with
  | nil =>
      simp only [logBatchPayloadSize, pure_eq_ok_iff]
      constructor
      · rintro rfl
        simp [hSize]
      · rintro ⟨_, _, _, rfl⟩
        rfl
  | cons message rest ih =>
      simp only [logBatchPayloadSize, bind_eq_ok_iff, throwIf_eq_ok_iff, exists_const,
        logRecordSize_eq_ok_iff, not_not, UInt64.not_le, Nat.not_lt]
      rw [sizeSub_eq hSize (by decide)]
      constructor
      · rintro ⟨hClient, hLt, _, ⟨hLimits, rfl⟩, hFits, hRest⟩
        obtain ⟨hAll, hIds, hTotal, rfl⟩ := (ih (by omega)).mp hRest
        refine ⟨List.forall_mem_cons.mpr ⟨⟨hClient, hLt, hLimits⟩, ?_⟩,
          List.pairwise_cons.mpr ⟨fun other hMem => (hAll other hMem).2.1, hIds⟩, hTotal, ?_⟩
        · intro other hMem
          obtain ⟨hOther, hAfter, hWithin⟩ := hAll other hMem
          exact ⟨hOther, UInt64.lt_trans hLt hAfter, hWithin⟩
        · simp [Nat.add_assoc]
      · rintro ⟨hAll, hIds, hTotal, hSum⟩
        obtain ⟨⟨hClient, hLt, hLimits⟩, hAll⟩ := List.forall_mem_cons.mp hAll
        obtain ⟨hFirst, hIds⟩ := List.pairwise_cons.mp hIds
        simp only [List.map_cons, List.flatten_cons, List.length_append] at hSum
        refine ⟨hClient, hLt, _, ⟨hLimits, rfl⟩, by omega, ?_⟩
        refine (ih (by omega)).mpr ⟨?_, hIds, by omega, by omega⟩
        intro other hMem
        exact ⟨(hAll other hMem).1, hFirst other hMem, (hAll other hMem).2.2⟩

end LogBridge.Protocol
