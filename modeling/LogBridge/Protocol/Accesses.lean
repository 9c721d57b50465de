import LogBridge.Library.Traced
import LogBridge.Protocol.Fields

/-! The decoders with a record of what they do to their input: each subtraction
of sizes, each byte read by index, each string copied and each new value of the
offset. Without the record they are the decoders. -/
namespace LogBridge.Protocol

open Checked Traced

/-- One use of the input by a decoder. -/
inductive Access where
  /-- The subtraction `size - offset` of the remaining size. -/
  | remaining (size offset : Nat)
  | index (position : Nat)
  | copy (start count : Nat)
  | moved (offset : Nat)
  deriving DecidableEq, Repr

/-- The subtraction does not wrap around, the indexed byte and the copied bytes
are there, and the offset does not exceed the size. -/
def Access.Inside (input : Bytes) : Access → Prop
  | .remaining size offset => size = input.length ∧ offset ≤ size
  | .index position => position < input.length
  | .copy start count => start + count ≤ input.length
  | .moved offset => offset ≤ input.length

def Access.copied : Access → Nat
  | .copy _ count => count
  | _ => 0

abbrev Recorder := Traced Access Exception

/-! The decoders. -/

namespace Recorded

/-- The second test is evaluated only where the first one fails. -/
def requireBytes (input : Bytes) (offset count : Nat) : Recorder Unit :=
  if offset > input.length then lift (throw (.protocolError "unexpected end of protocol data"))
  else do
    emit (.remaining input.length offset)
    lift (throwIf (count > input.length - offset) (.protocolError "unexpected end of protocol data"))

def byteAt (input : Bytes) (position : Nat) : Recorder UInt8 := do
  emit (.index position)
  lift (Protocol.byteAt input position)

def moveTo (offset : Nat) : Recorder Nat := do
  emit (.moved offset)
  return offset

def readUint8 (input : Bytes) (offset : Nat) : Recorder (UInt8 × Nat) := do
  requireBytes input offset 1
  let value ← byteAt input offset
  let offset ← moveTo (offset + 1)
  return (value, offset)

def readUint16 (input : Bytes) (offset : Nat) : Recorder (UInt16 × Nat) := do
  requireBytes input offset 2
  let high ← byteAt input offset
  let low ← byteAt input (offset + 1)
  let offset ← moveTo (offset + 2)
  return (high.toUInt16 <<< 8 ||| low.toUInt16, offset)

def readUint32 (input : Bytes) (offset : Nat) : Recorder (UInt32 × Nat) := do
  requireBytes input offset 4
  let value ← (List.range 4).foldlM (fun (value : UInt32) index => do
    let byte ← byteAt input (offset + index)
    return value <<< 8 ||| byte.toUInt32) 0
  let offset ← moveTo (offset + 4)
  return (value, offset)

def readUint64 (input : Bytes) (offset : Nat) : Recorder (UInt64 × Nat) := do
  requireBytes input offset 8
  let value ← (List.range 8).foldlM (fun (value : UInt64) index => do
    let byte ← byteAt input (offset + index)
    return value <<< 8 ||| byte.toUInt64) 0
  let offset ← moveTo (offset + 8)
  return (value, offset)

def readString (input : Bytes) (offset : Nat) (length : UInt32) : Recorder (Bytes × Nat) := do
  requireBytes input offset length.toNat
  emit (.copy offset length.toNat)
  let stop ← moveTo (offset + length.toNat)
  return ((input.drop offset).take length.toNat, stop)

def readLogRecord (input : Bytes) (offset : Nat) : Recorder (LogMessage × Nat) := do
  let (id, offset) ← readUint64 input offset
  let (timestamp, offset) ← readUint64 input offset
  let (clientIdLength, offset) ← readUint32 input offset
  let (sourceLength, offset) ← readUint32 input offset
  let (contentLength, offset) ← readUint32 input offset
  lift (throwIf (id = 0) (.protocolError "message id cannot be zero"))
  lift (throwIf (clientIdLength = 0 ∨ clientIdLength.toNat > maxClientIdLength)
    (.protocolError "invalid client id length"))
  lift (throwIf (sourceLength.toNat > maxSourceLength) (.protocolError "log source is too long"))
  lift (throwIf (contentLength.toNat > maxContentLength) (.protocolError "log content is too long"))
  let (clientId, offset) ← readString input offset clientIdLength
  let (source, offset) ← readString input offset sourceLength
  let (content, offset) ← readString input offset contentLength
  return ({ id, clientId, timestampMs := .ofUInt64 timestamp, source, content }, offset)

def parseFrameHeader (header : Bytes) : Recorder FrameHeader := do
  requireBytes header 0 frameHeaderSize
  let (magicField, offset) ← readUint32 header 0
  let (versionField, offset) ← readUint8 header offset
  let (rawType, offset) ← readUint8 header offset
  let (reserved, offset) ← readUint16 header offset
  let (payloadLength, _) ← readUint32 header offset
  lift (throwIf (magicField ≠ magic) (.protocolError "invalid protocol magic"))
  lift (throwIf (versionField ≠ version) (.protocolError "unsupported protocol version"))
  lift (throwIf (reserved ≠ 0) (.protocolError "reserved header bits must be zero"))
  lift (throwIf (payloadLength.toNat > maxFramePayloadLength) (.protocolError "payload is too large"))
  let type ← lift (parseMessageType rawType)
  return { version := versionField, type, payloadLength }

def deserializeLogMessage (frame : Bytes) : Recorder LogMessage := do
  let header ← parseFrameHeader frame
  lift (throwIf (header.type ≠ .log) (.protocolError "frame is not a log message"))
  lift (requireFrameSize frame header)
  let (message, offset) ← readLogRecord frame frameHeaderSize
  lift (throwIf (offset ≠ frame.length) (.protocolError "log fields do not fill the payload"))
  return message

def readLogRecords (input : Bytes) : Nat → Nat → Recorder (List LogMessage × Nat)
  | 0, offset => return ([], offset)
  | count + 1, offset => do
      let (message, offset) ← readLogRecord input offset
      let (rest, offset) ← readLogRecords input count offset
      return (message :: rest, offset)

/-- The checking loop reads the decoded messages only. -/
def checkMessages (messages : List LogMessage) : Except Exception Unit :=
  match messages with
  | [] => pure ()
  | front :: rest => checkLogBatchOrder front front rest

def deserializeLogBatch (frame : Bytes) : Recorder (List LogMessage) := do
  let header ← parseFrameHeader frame
  lift (throwIf (header.type ≠ .logBatch) (.protocolError "frame is not a log batch"))
  lift (requireFrameSize frame header)
  let (messageCount, offset) ← readUint32 frame frameHeaderSize
  lift (throwIf (messageCount = 0 ∨ messageCount.toNat > maxBatchMessageCount)
    (.protocolError "invalid log batch message count"))
  let (messages, offset) ← readLogRecords frame messageCount.toNat offset
  lift (checkMessages messages)
  lift (throwIf (offset ≠ frame.length) (.protocolError "log batch fields do not fill the payload"))
  return messages

def deserializeAck (frame : Bytes) : Recorder AckMessage := do
  let header ← parseFrameHeader frame
  lift (throwIf (header.type ≠ .ack) (.protocolError "frame is not an ack message"))
  lift (requireFrameSize frame header)
  lift (throwIf (header.payloadLength ≠ ackPayloadSize) (.protocolError "invalid ack payload length"))
  let (confirmedId, _) ← readUint64 frame frameHeaderSize
  return { confirmedId }

/-! Without the record. -/

variable (input : Bytes) (offset : Nat)

@[simp] theorem result_requireBytes (count : Nat) :
    (requireBytes input offset count).result = Protocol.requireBytes input offset count := by
  rw [requireBytes, Protocol.requireBytes]
  by_cases hOffset : offset > input.length
  · rw [if_pos hOffset, throwIf_of (Or.inl hOffset)]
    rfl
  · rw [if_neg hOffset]
    simp only [hOffset, false_or]
    rfl

@[simp] theorem result_byteAt : (byteAt input offset).result = Protocol.byteAt input offset := rfl

@[simp] theorem result_moveTo : (moveTo offset).result = .ok offset := rfl

@[simp] theorem result_readUint8 :
    (readUint8 input offset).result = Protocol.readUint8 input offset := by
  simp only [readUint8, Protocol.readUint8, result_bind, result_requireBytes, result_byteAt,
    result_moveTo, result_pure]
  rfl

@[simp] theorem result_readUint16 :
    (readUint16 input offset).result = Protocol.readUint16 input offset := by
  simp only [readUint16, Protocol.readUint16, result_bind, result_requireBytes, result_byteAt,
    result_moveTo, result_pure]
  rfl

@[simp] theorem result_readUint32 :
    (readUint32 input offset).result = Protocol.readUint32 input offset := by
  simp only [readUint32, Protocol.readUint32, result_bind, result_requireBytes, result_foldlM,
    result_byteAt, result_moveTo, result_pure]
  rfl

@[simp] theorem result_readUint64 :
    (readUint64 input offset).result = Protocol.readUint64 input offset := by
  simp only [readUint64, Protocol.readUint64, result_bind, result_requireBytes, result_foldlM,
    result_byteAt, result_moveTo, result_pure]
  rfl

@[simp] theorem result_readString (length : UInt32) :
    (readString input offset length).result = Protocol.readString input offset length := by
  simp only [readString, Protocol.readString, result_bind, result_requireBytes, result_emit,
    result_moveTo, result_pure]
  rfl

@[simp] theorem result_readLogRecord :
    (readLogRecord input offset).result = Protocol.readLogRecord input offset := by
  simp only [readLogRecord, Protocol.readLogRecord, result_bind, result_readUint64,
    result_readUint32, result_readString, result_lift, result_pure]
  rfl

@[simp] theorem result_readLogRecords (count : Nat) :
    (readLogRecords input count offset).result = Protocol.readLogRecords input count offset := by
  induction count generalizing offset with
  | zero => rfl
  | succ count ih =>
      simp only [readLogRecords, Protocol.readLogRecords, result_bind, result_readLogRecord, ih,
        result_pure]
      rfl

@[simp] theorem result_parseFrameHeader :
    (parseFrameHeader input).result = Protocol.parseFrameHeader input := by
  simp only [parseFrameHeader, Protocol.parseFrameHeader, result_bind, result_requireBytes,
    result_readUint32, result_readUint8, result_readUint16, result_lift, result_pure]
  rfl

theorem result_deserializeLogMessage :
    (deserializeLogMessage input).result = Protocol.deserializeLogMessage input := by
  simp only [deserializeLogMessage, Protocol.deserializeLogMessage, result_bind,
    result_parseFrameHeader, result_readLogRecord, result_lift, result_pure]
  rfl

theorem result_deserializeLogBatch :
    (deserializeLogBatch input).result = Protocol.deserializeLogBatch input := by
  simp only [deserializeLogBatch, Protocol.deserializeLogBatch, result_bind,
    result_parseFrameHeader, result_readUint32, result_readLogRecords, result_lift, result_pure]
  refine bind_congr fun header => bind_congr fun _ => bind_congr fun _ => ?_
  refine bind_congr fun counted => bind_congr fun _ => bind_congr fun records => ?_
  -- the two forms differ in where the checking loop is entered
  obtain ⟨_ | ⟨front, rest⟩, stop⟩ := records
  · rfl
  · rfl

theorem result_deserializeAck :
    (deserializeAck input).result = Protocol.deserializeAck input := by
  simp only [deserializeAck, Protocol.deserializeAck, result_bind, result_parseFrameHeader,
    result_readUint64, result_lift, result_pure]
  rfl

end Recorded
end LogBridge.Protocol
