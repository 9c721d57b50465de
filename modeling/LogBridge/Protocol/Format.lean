import LogBridge.Basic

/-! The wire format: frame headers, log records, batches and acknowledgements.
Encoders append to an output buffer; decoders read the frame at an offset and
return the offset after the bytes they read. -/
namespace LogBridge.Protocol

open Checked

def magic : UInt32 := 0x4C474231
def version : UInt8 := 2
def frameHeaderSize : Nat := 12

def maxClientIdLength : Nat := 128
def maxSourceLength : Nat := 4 * 1024
def maxContentLength : Nat := 1024 * 1024
def maxBatchMessageCount : Nat := 100
def maxFramePayloadLength : Nat := 16 * 1024 * 1024

/-- Bytes of the fixed fields of one log record. -/
def logRecordFixedSize : Nat := 8 + 8 + 4 + 4 + 4
def ackPayloadSize : UInt32 := 8
def batchPrefixSize : Nat := 4

inductive MessageType where
  | log
  | ack
  | logBatch
  deriving DecidableEq, Repr

/-- The value of the enumeration on the wire. -/
def MessageType.toUInt8 : MessageType → UInt8
  | .log => 1
  | .ack => 2
  | .logBatch => 3

structure FrameHeader where
  version : UInt8
  type : MessageType
  payloadLength : UInt32
  deriving DecidableEq, Repr

structure AckMessage where
  confirmedId : UInt64
  deriving DecidableEq, Repr

/-! Encoding. -/

def appendUint16 (output : Bytes) (value : UInt16) : Bytes :=
  output ++ [(value >>> 8).toUInt8] ++ [value.toUInt8]

def appendUint32 (output : Bytes) (value : UInt32) : Bytes :=
  ([24, 16, 8, 0] : List UInt32).foldl
    (fun output shift => output ++ [(value >>> shift).toUInt8]) output

def appendUint64 (output : Bytes) (value : UInt64) : Bytes :=
  ([56, 48, 40, 32, 24, 16, 8, 0] : List UInt64).foldl
    (fun output shift => output ++ [(value >>> shift).toUInt8]) output

def appendFrameHeader (output : Bytes) (type : MessageType) (payloadLength : UInt32) : Bytes :=
  let output := appendUint32 output magic
  let output := output ++ [version]
  let output := output ++ [type.toUInt8]
  let output := appendUint16 output 0
  appendUint32 output payloadLength

/-- Check the field limits of a message and return the size of its record. -/
def logRecordSize (message : LogMessage) : Except Exception Nat := do
  throwIf (message.id = 0) (.protocolError "message id cannot be zero")
  throwIf (message.clientId = [] ∨ message.clientId.length > maxClientIdLength)
    (.protocolError "invalid client id length")
  throwIf (message.source.length > maxSourceLength) (.protocolError "log source is too long")
  throwIf (message.content.length > maxContentLength) (.protocolError "log content is too long")
  return logRecordFixedSize + message.clientId.length + message.source.length +
    message.content.length

def appendLogRecord (output : Bytes) (message : LogMessage) : Bytes :=
  let output := appendUint64 output message.id
  let output := appendUint64 output message.timestampMs.toUInt64
  let output := appendUint32 output (.ofNat message.clientId.length)
  let output := appendUint32 output (.ofNat message.source.length)
  let output := appendUint32 output (.ofNat message.content.length)
  output ++ message.clientId ++ message.source ++ message.content

def serializeLogMessage (message : LogMessage) : Except Exception Bytes := do
  let payloadSize ← logRecordSize message
  return appendLogRecord (appendFrameHeader [] .log (.ofNat payloadSize)) message

/-- The validation loop of `serializeLogBatch`; it returns the payload size. -/
def logBatchPayloadSize (clientId : Bytes) :
    List LogMessage → UInt64 → Nat → Except Exception Nat
  | [], _, payloadSize => return payloadSize
  | message :: rest, previousId, payloadSize => do
      throwIf (message.clientId ≠ clientId)
        (.protocolError "log batch contains multiple client ids")
      throwIf (message.id ≤ previousId)
        (.protocolError "log batch ids must be strictly increasing")
      let recordSize ← logRecordSize message
      throwIf (recordSize > sizeSub maxFramePayloadLength payloadSize)
        (.protocolError "log batch payload is too large")
      logBatchPayloadSize clientId rest message.id (payloadSize + recordSize)

def serializeLogBatch (messages : List LogMessage) : Except Exception Bytes :=
  match messages with
  | [] => throw (.protocolError "log batch cannot be empty")
  | front :: _ => do
      throwIf (messages.length > maxBatchMessageCount)
        (.protocolError "too many messages in log batch")
      let payloadSize ← logBatchPayloadSize front.clientId messages 0 batchPrefixSize
      let output := appendFrameHeader [] .logBatch (.ofNat payloadSize)
      let output := appendUint32 output (.ofNat messages.length)
      return messages.foldl appendLogRecord output

def serializeAck (confirmedId : UInt64) : Bytes :=
  appendUint64 (appendFrameHeader [] .ack ackPayloadSize) confirmedId

/-! Decoding. -/

/-- Check that `count` bytes remain. The second test is reached only when the
offset lies inside the input, so its subtraction is exact. -/
def requireBytes (input : Bytes) (offset count : Nat) : Except Exception Unit :=
  throwIf (offset > input.length ∨ count > input.length - offset)
    (.protocolError "unexpected end of protocol data")

/-- Raw indexing of a span. -/
def byteAt (input : Bytes) (index : Nat) : Except Exception UInt8 :=
  match input[index]? with
  | some byte => return byte
  | none => throw .outOfBounds

def readUint8 (input : Bytes) (offset : Nat) : Except Exception (UInt8 × Nat) := do
  requireBytes input offset 1
  let value ← byteAt input offset
  return (value, offset + 1)

def readUint16 (input : Bytes) (offset : Nat) : Except Exception (UInt16 × Nat) := do
  requireBytes input offset 2
  let high ← byteAt input offset
  let low ← byteAt input (offset + 1)
  return (high.toUInt16 <<< 8 ||| low.toUInt16, offset + 2)

def readUint32 (input : Bytes) (offset : Nat) : Except Exception (UInt32 × Nat) := do
  requireBytes input offset 4
  let value ← (List.range 4).foldlM (fun (value : UInt32) index => do
    let byte ← byteAt input (offset + index)
    return value <<< 8 ||| byte.toUInt32) 0
  return (value, offset + 4)

def readUint64 (input : Bytes) (offset : Nat) : Except Exception (UInt64 × Nat) := do
  requireBytes input offset 8
  let value ← (List.range 8).foldlM (fun (value : UInt64) index => do
    let byte ← byteAt input (offset + index)
    return value <<< 8 ||| byte.toUInt64) 0
  return (value, offset + 8)

def readString (input : Bytes) (offset : Nat) (length : UInt32) :
    Except Exception (Bytes × Nat) := do
  requireBytes input offset length.toNat
  return ((input.drop offset).take length.toNat, offset + length.toNat)

def parseMessageType (rawType : UInt8) : Except Exception MessageType :=
  if rawType = MessageType.log.toUInt8 then return .log
  else if rawType = MessageType.ack.toUInt8 then return .ack
  else if rawType = MessageType.logBatch.toUInt8 then return .logBatch
  else throw (.protocolError "unknown message type")

def readLogRecord (input : Bytes) (offset : Nat) : Except Exception (LogMessage × Nat) := do
  let (id, offset) ← readUint64 input offset
  let (timestamp, offset) ← readUint64 input offset
  let (clientIdLength, offset) ← readUint32 input offset
  let (sourceLength, offset) ← readUint32 input offset
  let (contentLength, offset) ← readUint32 input offset
  throwIf (id = 0) (.protocolError "message id cannot be zero")
  throwIf (clientIdLength = 0 ∨ clientIdLength.toNat > maxClientIdLength)
    (.protocolError "invalid client id length")
  throwIf (sourceLength.toNat > maxSourceLength) (.protocolError "log source is too long")
  throwIf (contentLength.toNat > maxContentLength) (.protocolError "log content is too long")
  let (clientId, offset) ← readString input offset clientIdLength
  let (source, offset) ← readString input offset sourceLength
  let (content, offset) ← readString input offset contentLength
  return ({ id, clientId, timestampMs := .ofUInt64 timestamp, source, content }, offset)

def requireFrameSize (frame : Bytes) (header : FrameHeader) : Except Exception Unit :=
  throwIf (frame.length ≠ frameHeaderSize + header.payloadLength.toNat)
    (.protocolError "frame length does not match header")

def parseFrameHeader (header : Bytes) : Except Exception FrameHeader := do
  requireBytes header 0 frameHeaderSize
  let (magicField, offset) ← readUint32 header 0
  let (versionField, offset) ← readUint8 header offset
  let (rawType, offset) ← readUint8 header offset
  let (reserved, offset) ← readUint16 header offset
  let (payloadLength, _) ← readUint32 header offset
  throwIf (magicField ≠ magic) (.protocolError "invalid protocol magic")
  throwIf (versionField ≠ version) (.protocolError "unsupported protocol version")
  throwIf (reserved ≠ 0) (.protocolError "reserved header bits must be zero")
  throwIf (payloadLength.toNat > maxFramePayloadLength) (.protocolError "payload is too large")
  let type ← parseMessageType rawType
  return { version := versionField, type, payloadLength }

def deserializeLogMessage (frame : Bytes) : Except Exception LogMessage := do
  let header ← parseFrameHeader frame
  throwIf (header.type ≠ .log) (.protocolError "frame is not a log message")
  requireFrameSize frame header
  let (message, offset) ← readLogRecord frame frameHeaderSize
  throwIf (offset ≠ frame.length) (.protocolError "log fields do not fill the payload")
  return message

/-- The reading loop of `deserializeLogBatch`. -/
def readLogRecords (input : Bytes) : Nat → Nat → Except Exception (List LogMessage × Nat)
  | 0, offset => return ([], offset)
  | count + 1, offset => do
      let (message, offset) ← readLogRecord input offset
      let (rest, offset) ← readLogRecords input count offset
      return (message :: rest, offset)

/-- The checking loop of `deserializeLogBatch`, from the second message on. -/
def checkLogBatchOrder (front : LogMessage) :
    LogMessage → List LogMessage → Except Exception Unit
  | _, [] => return ()
  | previous, message :: rest => do
      throwIf (message.clientId ≠ front.clientId)
        (.protocolError "log batch contains multiple client ids")
      throwIf (message.id ≤ previous.id)
        (.protocolError "log batch ids must be strictly increasing")
      checkLogBatchOrder front message rest

def deserializeLogBatch (frame : Bytes) : Except Exception (List LogMessage) := do
  let header ← parseFrameHeader frame
  throwIf (header.type ≠ .logBatch) (.protocolError "frame is not a log batch")
  requireFrameSize frame header
  let (messageCount, offset) ← readUint32 frame frameHeaderSize
  throwIf (messageCount = 0 ∨ messageCount.toNat > maxBatchMessageCount)
    (.protocolError "invalid log batch message count")
  let (messages, offset) ← readLogRecords frame messageCount.toNat offset
  match messages with
  | [] => pure ()
  | front :: rest => checkLogBatchOrder front front rest
  throwIf (offset ≠ frame.length) (.protocolError "log batch fields do not fill the payload")
  return messages

def deserializeAck (frame : Bytes) : Except Exception AckMessage := do
  let header ← parseFrameHeader frame
  throwIf (header.type ≠ .ack) (.protocolError "frame is not an ack message")
  requireFrameSize frame header
  throwIf (header.payloadLength ≠ ackPayloadSize) (.protocolError "invalid ack payload length")
  let (confirmedId, _) ← readUint64 frame frameHeaderSize
  return { confirmedId }

end LogBridge.Protocol
