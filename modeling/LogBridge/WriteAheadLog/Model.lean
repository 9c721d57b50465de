import LogBridge.Protocol.Format
import LogBridge.Storage

/-! The write-ahead log of unconfirmed messages. The file is a sequence of log
frames; memory holds the messages of that sequence in order. -/
namespace LogBridge

open Checked Protocol Storage

/-- The in-memory part of the log. -/
structure WriteAheadLog where
  pending : List LogMessage := []
  deriving DecidableEq, Repr

namespace WriteAheadLog

/-- The new file content of a rewrite: the frames of `pending`, one after the other. -/
def encodePending (pending : List LogMessage) : Except Exception Bytes :=
  pending.foldlM (fun data message => do
    let frame ← serializeLogMessage message
    return data ++ frame) []

def rewriteLocked (wal : WriteAheadLog) (file : Option Bytes) (outcome : SaveOutcome) :
    Except Exception Unit × Option Bytes :=
  match encodePending wal.pending with
  | .error error => (.error error, file)
  | .ok data => writeAtomically file data outcome

def append (wal : WriteAheadLog) (file : Option Bytes) (message : LogMessage)
    (outcome : AppendOutcome) : Except Exception Unit × WriteAheadLog × Option Bytes :=
  match serializeLogMessage message with
  | .error error => (.error error, wal, file)
  | .ok frame =>
      match appendDurably file frame outcome with
      | (.error error, file) => (.error error, wal, file)
      | (.ok (), file) => (.ok (), { pending := wal.pending ++ [message] }, file)

/-- Memory is compacted first; the file is rewritten only when memory changed. -/
def confirm (wal : WriteAheadLog) (file : Option Bytes) (confirmedId : UInt64)
    (outcome : SaveOutcome) : Except Exception Unit × WriteAheadLog × Option Bytes :=
  let remaining := wal.pending.filter fun message => ¬message.id ≤ confirmedId
  if remaining.length = wal.pending.length then (.ok (), wal, file)
  else
    let compacted : WriteAheadLog := { pending := remaining }
    let (result, file) := compacted.rewriteLocked file outcome
    (result, compacted, file)

/-- The loop of `load`: the messages read so far and whether the data ends in
an incomplete record. -/
def loadLoop (data : Bytes) (offset : Nat) (pending : List LogMessage) :
    Except Exception (List LogMessage × Bool) :=
  if _hMore : offset < data.length then
    let remaining := data.length - offset
    if remaining < frameHeaderSize then return (pending, true)
    else do
      let header ← parseFrameHeader (data.drop offset)
      throwIf (header.type ≠ .log) (.runtimeError "WAL contains a non-log frame")
      let frameSize := frameHeaderSize + header.payloadLength.toNat
      if remaining < frameSize then return (pending, true)
      else
        let message ← deserializeLogMessage ((data.drop offset).take frameSize)
        throwIf (∃ last ∈ pending.getLast?, message.id ≤ last.id)
          (.runtimeError "WAL message IDs are not increasing")
        throwIf (∃ first ∈ pending.head?, message.clientId ≠ first.clientId)
          (.runtimeError "WAL contains multiple client IDs")
        loadLoop data (offset + frameSize) (pending ++ [message])
  else return (pending, false)
termination_by data.length - offset
decreasing_by
  simp only [frameHeaderSize]
  omega

def load (file : Option Bytes) (outcome : SaveOutcome) :
    Except Exception WriteAheadLog × Option Bytes :=
  match loadLoop (readFile file) 0 [] with
  | .error error => (.error error, file)
  | .ok (pending, hasTruncatedTail) =>
      let wal : WriteAheadLog := { pending }
      if hasTruncatedTail then
        match wal.rewriteLocked file outcome with
        | (.error error, file) => (.error error, file)
        | (.ok (), file) => (.ok wal, file)
      else (.ok wal, file)

/-- The constructor. The outcome is that of the rewrite of an incomplete tail,
where one is found. -/
def construct (path : Bytes) (file : Option Bytes) (outcome : SaveOutcome) :
    Except Exception WriteAheadLog × Option Bytes :=
  if path = [] then (.error (.invalidArgument "WAL path cannot be empty"), file)
  else load file outcome

end WriteAheadLog
end LogBridge
