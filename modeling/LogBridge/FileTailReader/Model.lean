import LogBridge.Basic
import LogBridge.Library.Text

/-! Incremental reading of the log file. The reader keeps an open file, the
offset up to which it has read, and the bytes after the last newline. When the
path names another file it first returns the rest of the old one and switches at
the next call. -/
namespace LogBridge

open Checked

/-- The identity of a file: the device and the inode. -/
structure FileId where
  device : UInt64
  inode : UInt64
  deriving DecidableEq, Repr

/-- The content of a regular file. Its size fits `off_t`. -/
structure LogFile where
  bytes : Bytes
  size_lt : bytes.length < 2 ^ 63

/-- What the path names, and the files, which stay readable while they are open. -/
structure FileSystem where
  path : Option FileId
  content : FileId → LogFile

/-- How one `fstat` ends. -/
inductive StatusOutcome where
  | done
  | failed
  | negativeSize
  deriving DecidableEq, Repr

/-- How one `pread` ends: with at most `count + 1` bytes, interrupted or failed. -/
inductive PreadOutcome where
  | short (count : Nat)
  | interrupted
  | failed
  deriving DecidableEq, Repr

structure OpenOutcome where
  openFails : Bool := false
  status : StatusOutcome := .done
  deriving DecidableEq, Repr

/-- How the system calls of one `readNewLines` end. After the listed reads the
remaining bytes arrive in one. -/
structure PollOutcome where
  statFails : Bool := false
  reopen : OpenOutcome := {}
  status : StatusOutcome := .done
  preads : List PreadOutcome := []
  deriving DecidableEq, Repr

structure FileTailReader where
  path : Bytes
  openFile : Option FileId := none
  offset : UInt64 := 0
  pending : Bytes := []
  deviceId : UInt64 := 0
  inode : UInt64 := 0
  switchOnNextRead : Bool := false
  deriving DecidableEq, Repr

namespace FileTailReader

def committedOffset (reader : FileTailReader) : UInt64 :=
  reader.offset - .ofNat reader.pending.length

/-- One trailing carriage return is not part of the line. -/
def stripCarriageReturn (line : Bytes) : Bytes :=
  if line.getLast? = some 13 then line.dropLast else line

/-- The loop that cuts the complete lines off `pending`. -/
def extractLines (pending : Bytes) : List Bytes × Bytes :=
  match _hRest : pending.dropWhile Text.inLine with
  | [] => ([], pending)
  | _ :: rest =>
      let (lines, tail) := extractLines rest
      (stripCarriageReturn (pending.takeWhile Text.inLine) :: lines, tail)
termination_by pending.length
decreasing_by
  have hLe := (List.dropWhile_sublist (l := pending) Text.inLine).length_le
  rw [_hRest, List.length_cons] at hLe
  omega

/-- The `pread` loop, for `size` bytes at `offset`. A read of no bytes ends it. -/
def preadLoop (path content : Bytes) (offset size : Nat) (chunk : Bytes) :
    List PreadOutcome → Except Exception Bytes
  | [] => return chunk ++ (content.drop (offset + chunk.length)).take (size - chunk.length)
  | outcome :: rest =>
      if size ≤ chunk.length then return chunk
      else
        match outcome with
        | .interrupted => preadLoop path content offset size chunk rest
        | .failed => throw (.systemError ("cannot read log file: " ++ pathText path))
        | .short count =>
            let part := (content.drop (offset + chunk.length)).take
              (min (count + 1) (size - chunk.length))
            if part = [] then return chunk
            else preadLoop path content offset size (chunk ++ part) rest

/-- Reading from the open file. A shorter file was truncated and is read again
from its start. The size limit of the buffer is that of the offsets. -/
def readFromOpenFile (reader : FileTailReader) (fileSystem : FileSystem) (status : StatusOutcome)
    (preads : List PreadOutcome) : Except Exception (List Bytes) × FileTailReader :=
  match reader.openFile, status with
  | none, _ => (.error (.systemError "cannot inspect open log file"), reader)
  | some _, .failed => (.error (.systemError "cannot inspect open log file"), reader)
  | some _, .negativeSize =>
      (.error (.runtimeError ("log file has an invalid size: " ++ pathText reader.path)), reader)
  | some fileId, .done =>
      let content := (fileSystem.content fileId).bytes
      let fileSize := UInt64.ofNat content.length
      let reader := if fileSize < reader.offset then { reader with offset := 0, pending := [] } else reader
      if fileSize = reader.offset then (.ok [], reader)
      else
        let unreadSize := fileSize - reader.offset
        match preadLoop reader.path content reader.offset.toNat unreadSize.toNat [] preads with
        | .error error => (.error error, reader)
        | .ok chunk =>
            let (lines, pending) := extractLines (reader.pending ++ chunk)
            (.ok lines, { reader with offset := reader.offset + .ofNat chunk.length, pending })

def openCurrentFile (reader : FileTailReader) (fileSystem : FileSystem)
    (initialOffset expectedDeviceId expectedInode : UInt64) (outcome : OpenOutcome) :
    Except Exception Unit × FileTailReader :=
  let closed := { reader with openFile := none }
  match fileSystem.path, outcome.openFails, outcome.status with
  | some fileId, false, .done =>
      let identityMatches := expectedDeviceId = 0 ∨ expectedInode = 0 ∨
        (expectedDeviceId = fileId.device ∧ expectedInode = fileId.inode)
      let offset := if identityMatches then initialOffset else 0
      let fileSize := UInt64.ofNat (fileSystem.content fileId).bytes.length
      (.ok (), { reader with
        openFile := some fileId
        deviceId := fileId.device
        inode := fileId.inode
        offset := if fileSize < offset then 0 else offset
        pending := [] })
  | some _, false, .failed => (.error (.systemError "cannot inspect open log file"), closed)
  | some _, false, .negativeSize =>
      (.error (.runtimeError ("log file has an invalid size: " ++ pathText reader.path)), closed)
  | _, _, _ => (.error (.systemError ("cannot open log file: " ++ pathText reader.path)), closed)

def construct (path : Bytes) (fileSystem : FileSystem)
    (initialOffset expectedDeviceId expectedInode : UInt64) (outcome : OpenOutcome) :
    Except Exception FileTailReader :=
  if path = [] then throw (.invalidArgument "log file path cannot be empty")
  else
    match openCurrentFile { path } fileSystem initialOffset expectedDeviceId expectedInode outcome with
    | (.error error, _) => throw error
    | (.ok (), reader) => return reader

/-- Whether the path names a file other than the open one. -/
def replacedBy (reader : FileTailReader) (fileId : FileId) : Bool :=
  reader.deviceId ≠ fileId.device || reader.inode ≠ fileId.inode

def readNewLines (reader : FileTailReader) (fileSystem : FileSystem) (outcome : PollOutcome) :
    Except Exception (List Bytes) × FileTailReader :=
  if reader.switchOnNextRead then
    match reader.openCurrentFile fileSystem 0 0 0 outcome.reopen with
    | (.error error, reader) => (.error error, reader)
    | (.ok (), reader) =>
        { reader with switchOnNextRead := false }.readFromOpenFile fileSystem outcome.status
          outcome.preads
  else if outcome.statFails then (.error (.systemError "cannot inspect log file"), reader)
  else if fileSystem.path.any reader.replacedBy then
    match reader.readFromOpenFile fileSystem outcome.status outcome.preads with
    | (.error error, reader) => (.error error, reader)
    | (.ok lines, reader) =>
        let lines := if reader.pending = [] then lines else lines ++ [reader.pending]
        (.ok lines, { reader with pending := [], switchOnNextRead := true })
  else reader.readFromOpenFile fileSystem outcome.status outcome.preads

end FileTailReader
end LogBridge
