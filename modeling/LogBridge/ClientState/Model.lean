import LogBridge.Library.Text
import LogBridge.Storage

/-! The client state: the identity of the client, its next message id and the
position in the log file up to which lines are in the write-ahead log. The file
is text with one field per line. -/
namespace LogBridge

open Checked Storage

structure ClientState where
  clientId : Bytes := []
  nextId : UInt64 := 1
  sourcePath : Bytes := []
  fileOffset : UInt64 := 0
  fileDeviceId : UInt64 := 0
  fileInode : UInt64 := 0
  deriving DecidableEq, Repr

namespace ClientState

/-- The bytes of "LGBSTATE2". -/
def stateMagic : Bytes := [76, 71, 66, 83, 84, 65, 84, 69, 50]

/-- The bytes of "LGBSTATE1", a format without the file identity. -/
def legacyStateMagic : Bytes := [76, 71, 66, 83, 84, 65, 84, 69, 49]

/-- The largest message id, which is never allocated. -/
def maxId : UInt64 := 18446744073709551615

/-- `std::stoull` in base ten, with the text after the number. -/
def stoull (text : Bytes) : Except Exception (UInt64 × Bytes) :=
  match Text.scanUint64 (text.dropWhile Text.isSpace) with
  | .noDigits _ => throw (.invalidArgument "stoull")
  | .overflow _ => throw (.outOfRange "stoull")
  | .number value rest => return (value, rest)

def parseUint64 (text : Bytes) (fieldName : String) : Except Exception UInt64 := do
  throwIf (text = [] ∨ text.head? = some 45) (.runtimeError ("invalid client state field: " ++ fieldName))
  let (value, rest) ← stoull text
  throwIf (rest ≠ []) (.runtimeError ("invalid client state field: " ++ fieldName))
  return value

/-- One `std::getline` of `load`, which must succeed. -/
def requireLine (input : Text.Stream) : Except Exception (Bytes × Text.Stream) :=
  match Text.getline input with
  | (none, _) => throw (.runtimeError "invalid client state file")
  | (some line, input) => return (line, input)

def load (data : Bytes) : Except Exception ClientState := do
  let (magic, input) ← requireLine { rest := data }
  let (clientId, input) ← requireLine input
  let (nextIdText, input) ← requireLine input
  let (fileOffsetText, input) ← requireLine input
  throwIf (clientId = []) (.runtimeError "invalid client state file")
  let (fileDeviceId, fileInode, sourcePath) ←
    if magic = stateMagic then do
      let (fileDeviceIdText, input) ← requireLine input
      let (fileInodeText, input) ← requireLine input
      let (storedSource, _) ← requireLine input
      let fileDeviceId ← parseUint64 fileDeviceIdText "fileDeviceId"
      let fileInode ← parseUint64 fileInodeText "fileInode"
      pure (fileDeviceId, fileInode, storedSource)
    else if magic = legacyStateMagic then do
      let (storedSource, _) ← requireLine input
      pure (0, 0, storedSource)
    else throw (.runtimeError "invalid client state file")
  let nextId ← parseUint64 nextIdText "nextId"
  let fileOffset ← parseUint64 fileOffsetText "fileOffset"
  throwIf (nextId = 0) (.runtimeError "invalid next message ID in client state")
  return { clientId, nextId, sourcePath, fileOffset, fileDeviceId, fileInode }

def decimalLine (value : UInt64) : Bytes := Text.decimal value.toNat ++ [Text.newline]

/-- The text that `persist` writes. -/
def stateText (state : ClientState) : Bytes :=
  stateMagic ++ [Text.newline] ++ state.clientId ++ [Text.newline] ++ decimalLine state.nextId ++
    decimalLine state.fileOffset ++ decimalLine state.fileDeviceId ++ decimalLine state.fileInode ++
    state.sourcePath ++ [Text.newline]

def persist (state : ClientState) (file : Option Bytes) (outcome : SaveOutcome) :
    Except Exception Unit × Option Bytes :=
  writeAtomically file state.stateText outcome

/-- The state before the constructor compares it with the arguments: the loaded
file, or a new state under the client id of the log or a generated one. -/
def loadOrCreate (file : Option Bytes) (recoveredMessages : List LogMessage) (generated : Bytes) :
    Except Exception ClientState :=
  match file with
  | some data => load data
  | none =>
      match recoveredMessages with
      | [] => return { clientId := generated }
      | front :: _ => return { clientId := front.clientId }

/-- A checkpoint of another source path is dropped. The flag says whether the
state must be saved. -/
def correctSource (state : ClientState) (sourcePath : Bytes) (changed : Bool) :
    ClientState × Bool :=
  if state.sourcePath ≠ sourcePath then
    ({ state with sourcePath, fileOffset := 0, fileDeviceId := 0, fileInode := 0 }, true)
  else (state, changed)

/-- The recovered messages must be of this client, and the next id must lie
above theirs. -/
def correctNextId (state : ClientState) (recoveredMessages : List LogMessage) (changed : Bool) :
    Except Exception (ClientState × Bool) := do
  throwIf (∃ message ∈ recoveredMessages, message.clientId ≠ state.clientId)
    (.runtimeError "client state does not match WAL client ID")
  let maximumRecoveredId : UInt64 :=
    recoveredMessages.foldl (fun largest message => max largest message.id) 0
  throwIf (maximumRecoveredId = maxId) (.overflowError "message ID space is exhausted")
  if state.nextId ≤ maximumRecoveredId then
    return ({ state with nextId := maximumRecoveredId + 1 }, true)
  else return (state, changed)

/-- The constructor up to the save, with the flag that asks for it. -/
def prepare (sourcePath : Bytes) (file : Option Bytes) (recoveredMessages : List LogMessage)
    (generated : Bytes) : Except Exception (ClientState × Bool) := do
  let state ← loadOrCreate file recoveredMessages generated
  let (state, changed) := state.correctSource sourcePath file.isNone
  state.correctNextId recoveredMessages changed

/-- The constructor. `generated` is the result of `generateClientId`, should it
be called. -/
def construct (path sourcePath : Bytes) (file : Option Bytes) (recoveredMessages : List LogMessage)
    (generated : Bytes) (outcome : SaveOutcome) : Except Exception ClientState × Option Bytes :=
  if path = [] ∨ sourcePath = [] then
    (.error (.invalidArgument "client state path and source cannot be empty"), file)
  else
    match prepare sourcePath file recoveredMessages generated with
    | .error error => (.error error, file)
    | .ok (state, false) => (.ok state, file)
    | .ok (state, true) =>
        match state.persist file outcome with
        | (.error error, file) => (.error error, file)
        | (.ok (), file) => (.ok state, file)

/-- A failed save takes the allocation back in memory. -/
def nextMessageId (state : ClientState) (file : Option Bytes) (outcome : SaveOutcome) :
    Except Exception UInt64 × ClientState × Option Bytes :=
  if state.nextId = maxId then (.error (.overflowError "message ID space is exhausted"), state, file)
  else
    let allocated := state.nextId
    let advanced := { state with nextId := state.nextId + 1 }
    match advanced.persist file outcome with
    | (.error error, file) => (.error error, state, file)
    | (.ok (), file) => (.ok allocated, advanced, file)

def updateFileCheckpoint (state : ClientState) (file : Option Bytes)
    (offset deviceId inode : UInt64) (outcome : SaveOutcome) :
    Except Exception Unit × ClientState × Option Bytes :=
  if offset = state.fileOffset ∧ deviceId = state.fileDeviceId ∧ inode = state.fileInode then
    (.ok (), state, file)
  else
    let updated :=
      { state with fileOffset := offset, fileDeviceId := deviceId, fileInode := inode }
    match updated.persist file outcome with
    | (.error error, file) => (.error error, state, file)
    | (.ok (), file) => (.ok (), updated, file)

def updateFileOffset (state : ClientState) (file : Option Bytes) (offset : UInt64)
    (outcome : SaveOutcome) : Except Exception Unit × ClientState × Option Bytes :=
  state.updateFileCheckpoint file offset state.fileDeviceId state.fileInode outcome

end ClientState
end LogBridge
