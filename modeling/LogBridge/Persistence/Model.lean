import LogBridge.Basic
import LogBridge.Library.Scripted

/-! Durable writes as sequences of system calls. Every call may fail, writes may
be short or interrupted, and the process may stop between any two calls. Bytes
and directory entries that have not been synced may be lost with the power. -/
namespace LogBridge.Persistence

open Scripted

/-- A file, and whether its bytes are known to be on the medium. -/
structure File where
  content : Bytes := []
  synced : Bool := false
  deriving DecidableEq, Repr

/-- The target of a call and the temporary file beside it. The directory may
still lead to one of the `replaced` entries after a power loss. -/
structure Disk where
  target : Option File := none
  temporary : Option File := none
  replaced : List (Option File) := []
  /-- The number of renames that took effect. -/
  renames : Nat := 0
  deriving DecidableEq, Repr

/-- What a system call replies. The count is the result of `write`. -/
inductive Reply where
  | success (count : Nat)
  | interrupted
  | failed
  deriving DecidableEq, Repr

/-- An open file descriptor. -/
inductive Handle where
  | target
  | temporary
  | directory
  deriving DecidableEq, Repr

/-- Bytes written behind the content. -/
def File.append (file : File) (bytes : Bytes) : File :=
  if bytes = [] then file else { content := file.content ++ bytes, synced := false }

namespace Disk

def append (disk : Disk) (handle : Handle) (bytes : Bytes) : Disk :=
  match handle with
  | .target => { disk with target := disk.target.map (·.append bytes) }
  | .temporary => { disk with temporary := disk.temporary.map (·.append bytes) }
  | .directory => disk

/-- A successful `fsync`. -/
def sync (disk : Disk) : Handle → Disk
  | .target => { disk with target := disk.target.map fun file => { file with synced := true } }
  | .temporary =>
      { disk with temporary := disk.temporary.map fun file => { file with synced := true } }
  | .directory => { disk with replaced := [] }

/-- A successful `open` with `O_CREAT | O_APPEND`. -/
def openTarget (disk : Disk) : Disk :=
  match disk.target with
  | some _ => disk
  | none => { disk with target := some {}, replaced := none :: disk.replaced }

/-- A successful `open` with `O_CREAT | O_TRUNC`, whatever was left there. -/
def openTemporary (disk : Disk) : Disk := { disk with temporary := some {} }

def removeTemporary (disk : Disk) : Disk := { disk with temporary := none }

/-- A successful `rename` of this file onto the target. -/
def renamed (disk : Disk) (file : File) : Disk where
  target := some file
  temporary := none
  replaced := disk.target :: disk.replaced
  renames := disk.renames + 1

end Disk

/-! The system calls. -/

def Reply.succeeded : Reply → Bool
  | .success _ => true
  | _ => false

/-- A call that takes effect as a whole or fails. -/
def attempt (effect : Disk → Disk) : Program Disk Reply Exception Bool :=
  call fun disk reply => if reply.succeeded then (true, effect disk) else (false, disk)

/-- The atomic `rename` of the temporary file onto the target. -/
def rename : Program Disk Reply Exception Bool :=
  call fun disk reply =>
    match reply.succeeded, disk.temporary with
    | true, some file => (true, disk.renamed file)
    | _, _ => (false, disk)

def close : Program Disk Reply Exception Bool := attempt id

def fsync (handle : Handle) : Program Disk Reply Exception Bool := attempt (·.sync handle)

inductive WriteResult where
  | wrote (count : Nat)
  | interrupted
  | failed
  deriving DecidableEq, Repr

/-- One call of `write`, for at least one byte. -/
def write (handle : Handle) (bytes : Bytes) (disk : Disk) : Reply → WriteResult × Disk
  | .success count => (.wrote (min count bytes.length), disk.append handle (bytes.take count))
  | .interrupted => (.interrupted, disk)
  | .failed => (.failed, disk)

/-! The functions of the source. -/

def ensureParentDirectory (parent : Bytes) : Program Disk Reply Exception Unit :=
  if parent ≠ [] then require (attempt id) (.systemError "cannot create directories") else pure ()

/-- One round of the loop of `writeAll`. -/
def writeRound (handle : Handle) (data : Bytes) (writtenBytes : Nat) (disk : Disk) (reply : Reply) :
    Except Exception Nat × Disk :=
  match write handle (data.drop writtenBytes) disk reply with
  | (.wrote 0, disk) => (.error (.systemError "cannot write persistent file"), disk)
  | (.wrote (count + 1), disk) => (.ok (writtenBytes + (count + 1)), disk)
  | (.interrupted, disk) => (.ok writtenBytes, disk)
  | (.failed, disk) => (.error (.systemError "cannot write persistent file"), disk)

def writeAll (handle : Handle) (data : Bytes) : Program Disk Reply Exception Unit :=
  loop (fun writtenBytes => if writtenBytes < data.length then none else some ())
    (writeRound handle data) 0

def syncAndClose (handle : Handle) : Program Disk Reply Exception Unit := do
  if ← fsync handle then
    require close (.systemError "cannot close persistent file")
  else
    let _ ← close
    throwing (.systemError "cannot sync persistent file")

def syncParentDirectory : Program Disk Reply Exception Unit := do
  require (attempt id) (.systemError "cannot open parent directory")
  syncAndClose .directory

/-- `parent` is the parent path of the target. -/
def appendDurably (parent data : Bytes) : Program Disk Reply Exception Unit := do
  ensureParentDirectory parent
  require (attempt Disk.openTarget) (.systemError "cannot open append file")
  onThrow (writeAll .target data) (do
    let _ ← close)
  syncAndClose .target
  syncParentDirectory

/-- The errors of the removals are ignored. -/
def writeAtomically (parent data : Bytes) : Program Disk Reply Exception Unit := do
  ensureParentDirectory parent
  require (attempt Disk.openTemporary) (.systemError "cannot open temporary file")
  onThrow (writeAll .temporary data) (do
    let _ ← close
    let _ ← attempt Disk.removeTemporary)
  onThrow (do
    syncAndClose .temporary
    require rename (.systemError "cannot rename")
    syncParentDirectory) (do
    let _ ← attempt Disk.removeTemporary)

/-! What is found after a crash. -/

/-- The content that other processes see. -/
def Disk.content (disk : Disk) : Option Bytes := disk.target.map File.content

/-- What may be found under a name that led to this entry: of a file that is not
synced, anything. -/
def EntryLeaves (entry : Option File) (content : Option Bytes) : Prop :=
  match entry with
  | none => content = none
  | some file => ∃ bytes, content = some bytes ∧ (file.synced = true → bytes = file.content)

/-- What a crash may leave in place of the target. -/
def Disk.CrashLeaves (disk : Disk) (content : Option Bytes) : Prop :=
  ∃ entry ∈ disk.target :: disk.replaced, EntryLeaves entry content

end LogBridge.Persistence
