import LogBridge.Basic

/-! Durable files. A file is absent or holds bytes. Each storage call is given
by how it ends; a crash inside a call leaves the file as one of the failing ends
of that call does, with the process memory gone. Reads succeed. -/
namespace LogBridge.Storage

/-- How one `appendDurably` call ends: it may fail before the file is open, or
after `written` bytes of the data were stored. -/
inductive AppendOutcome where
  | done
  | notOpened (error : Exception)
  | failed (written : Nat) (error : Exception)
  deriving DecidableEq, Repr

/-- How one `writeAtomically` call ends. The rename is the point at which the
target changes, so a failing call leaves the old or the new content. -/
inductive SaveOutcome where
  | saved
  | failedBeforeRename (error : Exception)
  | failedAfterRename (error : Exception)
  deriving DecidableEq, Repr

/-- An absent file reads as empty. -/
def readFile (file : Option Bytes) : Bytes := file.getD []

@[simp] theorem readFile_none : readFile none = [] := rfl
@[simp] theorem readFile_some (data : Bytes) : readFile (some data) = data := rfl

def appendDurably (file : Option Bytes) (data : Bytes) :
    AppendOutcome → Except Exception Unit × Option Bytes
  | .done => (.ok (), some (readFile file ++ data))
  | .notOpened error => (.error error, file)
  | .failed written error => (.error error, some (readFile file ++ data.take written))

def writeAtomically (file : Option Bytes) (data : Bytes) :
    SaveOutcome → Except Exception Unit × Option Bytes
  | .saved => (.ok (), some data)
  | .failedBeforeRename error => (.error error, file)
  | .failedAfterRename error => (.error error, some data)

end LogBridge.Storage
