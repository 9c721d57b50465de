import LogBridge.Persistence.Calls
import LogBridge.Storage

/-! Appending to a file. The bytes that a call stores before it fails or the
process stops are a prefix of its data, and stay in the file. -/
namespace LogBridge.Persistence

open Scripted

variable {before after : Disk} {data : Bytes}

/-- The visible content after the first bytes of the data. -/
def Appended (before : Disk) (bytes : Bytes) (after : Disk) : Prop :=
  after.content = some (Storage.readFile before.content ++ bytes)

theorem openTarget_content (disk : Disk) :
    disk.openTarget.content = some (Storage.readFile disk.content) := by
  obtain ⟨target, temporary, replaced, renames⟩ := disk
  cases target with
  | none => rfl
  | some file => rfl

theorem File.append_content (file : File) (bytes : Bytes) :
    (file.append bytes).content = file.content ++ bytes := by
  unfold File.append
  split_ifs with hEmpty
  · rw [hEmpty, List.append_nil]
  · rfl

theorem appended_append (before : Disk) (bytes : Bytes) :
    Appended before bytes (before.openTarget.append .target bytes) := by
  have hContent := openTarget_content before
  rw [Disk.content] at hContent
  obtain ⟨file, hFile, hBytes⟩ := Option.map_eq_some_iff.mp hContent
  rw [Appended, Disk.content, Disk.append]
  dsimp only
  rw [hFile, Option.map_some, Option.map_some, File.append_content, hBytes]

theorem Appended.sync (h : Appended before data after) (handle : Handle) :
    Appended before data (after.sync handle) := by
  rw [Appended, ← h]
  cases handle with
  | target =>
      rw [Disk.content, Disk.sync, Option.map_map]
      rfl
  | temporary => rfl
  | directory => rfl

/-- The endings of an append. Nothing of the file has changed, or a prefix of the
data is stored. -/
def appending (before : Disk) (data : Bytes) : Post Disk Exception Unit where
  returned _ after := Appended before data after
  threw _ after := after.content = before.content ∨ ∃ written, Appended before (data.take written) after
  stopped after := after.content = before.content ∨ ∃ written, Appended before (data.take written) after

theorem appendDurably_meets (parent data : Bytes) (disk : Disk) :
    Meets disk (appendDurably parent data) (appending disk data) := by
  have hNothing : (appending disk data).stopped disk := Or.inl rfl
  have hPrefix : ∀ written,
      (appending disk data).stopped (disk.openTarget.append .target (data.take written)) :=
    fun written => Or.inr ⟨written, appended_append disk (data.take written)⟩
  have hOpened : (appending disk data).stopped disk.openTarget := by
    have hEmpty := hPrefix 0
    rwa [List.take_zero, Disk.append_nil] at hEmpty
  have hWhole : ∀ after, Appended disk data after → (appending disk data).stopped after :=
    fun after h => Or.inr ⟨data.length, by rwa [List.take_length]⟩
  have hWritten := appended_append disk data
  apply Meets.bind
  refine ensureParentDirectory_meets ?_ (fun _ => hNothing) hNothing
  apply Meets.bind
  apply Meets.require
  refine attempt_meets hNothing ?_ hNothing
  apply Meets.bind
  apply Meets.onThrow
  apply writeAll_meets
  · apply Meets.bind
    have hSynced := hWritten.sync .target
    apply syncAndClose_meets
    · apply syncParentDirectory_meets
      · exact hSynced.sync .directory
      · exact fun _ => ⟨hWhole _ hSynced, hWhole _ (hSynced.sync .directory)⟩
      · exact ⟨hWhole _ hSynced, hWhole _ (hSynced.sync .directory)⟩
    · exact fun _ => ⟨hWhole _ hWritten, hWhole _ hSynced⟩
    · exact ⟨hWhole _ hWritten, hWhole _ hSynced⟩
  · intro count error
    apply Meets.bind
    exact attempt_meets (hPrefix count) (Meets.pure (hPrefix count)) (Meets.pure (hPrefix count))
  · exact hPrefix

/-- Every run is one of the ends that `Storage.appendDurably` knows; a run that
stops leaves the file as a failing end does. -/
theorem refines_appendDurably (parent data : Bytes) (disk : Disk) (replies : List Reply) :
    match appendDurably parent data disk replies with
    | (.returned (), after, _) =>
        Storage.appendDurably disk.content data .done = (.ok (), after.content)
    | (.threw error, after, _) => ∃ outcome, Storage.appendDurably disk.content data outcome =
        (.error error, after.content)
    | (.stopped, after, _) => ∃ outcome error, Storage.appendDurably disk.content data outcome =
        (.error error, after.content) := by
  have hRun := appendDurably_meets parent data disk replies
  rcases hEnd : appendDurably parent data disk replies with ⟨_ | error | _, after, left⟩
  · rw [hEnd] at hRun
    have hContent : after.content = some (Storage.readFile disk.content ++ data) := hRun
    dsimp only
    rw [hContent]
    rfl
  · rw [hEnd] at hRun
    rcases hRun with hSame | ⟨written, hAppended⟩
    · exact ⟨.notOpened error, by rw [hSame]; rfl⟩
    · exact ⟨.failed written error, by rw [hAppended]; rfl⟩
  · rw [hEnd] at hRun
    rcases hRun with hSame | ⟨written, hAppended⟩
    · exact ⟨.notOpened stoppedError, stoppedError, by rw [hSame]; rfl⟩
    · exact ⟨.failed written stoppedError, stoppedError, by rw [hAppended]; rfl⟩

end LogBridge.Persistence
