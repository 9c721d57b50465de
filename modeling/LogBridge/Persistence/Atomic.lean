import LogBridge.Persistence.Calls
import LogBridge.Storage

/-! Replacing a file. Whatever the system calls reply and wherever the process
stops, the target has its old content or all of the new one, and after the
call has returned a power loss cannot bring the old content back. -/
namespace LogBridge.Persistence

open Scripted

variable {before after : Disk} {data parent : Bytes}

/-- The rename has not taken effect. Only the temporary file may differ. -/
structure Untouched (before after : Disk) : Prop where
  target_eq : after.target = before.target
  replaced_eq : after.replaced = before.replaced
  renames_eq : after.renames = before.renames

/-- The rename has taken effect, on a file whose bytes are on the medium. -/
structure Replaced (before : Disk) (data : Bytes) (after : Disk) : Prop where
  target_eq : after.target = some { content := data, synced := true }
  replaced_subset : after.replaced ⊆ before.target :: before.replaced
  renames_eq : after.renames = before.renames + 1

theorem Untouched.refl (disk : Disk) : Untouched disk disk := ⟨rfl, rfl, rfl⟩

theorem Untouched.removeTemporary (h : Untouched before after) :
    Untouched before after.removeTemporary :=
  ⟨h.target_eq, h.replaced_eq, h.renames_eq⟩

theorem Replaced.removeTemporary (h : Replaced before data after) :
    Replaced before data after.removeTemporary :=
  ⟨h.target_eq, h.replaced_subset, h.renames_eq⟩

theorem untouched_append (before : Disk) (bytes : Bytes) :
    Untouched before (before.openTemporary.append .temporary bytes) := ⟨rfl, rfl, rfl⟩

/-- The state of the disk at the rename. -/
theorem replaced_renamed (h : Untouched before after) :
    Replaced before data (after.renamed { content := data, synced := true }) := by
  refine ⟨rfl, ?_, congrArg (· + 1) h.renames_eq⟩
  change after.target :: after.replaced ⊆ _
  rw [h.target_eq, h.replaced_eq]
  exact List.Subset.refl _

theorem Replaced.sync (h : Replaced before data after) :
    Replaced before data (after.sync .directory) :=
  ⟨h.target_eq, List.nil_subset _, h.renames_eq⟩

/-- The endings of a replacement. -/
def replacement (before : Disk) (data : Bytes) : Post Disk Exception Unit where
  returned _ after := Replaced before data after ∧ after.replaced = []
  threw _ after := Untouched before after ∨ Replaced before data after
  stopped after := Untouched before after ∨ Replaced before data after

/-- The removal in a handler changes neither the target nor what a crash may
bring back. -/
theorem cleanup_meets (error : Exception)
    (h : Untouched before after ∨ Replaced before data after) :
    Meets after (do let _ ← attempt Disk.removeTemporary)
      ⟨fun _ => (replacement before data).threw error, (replacement before data).threw,
        (replacement before data).stopped⟩ := by
  apply Meets.bind
  apply attempt_meets h
  · exact Meets.pure (h.imp Untouched.removeTemporary Replaced.removeTemporary)
  · exact Meets.pure h

/-- From the written temporary file to the end of the call. -/
theorem publish_meets (hTemporary : after.temporary = some { content := data, synced := true })
    (h : Untouched before after) :
    Meets after (do
      require rename (.systemError "cannot rename")
      syncParentDirectory)
      ⟨fun _ disk => Replaced before data disk ∧ disk.replaced = [],
        fun _ disk => Untouched before disk ∨ Replaced before data disk,
        fun disk => Untouched before disk ∨ Replaced before data disk⟩ := by
  have hRenamed : Replaced before data (after.renamed { content := data, synced := true }) :=
    replaced_renamed h
  apply Meets.bind
  apply Meets.require
  apply Meets.call (Or.inl h)
  intro reply
  cases reply with
  | success count =>
      rw [hTemporary]
      apply syncParentDirectory_meets
      · exact ⟨hRenamed.sync, rfl⟩
      · exact fun _ => ⟨Or.inr hRenamed, Or.inr hRenamed.sync⟩
      · exact ⟨Or.inr hRenamed, Or.inr hRenamed.sync⟩
  | interrupted => exact Or.inl h
  | failed => exact Or.inl h

theorem writeAtomically_meets (parent data : Bytes) (disk : Disk) :
    Meets disk (writeAtomically parent data) (replacement disk data) := by
  have hStart : Untouched disk disk := Untouched.refl disk
  apply Meets.bind
  refine ensureParentDirectory_meets ?_ (fun _ => Or.inl hStart) (Or.inl hStart)
  apply Meets.bind
  apply Meets.require
  refine attempt_meets (Or.inl hStart) ?_ (Or.inl hStart)
  apply Meets.bind
  apply Meets.onThrow
  apply writeAll_meets
  · -- the data are in the temporary file
    apply Meets.onThrow
    apply Meets.bind
    have hWritten := untouched_append disk data
    apply syncAndClose_meets
    · have hSynced : Untouched disk ((disk.openTemporary.append .temporary data).sync .temporary) :=
        ⟨rfl, rfl, rfl⟩
      have hTemporary : ((disk.openTemporary.append .temporary data).sync .temporary).temporary =
          some { content := data, synced := true } := by
        change some (File.mk (File.append {} data).content true) = _
        rw [File.append]
        split_ifs with hEmpty
        · rw [hEmpty]
        · rfl
      apply (publish_meets hTemporary hSynced).mono
      · exact fun _ _ hDone => hDone
      · exact fun error after hThrew => cleanup_meets error hThrew
      · exact fun _ hStopped => hStopped
    · exact fun error =>
        ⟨cleanup_meets error (Or.inl hWritten), cleanup_meets error (Or.inl ⟨rfl, rfl, rfl⟩)⟩
    · exact ⟨Or.inl hWritten, Or.inl ⟨rfl, rfl, rfl⟩⟩
  · -- a prefix of the data is left in the temporary file, or none
    intro count error
    have hWritten := untouched_append disk (data.take count)
    apply Meets.bind
    exact attempt_meets (Or.inl hWritten) (cleanup_meets error (Or.inl hWritten))
      (cleanup_meets error (Or.inl hWritten))
  · exact fun count => Or.inl (untouched_append disk (data.take count))

/-- A short write and a signal, over the leftovers of an earlier call, and no
reply any more when the directory is opened. -/
example : (writeAtomically [] [1, 2, 3] { temporary := some { content := [9, 9, 9, 9] } }
    [.success 0, .success 2, .interrupted, .success 1, .success 0, .success 0, .success 0]).2.1 =
    { target := some { content := [1, 2, 3], synced := true }, replaced := [none], renames := 1 } := rfl

/-! What is found in place of the target. -/

theorem Untouched.content_eq (h : Untouched before after) : after.content = before.content := by
  rw [Disk.content, h.target_eq, Disk.content]

theorem Replaced.content_eq (h : Replaced before data after) : after.content = some data := by
  rw [Disk.content, h.target_eq]
  rfl

theorem Untouched.crashLeaves (h : Untouched before after) {content : Option Bytes}
    (hCrash : after.CrashLeaves content) : before.CrashLeaves content := by
  rwa [Disk.CrashLeaves, h.target_eq, h.replaced_eq] at hCrash

/-- After the rename a crash leaves the new data, or what it could leave before. -/
theorem Replaced.crashLeaves (h : Replaced before data after) {content : Option Bytes}
    (hCrash : after.CrashLeaves content) :
    content = some data ∨ (after.replaced ≠ [] ∧ before.CrashLeaves content) := by
  obtain ⟨entry, hMem, hLeaves⟩ := hCrash
  rcases List.mem_cons.mp hMem with rfl | hOld
  · rw [h.target_eq] at hLeaves
    obtain ⟨bytes, rfl, hBytes⟩ := hLeaves
    exact Or.inl (congrArg some (hBytes rfl))
  · exact Or.inr ⟨List.ne_nil_of_mem hOld, entry, h.replaced_subset hOld, hLeaves⟩

/-- A crash that only ends the process leaves what was visible. -/
theorem Disk.crashLeaves_content (disk : Disk) : disk.CrashLeaves disk.content := by
  refine ⟨disk.target, List.mem_cons_self .., ?_⟩
  rw [content]
  cases disk.target with
  | none => rfl
  | some file => exact ⟨file.content, rfl, fun _ => rfl⟩

/-- Replacement is atomic. A normal return leaves the data; a throw leaves the
target as it was if the rename has not taken effect, and the data if it has;
and wherever the process stops, the target is as it was or holds all of the
data. The last two parts are about a power loss: at any moment it leaves the
data or what it could have left before the call, and only the data after a
normal return. -/
theorem replaces_atomically (parent data : Bytes) (disk : Disk) (replies : List Reply) :
    let (ending, after, _) := writeAtomically parent data disk replies
    (∀ value, ending = .returned value → after.content = some data) ∧
      (∀ error, ending = .threw error →
        (after.renames = disk.renames ∧ after.target = disk.target) ∨
          (after.renames = disk.renames + 1 ∧ after.content = some data)) ∧
      (ending = .stopped → after.target = disk.target ∨ after.content = some data) ∧
      (∀ content, after.CrashLeaves content → content = some data ∨ disk.CrashLeaves content) ∧
      ∀ value, ending = .returned value → ∀ content, after.CrashLeaves content → content = some data := by
  have hRun := writeAtomically_meets parent data disk replies
  rcases hEnd : writeAtomically parent data disk replies with ⟨_ | error | _, after, left⟩
  · rw [hEnd] at hRun
    obtain ⟨hReplaced, hSettled⟩ := hRun
    have hCrash : ∀ content, after.CrashLeaves content → content = some data := by
      intro content hLeaves
      rcases hReplaced.crashLeaves hLeaves with hData | ⟨hPending, _⟩
      · exact hData
      · exact absurd hSettled hPending
    exact ⟨fun _ _ => hReplaced.content_eq, nofun, nofun,
      fun content hLeaves => Or.inl (hCrash content hLeaves), fun _ _ => hCrash⟩
  · rw [hEnd] at hRun
    rcases hRun with hUntouched | hReplaced
    · exact ⟨nofun, fun _ _ => Or.inl ⟨hUntouched.renames_eq, hUntouched.target_eq⟩, nofun,
        fun content hLeaves => Or.inr (hUntouched.crashLeaves hLeaves), nofun⟩
    · exact ⟨nofun, fun _ _ => Or.inr ⟨hReplaced.renames_eq, hReplaced.content_eq⟩, nofun,
        fun content hLeaves => (hReplaced.crashLeaves hLeaves).imp_right And.right, nofun⟩
  · rw [hEnd] at hRun
    rcases hRun with hUntouched | hReplaced
    · exact ⟨nofun, nofun, fun _ => Or.inl hUntouched.target_eq,
        fun content hLeaves => Or.inr (hUntouched.crashLeaves hLeaves), nofun⟩
    · exact ⟨nofun, nofun, fun _ => Or.inr hReplaced.content_eq,
        fun content hLeaves => (hReplaced.crashLeaves hLeaves).imp_right And.right, nofun⟩

/-- Every run is one of the three ends that `Storage.writeAtomically` knows; a
run that stops leaves the file as a failing end does. -/
theorem refines_writeAtomically (parent data : Bytes) (disk : Disk) (replies : List Reply) :
    match writeAtomically parent data disk replies with
    | (.returned (), after, _) =>
        Storage.writeAtomically disk.content data .saved = (.ok (), after.content)
    | (.threw error, after, _) => ∃ outcome, Storage.writeAtomically disk.content data outcome =
        (.error error, after.content)
    | (.stopped, after, _) => ∃ outcome error, Storage.writeAtomically disk.content data outcome =
        (.error error, after.content) := by
  have hRun := writeAtomically_meets parent data disk replies
  rcases hEnd : writeAtomically parent data disk replies with ⟨_ | error | _, after, left⟩
  · rw [hEnd] at hRun
    dsimp only
    rw [hRun.1.content_eq]
    rfl
  · rw [hEnd] at hRun
    rcases hRun with hUntouched | hReplaced
    · exact ⟨.failedBeforeRename error, by rw [hUntouched.content_eq]; rfl⟩
    · exact ⟨.failedAfterRename error, by rw [hReplaced.content_eq]; rfl⟩
  · rw [hEnd] at hRun
    rcases hRun with hUntouched | hReplaced
    · exact ⟨.failedBeforeRename stoppedError, stoppedError, by rw [hUntouched.content_eq]; rfl⟩
    · exact ⟨.failedAfterRename stoppedError, stoppedError, by rw [hReplaced.content_eq]; rfl⟩

end LogBridge.Persistence
