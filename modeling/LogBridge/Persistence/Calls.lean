import LogBridge.Persistence.Model

/-! One rule for each function below the two durable writes: what must hold in
the worlds it can leave behind, for any postcondition. -/
namespace LogBridge.Persistence

open Scripted

/-- The error that stands for the end of the process, which nobody catches. -/
def stoppedError : Exception := .systemError "process stopped"

variable {disk : Disk} {post : Post Disk Exception Unit}

theorem attempt_meets {effect : Disk → Disk} {post : Post Disk Exception Bool}
    (hStopped : post.stopped disk) (hDone : post.returned true (effect disk))
    (hFailed : post.returned false disk) : Meets disk (attempt effect) post := by
  apply Meets.call hStopped
  intro reply
  cases reply with
  | success count => exact hDone
  | interrupted => exact hFailed
  | failed => exact hFailed

theorem ensureParentDirectory_meets {parent : Bytes} (hReturned : post.returned () disk)
    (hThrew : ∀ error, post.threw error disk) (hStopped : post.stopped disk) :
    Meets disk (ensureParentDirectory parent) post := by
  rw [ensureParentDirectory]
  split_ifs
  · exact Meets.require (attempt_meets hStopped hReturned (hThrew _))
  · exact Meets.pure hReturned

theorem File.append_nil (file : File) : file.append [] = file := if_pos rfl

theorem File.append_append (file : File) (first second : Bytes) :
    (file.append first).append second = file.append (first ++ second) := by
  unfold File.append
  split_ifs with hSecond hFirst hBoth hBoth hBoth <;> simp_all

theorem Disk.append_nil (disk : Disk) (handle : Handle) : disk.append handle [] = disk := by
  cases handle with
  | target => simp [append, File.append_nil]
  | temporary => simp [append, File.append_nil]
  | directory => rfl

theorem Disk.append_append (disk : Disk) (handle : Handle) (first second : Bytes) :
    (disk.append handle first).append handle second = disk.append handle (first ++ second) := by
  cases handle with
  | target => simp [append, Function.comp_def, File.append_append]
  | temporary => simp [append, Function.comp_def, File.append_append]
  | directory => rfl

/-- The loop has written a prefix of the data when it is left early, and all of
them when it ends. -/
theorem writeAll_meets {handle : Handle} {data : Bytes}
    (hReturned : post.returned () (disk.append handle data))
    (hThrew : ∀ count error, post.threw error (disk.append handle (data.take count)))
    (hStopped : ∀ count, post.stopped (disk.append handle (data.take count))) :
    Meets disk (writeAll handle data) post := by
  have hStart : disk = disk.append handle (data.take 0) := (disk.append_nil handle).symm
  apply @Meets.loop _ _ _ _ _ _ _ _ _
    (fun writtenBytes after => after = disk.append handle (data.take writtenBytes)) 0 hStart
  · rintro writtenBytes _ _ rfl hDone
    split_ifs at hDone with hMore
    rw [List.take_of_length_le (Nat.not_lt.mp hMore)]
    exact hReturned
  · rintro writtenBytes _ reply rfl hMore
    cases reply with
    | success count =>
        rw [writeRound, write]
        rw [Disk.append_append, ← List.take_add]
        cases hCount : min count (data.drop writtenBytes).length with
        | zero => exact hThrew _ _
        | succ written =>
            dsimp only
            congr 1
            rw [← hCount, List.length_drop, List.take_eq_take_iff]
            omega
    | interrupted => rfl
    | failed => exact hThrew _ _
  · rintro writtenBytes _ rfl
    exact hStopped writtenBytes

theorem syncAndClose_meets {handle : Handle} (hReturned : post.returned () (disk.sync handle))
    (hThrew : ∀ error, post.threw error disk ∧ post.threw error (disk.sync handle))
    (hStopped : post.stopped disk ∧ post.stopped (disk.sync handle)) :
    Meets disk (syncAndClose handle) post := by
  apply Meets.bind
  apply attempt_meets hStopped.1
  · exact Meets.require (attempt_meets hStopped.2 hReturned (hThrew _).2)
  · apply Meets.bind
    exact attempt_meets hStopped.1 (Meets.throwing (hThrew _).1) (Meets.throwing (hThrew _).1)

theorem syncParentDirectory_meets (hReturned : post.returned () (disk.sync .directory))
    (hThrew : ∀ error, post.threw error disk ∧ post.threw error (disk.sync .directory))
    (hStopped : post.stopped disk ∧ post.stopped (disk.sync .directory)) :
    Meets disk syncParentDirectory post := by
  apply Meets.bind
  apply Meets.require
  exact attempt_meets hStopped.1 (syncAndClose_meets hReturned hThrew hStopped) (hThrew _).1

end LogBridge.Persistence
