import LogBridge.FileTailReader.Stretches

/-! Restarting from a checkpoint. The new reader reads again the tail that the old
one keeps in memory. The two are at different positions until a poll of both
returns, and they return the same lines. -/
namespace LogBridge.FileTailReader

open Lines

/-- The file grows, and one reader polls. -/
structure Round where
  more : Bytes
  outcome : PollOutcome

def growStep (fileId : FileId) (state : Tailing) (round : Round) : Option Tailing :=
  (state.grow fileId round.more).map fun grown => grown.poll round.outcome

/-- The old reader with the lines it returned since the restart, and the new reader.
`together` says that the last polls that returned were made in the same round. -/
structure Pair where
  old : Tailing
  new : Tailing
  together : Bool := true

/-- The file grows, and both readers poll. Either poll may throw. -/
structure PairRound where
  more : Bytes
  oldOutcome : PollOutcome
  newOutcome : PollOutcome

/-- The poll returns lines. -/
def Tailing.returns (state : Tailing) (outcome : PollOutcome) : Bool :=
  (state.reader.readNewLines state.fileSystem outcome).1.toOption.isSome

def pairStep (fileId : FileId) (pair : Pair) (round : PairRound) : Option Pair := do
  let old ← pair.old.grow fileId round.more
  let new ← pair.new.grow fileId round.more
  let together :=
    match old.returns round.oldOutcome, new.returns round.newOutcome with
    | true, true => true
    | false, false => pair.together
    | _, _ => false
  return { old := old.poll round.oldOutcome, new := new.poll round.newOutcome, together }

/-- The pair at the restart. -/
def restartPair (state : Tailing) (restarted : FileTailReader) : Pair where
  old := { state with lines := [] }
  new := { reader := restarted, fileSystem := state.fileSystem, start := restarted.offset.toNat }

/-- What the restart after `state` changes: nothing that the output shows. -/
structure SameOutput (fileId : FileId) (state : Tailing) (pair : Pair) : Prop where
  same : pair.together = true → pair.old.lines = pair.new.lines ∧
    pair.old.reader.committedOffset = pair.new.reader.committedOffset
  /-- With the lines before the restart, the new lines are those of the file. -/
  whole : state.lines ++ pair.new.lines =
    logLines (pair.new.reader.bytesRead state.start (pair.new.fileSystem.content fileId).bytes)
  pending_eq : pair.new.reader.pending =
    tail Text.newline (pair.new.reader.bytesRead state.start (pair.new.fileSystem.content fileId).bytes)

variable {reader : FileTailReader} {fileId : FileId}

/-- A poll either throws and changes nothing, or returns the new lines. -/
theorem poll_cases {state : Tailing} (outcome : PollOutcome)
    (hPath : state.fileSystem.path = some fileId)
    (h : Follows state.reader fileId state.start (state.fileSystem.content fileId).bytes) :
    state.returns outcome = false ∧ state.poll outcome = state ∨
      state.returns outcome = true ∧ state.poll outcome = { state with
        reader := state.reader.caughtUp (state.fileSystem.content fileId).bytes
        lines := state.lines ++ state.reader.newLines (state.fileSystem.content fileId).bytes } := by
  rcases readNewLines_cases outcome hPath h with ⟨error, hError⟩ | hOk
  · left
    rw [Tailing.returns, Tailing.poll, hError]
    exact ⟨rfl, rfl⟩
  · right
    rw [Tailing.returns, Tailing.poll, hOk]
    exact ⟨rfl, rfl⟩

/-- Reading from a line start or from an earlier one gives the same tail and the
same further lines. -/
theorem bytesRead_split {content : Bytes} {start checkpoint : Nat} (hStart : start ≤ checkpoint)
    (hRead : checkpoint ≤ reader.offset.toNat) (hLe : reader.offset.toNat ≤ content.length)
    (hLine : tail Text.newline ((content.take checkpoint).drop start) = []) :
    logLines (reader.bytesRead start content) =
        logLines ((content.take checkpoint).drop start) ++ logLines (reader.bytesRead checkpoint content) ∧
      tail Text.newline (reader.bytesRead start content) =
        tail Text.newline (reader.bytesRead checkpoint content) := by
  have hSplit : reader.bytesRead start content =
      (content.take checkpoint).drop start ++ reader.bytesRead checkpoint content := by
    have hPrefix : content.take checkpoint = (content.take reader.offset.toNat).take checkpoint := by
      rw [List.take_take, Nat.min_eq_left hRead]
    have hLength : start ≤ ((content.take reader.offset.toNat).take checkpoint).length := by
      rw [List.length_take, List.length_take]
      omega
    rw [bytesRead, bytesRead, hPrefix, ← List.drop_append_of_le_length hLength, List.take_append_drop]
  rw [hSplit, logLines_append, tail_append, hLine, List.nil_append]
  exact ⟨rfl, rfl⟩

/-- The lines before the checkpoint have been returned, and no part of a line
stands right before it. -/
structure Checkpoint (lines : List Bytes) (start checkpoint : Nat) (content : Bytes) : Prop where
  start_le : start ≤ checkpoint
  le_length : checkpoint ≤ content.length
  lines_eq : logLines ((content.take checkpoint).drop start) = lines
  atLine : tail Text.newline ((content.take checkpoint).drop start) = []

theorem Checkpoint.append {lines : List Bytes} {start checkpoint : Nat} {content : Bytes}
    (h : Checkpoint lines start checkpoint content) (more : Bytes) :
    Checkpoint lines start checkpoint (content ++ more) := by
  have hTake := @List.take_append_of_le_length _ content more _ h.le_length
  refine ⟨h.start_le, ?_, hTake ▸ h.lines_eq, hTake ▸ h.atLine⟩
  rw [List.length_append]
  exact h.le_length.trans (Nat.le_add_right _ _)

theorem Steady.checkpoint {state : Tailing} (h : Steady fileId state) :
    Checkpoint state.lines state.start state.reader.committedOffset.toNat
      (state.fileSystem.content fileId).bytes := by
  obtain ⟨hStart, hEnd, _⟩ := h.follows.committed
  obtain ⟨hLines, hTail⟩ := h.follows.committed_lines
  exact ⟨hStart, hEnd, hLines.trans h.lines_eq.symm, hTail⟩

/-- The invariant of the two readers. Before their first common poll they have
returned nothing, and after it they are at the same position. -/
structure Twin (fileId : FileId) (state : Tailing) (pair : Pair) : Prop where
  sameFiles : pair.old.fileSystem = pair.new.fileSystem
  start_eq : pair.old.start = state.start
  new : Steady fileId pair.new
  old : Follows pair.old.reader fileId state.start (pair.new.fileSystem.content fileId).bytes
  oldLines : state.lines ++ pair.old.lines =
    logLines (pair.old.reader.bytesRead state.start (pair.new.fileSystem.content fileId).bytes)
  checkpoint : Checkpoint state.lines state.start pair.new.start (pair.new.fileSystem.content fileId).bytes
  together : pair.together = true → pair.old.reader.offset = pair.new.reader.offset ∨
    pair.old.lines = [] ∧ pair.new.lines = [] ∧
      pair.old.reader.committedOffset = pair.new.reader.committedOffset

theorem Twin.sameOutput {state : Tailing} {pair : Pair} (h : Twin fileId state pair) :
    SameOutput fileId state pair := by
  obtain ⟨hLines, hTail⟩ := bytesRead_split h.checkpoint.start_le h.new.follows.start_le
    h.new.follows.offset_le h.checkpoint.atLine
  have hWhole : state.lines ++ pair.new.lines = logLines
      (pair.new.reader.bytesRead state.start (pair.new.fileSystem.content fileId).bytes) := by
    rw [hLines, h.checkpoint.lines_eq, h.new.lines_eq]
  have hPending : pair.new.reader.pending = tail Text.newline
      (pair.new.reader.bytesRead state.start (pair.new.fileSystem.content fileId).bytes) := by
    rw [hTail, h.new.follows.pending_eq]
  refine ⟨fun hTogether => ?_, hWhole, hPending⟩
  rcases h.together hTogether with hOffset | ⟨hOld, hNew, hCommitted⟩
  · have hSame : pair.old.reader.bytesRead state.start (pair.new.fileSystem.content fileId).bytes =
        pair.new.reader.bytesRead state.start (pair.new.fileSystem.content fileId).bytes := by
      rw [bytesRead, bytesRead, hOffset]
    constructor
    · exact List.append_cancel_left (h.oldLines.trans (by rw [hSame, hWhole]))
    · rw [committedOffset, committedOffset, h.old.pending_eq, hSame, hPending, hOffset]
  · exact ⟨hOld.trans hNew.symm, hCommitted⟩

theorem Twin.start {state : Tailing} {restarted : FileTailReader} {outcome : OpenOutcome}
    (h : Steady fileId state)
    (hRestart : construct state.reader.path state.fileSystem state.reader.committedOffset
      state.reader.deviceId state.reader.inode outcome = .ok restarted) :
    Twin fileId state (restartPair state restarted) := by
  obtain ⟨hNonempty, offset, rfl, hLe, hOffset⟩ := construct_eq_ok h.path_eq hRestart
  have hSame : IdentityMatches state.reader.deviceId state.reader.inode fileId :=
    .inr (.inr ⟨h.follows.deviceId_eq, h.follows.inode_eq⟩)
  obtain rfl := (hOffset h.checkpoint.le_length).resolve_right fun hOther => hOther.2 hSame
  constructor
  · rfl
  · rfl
  · exact steady_opened h.path_eq hNonempty hLe
  · exact h.follows
  · exact (List.append_nil _).trans h.lines_eq
  · exact h.checkpoint
  · intro _
    refine .inr ⟨rfl, rfl, ?_⟩
    exact (UInt64.sub_zero _).symm

theorem grow_fileSystem {first second grownFirst grownSecond : Tailing} {more : Bytes}
    (hSame : first.fileSystem = second.fileSystem) (hFirst : first.grow fileId more = some grownFirst)
    (hSecond : second.grow fileId more = some grownSecond) :
    grownFirst.fileSystem = grownSecond.fileSystem := by
  rw [Tailing.grow] at hFirst hSecond
  split_ifs at hFirst hSecond with hSize hOther
  cases hFirst
  cases hSecond
  simp only [hSame]

theorem Twin.grow {state old new : Tailing} {pair : Pair} {more : Bytes} (h : Twin fileId state pair)
    (hOld : pair.old.grow fileId more = some old) (hNew : pair.new.grow fileId more = some new) :
    Twin fileId state { pair with old, new } := by
  have hFiles := grow_fileSystem h.sameFiles hOld hNew
  have hSteady := h.new.grow hNew
  obtain ⟨oldFiles, rfl, _, _⟩ := grow_cases hOld
  obtain ⟨newFiles, rfl, _, hContent⟩ := grow_cases hNew
  constructor
  · exact hFiles
  · exact h.start_eq
  · exact hSteady
  · change Follows _ _ _ (newFiles.content fileId).bytes
    rw [hContent]
    exact h.old.append more
  · change _ = logLines (bytesRead _ _ (newFiles.content fileId).bytes)
    rw [hContent, h.old.bytesRead_append]
    exact h.oldLines
  · change Checkpoint _ _ _ (newFiles.content fileId).bytes
    rw [hContent]
    exact h.checkpoint.append more
  · exact h.together

/-- After a poll that returns, a reader is at the end of the file. -/
theorem Twin.poll {state : Tailing} {pair : Pair} (h : Twin fileId state pair)
    (oldOutcome newOutcome : PollOutcome) :
    Twin fileId state
      { old := pair.old.poll oldOutcome
        new := pair.new.poll newOutcome
        together :=
          match pair.old.returns oldOutcome, pair.new.returns newOutcome with
          | true, true => true
          | false, false => pair.together
          | _, _ => false } := by
  have hSteady := h.new.poll newOutcome
  have hOldFollows : Follows pair.old.reader fileId pair.old.start
      (pair.old.fileSystem.content fileId).bytes := by
    rw [h.start_eq, h.sameFiles]
    exact h.old
  have hOldPath : pair.old.fileSystem.path = some fileId := by
    rw [h.sameFiles]
    exact h.new.path_eq
  obtain ⟨hCaughtUp, hRead⟩ := h.old.caughtUp
  have hLines : state.lines ++ (pair.old.lines ++
      pair.old.reader.newLines (pair.new.fileSystem.content fileId).bytes) =
        logLines ((pair.old.reader.caughtUp (pair.new.fileSystem.content fileId).bytes).bytesRead
          state.start (pair.new.fileSystem.content fileId).bytes) := by
    rw [← List.append_assoc, h.oldLines, hRead, h.old.logLines_drop]
  rcases poll_cases oldOutcome hOldPath hOldFollows with ⟨hOld, hOldPoll⟩ | ⟨hOld, hOldPoll⟩
  · rcases poll_cases newOutcome h.new.path_eq h.new.follows with ⟨hNew, hNewPoll⟩ | ⟨hNew, hNewPoll⟩
    · rw [hOld, hNew, hOldPoll, hNewPoll]
      exact { h with }
    · rw [hNewPoll] at hSteady
      rw [hOld, hNew, hOldPoll, hNewPoll]
      exact ⟨h.sameFiles, h.start_eq, hSteady, h.old, h.oldLines, h.checkpoint, nofun⟩
  · rw [h.sameFiles] at hOldPoll
    rcases poll_cases newOutcome h.new.path_eq h.new.follows with ⟨hNew, hNewPoll⟩ | ⟨hNew, hNewPoll⟩
    · rw [hOld, hNew, hOldPoll, hNewPoll]
      exact ⟨rfl, h.start_eq, h.new, hCaughtUp, hLines, h.checkpoint, nofun⟩
    · rw [hNewPoll] at hSteady
      rw [hOld, hNew, hOldPoll, hNewPoll]
      exact ⟨rfl, h.start_eq, hSteady, hCaughtUp, hLines, h.checkpoint, fun _ => .inl rfl⟩

theorem Twin.step {state : Tailing} {pair next : Pair} {round : PairRound} (h : Twin fileId state pair)
    (hStep : pairStep fileId pair round = some next) : Twin fileId state next := by
  obtain ⟨old, hOld, hStep⟩ := Option.bind_eq_some_iff.mp hStep
  obtain ⟨new, hNew, hStep⟩ := Option.bind_eq_some_iff.mp hStep
  cases hStep
  exact (h.grow hOld hNew).poll round.oldOutcome round.newOutcome

/-- A reader opened at the checkpoint of another one goes on like it: whatever the
reads and failures before and after, and however the file grows. -/
theorem restart_invisible (path : Bytes) (fileSystem : FileSystem) (fileId : FileId)
    (initialOffset expectedDeviceId expectedInode : UInt64) (outcome restartOutcome : OpenOutcome)
    (reader restarted : FileTailReader) (rounds : List Round) (pairRounds : List PairRound)
    (state : Tailing) (finish : Pair) (hPath : fileSystem.path = some fileId)
    (hOpen : construct path fileSystem initialOffset expectedDeviceId expectedInode outcome = .ok reader)
    (hRun : Runs.run (growStep fileId) { reader, fileSystem, start := reader.offset.toNat } rounds =
      some state)
    (hRestart : construct state.reader.path state.fileSystem state.reader.committedOffset
      state.reader.deviceId state.reader.inode restartOutcome = .ok restarted)
    (hPair : Runs.run (pairStep fileId) (restartPair state restarted) pairRounds = some finish) :
    SameOutput fileId state finish := by
  obtain ⟨hNonempty, offset, rfl, hLe, _⟩ := construct_eq_ok hPath hOpen
  have hSteady : Steady fileId state := by
    refine @Runs.invariant _ _ _ _ _ _ (fun state => Steady fileId state) (fun _ => True)
      (steady_opened hPath hNonempty hLe) ?_ (fun _ _ => trivial) hRun
    intro before round after _ hBefore hStep
    obtain ⟨grown, hGrow, rfl⟩ := Option.map_eq_some_iff.mp hStep
    exact (hBefore.grow hGrow).poll round.outcome
  refine Twin.sameOutput ?_
  exact @Runs.invariant _ _ _ _ _ _ (fun pair => Twin fileId state pair) (fun _ => True)
    (.start hSteady hRestart) (fun _ _ _ _ h hStep => h.step hStep) (fun _ _ => trivial) hPair

/-- The first poll of the new reader fails, and the line after the first one arrives in parts. -/
def sampleRounds : List PairRound :=
  [⟨[99], {}, { preads := [.failed] }⟩, ⟨[13], { preads := [.short 0] }, {}⟩, ⟨[10], {}, {}⟩]

theorem restart_invisible_sample : ∃ state finish,
    Runs.run (growStep ⟨1, 1⟩) { reader := opened [119] ⟨1, 1⟩ 0, fileSystem := sampleFile, start := 0 }
      [⟨[120], { statFails := true }⟩] = some state ∧
    Runs.run (pairStep ⟨1, 1⟩) (restartPair state (opened [119] ⟨1, 1⟩ 0)) sampleRounds = some finish ∧
    SameOutput ⟨1, 1⟩ state finish :=
  ⟨_, _, rfl, rfl, restart_invisible [119] sampleFile ⟨1, 1⟩ 0 0 0 {} {} (opened [119] ⟨1, 1⟩ 0)
    (opened [119] ⟨1, 1⟩ 0) [⟨[120], { statFails := true }⟩] sampleRounds _ _ rfl rfl rfl rfl rfl⟩

end LogBridge.FileTailReader
