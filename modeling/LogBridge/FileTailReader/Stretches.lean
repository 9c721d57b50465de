import LogBridge.FileTailReader.Tracking
import LogBridge.Library.Runs
import Mathlib.Logic.Function.Basic

/-! Reading one file from any start. A stretch begins where the reader starts, or
at a truncation; in it the file only grows. Reads may be short, interrupted or
fail, and what is returned depends only on the bytes read. -/
namespace LogBridge

/-- The files after the content of one of them has changed. -/
def FileSystem.write (fileSystem : FileSystem) (fileId : FileId) (file : LogFile) : FileSystem :=
  { fileSystem with content := Function.update fileSystem.content fileId file }

@[simp] theorem FileSystem.write_content (fileSystem : FileSystem) (fileId : FileId) (file : LogFile) :
    (fileSystem.write fileId file).content fileId = file :=
  Function.update_self ..

namespace FileTailReader

open Lines

/-- How the file changes between two polls. -/
inductive Change where
  | grow (more : Bytes)
  | truncate (file : LogFile)

/-- A change of the file and the poll after it, with the ends of its reads. -/
structure TailPoll where
  change : Change
  preads : List PreadOutcome

/-- The reader and the files, the start of the stretch, and the lines returned in it. -/
structure Tailing where
  reader : FileTailReader
  fileSystem : FileSystem
  start : Nat
  lines : List Bytes := []

/-- A poll that throws returns no lines. -/
def Tailing.poll (state : Tailing) (outcome : PollOutcome) : Tailing :=
  match state.reader.readNewLines state.fileSystem outcome with
  | (.error _, reader) => { state with reader }
  | (.ok lines, reader) => { state with reader, lines := state.lines ++ lines }

/-- The file grows, unless it would become too large. -/
def Tailing.grow (fileId : FileId) (state : Tailing) (more : Bytes) : Option Tailing :=
  if hSize : ((state.fileSystem.content fileId).bytes ++ more).length < 2 ^ 63 then
    some { state with
      fileSystem := state.fileSystem.write fileId
        { bytes := (state.fileSystem.content fileId).bytes ++ more, size_lt := hSize } }
  else none

/-- A truncation leaves less than has been read. -/
def tailStep (fileId : FileId) (state : Tailing) (poll : TailPoll) : Option Tailing :=
  match poll.change with
  | .grow more => (state.grow fileId more).map fun grown => grown.poll { preads := poll.preads }
  | .truncate file =>
      if file.bytes.length < state.reader.offset.toNat then
        let truncated : Tailing :=
          { reader := state.reader, fileSystem := state.fileSystem.write fileId file, start := 0 }
        some (truncated.poll { preads := poll.preads })
      else none

/-- What the reader knows depends on the bytes read only. -/
structure Tailed (fileId : FileId) (state : Tailing) : Prop where
  lines_eq : state.lines =
    logLines (state.reader.bytesRead state.start (state.fileSystem.content fileId).bytes)
  pending_eq : state.reader.pending =
    tail Text.newline (state.reader.bytesRead state.start (state.fileSystem.content fileId).bytes)
  noNewline : Text.newline ∉ state.reader.pending
  noUnderflow : state.reader.pending.length ≤ state.reader.offset.toNat
  /-- From the start of the stretch to the committed offset stand the returned lines. -/
  committed : state.start ≤ state.reader.committedOffset.toNat ∧
    state.reader.committedOffset.toNat ≤ (state.fileSystem.content fileId).bytes.length ∧
    ((state.fileSystem.content fileId).bytes.take state.reader.committedOffset.toNat).drop state.start =
      (complete Text.newline
        (state.reader.bytesRead state.start (state.fileSystem.content fileId).bytes)).flatMap
          (· ++ [Text.newline])
  /-- After a truncation a poll is that of a new reader. -/
  fresh : ∀ (file : LogFile) (preads : List PreadOutcome) (reader : FileTailReader),
    file.bytes.length < state.reader.offset.toNat →
    construct state.reader.path (state.fileSystem.write fileId file) 0 0 0 {} = .ok reader →
      state.reader.readNewLines (state.fileSystem.write fileId file) { preads } =
        reader.readNewLines (state.fileSystem.write fileId file) { preads }

variable {reader next : FileTailReader} {fileSystem : FileSystem} {fileId : FileId}

/-! New readers. -/

theorem opened_follows {path content : Bytes} {offset : UInt64} (hLe : offset.toNat ≤ content.length) :
    Follows (opened path fileId offset) fileId offset.toNat content := by
  refine ⟨rfl, rfl, rfl, rfl, Nat.le_refl _, hLe, ?_⟩
  rw [bytesRead]
  have hNone : (content.take offset.toNat).drop offset.toNat = [] := by
    rw [List.drop_eq_nil_iff, List.length_take]
    exact Nat.min_le_left _ _
  exact (congrArg (tail Text.newline) hNone).symm

/-! Truncation. -/

/-- The reader notices that the file is shorter than its position and starts again. -/
theorem readNewLines_truncated {preads : List PreadOutcome} (hPath : fileSystem.path = some fileId)
    (hOpen : reader.openFile = some fileId) (hDevice : reader.deviceId = fileId.device)
    (hInode : reader.inode = fileId.inode) (hSwitch : reader.switchOnNextRead = false)
    (hShort : (fileSystem.content fileId).bytes.length < reader.offset.toNat) :
    reader.readNewLines fileSystem { preads } =
      (opened reader.path fileId 0).readNewLines fileSystem { preads } := by
  have hSize := toNat_ofNat_length (fileSystem.content fileId)
  have hLess : UInt64.ofNat (fileSystem.content fileId).bytes.length < reader.offset := by
    rw [UInt64.lt_iff_toNat_lt, hSize]
    exact hShort
  have hKept : fileSystem.path.any reader.replacedBy = false := by
    rw [hPath]
    simp [replacedBy, hDevice, hInode]
  have hKeptNew : fileSystem.path.any (opened reader.path fileId 0).replacedBy = false := by
    rw [hPath]
    simp [replacedBy, opened]
  have hSwitchNew : (opened reader.path fileId 0).switchOnNextRead = false := rfl
  rw [readNewLines, readNewLines, hSwitch, hSwitchNew, hKept, hKeptNew]
  simp only [Bool.false_eq_true, if_false]
  unfold readFromOpenFile
  rw [hOpen]
  simp only [opened, if_pos hLess]
  obtain ⟨path, openFile, offset, pending, deviceId, inode, switch⟩ := reader
  subst hOpen hDevice hInode hSwitch
  rfl

/-! Runs. -/

/-- The invariant of the polls. -/
structure Steady (fileId : FileId) (state : Tailing) : Prop where
  path_eq : state.fileSystem.path = some fileId
  path_ne_nil : state.reader.path ≠ []
  follows : Follows state.reader fileId state.start (state.fileSystem.content fileId).bytes
  lines_eq : state.lines =
    logLines (state.reader.bytesRead state.start (state.fileSystem.content fileId).bytes)

theorem Steady.poll {state : Tailing} (h : Steady fileId state) (outcome : PollOutcome) :
    Steady fileId (state.poll outcome) := by
  rcases readNewLines_cases outcome h.path_eq h.follows with ⟨error, hError⟩ | hOk
  · rw [Tailing.poll, hError]
    exact ⟨h.path_eq, h.path_ne_nil, h.follows, h.lines_eq⟩
  · obtain ⟨hFollows, hRead⟩ := h.follows.caughtUp
    rw [Tailing.poll, hOk]
    refine ⟨h.path_eq, h.path_ne_nil, hFollows, ?_⟩
    change state.lines ++ _ = _
    rw [h.lines_eq, hRead, h.follows.logLines_drop]

theorem grow_cases {state grown : Tailing} {more : Bytes} (h : state.grow fileId more = some grown) :
    ∃ fileSystem, grown = { state with fileSystem } ∧ fileSystem.path = state.fileSystem.path ∧
      (fileSystem.content fileId).bytes = (state.fileSystem.content fileId).bytes ++ more := by
  rw [Tailing.grow] at h
  split_ifs at h with hSize
  cases h
  refine ⟨_, rfl, rfl, ?_⟩
  rw [FileSystem.write_content]

theorem Steady.grow {state grown : Tailing} {more : Bytes} (h : Steady fileId state)
    (hGrow : state.grow fileId more = some grown) : Steady fileId grown := by
  obtain ⟨fileSystem, rfl, hPath, hContent⟩ := grow_cases hGrow
  refine ⟨hPath.trans h.path_eq, h.path_ne_nil, ?_, ?_⟩
  · rw [hContent]
    exact h.follows.append more
  · dsimp only
    rw [hContent, h.follows.bytesRead_append]
    exact h.lines_eq

/-- A poll after a truncation is the first poll of a new reader at the start. -/
theorem Steady.truncated {state : Tailing} (h : Steady fileId state) {file : LogFile}
    (preads : List PreadOutcome) (hShort : file.bytes.length < state.reader.offset.toNat) :
    state.reader.readNewLines (state.fileSystem.write fileId file) { preads } =
      (opened state.reader.path fileId 0).readNewLines (state.fileSystem.write fileId file) { preads } := by
  refine readNewLines_truncated ?_ h.follows.isOpen h.follows.deviceId_eq h.follows.inode_eq
    h.follows.noSwitch ?_
  · exact h.path_eq
  · rwa [FileSystem.write_content]

theorem Steady.step {state next : Tailing} {poll : TailPoll} (h : Steady fileId state)
    (hStep : tailStep fileId state poll = some next) : Steady fileId next := by
  obtain ⟨change, preads⟩ := poll
  cases change with
  | grow more =>
      obtain ⟨grown, hGrow, rfl⟩ := Option.map_eq_some_iff.mp hStep
      exact (h.grow hGrow).poll { preads }
  | truncate file =>
      simp only [tailStep] at hStep
      split_ifs at hStep with hShort
      cases hStep
      have hNew : Steady fileId
          { reader := opened state.reader.path fileId 0
            fileSystem := state.fileSystem.write fileId file, start := 0 } :=
        ⟨h.path_eq, h.path_ne_nil, opened_follows (Nat.zero_le _), rfl⟩
      have hSame := h.truncated preads hShort
      have hPoll := hNew.poll { preads }
      rw [Tailing.poll] at hPoll ⊢
      dsimp only at hPoll ⊢
      rwa [hSame]

theorem Steady.tailed {state : Tailing} (h : Steady fileId state) : Tailed fileId state where
  lines_eq := h.lines_eq
  pending_eq := h.follows.pending_eq
  noNewline := h.follows.noNewline
  noUnderflow := h.follows.committedOffset_toNat.1.trans (Nat.sub_le _ _)
  committed := h.follows.committed
  fresh := by
    intro file preads reader hShort hConstruct
    have hPath : (state.fileSystem.write fileId file).path = some fileId := h.path_eq
    obtain ⟨_, offset, rfl, _, hOffset⟩ := construct_eq_ok hPath hConstruct
    rcases hOffset (Nat.zero_le _) with rfl | ⟨rfl, _⟩
    · exact h.truncated preads hShort
    · exact h.truncated preads hShort

theorem steady_opened {path : Bytes} {offset : UInt64} (hPath : fileSystem.path = some fileId)
    (hNonempty : path ≠ []) (hLe : offset.toNat ≤ (fileSystem.content fileId).bytes.length) :
    Steady fileId { reader := opened path fileId offset, fileSystem, start := offset.toNat } := by
  have hFollows : Follows (opened path fileId offset) fileId offset.toNat
      (fileSystem.content fileId).bytes := opened_follows hLe
  refine ⟨hPath, hNonempty, hFollows, ?_⟩
  have hNone := List.eq_nil_of_length_eq_zero (hFollows.bytesRead_length.trans (Nat.sub_self _))
  dsimp only
  rw [hNone]
  rfl

/-- From any start and over any changes and polls, what the reader returns and keeps
is determined by the bytes it has read in the present stretch. -/
theorem tail_reading (path : Bytes) (fileSystem : FileSystem) (fileId : FileId)
    (initialOffset expectedDeviceId expectedInode : UInt64) (outcome : OpenOutcome)
    (reader : FileTailReader) (polls : List TailPoll) (finish : Tailing)
    (hPath : fileSystem.path = some fileId)
    (hOpen : construct path fileSystem initialOffset expectedDeviceId expectedInode outcome = .ok reader)
    (hRun : Runs.run (tailStep fileId) { reader, fileSystem, start := reader.offset.toNat } polls =
      some finish) : Tailed fileId finish := by
  obtain ⟨hNonempty, offset, rfl, hLe, _⟩ := construct_eq_ok hPath hOpen
  refine Steady.tailed ?_
  exact @Runs.invariant _ _ _ _ _ _ (fun state => Steady fileId state) (fun _ => True)
    (steady_opened hPath hNonempty hLe) (fun _ _ _ _ h hStep => h.step hStep) (fun _ _ => trivial) hRun

/-- A file with one line and the beginning of another. -/
def sampleFile : FileSystem :=
  { path := some ⟨1, 1⟩, content := fun _ => { bytes := [97, 10, 98], size_lt := by decide } }

/-- The rest of the second line arrives, and a read is interrupted. -/
def samplePolls : List TailPoll :=
  [⟨.grow [], []⟩, ⟨.grow [99, 13], [.short 0, .failed]⟩, ⟨.grow [10], [.interrupted, .short 0]⟩]

theorem tail_reading_sample : ∃ finish,
    Runs.run (tailStep ⟨1, 1⟩)
      { reader := opened [119] ⟨1, 1⟩ 0, fileSystem := sampleFile, start := 0 } samplePolls =
      some finish ∧ Tailed ⟨1, 1⟩ finish :=
  ⟨_, rfl, tail_reading [119] sampleFile ⟨1, 1⟩ 0 0 0 {} (opened [119] ⟨1, 1⟩ 0) samplePolls _
    rfl rfl rfl⟩

end FileTailReader
end LogBridge
