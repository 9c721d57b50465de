import LogBridge.FileTailReader.Rotation
import Mathlib.Data.List.Nodup

/-! Any number of rotations. Where each file is left alone once its replacement has
been noticed and stays at the path until it has been opened, the reader returns the
lines file by file, whatever calls fail. -/
namespace LogBridge.FileTailReader

open Lines

/-- A file is not written once a poll has noticed its replacement, no file comes back,
and a file stays at the path until the reader has opened it. -/
def Orderly (state : Rotating) : RotationAction → Prop
  | .append fileId _ => fileId ∉ state.retired.map Prod.fst
  | .name none => state.reader.openFile = state.named.getLast?
  | .name (some fileId) => fileId ∉ state.named ∧ state.reader.openFile = state.named.getLast?
  | .poll _ => True

instance (state : Rotating) (action : RotationAction) : Decidable (Orderly state action) :=
  match action with
  | .append fileId _ => inferInstanceAs (Decidable (fileId ∉ state.retired.map Prod.fst))
  | .name none => inferInstanceAs (Decidable (state.reader.openFile = state.named.getLast?))
  | .name (some fileId) =>
      inferInstanceAs (Decidable (fileId ∉ state.named ∧ state.reader.openFile = state.named.getLast?))
  | .poll _ => .isTrue trivial

/-- All lines of the files whose replacement has been noticed. -/
def Rotating.finished (state : Rotating) : List (Option FileId × Bytes) :=
  state.retired.flatMap fun entry => label (some entry.1) (allLines (state.content entry.1))

/-- The complete lines of the file that is being read, up to the position. -/
def Rotating.current (state : Rotating) : List (Option FileId × Bytes) :=
  match state.reader.openFile, state.reader.switchOnNextRead with
  | some fileId, false =>
      label (some fileId) (logLines ((state.content fileId).take state.reader.offset.toNat))
  | _, _ => []

/-- The file that a checkpoint of the reader names. -/
def identity (reader : FileTailReader) : FileId :=
  ⟨reader.deviceId, reader.inode⟩

/-- The output so far, and what holds of the next poll. -/
structure FileByFile (state : Rotating) : Prop where
  output_eq : state.output = state.finished ++ state.current
  /-- The files are read in the order in which the path named them. -/
  order : ∃ rest, state.named = state.retired.map Prod.fst ++ rest ∧
    (state.reader.switchOnNextRead = false → state.reader.openFile = rest.head?)
  /-- A poll that returns reads the file that the checkpoint after it names, and with
  its lines the output has all lines of this file up to the committed offset. -/
  poll : ∀ outcome lines next, state.reader.readNewLines state.fileSystem outcome = (.ok lines, next) →
    next.openFile = some next.identity ∧
    next.committedOffset.toNat ≤ (state.content next.identity).length ∧
    linesOf next.identity state.output ++ lines =
      allLines ((state.content next.identity).take next.committedOffset.toNat)
  /-- A new file is read from its start, and nothing of it has been returned before. -/
  switch : ∀ outcome next, state.reader.switchOnNextRead = true →
    state.reader.openCurrentFile state.fileSystem 0 0 0 outcome = (.ok (), next) →
      next.openFile = state.fileSystem.path ∧ next.offset = 0 ∧ next.pending = [] ∧
        ∀ fileId, next.openFile = some fileId → linesOf fileId state.output = []

variable {reader next : FileTailReader} {fileSystem : FileSystem} {fileId : FileId}

/-! The invariant. -/

/-- The reader reads a file, and it may have been replaced already. -/
structure Reading (state : Rotating) (fileId : FileId) : Prop where
  follows : Follows state.reader fileId 0 (state.content fileId)
  output_eq : state.output = state.finished ++
    label (some fileId) (logLines (state.reader.bytesRead 0 (state.content fileId)))
  named_eq :
    state.named = state.retired.map Prod.fst ++ [fileId] ∧
        (∀ other, state.fileSystem.path = some other → other = fileId) ∨
      ∃ other, state.named = state.retired.map Prod.fst ++ [fileId, other] ∧
        state.fileSystem.path = some other

/-- The rest of a file has been returned, and the file at the path comes next. -/
structure Switching (state : Rotating) (old new : FileId) : Prop where
  switch : state.reader.switchOnNextRead = true
  openFile_eq : state.reader.openFile = none ∨ state.reader.openFile = some old
  identity_eq : state.reader.identity = old
  caughtUp : state.reader.offset.toNat = (state.content old).length
  pending_eq : state.reader.pending = []
  retired_eq : ∃ before, state.retired = before ++ [(old, state.content old)]
  output_eq : state.output = state.finished
  named_eq : state.named = state.retired.map Prod.fst ++ [new]
  path_eq : state.fileSystem.path = some new

structure Succession (state : Rotating) : Prop where
  nodup : state.named.Nodup
  phase : (∃ fileId, Reading state fileId) ∨ ∃ old new, Switching state old new

/-! Appending. -/

theorem finished_congr {first second : Rotating} (hRetired : first.retired = second.retired)
    (hContent : ∀ entry ∈ second.retired, first.content entry.1 = second.content entry.1) :
    first.finished = second.finished := by
  rw [Rotating.finished, Rotating.finished, hRetired]
  refine List.flatMap_congr fun entry hEntry => ?_
  rw [hContent entry hEntry]

theorem Succession.append {state next : Rotating} {fileId : FileId} {more : Bytes}
    (h : Succession state) (hOrderly : Orderly state (.append fileId more))
    (hStep : rotationStep state (.append fileId more) = some next) : Succession next := by
  obtain ⟨fileSystem, rfl, hPath, hGrowth, hOthers⟩ := rotationStep_append hStep
  have hRetired : ∀ file ∈ state.retired.map Prod.fst,
      (fileSystem.content file).bytes = state.content file := by
    intro file hFile
    exact hOthers file fun hSame => hOrderly (hSame ▸ hFile)
  have hFinished : Rotating.finished { state with fileSystem } = state.finished :=
    finished_congr rfl fun entry hEntry => hRetired entry.1 (List.mem_map_of_mem hEntry)
  refine ⟨h.nodup, ?_⟩
  rcases h.phase with ⟨current, hReading⟩ | ⟨old, new, hSwitching⟩
  · left
    obtain ⟨late, hLate⟩ := hGrowth current
    have hContent : Rotating.content { state with fileSystem } current = state.content current ++ late := hLate
    refine ⟨current, ?_, ?_, ?_⟩
    · rw [hContent]
      exact hReading.follows.append late
    · rw [hContent, hFinished, hReading.follows.bytesRead_append]
      exact hReading.output_eq
    · rw [hPath]
      exact hReading.named_eq
  · right
    obtain ⟨before, hBefore⟩ := hSwitching.retired_eq
    have hOld : Rotating.content { state with fileSystem } old = state.content old := by
      refine hRetired old ?_
      rw [hBefore, List.map_append]
      exact List.mem_append_right _ (List.mem_singleton_self _)
    refine ⟨old, new, ?_⟩
    constructor
    · exact hSwitching.switch
    · exact hSwitching.openFile_eq
    · exact hSwitching.identity_eq
    · rw [hOld]
      exact hSwitching.caughtUp
    · exact hSwitching.pending_eq
    · rw [hOld]
      exact hSwitching.retired_eq
    · rw [hFinished]
      exact hSwitching.output_eq
    · exact hSwitching.named_eq
    · exact hPath.trans hSwitching.path_eq

/-! Naming. -/

theorem notMem_of_nodup {files rest : List FileId} (h : (files ++ fileId :: rest).Nodup) :
    fileId ∉ files := by
  intro hMem
  exact (List.nodup_append.mp h).2.2 fileId hMem fileId List.mem_cons_self rfl

theorem Reading.notRetired {state : Rotating} (h : Reading state fileId) (hNodup : state.named.Nodup) :
    fileId ∉ state.retired.map Prod.fst := by
  rcases h.named_eq with ⟨hNamed, _⟩ | ⟨other, hNamed, _⟩
  · rw [hNamed] at hNodup
    exact notMem_of_nodup hNodup
  · rw [hNamed] at hNodup
    exact notMem_of_nodup hNodup

theorem Switching.old_ne_new {state : Rotating} {old new : FileId} (h : Switching state old new)
    (hNodup : state.named.Nodup) : old ≠ new := by
  rintro rfl
  obtain ⟨before, hBefore⟩ := h.retired_eq
  rw [h.named_eq, hBefore] at hNodup
  refine notMem_of_nodup hNodup ?_
  rw [List.map_append]
  exact List.mem_append_right _ (List.mem_singleton_self _)

/-- While the path keeps a file until it has been opened, it is given away only when the
reader reads the file that was named last. -/
theorem Succession.reading {state : Rotating} (h : Succession state)
    (hOpened : state.reader.openFile = state.named.getLast?) :
    ∃ fileId, Reading state fileId ∧ state.named = state.retired.map Prod.fst ++ [fileId] := by
  have hNodup := h.nodup
  rcases h.phase with ⟨fileId, hReading⟩ | ⟨old, new, hSwitching⟩
  · rcases hReading.named_eq with ⟨hNamed, _⟩ | ⟨other, hNamed, _⟩
    · exact ⟨fileId, hReading, hNamed⟩
    · rw [hNamed, hReading.follows.isOpen, List.getLast?_append_of_ne_nil _ (List.cons_ne_nil _ _)] at hOpened
      obtain rfl : fileId = other := Option.some.inj hOpened
      rw [hNamed] at hNodup
      exact absurd (List.nodup_append.mp hNodup).2.1 (List.not_nodup_pair fileId)
  · rw [hSwitching.named_eq, List.getLast?_concat] at hOpened
    rcases hSwitching.openFile_eq with hNone | hOld
    · cases hNone.symm.trans hOpened
    · exact absurd (Option.some.inj (hOld.symm.trans hOpened)) (hSwitching.old_ne_new hNodup)

theorem Succession.name {state next : Rotating} {file : Option FileId}
    (h : Succession state) (hOrderly : Orderly state (.name file))
    (hStep : rotationStep state (.name file) = some next) : Succession next := by
  cases hStep
  cases file with
  | none =>
      obtain ⟨fileId, hReading, hNamed⟩ := h.reading hOrderly
      refine ⟨?_, .inl ⟨fileId, hReading.follows, hReading.output_eq, .inl ⟨?_, ?_⟩⟩⟩
      · change (state.named ++ []).Nodup
        rw [List.append_nil]
        exact h.nodup
      · exact (List.append_nil _).trans hNamed
      · intro other hOther
        cases hOther
  | some other =>
      obtain ⟨fileId, hReading, hNamed⟩ := h.reading hOrderly.2
      refine ⟨?_, .inl ⟨fileId, hReading.follows, hReading.output_eq, .inr ⟨other, ?_, rfl⟩⟩⟩
      · have hNodup := List.Nodup.concat hOrderly.1 h.nodup
        rw [List.concat_eq_append] at hNodup
        exact hNodup
      · change state.named ++ [other] = _
        rw [hNamed, List.append_assoc]
        rfl

/-! Polling. -/

theorem label_append (file : Option FileId) (first second : List Bytes) :
    label file (first ++ second) = label file first ++ label file second :=
  List.map_append

/-- Reading on to the end of the file. -/
theorem Reading.caughtUp {state : Rotating} (h : Reading state fileId) :
    Reading { state with
      reader := state.reader.caughtUp (state.content fileId)
      output := state.output ++ label (some fileId) (state.reader.newLines (state.content fileId)) }
      fileId := by
  obtain ⟨hCaughtUp, hRead⟩ := Follows.caughtUp h.follows
  have hLines := h.follows.logLines_drop
  refine ⟨hCaughtUp, ?_, h.named_eq⟩
  change state.output ++ _ = state.finished ++ label _ (logLines
    ((state.reader.caughtUp (state.content fileId)).bytesRead 0 (state.content fileId)))
  rw [h.output_eq, List.append_assoc, ← label_append, ← hLines]
  exact congrArg (fun text => state.finished ++ label (some fileId) (logLines text)) hRead.symm

/-- The poll that notices that the path names another file. -/
theorem Reading.drained {state : Rotating} {other : FileId} (h : Reading state fileId)
    (hPath : state.fileSystem.path = some other) (hOther : other ≠ fileId) :
    Switching { state with
      reader := state.reader.drained (state.content fileId)
      retired := state.retired ++ [(fileId, state.content fileId)]
      output := state.output ++ label (some fileId) (state.reader.lastLines (state.content fileId)) }
      fileId other := by
  have hNamed : state.named = state.retired.map Prod.fst ++ [fileId, other] := by
    rcases h.named_eq with ⟨_, hSame⟩ | ⟨new, hNamed, hNew⟩
    · exact absurd (hSame other hPath) hOther
    · cases hPath.symm.trans hNew
      exact hNamed
  constructor
  · rfl
  · exact .inr h.follows.isOpen
  · change FileId.mk state.reader.deviceId state.reader.inode = fileId
    rw [h.follows.deviceId_eq, h.follows.inode_eq]
  · exact toNat_ofNat_length _
  · rfl
  · exact ⟨state.retired, rfl⟩
  · rw [Rotating.finished, List.flatMap_append, List.flatMap_singleton, h.output_eq, List.append_assoc,
      ← label_append, ← h.follows.allLines_drop, List.drop_zero]
    rfl
  · change state.named = List.map Prod.fst (state.retired ++ [(fileId, state.content fileId)]) ++ [other]
    rw [hNamed, List.map_append, List.append_assoc]
    rfl
  · exact hPath

theorem Reading.poll {state : Rotating} (h : Reading state fileId) (outcome : PollOutcome) :
    (∃ file, Reading (state.poll outcome) file) ∨ ∃ old new, Switching (state.poll outcome) old new := by
  rcases state.poll_outcomes outcome h.follows with hSame | ⟨_, hNext⟩ | ⟨⟨other, hPath, hOther⟩, hNext⟩
  · rw [hSame]
    exact .inl ⟨fileId, h⟩
  · rw [hNext]
    exact .inl ⟨fileId, h.caughtUp⟩
  · rw [hNext]
    exact .inr ⟨fileId, other, h.drained hPath hOther⟩

/-- The new file, before anything of it has been read. -/
theorem Switching.opened {state : Rotating} {old new : FileId} (h : Switching state old new) :
    Reading { state with reader := FileTailReader.opened state.reader.path new 0 } new := by
  refine ⟨opened_follows (Nat.zero_le _), ?_, .inl ⟨h.named_eq, ?_⟩⟩
  · exact h.output_eq.trans (List.append_nil _).symm
  · intro other hOther
    cases h.path_eq.symm.trans hOther
    rfl

theorem Switching.poll {state : Rotating} {old new : FileId} (h : Switching state old new)
    (outcome : PollOutcome) : (∃ file, Reading (state.poll outcome) file) ∨
      ∃ old new, Switching (state.poll outcome) old new := by
  rcases @readNewLines_switch state.reader state.fileSystem outcome h.switch with
    ⟨error, hError⟩ | ⟨fileId, hPath, hRead⟩
  · right
    rw [Rotating.poll, hError]
    exact ⟨old, new, h.switch, .inl rfl, h.identity_eq, h.caughtUp, h.pending_eq, h.retired_eq,
      h.output_eq, h.named_eq, h.path_eq⟩
  · left
    cases h.path_eq.symm.trans hPath
    have hFollows := h.opened.follows
    rw [Rotating.poll, hRead]
    rcases @readFromOpenFile_cases _ _ _ outcome.status outcome.preads hFollows.isOpen hFollows.offset_le
      hFollows.noNewline with ⟨error, hError⟩ | hOk
    · rw [hError]
      exact ⟨new, h.opened⟩
    · rw [hOk]
      exact ⟨new, h.opened.caughtUp⟩

theorem Succession.poll {state : Rotating} (h : Succession state) (outcome : PollOutcome) :
    Succession (state.poll outcome) where
  nodup := by
    rw [Rotating.poll]
    split <;> exact h.nodup
  phase := by
    rcases h.phase with ⟨fileId, hReading⟩ | ⟨old, new, hSwitching⟩
    · exact hReading.poll outcome
    · exact hSwitching.poll outcome

theorem Succession.step {state next : Rotating} {action : RotationAction} (h : Succession state)
    (hOrderly : Orderly state action) (hStep : rotationStep state action = some next) :
    Succession next := by
  cases action with
  | append fileId more => exact h.append hOrderly hStep
  | name file => exact h.name hOrderly hStep
  | poll outcome =>
      cases hStep
      exact h.poll outcome

/-! What holds in every state. -/

theorem linesOf_others {files : List (FileId × Bytes)} (lines : FileId × Bytes → List Bytes)
    (h : fileId ∉ files.map Prod.fst) :
    linesOf fileId (files.flatMap fun entry => label (some entry.1) (lines entry)) = [] := by
  induction files with
  | nil => rfl
  | cons entry rest ih =>
      rw [List.map_cons, List.mem_cons, not_or] at h
      rw [List.flatMap_cons, linesOf_append, linesOf_label, if_neg (Ne.symm h.1), ih h.2]
      rfl

theorem linesOf_finished {state : Rotating} (h : fileId ∉ state.retired.map Prod.fst) :
    linesOf fileId state.finished = [] :=
  linesOf_others _ h

/-- The bytes before the committed offset of a reader are those of the lines it returned. -/
structure Accounts (state : Rotating) : Prop where
  openFile_eq : state.reader.openFile = none ∨ state.reader.openFile = some state.reader.identity
  committed_le : state.reader.committedOffset.toNat ≤ (state.content state.reader.identity).length
  lines_eq : linesOf state.reader.identity state.output =
    allLines ((state.content state.reader.identity).take state.reader.committedOffset.toNat)

theorem Reading.accounts {state : Rotating} (h : Reading state fileId) (hNodup : state.named.Nodup) :
    Accounts state := by
  obtain ⟨_, hLe, _⟩ := h.follows.committed
  obtain ⟨hLines, hTail⟩ := h.follows.committed_lines
  have hIdentity : state.reader.identity = fileId := by
    rw [identity, h.follows.deviceId_eq, h.follows.inode_eq]
  rw [List.drop_zero] at hLines hTail
  refine ⟨.inr ?_, ?_, ?_⟩
  · rw [hIdentity, h.follows.isOpen]
  · rw [hIdentity]
    exact hLe
  · rw [hIdentity, h.output_eq, linesOf_append, linesOf_finished (h.notRetired hNodup), linesOf_label,
      if_pos rfl, allLines, if_pos hTail, hLines, List.append_nil, List.nil_append]

theorem Switching.accounts {state : Rotating} {old new : FileId} (h : Switching state old new)
    (hNodup : state.named.Nodup) : Accounts state := by
  have hCommitted : state.reader.committedOffset.toNat = (state.content old).length := by
    rw [committedOffset, h.pending_eq, ← h.caughtUp]
    exact congrArg UInt64.toNat (UInt64.sub_zero _)
  obtain ⟨before, hBefore⟩ := h.retired_eq
  have hFirst : old ∉ before.map Prod.fst := by
    rw [h.named_eq, hBefore, List.map_append, List.append_assoc] at hNodup
    exact notMem_of_nodup hNodup
  refine ⟨?_, ?_, ?_⟩
  · rw [h.identity_eq]
    exact h.openFile_eq
  · rw [h.identity_eq]
    exact hCommitted.le
  · rw [h.identity_eq, hCommitted, List.take_length, h.output_eq, Rotating.finished, hBefore,
      List.flatMap_append, linesOf_append, linesOf_others _ hFirst, List.flatMap_singleton, linesOf_label,
      if_pos rfl, List.nil_append]

theorem Succession.accounts {state : Rotating} (h : Succession state) : Accounts state := by
  rcases h.phase with ⟨fileId, hReading⟩ | ⟨old, new, hSwitching⟩
  · exact hReading.accounts h.nodup
  · exact hSwitching.accounts h.nodup

/-- A poll that returns leaves a file open. -/
theorem Succession.poll_open {state : Rotating} (h : Succession state) {outcome : PollOutcome}
    {lines : List Bytes} (hRead : state.reader.readNewLines state.fileSystem outcome = (.ok lines, next)) :
    next.openFile ≠ none := by
  rcases h.phase with ⟨fileId, hReading⟩ | ⟨old, new, hSwitching⟩
  · have hOpen := hReading.follows.isOpen
    rcases readNewLines_outcomes outcome hReading.follows with ⟨_, hError⟩ | ⟨_, hOk⟩ | ⟨_, hOk⟩
    · cases hRead.symm.trans hError
    · cases hRead.symm.trans hOk
      exact fun hNone => by cases hOpen.symm.trans hNone
    · cases hRead.symm.trans hOk
      exact fun hNone => by cases hOpen.symm.trans hNone
  · rcases @readNewLines_switch state.reader state.fileSystem outcome hSwitching.switch with
      ⟨_, hError⟩ | ⟨fileId, hPath, hOpened⟩
    · cases hRead.symm.trans hError
    · cases hSwitching.path_eq.symm.trans hPath
      have hFollows := hSwitching.opened.follows
      rcases @readFromOpenFile_cases _ _ _ outcome.status outcome.preads hFollows.isOpen
        hFollows.offset_le hFollows.noNewline with ⟨_, hError⟩ | hOk
      · cases hRead.symm.trans (hOpened.trans hError)
      · cases hRead.symm.trans (hOpened.trans hOk)
        exact Option.some_ne_none _

theorem Succession.fileByFile {state : Rotating} (h : Succession state) : FileByFile state where
  output_eq := by
    rcases h.phase with ⟨fileId, hReading⟩ | ⟨old, new, hSwitching⟩
    · rw [Rotating.current, hReading.follows.isOpen, hReading.follows.noSwitch]
      exact hReading.output_eq
    · have hNone : state.current = [] := by
        rw [Rotating.current, hSwitching.switch]
        cases state.reader.openFile <;> rfl
      rw [hNone, List.append_nil]
      exact hSwitching.output_eq
  order := by
    rcases h.phase with ⟨fileId, hReading⟩ | ⟨old, new, hSwitching⟩
    · rcases hReading.named_eq with ⟨hNamed, _⟩ | ⟨other, hNamed, _⟩
      · exact ⟨_, hNamed, fun _ => hReading.follows.isOpen⟩
      · exact ⟨_, hNamed, fun _ => hReading.follows.isOpen⟩
    · refine ⟨_, hSwitching.named_eq, fun hKept => ?_⟩
      cases hKept.symm.trans hSwitching.switch
  poll := by
    intro outcome lines next hRead
    have hNext := (h.poll outcome).accounts
    rw [Rotating.poll, hRead] at hNext
    have hOpen := hNext.openFile_eq.resolve_left (h.poll_open hRead)
    have hLines := hNext.lines_eq
    dsimp only at hOpen hLines
    rw [linesOf_append, hOpen, linesOf_label, if_pos rfl] at hLines
    exact ⟨hOpen, hNext.committed_le, hLines⟩
  switch := by
    intro outcome next hSwitch hOpened
    rcases h.phase with ⟨fileId, hReading⟩ | ⟨old, new, hSwitching⟩
    · cases hSwitch.symm.trans hReading.follows.noSwitch
    · rcases openCurrentFile_cases state.reader state.fileSystem outcome with
        ⟨_, hError⟩ | ⟨fileId, hPath, hOk⟩
      · cases hOpened.symm.trans hError
      · cases hOpened.symm.trans hOk
        refine ⟨hPath.symm, rfl, rfl, ?_⟩
        rintro file ⟨rfl⟩
        cases hSwitching.path_eq.symm.trans hPath
        rw [hSwitching.output_eq]
        exact linesOf_finished (hSwitching.opened.notRetired h.nodup)

/-- Over any number of rotations and whatever calls fail, the output is that of the
files one after the other. -/
theorem output_file_by_file (path : Bytes) (fileSystem : FileSystem) (first : FileId)
    (expectedDeviceId expectedInode : UInt64) (outcome : OpenOutcome) (reader : FileTailReader)
    (actions : List RotationAction) (finish : Rotating) (hPath : fileSystem.path = some first)
    (hOpen : construct path fileSystem 0 expectedDeviceId expectedInode outcome = .ok reader)
    (hOrderly : Runs.Along rotationStep Orderly { reader, fileSystem, named := [first] } actions)
    (hRun : Runs.run rotationStep { reader, fileSystem, named := [first] } actions = some finish) :
    FileByFile finish := by
  obtain ⟨_, offset, rfl, _, hOffset⟩ := construct_eq_ok hPath hOpen
  have hZero : offset = 0 := (hOffset (Nat.zero_le _)).elim id And.left
  subst hZero
  have hStart : Succession { reader := opened path first 0, fileSystem, named := [first] } := by
    refine ⟨List.nodup_singleton first, .inl ⟨first, opened_follows (Nat.zero_le _), rfl, .inl ⟨rfl, ?_⟩⟩⟩
    intro other hOther
    cases hPath.symm.trans hOther
    rfl
  refine Succession.fileByFile ?_
  exact Runs.invariant_along hStart (fun _ _ _ hMeets h hStep => h.step hMeets hStep) hOrderly hRun

/-- Two rotations. The first switch fails twice, once before and once after the new
file has been opened. -/
def sampleRotations : List RotationAction :=
  [.poll {}, .name (some ⟨1, 2⟩), .append ⟨1, 1⟩ [99], .poll {}, .poll { reopen := { openFails := true } },
    .poll { preads := [.failed] }, .name none, .append ⟨1, 2⟩ [10], .name (some ⟨1, 3⟩), .poll {}, .poll {}]

theorem sample_rotations : ∃ finish,
    Runs.run rotationStep { reader := opened [119] ⟨1, 1⟩ 0, fileSystem := sampleFile, named := [⟨1, 1⟩] }
      sampleRotations = some finish ∧
    Runs.Along rotationStep Orderly
      { reader := opened [119] ⟨1, 1⟩ 0, fileSystem := sampleFile, named := [⟨1, 1⟩] } sampleRotations :=
  ⟨_, Runs.run_along_cons trivial rfl <| Runs.run_along_cons (by decide) rfl <|
    Runs.run_along_cons (by decide) rfl <| Runs.run_along_cons trivial rfl <|
    Runs.run_along_cons trivial rfl <| Runs.run_along_cons trivial rfl <| Runs.run_along_cons rfl rfl <|
    Runs.run_along_cons (by decide) rfl <| Runs.run_along_cons (by decide) rfl <|
    Runs.run_along_cons trivial rfl <| Runs.run_along_cons trivial rfl <| ⟨rfl, trivial⟩⟩

theorem output_file_by_file_sample : ∃ finish,
    Runs.run rotationStep { reader := opened [119] ⟨1, 1⟩ 0, fileSystem := sampleFile, named := [⟨1, 1⟩] }
      sampleRotations = some finish ∧ FileByFile finish := by
  obtain ⟨finish, hRun, hOrderly⟩ := sample_rotations
  exact ⟨finish, hRun, output_file_by_file [119] sampleFile ⟨1, 1⟩ 0 0 {} (opened [119] ⟨1, 1⟩ 0)
    sampleRotations finish rfl rfl hOrderly hRun⟩

end LogBridge.FileTailReader
