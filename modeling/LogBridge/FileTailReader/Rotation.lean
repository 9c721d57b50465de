import LogBridge.FileTailReader.Stretches
import Mathlib.Data.List.Basic

/-! Rotation. The poll that finds another file at the path returns the rest of the
open one, and the poll after it closes that file and opens the other one. Between
the two polls the old file may still be written. -/
namespace LogBridge.FileTailReader

open Lines

/-- All lines of a text. An unterminated tail is the last one, as it stands. -/
def allLines (text : Bytes) : List Bytes :=
  logLines text ++ if tail Text.newline text = [] then [] else [tail Text.newline text]

/-- A file is written, the path names a file or none, or the reader polls. -/
inductive RotationAction where
  | append (fileId : FileId) (more : Bytes)
  | name (file : Option FileId)
  | poll (outcome : PollOutcome)

structure Rotating where
  reader : FileTailReader
  fileSystem : FileSystem
  /-- The files the path has named, in turn. -/
  named : List FileId
  /-- The files whose replacement a poll has noticed, with what they held then. -/
  retired : List (FileId × Bytes) := []
  /-- The lines returned, each with the file that was open. -/
  output : List (Option FileId × Bytes) := []

def Rotating.content (state : Rotating) (fileId : FileId) : Bytes :=
  (state.fileSystem.content fileId).bytes

def label (file : Option FileId) (lines : List Bytes) : List (Option FileId × Bytes) :=
  lines.map fun line => (file, line)

/-- A poll that throws returns no lines. One that sets `switchOnNextRead` has noticed
that the open file was replaced. -/
def Rotating.poll (state : Rotating) (outcome : PollOutcome) : Rotating :=
  match state.reader.readNewLines state.fileSystem outcome with
  | (.error _, reader) => { state with reader }
  | (.ok lines, reader) =>
      { state with
        reader
        retired :=
          if reader.switchOnNextRead then
            state.retired ++ reader.openFile.toList.map fun fileId => (fileId, state.content fileId)
          else state.retired
        output := state.output ++ label reader.openFile lines }

def rotationStep (state : Rotating) : RotationAction → Option Rotating
  | .append fileId more =>
      if hSize : (state.content fileId ++ more).length < 2 ^ 63 then
        some { state with
          fileSystem := state.fileSystem.write fileId
            { bytes := state.content fileId ++ more, size_lt := hSize } }
      else none
  | .name file =>
      some { state with
        fileSystem := { state.fileSystem with path := file }
        named := state.named ++ file.toList }
  | .poll outcome => some (state.poll outcome)

/-- The lines that were returned from a file. -/
def linesOf (fileId : FileId) (output : List (Option FileId × Bytes)) : List Bytes :=
  (output.filter fun entry => entry.1 = some fileId).map Prod.snd

variable {reader next : FileTailReader} {fileSystem : FileSystem} {fileId : FileId}

/-! Switching. -/

/-- The open file is closed before the other one is opened, from its start. -/
theorem openCurrentFile_cases (reader : FileTailReader) (fileSystem : FileSystem)
    (outcome : OpenOutcome) :
    (∃ error, reader.openCurrentFile fileSystem 0 0 0 outcome =
        (.error error, { reader with openFile := none })) ∨
      ∃ fileId, fileSystem.path = some fileId ∧ reader.openCurrentFile fileSystem 0 0 0 outcome =
        (.ok (), { opened reader.path fileId 0 with switchOnNextRead := reader.switchOnNextRead }) := by
  obtain ⟨openFails, status⟩ := outcome
  unfold openCurrentFile
  cases hPath : fileSystem.path with
  | none => exact .inl ⟨_, rfl⟩
  | some fileId =>
      cases openFails with
      | true => exact .inl ⟨_, rfl⟩
      | false =>
          cases status with
          | failed => exact .inl ⟨_, rfl⟩
          | negativeSize => exact .inl ⟨_, rfl⟩
          | done => exact .inr ⟨fileId, rfl, by simp [opened]⟩

/-- The poll after the one that noticed the replacement throws without an open file,
or has opened the file at the path. -/
theorem readNewLines_switch (outcome : PollOutcome) (hSwitch : reader.switchOnNextRead = true) :
    (∃ error, reader.readNewLines fileSystem outcome =
        (.error error, { reader with openFile := none })) ∨
      ∃ fileId, fileSystem.path = some fileId ∧
        reader.readNewLines fileSystem outcome =
          (opened reader.path fileId 0).readFromOpenFile fileSystem outcome.status outcome.preads := by
  rw [readNewLines, if_pos hSwitch]
  rcases openCurrentFile_cases reader fileSystem outcome.reopen with ⟨error, hError⟩ | ⟨fileId, hPath, hOk⟩
  · rw [hError]
    exact .inl ⟨error, rfl⟩
  · rw [hOk]
    exact .inr ⟨fileId, hPath, rfl⟩

/-! Bytes after the last line. -/

/-- The bytes after an unterminated tail that end it and no other line: a newline, or
a carriage return and a newline. A single newline would cut a carriage return off it. -/
def AddsNoLine (rest more : Bytes) : Prop :=
  more = [] ∨
    rest ≠ [] ∧ (more = [13, Text.newline] ∨ more = [Text.newline] ∧ rest.getLast? ≠ some 13)

instance (rest more : Bytes) : Decidable (AddsNoLine rest more) :=
  inferInstanceAs (Decidable (_ ∨ _))

theorem allLines_append (text more : Bytes) :
    allLines (text ++ more) = logLines text ++ allLines (tail Text.newline text ++ more) := by
  rw [allLines, allLines, logLines_append, tail_append, List.append_assoc]

theorem allLines_of_not_mem {rest : Bytes} (h : Text.newline ∉ rest) :
    allLines rest = if rest = [] then [] else [rest] := by
  rw [allLines, tail_of_not_mem h, logLines, complete_of_not_mem h]
  rfl

theorem allLines_line {line : Bytes} (h : Text.newline ∉ line) :
    allLines (line ++ [Text.newline]) = [stripCarriageReturn line] := by
  rw [allLines, logLines, complete_line h, tail_line h]
  rfl

theorem stripCarriageReturn_eq_iff {line rest : Bytes} :
    stripCarriageReturn line = rest ↔
      line = rest ++ [13] ∨ line = rest ∧ rest.getLast? ≠ some 13 := by
  rw [stripCarriageReturn]
  split_ifs with hLast
  · constructor
    · rintro rfl
      exact .inl (List.dropLast_append_getLast? 13 (Option.mem_def.mpr hLast)).symm
    · rintro (rfl | ⟨rfl, hOther⟩)
      · exact List.dropLast_concat
      · exact absurd hLast hOther
  · constructor
    · rintro rfl
      exact .inr ⟨rfl, hLast⟩
    · rintro (rfl | ⟨rfl, _⟩)
      · exact absurd List.getLast?_concat hLast
      · rfl

theorem allLines_eq_nil {text : Bytes} (h : allLines text = []) : text = [] := by
  obtain ⟨hComplete, hTail⟩ := List.append_eq_nil_iff.mp h
  have hNone : tail Text.newline text = [] := by
    by_contra hSome
    rw [if_neg hSome] at hTail
    exact List.cons_ne_nil _ _ hTail
  rw [split_eq Text.newline text, List.map_eq_nil_iff.mp hComplete, hNone]
  rfl

/-- Only a text that is a single line has the line as its lines. -/
theorem allLines_eq_singleton {text line : Bytes} (h : allLines text = [line]) :
    text = line ∨ ∃ whole, text = whole ++ [Text.newline] ∧ stripCarriageReturn whole = line := by
  have hText := split_eq Text.newline text
  rw [allLines] at h
  split_ifs at h with hTail
  · rw [List.append_nil, logLines, List.map_eq_singleton_iff] at h
    obtain ⟨whole, hComplete, hLine⟩ := h
    rw [hComplete, hTail, List.flatMap_singleton, List.append_nil] at hText
    exact .inr ⟨whole, hText, hLine⟩
  · obtain ⟨hNone, hLine⟩ := List.append_eq_singleton_iff.mp h |>.resolve_right (by simp)
    rw [logLines, List.map_eq_nil_iff] at hNone
    rw [hNone, List.flatMap_nil, List.nil_append] at hText
    exact .inl (hText.trans (List.singleton_inj.mp hLine))

theorem allLines_rest_iff {rest more : Bytes} (hRest : Text.newline ∉ rest) :
    allLines (rest ++ more) = allLines rest ↔ AddsNoLine rest more := by
  rw [allLines_of_not_mem hRest, AddsNoLine]
  constructor
  · intro h
    split_ifs at h with hNone
    · rw [hNone, List.nil_append] at h
      exact .inl (allLines_eq_nil h)
    · rcases allLines_eq_singleton h with hSame | ⟨whole, hText, hLine⟩
      · exact .inl (List.append_right_eq_self.mp hSame)
      · refine .inr ⟨hNone, ?_⟩
        rcases stripCarriageReturn_eq_iff.mp hLine with rfl | ⟨rfl, hLast⟩
        · left
          rw [List.append_assoc] at hText
          exact List.append_cancel_left hText
        · right
          exact ⟨List.append_cancel_left hText, hLast⟩
  · rintro (rfl | ⟨hNonempty, rfl | ⟨rfl, hLast⟩⟩)
    · rw [List.append_nil, allLines_of_not_mem hRest]
    · have hLine : Text.newline ∉ rest ++ [13] := by
        rw [List.mem_append, List.mem_singleton, not_or]
        exact ⟨hRest, by decide⟩
      have hText : rest ++ [13, Text.newline] = rest ++ [13] ++ [Text.newline] := by
        rw [List.append_assoc]
        rfl
      rw [if_neg hNonempty, hText, allLines_line hLine, stripCarriageReturn_eq_iff.mpr (.inl rfl)]
    · rw [if_neg hNonempty, allLines_line hRest, stripCarriageReturn_eq_iff.mpr (.inr ⟨rfl, hLast⟩)]

theorem allLines_append_iff {text more : Bytes} :
    allLines (text ++ more) = allLines text ↔ AddsNoLine (tail Text.newline text) more := by
  have hSame := allLines_append text []
  rw [List.append_nil, List.append_nil] at hSame
  rw [allLines_append, hSame, List.append_right_inj]
  exact allLines_rest_iff (separator_not_mem_tail _ _)

/-! The first rotation. -/

theorem linesOf_append (fileId : FileId) (first second : List (Option FileId × Bytes)) :
    linesOf fileId (first ++ second) = linesOf fileId first ++ linesOf fileId second := by
  rw [linesOf, List.filter_append, List.map_append]
  rfl

theorem linesOf_label (fileId other : FileId) (lines : List Bytes) :
    linesOf fileId (label (some other) lines) = if other = fileId then lines else [] := by
  induction lines with
  | nil => simp [linesOf, label]
  | cons line rest ih =>
      rw [linesOf, label] at ih ⊢
      by_cases hSame : other = fileId <;> simp_all

/-- With the lines of its last poll, all lines of a file have been returned. -/
theorem Follows.allLines_drop {start : Nat} {content : Bytes} (h : Follows reader fileId start content) :
    allLines (content.drop start) =
      logLines (reader.bytesRead start content) ++ reader.lastLines content := by
  have hTail : tail Text.newline (content.drop start) = (reader.caughtUp content).pending := by
    rw [← h.bytesRead_drop, tail_append, ← h.pending_eq]
    rfl
  rw [allLines, h.logLines_drop, hTail, List.append_assoc, lastLines]
  split_ifs with hNone
  · rw [List.append_nil]
  · rfl

/-- No file is opened but the one at the path. -/
theorem readNewLines_openFile (reader : FileTailReader) (fileSystem : FileSystem) (outcome : PollOutcome) :
    (reader.readNewLines fileSystem outcome).2.openFile = reader.openFile ∨
      (reader.readNewLines fileSystem outcome).2.openFile = none ∨
        (reader.readNewLines fileSystem outcome).2.openFile = fileSystem.path := by
  cases hSwitch : reader.switchOnNextRead with
  | true =>
      right
      rcases @readNewLines_switch reader fileSystem outcome hSwitch with ⟨_, hError⟩ | ⟨fileId, hPath, hRead⟩
      · rw [hError]
        exact .inl rfl
      · rw [hRead, (readFromOpenFile_frame _ _ _ _).2, hPath]
        exact .inr rfl
  | false =>
      left
      have hKept := (readFromOpenFile_frame reader fileSystem outcome.status outcome.preads).2
      rw [readNewLines, hSwitch]
      simp only [Bool.false_eq_true, if_false]
      split_ifs
      · rfl
      · split <;> simp_all
      · exact hKept

/-- An append only adds to files, and to one file only. -/
theorem rotationStep_append {state next : Rotating} {fileId : FileId} {more : Bytes}
    (h : rotationStep state (.append fileId more) = some next) :
    ∃ fileSystem, next = { state with fileSystem } ∧ fileSystem.path = state.fileSystem.path ∧
      (∀ file, ∃ late, (fileSystem.content file).bytes = state.content file ++ late) ∧
      ∀ file, file ≠ fileId → (fileSystem.content file).bytes = state.content file := by
  rw [rotationStep] at h
  split_ifs at h with hSize
  cases h
  have hOthers : ∀ file, file ≠ fileId → ((state.fileSystem.write fileId
      { bytes := state.content fileId ++ more, size_lt := hSize }).content file).bytes =
        state.content file := by
    intro file hFile
    exact congrArg LogFile.bytes (Function.update_of_ne hFile _ _)
  refine ⟨_, rfl, rfl, fun file => ?_, hOthers⟩
  by_cases hFile : file = fileId
  · rw [hFile, FileSystem.write_content]
    exact ⟨more, rfl⟩
  · exact ⟨[], by rw [hOthers file hFile, List.append_nil]⟩

/-- The poll of a reader that has not noticed a replacement, as a step. -/
theorem Rotating.poll_outcomes {state : Rotating} {start : Nat} (outcome : PollOutcome)
    (h : Follows state.reader fileId start (state.content fileId)) :
    state.poll outcome = state ∨
      ((∀ other, state.fileSystem.path = some other → other = fileId) ∧
        state.poll outcome = { state with
          reader := state.reader.caughtUp (state.content fileId)
          output := state.output ++
            label (some fileId) (state.reader.newLines (state.content fileId)) }) ∨
      ((∃ other, state.fileSystem.path = some other ∧ other ≠ fileId) ∧
        state.poll outcome = { state with
          reader := state.reader.drained (state.content fileId)
          retired := state.retired ++ [(fileId, state.content fileId)]
          output := state.output ++
            label (some fileId) (state.reader.lastLines (state.content fileId)) }) := by
  have hOpen : (state.reader.caughtUp (state.content fileId)).openFile = some fileId := h.isOpen
  have hDrained : (state.reader.drained (state.content fileId)).openFile = some fileId := h.isOpen
  have hKept : (state.reader.caughtUp (state.content fileId)).switchOnNextRead = false := h.noSwitch
  rcases readNewLines_outcomes outcome h with ⟨error, hError⟩ | ⟨hPath, hOk⟩ | ⟨hPath, hOk⟩
  · left
    rw [Rotating.poll, hError]
  · refine .inr (.inl ⟨hPath, ?_⟩)
    rw [Rotating.poll, hOk]
    change Rotating.mk _ _ _ (if (state.reader.caughtUp (state.content fileId)).switchOnNextRead then _ else _)
      (_ ++ label (state.reader.caughtUp (state.content fileId)).openFile _) = _
    rw [hKept, hOpen]
    rfl
  · refine .inr (.inr ⟨hPath, ?_⟩)
    rw [Rotating.poll, hOk]
    change Rotating.mk _ _ _ (_ ++ List.map _ (state.reader.drained (state.content fileId)).openFile.toList)
      (_ ++ label (state.reader.drained (state.content fileId)).openFile _) = _
    rw [hDrained]
    rfl

/-- The path does not name the file again. -/
def NamesOther (old : FileId) : RotationAction → Prop
  | .name file => file ≠ some old
  | _ => True

/-- The invariant of the first file. The poll that notices its replacement has returned
all lines it held then, and once closed the file is not opened again. -/
inductive FirstFile (old : FileId) (state : Rotating) : Prop
  | reading (hRetired : state.retired = []) (hFollows : Follows state.reader old 0 (state.content old))
      (hLines : linesOf old state.output = logLines (state.reader.bytesRead 0 (state.content old)))
  | noticed (atNotice : Bytes) (hRetired : state.retired = [(old, atNotice)])
      (hSwitch : state.reader.switchOnNextRead = true) (hPath : state.fileSystem.path ≠ some old)
      (hLines : linesOf old state.output = allLines atNotice) (hPrefix : atNotice <+: state.content old)
  | closed (hOpen : state.reader.openFile ≠ some old) (hPath : state.fileSystem.path ≠ some old)

@[simp] theorem poll_fileSystem (state : Rotating) (outcome : PollOutcome) :
    (state.poll outcome).fileSystem = state.fileSystem := by
  rw [Rotating.poll]
  split <;> rfl

@[simp] theorem poll_reader (state : Rotating) (outcome : PollOutcome) :
    (state.poll outcome).reader = (state.reader.readNewLines state.fileSystem outcome).2 := by
  rw [Rotating.poll]
  split <;> simp_all

theorem FirstFile.poll {old : FileId} {state : Rotating} (h : FirstFile old state)
    (outcome : PollOutcome) : FirstFile old (state.poll outcome) := by
  cases h with
  | reading hRetired hFollows hLines =>
      obtain ⟨hCaughtUp, hRead⟩ := Follows.caughtUp hFollows
      rcases state.poll_outcomes outcome hFollows with hSame | ⟨_, hNext⟩ | ⟨⟨other, hPath, hOther⟩, hNext⟩
      · rw [hSame]
        exact .reading hRetired hFollows hLines
      · rw [hNext]
        refine .reading hRetired hCaughtUp ?_
        change _ = logLines ((state.reader.caughtUp (state.content old)).bytesRead 0 (state.content old))
        rw [linesOf_append, linesOf_label, if_pos rfl, hLines]
        refine Eq.trans ?_ (congrArg logLines hRead.symm)
        exact hFollows.logLines_drop.symm
      · rw [hNext]
        refine .noticed (state.content old) ?_ rfl ?_ ?_ (List.prefix_refl _)
        · rw [hRetired]
          rfl
        · intro hOld
          exact hOther (Option.some.inj (hPath.symm.trans hOld))
        · rw [linesOf_append, linesOf_label, if_pos rfl, hLines]
          exact hFollows.allLines_drop.symm
  | noticed atNotice hRetired hSwitch hPath hLines hPrefix =>
      refine .closed ?_ (by rwa [poll_fileSystem])
      rw [poll_reader]
      rcases @readNewLines_switch state.reader state.fileSystem outcome hSwitch with
        ⟨_, hError⟩ | ⟨fileId, hFile, hRead⟩
      · rw [hError]
        exact (Option.some_ne_none old).symm
      · rw [hRead, (readFromOpenFile_frame _ _ _ _).2]
        rwa [hFile] at hPath
  | closed hOpen hPath =>
      refine .closed ?_ (by rwa [poll_fileSystem])
      rw [poll_reader]
      rcases readNewLines_openFile state.reader state.fileSystem outcome with hSame | hNone | hNew
      · rwa [hSame]
      · rw [hNone]
        exact (Option.some_ne_none old).symm
      · rwa [hNew]

theorem FirstFile.append {old fileId : FileId} {state next : Rotating} {more : Bytes}
    (h : FirstFile old state) (hStep : rotationStep state (.append fileId more) = some next) :
    FirstFile old next := by
  obtain ⟨fileSystem, rfl, hPathSame, hGrowth, _⟩ := rotationStep_append hStep
  obtain ⟨late, hGrown⟩ := hGrowth old
  have hContent : Rotating.content { state with fileSystem } old = state.content old ++ late := hGrown
  cases h with
  | reading hRetired hFollows hLines =>
      refine .reading hRetired ?_ ?_
      · rw [hContent]
        exact hFollows.append late
      · rw [hContent, hFollows.bytesRead_append]
        exact hLines
  | noticed atNotice hRetired hSwitch hPath hLines hPrefix =>
      refine .noticed atNotice hRetired hSwitch (hPathSame ▸ hPath) hLines ?_
      rw [hContent]
      exact hPrefix.trans (List.prefix_append _ _)
  | closed hOpen hPath => exact .closed hOpen (hPathSame ▸ hPath)

theorem FirstFile.step {old : FileId} {state next : Rotating} {action : RotationAction}
    (hNames : NamesOther old action) (h : FirstFile old state)
    (hStep : rotationStep state action = some next) : FirstFile old next := by
  cases action with
  | append fileId more => exact h.append hStep
  | name file =>
      cases hStep
      cases h with
      | reading hRetired hFollows hLines => exact .reading hRetired hFollows hLines
      | noticed atNotice hRetired hSwitch _ hLines hPrefix =>
          exact .noticed atNotice hRetired hSwitch hNames hLines hPrefix
      | closed hOpen _ => exact .closed hOpen hNames
  | poll outcome =>
      cases hStep
      exact h.poll outcome

theorem firstFile_run {path : Bytes} {old : FileId} {actions : List RotationAction} {finish : Rotating}
    (hNames : ∀ action ∈ actions, NamesOther old action)
    (hRun : Runs.run rotationStep { reader := opened path old 0, fileSystem, named := [old] } actions =
      some finish) : FirstFile old finish := by
  have hStart : FirstFile old { reader := opened path old 0, fileSystem, named := [old] } :=
    .reading rfl (opened_follows (Nat.zero_le _)) rfl
  exact @Runs.invariant _ _ _ _ _ _ (fun state => FirstFile old state) (NamesOther old) hStart
    (fun _ _ _ hAllowed h hStep => h.step hAllowed hStep) hNames hRun

/-- The poll that closes a file is the one after the poll that noticed its replacement. -/
theorem FirstFile.closing {old : FileId} {state : Rotating} {outcome : PollOutcome}
    (h : FirstFile old state) (hOpen : state.reader.openFile = some old)
    (hCloses : (state.poll outcome).reader.openFile ≠ some old) :
    ∃ atNotice, state.retired = [(old, atNotice)] ∧ linesOf old state.output = allLines atNotice ∧
      atNotice <+: state.content old := by
  cases h with
  | reading hRetired hFollows hLines =>
      rcases state.poll_outcomes outcome hFollows with hSame | ⟨_, hNext⟩ | ⟨_, hNext⟩
      · rw [hSame] at hCloses
        exact absurd hOpen hCloses
      · rw [hNext] at hCloses
        exact absurd hOpen hCloses
      · rw [hNext] at hCloses
        exact absurd hOpen hCloses
  | noticed atNotice hRetired hSwitch hPath hLines hPrefix => exact ⟨atNotice, hRetired, hLines, hPrefix⟩
  | closed hClosed hPath => exact absurd hOpen hClosed

/-- When a poll closes the file that the reader has read from the start, all lines of it
have been returned exactly where the bytes written since its replacement was noticed
add none. -/
theorem old_file_drained_iff (path : Bytes) (fileSystem : FileSystem) (old : FileId)
    (expectedDeviceId expectedInode : UInt64) (outcome : OpenOutcome) (reader : FileTailReader)
    (actions : List RotationAction) (closing : Rotating) (poll : PollOutcome)
    (hPath : fileSystem.path = some old)
    (hConstruct : construct path fileSystem 0 expectedDeviceId expectedInode outcome = .ok reader)
    (hNames : ∀ action ∈ actions, NamesOther old action)
    (hRun : Runs.run rotationStep { reader, fileSystem, named := [old] } actions = some closing)
    (hOpen : closing.reader.openFile = some old)
    (hCloses : (closing.poll poll).reader.openFile ≠ some old) :
    ∃ atNotice late, closing.retired = [(old, atNotice)] ∧ closing.content old = atNotice ++ late ∧
      (linesOf old closing.output = allLines (closing.content old) ↔
        AddsNoLine (tail Text.newline atNotice) late) := by
  obtain ⟨_, offset, rfl, _, hOffset⟩ := construct_eq_ok hPath hConstruct
  have hZero : offset = 0 := (hOffset (Nat.zero_le _)).elim id And.left
  rw [hZero] at hRun
  obtain ⟨atNotice, hRetired, hLines, late, hLate⟩ := (firstFile_run hNames hRun).closing hOpen hCloses
  refine ⟨atNotice, late, hRetired, hLate.symm, ?_⟩
  rw [hLines, ← hLate, eq_comm]
  exact allLines_append_iff

/-- The writer has the old file still open after the path names the new one, and
writes two more lines, one before and one after the poll that notices this. -/
def lateWrite : List RotationAction :=
  [.poll {}, .name (some ⟨1, 2⟩), .append ⟨1, 1⟩ [99, 10], .poll {}, .append ⟨1, 1⟩ [100, 10]]

theorem lateWrite_names : ∀ action ∈ lateWrite, NamesOther ⟨1, 1⟩ action := by
  simp [lateWrite, NamesOther]

theorem old_file_drained_iff_sample : ∃ closing atNotice late,
    Runs.run rotationStep { reader := opened [119] ⟨1, 1⟩ 0, fileSystem := sampleFile, named := [⟨1, 1⟩] }
      lateWrite = some closing ∧ closing.retired = [(⟨1, 1⟩, atNotice)] ∧
    closing.content ⟨1, 1⟩ = atNotice ++ late ∧
    (linesOf ⟨1, 1⟩ closing.output = allLines (closing.content ⟨1, 1⟩) ↔
      AddsNoLine (tail Text.newline atNotice) late) := by
  obtain ⟨atNotice, late, hLate⟩ := old_file_drained_iff [119] sampleFile ⟨1, 1⟩ 0 0 {}
    (opened [119] ⟨1, 1⟩ 0) lateWrite _ {} rfl rfl lateWrite_names rfl rfl (by decide)
  exact ⟨_, atNotice, late, rfl, hLate⟩

/-- The last line has not been returned when the next poll closes the file. -/
theorem late_line_lost : ∃ closing,
    Runs.run rotationStep { reader := opened [119] ⟨1, 1⟩ 0, fileSystem := sampleFile, named := [⟨1, 1⟩] }
      lateWrite = some closing ∧
    closing.reader.openFile = some ⟨1, 1⟩ ∧ (closing.poll {}).reader.openFile = some ⟨1, 2⟩ ∧
    linesOf ⟨1, 1⟩ closing.output ≠ allLines (closing.content ⟨1, 1⟩) := by
  refine ⟨_, rfl, rfl, rfl, ?_⟩
  have hFirst := @firstFile_run sampleFile [119] ⟨1, 1⟩ lateWrite _ lateWrite_names rfl
  obtain ⟨atNotice, hRetired, hLines, _⟩ := @FirstFile.closing _ _ {} hFirst rfl (by decide)
  cases hRetired
  rw [hLines]
  decide

end LogBridge.FileTailReader
