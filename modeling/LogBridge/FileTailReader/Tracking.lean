import LogBridge.FileTailReader.Model
import LogBridge.Library.Lines

/-! Reading a file that only grows. Between two calls the reader has read a
prefix of the file; it keeps the unterminated tail of that prefix, and the lines
it has returned are the complete lines of the prefix. -/
namespace LogBridge.FileTailReader

open Lines

variable {reader next : FileTailReader} {fileSystem : FileSystem} {fileId : FileId}

/-- The lines of a log text as the reader returns them. -/
def logLines (text : Bytes) : List Bytes := (complete Text.newline text).map stripCarriageReturn

theorem extractLines_eq (pending : Bytes) :
    extractLines pending = (logLines pending, tail Text.newline pending) := by
  fun_induction extractLines pending with
  | case1 pending hRest =>
      have hLine : Text.newline ∉ pending := by
        intro hMem
        simpa [Text.inLine] using List.dropWhile_eq_nil_iff.mp hRest _ hMem
      rw [logLines, complete_of_not_mem hLine, tail_of_not_mem hLine]
      rfl
  | case2 pending byte rest hRest lines rests hLines ih =>
      have hLine : Text.newline ∉ pending.takeWhile Text.inLine := by
        intro hMem
        simpa [Text.inLine] using List.mem_takeWhile_imp hMem
      have hByte : byte = Text.newline := by
        have hNot := List.head_dropWhile_not Text.inLine (l := pending) (by rw [hRest]; simp)
        simpa [hRest, Text.inLine] using hNot
      have hPending : pending = pending.takeWhile Text.inLine ++ Text.newline :: rest := by
        conv_lhs => rw [← List.takeWhile_append_dropWhile (p := Text.inLine) (l := pending), hRest, hByte]
      rw [hLines] at ih
      obtain ⟨hLinesEq, hRestsEq⟩ := Prod.mk.inj ih
      have hComplete := complete_line hLine rest
      have hTail := tail_line hLine rest
      rw [← hPending] at hComplete hTail
      rw [logLines, hComplete, hTail, hLinesEq, hRestsEq]
      rfl

theorem logLines_append (first second : Bytes) :
    logLines (first ++ second) = logLines first ++ logLines (tail Text.newline first ++ second) := by
  rw [logLines, complete_append, List.map_append]
  rfl

/-! The read loop. -/

/-- Reading on after a chunk gives a longer chunk. -/
theorem take_extend (content : Bytes) (offset size count : Nat) :
    (content.drop offset).take size ++ (content.drop (offset + size)).take count =
      (content.drop offset).take (size + count) := by
  rw [← List.drop_drop, List.take_add]

/-- Whatever the short counts and interruptions, a loop that returns has read
all the bytes asked for, when the file holds them. -/
theorem preadLoop_eq {path content chunk result : Bytes} {offset size read : Nat}
    {preads : List PreadOutcome} (hSize : offset + size ≤ content.length)
    (hChunk : chunk = (content.drop offset).take read) (hRead : read ≤ size)
    (h : preadLoop path content offset size chunk preads = .ok result) :
    result = (content.drop offset).take size := by
  induction preads generalizing chunk read with
  | nil =>
      have hLength : chunk.length = read := by
        rw [hChunk, List.length_take, List.length_drop]
        omega
      cases h
      rw [hLength, hChunk, take_extend]
      congr 1
      omega
  | cons outcome rest ih =>
      have hLength : chunk.length = read := by
        rw [hChunk, List.length_take, List.length_drop]
        omega
      by_cases hFull : size ≤ chunk.length
      · have hDone : Except.ok chunk = Except.ok (ε := Exception) result := by
          rw [← h]
          cases outcome <;> exact (if_pos hFull).symm
        cases hDone
        rw [hChunk]
        congr 1
        omega
      · cases outcome with
        | failed =>
            simp only [preadLoop, if_neg hFull] at h
            cases h
        | interrupted =>
            simp only [preadLoop, if_neg hFull] at h
            exact ih hChunk hRead h
        | short count =>
            simp only [preadLoop, if_neg hFull] at h
            rw [hLength] at h hFull
            have hPart : ((content.drop (offset + read)).take (min (count + 1) (size - read))).length =
                min (count + 1) (size - read) := by
              rw [List.length_take, List.length_drop]
              omega
            have hNonempty : (content.drop (offset + read)).take (min (count + 1) (size - read)) ≠ [] := by
              intro hNil
              rw [hNil, List.length_nil] at hPart
              omega
            rw [if_neg hNonempty] at h
            have hLonger := take_extend content offset read (min (count + 1) (size - read))
            rw [← hChunk] at hLonger
            exact ih hLonger (by omega) h

/-! One read. -/

/-- The lines that a read up to the end of `content` completes. -/
def newLines (reader : FileTailReader) (content : Bytes) : List Bytes :=
  logLines (reader.pending ++ content.drop reader.offset.toNat)

/-- The reader after that read. -/
def caughtUp (reader : FileTailReader) (content : Bytes) : FileTailReader :=
  { reader with
    offset := .ofNat content.length
    pending := tail Text.newline (reader.pending ++ content.drop reader.offset.toNat) }

theorem toNat_ofNat_length (file : LogFile) :
    (UInt64.ofNat file.bytes.length).toNat = file.bytes.length := by
  have hBound := file.size_lt
  rw [UInt64.toNat_ofNat']
  exact Nat.mod_eq_of_lt (by omega)

/-- A read from a file that is not shorter than the position throws and changes
nothing, or moves on to the end of the file. -/
theorem readFromOpenFile_cases {status : StatusOutcome} {preads : List PreadOutcome}
    (hOpen : reader.openFile = some fileId)
    (hLe : reader.offset.toNat ≤ (fileSystem.content fileId).bytes.length)
    (hPending : Text.newline ∉ reader.pending) :
    (∃ error, reader.readFromOpenFile fileSystem status preads = (.error error, reader)) ∨
      reader.readFromOpenFile fileSystem status preads =
        (.ok (reader.newLines (fileSystem.content fileId).bytes),
          reader.caughtUp (fileSystem.content fileId).bytes) := by
  have hSize := toNat_ofNat_length (fileSystem.content fileId)
  have hBound := (fileSystem.content fileId).size_lt
  generalize hContent : (fileSystem.content fileId).bytes = content at hLe hSize hBound ⊢
  have hGrown : ¬UInt64.ofNat content.length < reader.offset := by
    rw [UInt64.lt_iff_toNat_lt, hSize]
    exact Nat.not_lt.mpr hLe
  unfold readFromOpenFile
  rw [hOpen]
  cases status with
  | failed => exact .inl ⟨_, rfl⟩
  | negativeSize => exact .inl ⟨_, rfl⟩
  | done =>
      simp only [hContent, if_neg hGrown]
      by_cases hSame : UInt64.ofNat content.length = reader.offset
      · have hNone : reader.pending ++ content.drop reader.offset.toNat = reader.pending := by
          rw [← hSame, hSize, List.drop_length, List.append_nil]
        rw [if_pos hSame, newLines, caughtUp, hNone, logLines, complete_of_not_mem hPending,
          tail_of_not_mem hPending, hSame]
        exact .inr rfl
      · rw [if_neg hSame, UInt64.toNat_sub_of_le _ _ (UInt64.not_lt.mp hGrown), hSize]
        cases hLoop : preadLoop reader.path content reader.offset.toNat
            (content.length - reader.offset.toNat) [] preads with
        | error error => exact .inl ⟨error, rfl⟩
        | ok chunk =>
            have hChunk : chunk = content.drop reader.offset.toNat := by
              have hTake := preadLoop_eq (by omega)
                (List.take_zero (l := content.drop reader.offset.toNat)).symm (Nat.zero_le _) hLoop
              rw [hTake, List.take_of_length_le (by rw [List.length_drop])]
            have hOffset : reader.offset + .ofNat chunk.length = .ofNat content.length := by
              rw [← UInt64.toNat_inj, hSize, hChunk, List.length_drop, UInt64.toNat_add,
                UInt64.toNat_ofNat']
              omega
            dsimp only
            rw [extractLines_eq, hOffset, hChunk]
            exact .inr rfl

/-! What has been read. -/

/-- The bytes of the file from a start to the position of the reader. -/
def bytesRead (reader : FileTailReader) (start : Nat) (content : Bytes) : Bytes :=
  (content.take reader.offset.toNat).drop start

/-- The reader has read the open file from `start` to its position. -/
structure Follows (reader : FileTailReader) (fileId : FileId) (start : Nat) (content : Bytes) :
    Prop where
  isOpen : reader.openFile = some fileId
  deviceId_eq : reader.deviceId = fileId.device
  inode_eq : reader.inode = fileId.inode
  noSwitch : reader.switchOnNextRead = false
  start_le : start ≤ reader.offset.toNat
  offset_le : reader.offset.toNat ≤ content.length
  pending_eq : reader.pending = tail Text.newline (reader.bytesRead start content)

section Follows
variable {start : Nat} {content : Bytes}

theorem Follows.noNewline (h : Follows reader fileId start content) : Text.newline ∉ reader.pending := by
  rw [h.pending_eq]
  exact separator_not_mem_tail _ _

theorem Follows.bytesRead_append (h : Follows reader fileId start content) (more : Bytes) :
    reader.bytesRead start (content ++ more) = reader.bytesRead start content := by
  rw [bytesRead, bytesRead, List.take_append_of_le_length h.offset_le]

theorem Follows.append (h : Follows reader fileId start content) (more : Bytes) :
    Follows reader fileId start (content ++ more) :=
  { h with
    offset_le := by
      rw [List.length_append]
      exact h.offset_le.trans (Nat.le_add_right _ _)
    pending_eq := by rw [h.bytesRead_append, h.pending_eq] }

/-- What is still to be read follows what has been read. -/
theorem Follows.bytesRead_drop (h : Follows reader fileId start content) :
    reader.bytesRead start content ++ content.drop reader.offset.toNat = content.drop start := by
  have hLength : start ≤ (content.take reader.offset.toNat).length := by
    rw [List.length_take, Nat.min_eq_left h.offset_le]
    exact h.start_le
  rw [bytesRead, ← List.drop_append_of_le_length hLength, List.take_append_drop]

theorem Follows.logLines_drop (h : Follows reader fileId start content) :
    logLines (content.drop start) =
      logLines (reader.bytesRead start content) ++ reader.newLines content := by
  rw [newLines, h.pending_eq, ← logLines_append, h.bytesRead_drop]

theorem Follows.bytesRead_length (h : Follows reader fileId start content) :
    (reader.bytesRead start content).length = reader.offset.toNat - start := by
  rw [bytesRead, List.length_drop, List.length_take, Nat.min_eq_left h.offset_le]

/-- The subtraction in `committedOffset` does not wrap around. -/
theorem Follows.committedOffset_toNat (h : Follows reader fileId start content) :
    reader.pending.length ≤ reader.offset.toNat - start ∧
      reader.committedOffset.toNat = reader.offset.toNat - reader.pending.length := by
  have hTail := tail_length_le Text.newline (reader.bytesRead start content)
  rw [← h.pending_eq, h.bytesRead_length] at hTail
  have hLength : (UInt64.ofNat reader.pending.length).toNat = reader.pending.length := by
    have := reader.offset.toNat_lt
    rw [UInt64.toNat_ofNat']
    exact Nat.mod_eq_of_lt (by omega)
  refine ⟨hTail, ?_⟩
  rw [FileTailReader.committedOffset, UInt64.toNat_sub_of_le, hLength]
  rw [UInt64.le_iff_toNat_le, hLength]
  omega

/-- Up to the committed offset stand the complete lines of what has been read. -/
theorem Follows.committed (h : Follows reader fileId start content) :
    start ≤ reader.committedOffset.toNat ∧ reader.committedOffset.toNat ≤ content.length ∧
      (content.take reader.committedOffset.toNat).drop start =
        (complete Text.newline (reader.bytesRead start content)).flatMap (· ++ [Text.newline]) := by
  obtain ⟨hPending, hCommitted⟩ := h.committedOffset_toNat
  have hStart := h.start_le
  have hEnd := h.offset_le
  refine ⟨by omega, by omega, ?_⟩
  rw [← take_sub_tail, ← h.pending_eq, h.bytesRead_length, bytesRead, List.drop_take, List.drop_take,
    List.take_take, hCommitted]
  congr 1
  omega

/-- The lines up to the committed offset are those of the bytes read, and no part of a
line stands right before it. -/
theorem Follows.committed_lines (h : Follows reader fileId start content) :
    logLines ((content.take reader.committedOffset.toNat).drop start) =
        logLines (reader.bytesRead start content) ∧
      tail Text.newline ((content.take reader.committedOffset.toNat).drop start) = [] := by
  obtain ⟨hLines, hTail⟩ := split_take_sub_tail Text.newline (reader.bytesRead start content)
  rw [take_sub_tail, ← h.committed.2.2] at hLines hTail
  exact ⟨congrArg (List.map stripCarriageReturn) hLines, hTail⟩

end Follows

theorem Follows.caughtUp {start : Nat} {file : LogFile} (h : Follows reader fileId start file.bytes) :
    Follows (reader.caughtUp file.bytes) fileId start file.bytes ∧
      (reader.caughtUp file.bytes).bytesRead start file.bytes = file.bytes.drop start := by
  have hOffset : (reader.caughtUp file.bytes).offset.toNat = file.bytes.length := toNat_ofNat_length file
  have hRead : (reader.caughtUp file.bytes).bytesRead start file.bytes = file.bytes.drop start := by
    rw [bytesRead, hOffset, List.take_length]
  refine ⟨⟨h.isOpen, h.deviceId_eq, h.inode_eq, h.noSwitch, ?_, hOffset.le, ?_⟩, hRead⟩
  · rw [hOffset]
    exact h.start_le.trans h.offset_le
  · rw [hRead, ← h.bytesRead_drop, tail_append, ← h.pending_eq]
    rfl

/-! One poll. -/

/-- The reader after the poll that notices the replacement. -/
def drained (reader : FileTailReader) (content : Bytes) : FileTailReader :=
  { reader.caughtUp content with pending := [], switchOnNextRead := true }

/-- The lines that this poll returns. -/
def lastLines (reader : FileTailReader) (content : Bytes) : List Bytes :=
  if (reader.caughtUp content).pending = [] then reader.newLines content
  else reader.newLines content ++ [(reader.caughtUp content).pending]

theorem Follows.replacedBy_iff {start : Nat} {content : Bytes} {other : FileId}
    (h : Follows reader fileId start content) : reader.replacedBy other = true ↔ other ≠ fileId := by
  rw [replacedBy, h.deviceId_eq, h.inode_eq, Bool.or_eq_true, decide_eq_true_iff, decide_eq_true_iff,
    Ne, Ne, Ne, ← not_and_or, not_iff_not]
  obtain ⟨device, inode⟩ := fileId
  obtain ⟨otherDevice, otherInode⟩ := other
  rw [FileId.mk.injEq]
  constructor <;> rintro ⟨rfl, rfl⟩ <;> exact ⟨rfl, rfl⟩

/-- A poll throws and changes nothing, or reads to the end of the open file. When the
path names another file it returns the tail too, and the next poll switches. -/
theorem readNewLines_outcomes {start : Nat} (outcome : PollOutcome)
    (h : Follows reader fileId start (fileSystem.content fileId).bytes) :
    (∃ error, reader.readNewLines fileSystem outcome = (.error error, reader)) ∨
      ((∀ other, fileSystem.path = some other → other = fileId) ∧
        reader.readNewLines fileSystem outcome =
          (.ok (reader.newLines (fileSystem.content fileId).bytes),
            reader.caughtUp (fileSystem.content fileId).bytes)) ∨
      ((∃ other, fileSystem.path = some other ∧ other ≠ fileId) ∧
        reader.readNewLines fileSystem outcome =
          (.ok (reader.lastLines (fileSystem.content fileId).bytes),
            reader.drained (fileSystem.content fileId).bytes)) := by
  have hRead := @readFromOpenFile_cases reader fileSystem fileId outcome.status outcome.preads h.isOpen
    h.offset_le h.noNewline
  rw [readNewLines, h.noSwitch]
  simp only [Bool.false_eq_true, if_false]
  split_ifs with hStat hReplaced
  · exact .inl ⟨_, rfl⟩
  · rw [Option.any_eq_true] at hReplaced
    obtain ⟨other, hPath, hOther⟩ := hReplaced
    rcases hRead with ⟨error, hError⟩ | hOk
    · rw [hError]
      exact .inl ⟨error, rfl⟩
    · rw [hOk]
      exact .inr (.inr ⟨⟨other, hPath, h.replacedBy_iff.mp hOther⟩, rfl⟩)
  · rcases hRead with hError | hOk
    · exact .inl hError
    · refine .inr (.inl ⟨fun other hPath => ?_, hOk⟩)
      rw [hPath, Option.any_some, h.replacedBy_iff, not_not] at hReplaced
      exact hReplaced

/-- Where the path still names the open file, a poll throws and changes nothing, or
returns the lines up to the end of the file. -/
theorem readNewLines_cases {start : Nat} (outcome : PollOutcome) (hPath : fileSystem.path = some fileId)
    (h : Follows reader fileId start (fileSystem.content fileId).bytes) :
    (∃ error, reader.readNewLines fileSystem outcome = (.error error, reader)) ∨
      reader.readNewLines fileSystem outcome =
        (.ok (reader.newLines (fileSystem.content fileId).bytes),
          reader.caughtUp (fileSystem.content fileId).bytes) := by
  rcases readNewLines_outcomes outcome h with hError | ⟨_, hOk⟩ | ⟨⟨other, hOther, hNot⟩, _⟩
  · exact .inl hError
  · exact .inr hOk
  · exact absurd (Option.some.inj (hOther.symm.trans hPath)) hNot

/-! Tracking one file. -/

/-- The reader has read a prefix of `content`, the content of its open file. -/
structure Tracks (reader : FileTailReader) (fileId : FileId) (content : Bytes) : Prop where
  isOpen : reader.openFile = some fileId
  deviceId_eq : reader.deviceId = fileId.device
  inode_eq : reader.inode = fileId.inode
  noSwitch : reader.switchOnNextRead = false
  offset_le : reader.offset.toNat ≤ content.length
  pending_eq : reader.pending = tail Text.newline (content.take reader.offset.toNat)

theorem tracks_iff_follows {content : Bytes} :
    Tracks reader fileId content ↔ Follows reader fileId 0 content := by
  constructor
  · intro h
    exact ⟨h.isOpen, h.deviceId_eq, h.inode_eq, h.noSwitch, Nat.zero_le _, h.offset_le, h.pending_eq⟩
  · intro h
    exact ⟨h.isOpen, h.deviceId_eq, h.inode_eq, h.noSwitch, h.offset_le, h.pending_eq⟩

/-- The reader does not notice that the file has grown. -/
theorem Tracks.append {content : Bytes} (h : Tracks reader fileId content) (more : Bytes) :
    Tracks reader fileId (content ++ more) :=
  tracks_iff_follows.mpr ((tracks_iff_follows.mp h).append more)

/-- While the path names the open file, a successful call returns the lines
between its old and its new position. -/
theorem readNewLines_tracks {outcome : PollOutcome} {lines : List Bytes}
    (hPath : fileSystem.path = some fileId)
    (h : Tracks reader fileId (fileSystem.content fileId).bytes)
    (hRead : reader.readNewLines fileSystem outcome = (.ok lines, next)) :
    Tracks next fileId (fileSystem.content fileId).bytes ∧
      next.offset.toNat = (fileSystem.content fileId).bytes.length ∧
      logLines (fileSystem.content fileId).bytes =
        logLines ((fileSystem.content fileId).bytes.take reader.offset.toNat) ++ lines := by
  have hFollows := tracks_iff_follows.mp h
  rcases readNewLines_cases outcome hPath hFollows with ⟨_, hError⟩ | hOk
  · cases hRead.symm.trans hError
  · cases hRead.symm.trans hOk
    obtain ⟨hCaughtUp, _⟩ := hFollows.caughtUp
    exact ⟨tracks_iff_follows.mpr hCaughtUp, toNat_ofNat_length _, hFollows.logLines_drop⟩

/-! The path of a reader never changes. -/

/-- A read changes neither the path nor the open file. -/
theorem readFromOpenFile_frame (reader : FileTailReader) (fileSystem : FileSystem)
    (status : StatusOutcome) (preads : List PreadOutcome) :
    (reader.readFromOpenFile fileSystem status preads).2.path = reader.path ∧
      (reader.readFromOpenFile fileSystem status preads).2.openFile = reader.openFile := by
  have hReset : ∀ fileSize : UInt64,
      (if fileSize < reader.offset then { reader with offset := 0, pending := [] } else reader).path =
          reader.path ∧
        (if fileSize < reader.offset then { reader with offset := 0, pending := [] }
          else reader).openFile = reader.openFile := by
    intro fileSize
    split_ifs <;> exact ⟨rfl, rfl⟩
  fun_cases readFromOpenFile <;> first
    | exact ⟨rfl, rfl⟩
    | exact hReset _

theorem openCurrentFile_path (reader : FileTailReader) (fileSystem : FileSystem)
    (initialOffset expectedDeviceId expectedInode : UInt64) (outcome : OpenOutcome) :
    (reader.openCurrentFile fileSystem initialOffset expectedDeviceId expectedInode outcome).2.path =
      reader.path := by
  fun_cases openCurrentFile <;> rfl

theorem readNewLines_path (reader : FileTailReader) (fileSystem : FileSystem)
    (outcome : PollOutcome) : (reader.readNewLines fileSystem outcome).2.path = reader.path := by
  have hRead := (readFromOpenFile_frame reader fileSystem outcome.status outcome.preads).1
  have hOpen := openCurrentFile_path reader fileSystem 0 0 0 outcome.reopen
  fun_cases readNewLines <;> simp_all [readFromOpenFile_frame]

theorem construct_path {path : Bytes} {initialOffset expectedDeviceId expectedInode : UInt64}
    {outcome : OpenOutcome} (h : construct path fileSystem initialOffset expectedDeviceId
      expectedInode outcome = .ok reader) : reader.path = path := by
  have hOpen := openCurrentFile_path { path } fileSystem initialOffset expectedDeviceId
    expectedInode outcome
  rw [construct] at h
  split_ifs at h with hEmpty
  rcases hEnd : openCurrentFile { path } fileSystem initialOffset expectedDeviceId expectedInode
    outcome with ⟨result, opened⟩
  rw [hEnd] at h hOpen
  cases result with
  | error error => cases h
  | ok _ =>
      cases h
      exact hOpen

/-- The position is at the start of a line: the bytes before it end with a
newline, if there are any. -/
def AtLineStart (content : Bytes) (position : Nat) : Prop :=
  position ≤ content.length ∧ tail Text.newline (content.take position) = []

theorem AtLineStart.after_newline {content : Bytes} {position : Nat}
    (h : AtLineStart content position) :
    position = 0 ∨ content[position - 1]? = some Text.newline := by
  by_cases hZero : position = 0
  · exact Or.inl hZero
  · right
    have hLength : (content.take position).length = position := by
      rw [List.length_take, Nat.min_eq_left h.1]
    have hNonempty : content.take position ≠ [] := by
      intro hNil
      rw [hNil, List.length_nil] at hLength
      exact hZero hLength.symm
    have hLast := getLast?_of_tail_eq_nil h.2 hNonempty
    rwa [List.getLast?_eq_getElem?, hLength, List.getElem?_take_of_lt (by omega)] at hLast

/-- A line start stays one when the file grows. -/
theorem AtLineStart.append {content : Bytes} {position : Nat} (h : AtLineStart content position)
    (more : Bytes) : AtLineStart (content ++ more) position := by
  refine ⟨h.1.trans (by simp), ?_⟩
  rw [List.take_append_of_le_length h.1]
  exact h.2

/-- The committed offset lies after the last returned line. -/
theorem Tracks.committedOffset {content : Bytes} (h : Tracks reader fileId content) :
    AtLineStart content reader.committedOffset.toNat ∧
      logLines (content.take reader.committedOffset.toNat) =
        logLines (content.take reader.offset.toNat) := by
  have hFollows := tracks_iff_follows.mp h
  obtain ⟨hLines, hTail⟩ := hFollows.committed_lines
  exact ⟨⟨hFollows.committed.2.1, hTail⟩, hLines⟩

/-- The checkpoint belongs to the file, as far as its identity is known. -/
def IdentityMatches (expectedDeviceId expectedInode : UInt64) (fileId : FileId) : Prop :=
  expectedDeviceId = 0 ∨ expectedInode = 0 ∨
    (expectedDeviceId = fileId.device ∧ expectedInode = fileId.inode)

/-- A new reader at a position of a file. -/
def opened (path : Bytes) (fileId : FileId) (offset : UInt64) : FileTailReader :=
  { path, openFile := some fileId, offset, deviceId := fileId.device, inode := fileId.inode }

/-- A new reader starts at the position asked for, or at the start of the file where
that position belongs to another one. -/
theorem construct_eq_ok {path : Bytes} {initialOffset expectedDeviceId expectedInode : UInt64}
    {outcome : OpenOutcome} (hPath : fileSystem.path = some fileId)
    (h : construct path fileSystem initialOffset expectedDeviceId expectedInode outcome = .ok reader) :
    path ≠ [] ∧ ∃ offset : UInt64, reader = opened path fileId offset ∧
      offset.toNat ≤ (fileSystem.content fileId).bytes.length ∧
      (initialOffset.toNat ≤ (fileSystem.content fileId).bytes.length → offset = initialOffset ∨
        offset = 0 ∧ ¬IdentityMatches expectedDeviceId expectedInode fileId) := by
  have hSize := toNat_ofNat_length (fileSystem.content fileId)
  obtain ⟨openFails, status⟩ := outcome
  rw [construct] at h
  split_ifs at h with hEmpty
  unfold openCurrentFile at h
  rw [hPath] at h
  cases openFails with
  | true => cases h
  | false =>
      cases status with
      | failed => cases h
      | negativeSize => cases h
      | done =>
          dsimp only at h
          cases h
          refine ⟨hEmpty, _, rfl, ?_, ?_⟩
          · split_ifs with hMatches hShort
            · exact Nat.zero_le _
            · rw [UInt64.lt_iff_toNat_lt, hSize] at hShort
              exact Nat.not_lt.mp hShort
            · exact Nat.zero_le _
            · exact Nat.zero_le _
          · intro hLe
            by_cases hMatches : IdentityMatches expectedDeviceId expectedInode fileId
            · left
              rw [if_pos (show expectedDeviceId = 0 ∨ _ from hMatches), if_neg]
              rw [UInt64.lt_iff_toNat_lt, hSize]
              exact Nat.not_lt.mpr hLe
            · right
              rw [if_neg (show ¬(expectedDeviceId = 0 ∨ _) from hMatches), if_neg UInt64.not_lt_zero]
              exact ⟨rfl, hMatches⟩

/-- A reader opened at the start of a line tracks the file from there, or from
the start of the file where the checkpoint belongs to another one. -/
theorem construct_tracks {path : Bytes} {initialOffset expectedDeviceId expectedInode : UInt64}
    {outcome : OpenOutcome} (hPath : fileSystem.path = some fileId)
    (hStart : AtLineStart (fileSystem.content fileId).bytes initialOffset.toNat)
    (hOpen : construct path fileSystem initialOffset expectedDeviceId expectedInode outcome =
      .ok reader) :
    Tracks reader fileId (fileSystem.content fileId).bytes ∧
      (reader.offset = initialOffset ∨
        (reader.offset = 0 ∧ ¬IdentityMatches expectedDeviceId expectedInode fileId)) := by
  obtain ⟨_, offset, rfl, hLe, hOffset⟩ := construct_eq_ok hPath hOpen
  refine ⟨⟨rfl, rfl, rfl, rfl, hLe, ?_⟩, hOffset hStart.1⟩
  rcases hOffset hStart.1 with rfl | ⟨rfl, _⟩
  · exact hStart.2.symm
  · rfl

end LogBridge.FileTailReader
