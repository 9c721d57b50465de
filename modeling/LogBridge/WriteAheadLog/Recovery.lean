import LogBridge.Protocol.Frames
import LogBridge.WriteAheadLog.Model

/-! The content of the log file and its recovery. A file that holds the frames
of a valid message list, followed at most by an incomplete frame, is loaded to
exactly that list and left without the incomplete frame. -/
namespace LogBridge.WriteAheadLog

open Checked Protocol Storage

/-- The frame of one logged message. -/
def walFrame (message : LogMessage) : Bytes := frameBytes .log (logRecordBytes message)

/-- The file content for a list of messages. -/
def walBytes (messages : List LogMessage) : Bytes := (messages.map walFrame).flatten

@[simp] theorem walBytes_nil : walBytes [] = [] := rfl

@[simp] theorem walBytes_cons (message : LogMessage) (rest : List LogMessage) :
    walBytes (message :: rest) = walFrame message ++ walBytes rest := rfl

@[simp] theorem walBytes_append (first second : List LogMessage) :
    walBytes (first ++ second) = walBytes first ++ walBytes second := by
  simp [walBytes]

theorem serializeLogMessage_walFrame {message : LogMessage} (h : WithinLimits message) :
    serializeLogMessage message = .ok (walFrame message) :=
  serializeLogMessage_eq_ok_iff.mpr ⟨h, rfl⟩

theorem walFrame_length (message : LogMessage) :
    (walFrame message).length = frameHeaderSize + (logRecordBytes message).length :=
  frameBytes_length .log _

theorem frameHeaderSize_lt_walFrame (message : LogMessage) :
    frameHeaderSize < (walFrame message).length := by
  have := logRecordBytes_length_pos message
  rw [walFrame_length]
  omega

/-- The messages a log may hold: each within the limits, ids increasing, one client. -/
structure PendingValid (messages : List LogMessage) : Prop where
  within : ∀ message ∈ messages, WithinLimits message
  idsIncreasing : IdsIncreasing messages
  sameClient : ∀ first ∈ messages, ∀ second ∈ messages, first.clientId = second.clientId

namespace PendingValid

theorem nil : PendingValid [] := ⟨by simp, List.Pairwise.nil, by simp⟩

theorem sublist {messages part : List LogMessage} (h : PendingValid messages)
    (hSublist : part.Sublist messages) : PendingValid part where
  within message hMem := h.within message (hSublist.subset hMem)
  idsIncreasing := h.idsIncreasing.sublist hSublist
  sameClient first hFirst second hSecond :=
    h.sameClient first (hSublist.subset hFirst) second (hSublist.subset hSecond)

theorem filter {messages : List LogMessage} (h : PendingValid messages) (keep : LogMessage → Bool) :
    PendingValid (messages.filter keep) :=
  h.sublist List.filter_sublist

/-- A message may be appended when it is later than every logged message and
belongs to their client. -/
theorem concat {messages : List LogMessage} {message : LogMessage} (h : PendingValid messages)
    (hLimits : WithinLimits message) (hLater : ∀ other ∈ messages, other.id < message.id)
    (hClient : ∀ other ∈ messages, other.clientId = message.clientId) :
    PendingValid (messages ++ [message]) where
  within := by
    intro other hMem
    rcases List.mem_append.mp hMem with hMem | hMem
    · exact h.within other hMem
    · rwa [List.mem_singleton.mp hMem]
  idsIncreasing := by
    refine List.pairwise_append.mpr ⟨h.idsIncreasing, List.pairwise_singleton _ _, ?_⟩
    intro other hMem last hLast
    rw [List.mem_singleton.mp hLast]
    exact hLater other hMem
  sameClient := by
    have hAll : ∀ other ∈ messages ++ [message], other.clientId = message.clientId := by
      intro other hMem
      rcases List.mem_append.mp hMem with hMem | hMem
      · exact hClient other hMem
      · rw [List.mem_singleton.mp hMem]
    intro first hFirst second hSecond
    exact (hAll first hFirst).trans (hAll second hSecond).symm

end PendingValid

theorem foldlM_encodePending {messages : List LogMessage} (data : Bytes)
    (h : ∀ message ∈ messages, WithinLimits message) :
    messages.foldlM (fun data message => do
      let frame ← serializeLogMessage message
      return data ++ frame) data = (.ok (data ++ walBytes messages) : Except Exception Bytes) := by
  induction messages generalizing data with
  | nil => simp [pure, Except.pure]
  | cons message rest ih =>
      rw [List.forall_mem_cons] at h
      rw [List.foldlM_cons, serializeLogMessage_walFrame h.1]
      change List.foldlM _ (data ++ walFrame message) rest = _
      rw [ih _ h.2, walBytes_cons, List.append_assoc]

theorem encodePending_eq {messages : List LogMessage}
    (h : ∀ message ∈ messages, WithinLimits message) :
    encodePending messages = .ok (walBytes messages) :=
  foldlM_encodePending [] h

theorem rewriteLocked_eq {wal : WriteAheadLog} (h : ∀ message ∈ wal.pending, WithinLimits message)
    (file : Option Bytes) (outcome : SaveOutcome) :
    wal.rewriteLocked file outcome = writeAtomically file (walBytes wal.pending) outcome := by
  rw [rewriteLocked, encodePending_eq h]

/-! Recovery. -/

/-- What a crash may leave after the last complete frame: nothing, or the first
bytes of the frame that was being appended. -/
def Torn (tail : Bytes) : Prop :=
  ∃ message, WithinLimits message ∧ ∃ written < (walFrame message).length,
    tail = (walFrame message).take written

theorem Torn.nil : Torn [] := by
  refine ⟨{ id := 1, clientId := [0] }, ⟨by decide, by decide, by decide, by decide, by decide⟩, 0, ?_, rfl⟩
  rw [walFrame_length, frameHeaderSize]
  omega

/-- The header of a log frame is parsed from any data that begins with it. -/
theorem parseFrameHeader_walFrame {message : LogMessage} (h : WithinLimits message) (rest : Bytes) :
    ∃ header, parseFrameHeader (walFrame message ++ rest) = .ok header ∧ header.type = .log ∧
      frameHeaderSize + header.payloadLength.toNat = (walFrame message).length := by
  have hLimit := h.logRecordBytes_length_le.trans (Nat.sub_le _ _)
  have hToNat := toNat_payloadLength hLimit
  refine ⟨⟨version, .log, .ofNat (logRecordBytes message).length⟩, ?_, rfl, ?_⟩
  · rw [walFrame, frameBytes, List.append_assoc]
    exact parseFrameHeader_append (by rwa [hToNat]) _
  · rw [hToNat, walFrame_length]

theorem loadLoop_end {data : Bytes} {offset : Nat} (pending : List LogMessage)
    (h : data.length ≤ offset) : loadLoop data offset pending = .ok (pending, false) := by
  rw [loadLoop, dif_neg (Nat.not_lt.mpr h)]
  rfl

/-- The loop stops at an incomplete frame and reports it. -/
theorem loadLoop_torn {data tail : Bytes} {offset : Nat} (pending : List LogMessage)
    (hDrop : data.drop offset = tail) (hTorn : Torn tail) (hNonempty : tail ≠ []) :
    loadLoop data offset pending = .ok (pending, true) := by
  obtain ⟨message, hLimits, written, hWritten, rfl⟩ := hTorn
  have hLength : data.length - offset = written := by
    rw [← List.length_drop, hDrop, List.length_take]
    omega
  have hPos : 0 < written := by
    apply Nat.pos_of_ne_zero
    rintro rfl
    exact hNonempty rfl
  rw [loadLoop, dif_pos (by omega)]
  dsimp only
  by_cases hShort : data.length - offset < frameHeaderSize
  · rw [if_pos hShort]
    rfl
  · rw [if_neg hShort]
    -- the header is complete, so it declares the length of the whole frame
    have hHeader : ∃ header, parseFrameHeader (data.drop offset) = .ok header ∧
        header.type = .log ∧
        frameHeaderSize + header.payloadLength.toNat = (walFrame message).length := by
      obtain ⟨header, hParse, hType, hSize⟩ := parseFrameHeader_walFrame hLimits []
      refine ⟨header, ?_, hType, hSize⟩
      rw [List.append_nil, parseFrameHeader_eq_ok_iff] at hParse
      obtain ⟨hVersion, hLimit, hSegment⟩ := hParse
      refine parseFrameHeader_eq_ok_iff.mpr ⟨hVersion, hLimit, ?_⟩
      have hPrefix := hSegment.take_drop_eq
      have hWhole : Segment ((walFrame message).take written) 0
          ((((walFrame message).take written).drop 0).take frameHeaderSize)
          (0 + frameHeaderSize) :=
        Segment.of_le (by rw [List.length_take]; omega)
      rw [List.drop_zero, frameHeaderBytes_length] at hPrefix
      rw [List.drop_zero, List.take_take, Nat.min_eq_left (by omega), hPrefix] at hWhole
      simpa [hDrop] using hWhole
    obtain ⟨header, hParse, hType, hSize⟩ := hHeader
    rw [hParse]
    change (throwIf (header.type ≠ .log) _ >>= _) = _
    rw [throwIf_of_not (not_not.mpr hType)]
    change (if _ < _ then _ else _) = _
    rw [if_pos (by omega)]
    rfl

/-- One complete frame is read and the loop goes on after it. -/
theorem loadLoop_frame {data rest : Bytes} {offset : Nat} {pending : List LogMessage}
    {message : LogMessage} (hDrop : data.drop offset = walFrame message ++ rest)
    (hValid : PendingValid (pending ++ [message])) :
    loadLoop data offset pending =
      loadLoop data (offset + (walFrame message).length) (pending ++ [message]) := by
  have hLimits := hValid.within message (by simp)
  have hFrame := frameHeaderSize_lt_walFrame message
  have hLength : data.length - offset = (walFrame message).length + rest.length := by
    rw [← List.length_drop, hDrop, List.length_append]
  obtain ⟨header, hParse, hType, hSize⟩ := parseFrameHeader_walFrame hLimits rest
  have hIds := (List.pairwise_append.mp hValid.idsIncreasing).2.2
  have hMessage : deserializeLogMessage (walFrame message) = .ok message :=
    deserializeLogMessage_eq_ok_iff.mpr (serializeLogMessage_walFrame hLimits)
  conv_lhs => rw [loadLoop]
  rw [dif_pos (by omega)]
  dsimp only
  rw [if_neg (by omega), hDrop, hParse]
  change (throwIf (header.type ≠ .log) _ >>= _) = _
  rw [throwIf_of_not (not_not.mpr hType)]
  change (if _ < _ then _ else _) = _
  rw [if_neg (by omega), hSize, List.take_left, hMessage]
  change (throwIf _ _ >>= _) = _
  rw [throwIf_of_not]
  · change (throwIf _ _ >>= _) = _
    rw [throwIf_of_not]
    · rfl
    · rintro ⟨first, hFirst, hNe⟩
      exact hNe (hValid.sameClient message (by simp) first
        (by simp [List.mem_of_head? hFirst]))
  · rintro ⟨last, hLast, hLe⟩
    exact UInt64.not_le.mpr (hIds last (List.mem_of_getLast? hLast) message (by simp)) hLe

/-- Induction over the frames that remain: the loop reads them all and then
finds the end of the data or an incomplete frame. -/
theorem loadLoop_eq {data tail : Bytes} {offset : Nat} {pending rest : List LogMessage}
    (hDrop : data.drop offset = walBytes rest ++ tail) (hTorn : Torn tail)
    (hValid : PendingValid (pending ++ rest)) :
    loadLoop data offset pending = .ok (pending ++ rest, decide (tail ≠ [])) := by
  induction rest generalizing offset pending with
  | nil =>
      rw [walBytes_nil, List.nil_append] at hDrop
      rw [List.append_nil]
      by_cases hNonempty : tail = []
      · have hEnd := loadLoop_end pending (List.drop_eq_nil_iff.mp (hDrop.trans hNonempty))
        simpa [hNonempty] using hEnd
      · simpa [hNonempty] using loadLoop_torn pending hDrop hTorn hNonempty
  | cons message rest ih =>
      rw [walBytes_cons, List.append_assoc] at hDrop
      have hSplit : pending ++ message :: rest = (pending ++ [message]) ++ rest := by simp
      rw [hSplit] at hValid ⊢
      have hHead : PendingValid (pending ++ [message]) :=
        hValid.sublist (List.sublist_append_left _ _)
      rw [loadLoop_frame hDrop hHead]
      refine ih ?_ hValid
      rw [← List.drop_drop, hDrop, List.drop_left]

/-- Opening a log file that holds the frames of a valid list and perhaps an
incomplete frame gives exactly that list and clears the incomplete frame. -/
theorem load_eq {file : Option Bytes} {messages : List LogMessage} {tail : Bytes}
    (hFile : readFile file = walBytes messages ++ tail) (hTorn : Torn tail)
    (hValid : PendingValid messages) :
    ∃ file', load file .saved = (.ok { pending := messages }, file') ∧
      readFile file' = walBytes messages := by
  have hLoop : loadLoop (readFile file) 0 [] = .ok ([] ++ messages, decide (tail ≠ [])) :=
    loadLoop_eq (by simpa using hFile) hTorn hValid
  rw [load, hLoop, List.nil_append]
  by_cases hNonempty : tail = []
  · subst hNonempty
    exact ⟨file, rfl, by simpa using hFile⟩
  · refine ⟨some (walBytes messages), ?_, rfl⟩
    simp [hNonempty, rewriteLocked_eq hValid.within, writeAtomically]

/-- However the rewrite of the tail ends: the constructor recovers the list and
clears the tail, or it fails and leaves the list with at most an incomplete frame. -/
theorem construct_cases {path : Bytes} {file : Option Bytes} {messages : List LogMessage}
    {tail : Bytes} (hFile : readFile file = walBytes messages ++ tail) (hTorn : Torn tail)
    (hValid : PendingValid messages) (outcome : SaveOutcome) :
    (∃ file', construct path file outcome = (.ok { pending := messages }, file') ∧
      readFile file' = walBytes messages) ∨
    ∃ error file' rest, construct path file outcome = (.error error, file') ∧ Torn rest ∧
      readFile file' = walBytes messages ++ rest := by
  rw [construct]
  by_cases hPath : path = []
  · rw [if_pos hPath]
    exact Or.inr ⟨_, file, tail, rfl, hTorn, hFile⟩
  · have hLoop : loadLoop (readFile file) 0 [] = .ok ([] ++ messages, decide (tail ≠ [])) :=
      loadLoop_eq (by simpa using hFile) hTorn hValid
    rw [if_neg hPath, load, hLoop, List.nil_append]
    by_cases hNonempty : tail = []
    · subst hNonempty
      exact Or.inl ⟨file, rfl, by simpa using hFile⟩
    · simp only [hNonempty, ne_eq, not_false_eq_true, decide_true, if_true,
        rewriteLocked_eq hValid.within]
      cases outcome with
      | saved => exact Or.inl ⟨some (walBytes messages), rfl, rfl⟩
      | failedBeforeRename error => exact Or.inr ⟨error, file, tail, rfl, hTorn, hFile⟩
      | failedAfterRename error =>
          exact Or.inr ⟨error, some (walBytes messages), [], rfl, Torn.nil, by simp⟩

/-- The file after a constructor holds the list and at most an incomplete frame. -/
theorem construct_file {path : Bytes} {file : Option Bytes} {messages : List LogMessage}
    {tail : Bytes} (hFile : readFile file = walBytes messages ++ tail) (hTorn : Torn tail)
    (hValid : PendingValid messages) (outcome : SaveOutcome) :
    ∃ rest, Torn rest ∧ readFile (construct path file outcome).2 = walBytes messages ++ rest := by
  rcases @construct_cases path file messages tail hFile hTorn hValid outcome with
    ⟨file', hConstruct, hNew⟩ | ⟨error, file', rest, hConstruct, hRest, hNew⟩
  · exact ⟨[], Torn.nil, by rw [hConstruct, hNew, List.append_nil]⟩
  · exact ⟨rest, hRest, by rw [hConstruct, hNew]⟩

end LogBridge.WriteAheadLog
