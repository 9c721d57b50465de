import LogBridge.WriteAheadLog.Refinement
import LogBridge.WriteAheadLog.Scan

/-! Storage calls that fail while the process runs on. A failed rewrite leaves
the old records in the file although memory has dropped them, and an append that
was cut off leaves an incomplete frame before the frames to come. -/
namespace LogBridge.WriteAheadLog

open Checked Protocol Storage

/-! Failed compactions. -/

/-- A call on the log. The rewrite inside a confirmation may fail before its rename. -/
inductive WalCall where
  | append (message : LogMessage)
  | confirm (confirmedId : UInt64) (rewriteError : Option Exception)
  deriving DecidableEq, Repr

/-- How the rewrite ends. -/
def rewriteOutcome : Option Exception → SaveOutcome
  | none => .saved
  | some error => .failedBeforeRename error

def WalCall.run (wal : WriteAheadLog) (file : Option Bytes) :
    WalCall → Except Exception Unit × WriteAheadLog × Option Bytes
  | .append message => wal.append file message .done
  | .confirm confirmedId rewriteError => wal.confirm file confirmedId (rewriteOutcome rewriteError)

/-- The log and its file after a call, whether or not the call threw. -/
def callStep (state : WriteAheadLog × Option Bytes) (call : WalCall) :
    Option (WriteAheadLog × Option Bytes) :=
  some (call.run state.1 state.2).2

/-- A confirmation that returns leaves exactly the frames of the pending messages
on file, none of them covered; one that throws leaves the pending messages. -/
def ConfirmsOrKeeps (state : WriteAheadLog × Option Bytes) : WalCall → Prop
  | .append _ => True
  | .confirm confirmedId rewriteError =>
      let (result, wal, file) := (WalCall.confirm confirmedId rewriteError).run state.1 state.2
      match result with
      | .ok () => encodePending wal.pending = .ok (readFile file) ∧
          ∀ message ∈ wal.pending, confirmedId < message.id
      | .error _ => wal.pending = state.1.pending

/-- A rewrite fails only where there is none to make. -/
def NoFailedRewrite (state : WriteAheadLog × Option Bytes) : WalCall → Prop
  | .append _ => True
  | .confirm confirmedId rewriteError =>
      rewriteError ≠ none → ∀ message ∈ state.1.pending, confirmedId < message.id

/-- The file holds exactly the frames of the pending messages. -/
structure Synced (state : WriteAheadLog × Option Bytes) : Prop where
  within : ∀ message ∈ state.1.pending, WithinLimits message
  file : readFile state.2 = walBytes state.1.pending

theorem keptAfter_eq_self_iff {confirmedId : UInt64} {pending : List LogMessage} :
    keptAfter confirmedId pending = pending ↔ ∀ message ∈ pending, confirmedId < message.id := by
  simp [keptAfter, List.filter_eq_self]

theorem mem_keptAfter {confirmedId : UInt64} {pending : List LogMessage} {message : LogMessage}
    (h : message ∈ keptAfter confirmedId pending) : message ∈ pending ∧ confirmedId < message.id := by
  simpa [keptAfter] using h

theorem Synced.append {state : WriteAheadLog × Option Bytes} (h : Synced state) (message : LogMessage) :
    Synced ((WalCall.append message).run state.1 state.2).2 := by
  change Synced (state.1.append state.2 message .done).2
  cases hFrame : serializeLogMessage message with
  | error error =>
      rw [WriteAheadLog.append, hFrame]
      exact h
  | ok frame =>
      have hLimits := (serializeLogMessage_eq_ok_iff.mp hFrame).1
      rw [append_done _ _ hLimits]
      constructor
      · intro other hMem
        rcases List.mem_append.mp hMem with hOld | hNew
        · exact h.within other hOld
        · rwa [List.mem_singleton.mp hNew]
      · rw [readFile_some, h.file]
        simp

/-- Where no rewrite fails, memory and file stay together. -/
theorem Synced.call {state next : WriteAheadLog × Option Bytes} {call : WalCall} (h : Synced state)
    (hNoFailure : NoFailedRewrite state call) (hStep : callStep state call = some next) :
    Synced next := by
  cases hStep
  cases call with
  | append message => exact h.append message
  | confirm confirmedId rewriteError =>
      have hKept : Synced ({ pending := keptAfter confirmedId state.1.pending },
          some (walBytes (keptAfter confirmedId state.1.pending))) :=
        ⟨fun message hMem => h.within message (mem_keptAfter hMem).1, rfl⟩
      rw [WalCall.run, confirm_eq h.within]
      split_ifs with hSame
      · exact h
      · cases rewriteError with
        | none => exact hKept
        | some error => exact absurd (keptAfter_eq_self_iff.mpr (hNoFailure nofun)) hSame

/-- The guarantee of one call fails exactly with its rewrite. -/
theorem confirmsOrKeeps_iff {state : WriteAheadLog × Option Bytes} (h : Synced state) (call : WalCall) :
    ConfirmsOrKeeps state call ↔ NoFailedRewrite state call := by
  cases call with
  | append message => exact Iff.rfl
  | confirm confirmedId rewriteError =>
      rw [ConfirmsOrKeeps, NoFailedRewrite, WalCall.run, confirm_eq h.within]
      by_cases hSame : keptAfter confirmedId state.1.pending = state.1.pending
      · rw [if_pos hSame]
        have hAll := keptAfter_eq_self_iff.mp hSame
        have hEncoded : encodePending state.1.pending = .ok (readFile state.2) := by
          rw [encodePending_eq h.within, h.file]
        exact iff_of_true ⟨hEncoded, hAll⟩ fun _ => hAll
      · rw [if_neg hSame]
        cases rewriteError with
        | none =>
            have hWithin : ∀ message ∈ keptAfter confirmedId state.1.pending, WithinLimits message :=
              fun message hMem => h.within message (mem_keptAfter hMem).1
            have hEncoded := encodePending_eq hWithin
            exact iff_of_true ⟨hEncoded, fun message hMem => (mem_keptAfter hMem).2⟩
              fun hError => absurd rfl hError
        | some error =>
            refine iff_of_false hSame fun hAll => hSame ?_
            exact keptAfter_eq_self_iff.mpr (hAll nofun)

/-- Over every sequence of calls on an opened log: all confirmations keep their
promise exactly when no rewrite fails that has something to remove. -/
theorem compaction_retried_iff (path : Bytes) (content file : Option Bytes) (wal : WriteAheadLog)
    (calls : List WalCall) (hOpen : construct path content .saved = (.ok wal, file)) :
    Runs.Along callStep ConfirmsOrKeeps (wal, file) calls ↔
      Runs.Along callStep NoFailedRewrite (wal, file) calls := by
  obtain ⟨_, hValid, hFile, _⟩ := construct_ok hOpen
  have hStart : Synced (wal, file) := ⟨hValid.within, hFile⟩
  refine Runs.along_congr hStart (fun state call hSynced => confirmsOrKeeps_iff hSynced call) ?_
  intro state call next hNoFailure hSynced hStep
  exact hSynced.call hNoFailure hStep

def sampleMessage : LogMessage := { id := 1, clientId := [99], content := [97] }

theorem sample_construct : construct [119] none .saved = (.ok {}, none) := by
  simp [construct, load, loadLoop_end]

theorem compaction_retried_iff_sample :
    Runs.Along callStep ConfirmsOrKeeps ({}, none) [.append sampleMessage, .confirm 1 none] := by
  refine (compaction_retried_iff [119] none none {} _ sample_construct).mpr ?_
  exact ⟨trivial, fun _ _ => ⟨fun hError => absurd rfl hError, fun _ _ => trivial⟩⟩

/-- A rewrite that fails, and the confirmation of the same id again. -/
def failedRewrite : List WalCall :=
  [.append sampleMessage, .confirm 1 (some (.systemError "cannot write persistent file"))]

/-- The failing call drops the message from memory. The next one finds nothing to
do and returns, with the message still on file. -/
theorem compaction_retried_fails_after_error :
    ¬Runs.Along callStep ConfirmsOrKeeps ({}, none) (failedRewrite ++ [.confirm 1 none]) ∧
      ∃ state, Runs.run callStep ({}, none) failedRewrite = some state ∧
        (WalCall.confirm 1 none).run state.1 state.2 =
          (.ok (), {}, some (walFrame sampleMessage)) := by
  refine ⟨fun h => ?_, _, rfl, rfl⟩
  obtain ⟨hKept, _⟩ := (h.2 _ rfl : Runs.Along callStep ConfirmsOrKeeps _ _)
  cases hKept

/-! Failed appends. -/

/-- One call of `append` and how its storage call ends. -/
structure AppendCall where
  message : LogMessage
  outcome : AppendOutcome
  deriving DecidableEq, Repr

/-- The bytes that a call adds to the file. -/
def AppendCall.stored (call : AppendCall) : Bytes :=
  match serializeLogMessage call.message, call.outcome with
  | .error _, _ => []
  | .ok _, .notOpened _ => []
  | .ok frame, .done => frame
  | .ok frame, .failed written _ => frame.take written

/-- The call stored its frame completely, although it may have thrown later. -/
def AppendCall.complete (call : AppendCall) : Bool :=
  match serializeLogMessage call.message with
  | .error _ => false
  | .ok frame => call.stored = frame

/-- The call stored a part of its frame, but not all of it. -/
def AppendCall.Torn (call : AppendCall) : Prop := call.stored ≠ [] ∧ call.complete = false

/-- The calls one after the other: the messages whose calls returned, and the file. -/
def appendAll (wal : WriteAheadLog) (file : Option Bytes) :
    List AppendCall → List LogMessage × Option Bytes
  | [] => ([], file)
  | call :: rest =>
      match wal.append file call.message call.outcome with
      | (.ok (), wal, file) =>
          let (returned, file) := appendAll wal file rest
          (call.message :: returned, file)
      | (.error _, wal, file) => appendAll wal file rest

/-- A reopening recovers every message whose call returned. -/
def RecoversReturned (path : Bytes) (wal : WriteAheadLog) (file : Option Bytes)
    (calls : List AppendCall) : Prop :=
  ∃ reopened newFile, construct path (appendAll wal file calls).2 .saved = (.ok reopened, newFile) ∧
    ∀ message ∈ (appendAll wal file calls).1, message ∈ reopened.pending

theorem AppendCall.within_of_complete {call : AppendCall} (h : call.complete = true) :
    WithinLimits call.message ∧ call.stored = walFrame call.message := by
  rw [AppendCall.complete] at h
  cases hFrame : serializeLogMessage call.message with
  | error error =>
      rw [hFrame] at h
      cases h
  | ok frame =>
      obtain ⟨hLimits, rfl⟩ := serializeLogMessage_eq_ok_iff.mp hFrame
      rw [hFrame] at h
      exact ⟨hLimits, of_decide_eq_true h⟩

/-- What a torn call stored is an incomplete frame. -/
theorem AppendCall.Torn.tail {call : AppendCall} (h : call.Torn) :
    WriteAheadLog.Torn call.stored := by
  obtain ⟨hNonempty, hPart⟩ := h
  rw [AppendCall.complete] at hPart
  cases hFrame : serializeLogMessage call.message with
  | error error =>
      rw [AppendCall.stored, hFrame] at hNonempty
      exact absurd rfl hNonempty
  | ok frame =>
      obtain ⟨hLimits, rfl⟩ := serializeLogMessage_eq_ok_iff.mp hFrame
      rw [hFrame] at hPart
      have hPart := of_decide_eq_false hPart
      rw [AppendCall.stored, hFrame] at hNonempty hPart ⊢
      cases hOutcome : call.outcome with
      | done =>
          rw [hOutcome] at hPart
          exact absurd rfl hPart
      | notOpened error =>
          rw [hOutcome] at hNonempty
          exact absurd rfl hNonempty
      | failed written error =>
          rw [hOutcome] at hPart
          refine ⟨call.message, hLimits, written, ?_, rfl⟩
          by_contra hWhole
          exact hPart (List.take_of_length_le (Nat.not_lt.mp hWhole))

/-- One call adds its bytes to the file, and it returns only when they are the
whole frame. -/
theorem append_stored (wal : WriteAheadLog) (file : Option Bytes) (call : AppendCall) :
    ∃ result newWal newFile, wal.append file call.message call.outcome = (result, newWal, newFile) ∧
      readFile newFile = readFile file ++ call.stored ∧ (result = .ok () → call.complete = true) := by
  rw [WriteAheadLog.append, AppendCall.complete, AppendCall.stored]
  cases hFrame : serializeLogMessage call.message with
  | error error => exact ⟨_, _, _, rfl, by simp, fun h => by cases h⟩
  | ok frame =>
      cases hOutcome : call.outcome with
      | done => exact ⟨_, _, _, rfl, rfl, fun _ => by simp⟩
      | notOpened error => exact ⟨_, _, _, rfl, by simp, fun h => by cases h⟩
      | failed written error => exact ⟨_, _, _, rfl, rfl, fun h => by cases h⟩

theorem appendAll_stored (wal : WriteAheadLog) (file : Option Bytes) (calls : List AppendCall) :
    readFile (appendAll wal file calls).2 = readFile file ++ calls.flatMap AppendCall.stored ∧
      ∀ message ∈ (appendAll wal file calls).1,
        message ∈ (calls.filter AppendCall.complete).map AppendCall.message := by
  induction calls generalizing wal file with
  | nil => exact ⟨by simp [appendAll], by simp [appendAll]⟩
  | cons call rest ih =>
      obtain ⟨result, newWal, newFile, hAppend, hFile, hComplete⟩ := append_stored wal file call
      obtain ⟨hRest, hReturned⟩ := ih newWal newFile
      rw [hFile, List.append_assoc] at hRest
      rw [appendAll, hAppend]
      cases result with
      | error error =>
          refine ⟨hRest, fun message hMem => ?_⟩
          obtain ⟨other, hOther, rfl⟩ := List.mem_map.mp (hReturned message hMem)
          obtain ⟨hOther, hWhole⟩ := List.mem_filter.mp hOther
          exact List.mem_map_of_mem
            (List.mem_filter.mpr ⟨List.mem_cons_of_mem call hOther, hWhole⟩)
      | ok _ =>
          refine ⟨hRest, ?_⟩
          rw [List.filter_cons_of_pos (hComplete rfl), List.map_cons]
          intro message hMem
          rcases List.mem_cons.mp hMem with rfl | hLater
          · exact List.mem_cons_self ..
          · exact List.mem_cons_of_mem _ (hReturned message hLater)

/-- Without bytes behind a torn frame, the calls add complete frames and at most
one incomplete frame at the end. -/
theorem stored_split {calls : List AppendCall}
    (hLast : calls.Pairwise fun first later => first.Torn → later.stored = []) :
    ∃ tail, WriteAheadLog.Torn tail ∧ calls.flatMap AppendCall.stored =
      walBytes ((calls.filter AppendCall.complete).map AppendCall.message) ++ tail := by
  induction calls with
  | nil => exact ⟨[], Torn.nil, rfl⟩
  | cons call rest ih =>
      obtain ⟨hAfter, hRest⟩ := List.pairwise_cons.mp hLast
      obtain ⟨tail, hTail, hStored⟩ := ih hRest
      rw [List.flatMap_cons]
      by_cases hComplete : call.complete = true
      · obtain ⟨_, hFrame⟩ := AppendCall.within_of_complete hComplete
        refine ⟨tail, hTail, ?_⟩
        rw [hStored, hFrame, List.filter_cons_of_pos hComplete, List.map_cons, walBytes_cons,
          List.append_assoc]
      · rw [List.filter_cons_of_neg hComplete]
        by_cases hEmpty : call.stored = []
        · exact ⟨tail, hTail, by rw [hEmpty, hStored, List.nil_append]⟩
        · -- nothing is stored after a torn frame
          have hTorn : call.Torn := ⟨hEmpty, Bool.eq_false_iff.mpr hComplete⟩
          have hNothing : ∀ later ∈ rest, later.stored = [] := fun later hMem => hAfter later hMem hTorn
          have hNone : rest.filter AppendCall.complete = [] := by
            rw [List.filter_eq_nil_iff]
            intro later hMem hWhole
            have hFrame := (AppendCall.within_of_complete hWhole).2
            have hLength := frameHeaderSize_lt_walFrame later.message
            rw [← hFrame, hNothing later hMem] at hLength
            cases hLength
          have hFlat : rest.flatMap AppendCall.stored = [] := List.flatMap_eq_nil_iff.mpr hNothing
          exact ⟨call.stored, hTorn.tail, by rw [hNone, hFlat]; simp⟩

/-- In every sequence of calls in which nothing is stored behind a torn frame,
failed calls damage no other record. -/
theorem failed_appends_harmless (path : Bytes) (content file : Option Bytes) (wal : WriteAheadLog)
    (calls : List AppendCall) (hOpen : construct path content .saved = (.ok wal, file))
    (hIds : IdsIncreasing (wal.pending ++ calls.map AppendCall.message))
    (hClient : ∀ first ∈ wal.pending ++ calls.map AppendCall.message,
      ∀ second ∈ wal.pending ++ calls.map AppendCall.message, first.clientId = second.clientId)
    (hLast : calls.Pairwise fun first later => first.Torn → later.stored = []) :
    RecoversReturned path wal file calls := by
  obtain ⟨hPath, hValid, hFile, _⟩ := construct_ok hOpen
  obtain ⟨hStored, hReturned⟩ := appendAll_stored wal file calls
  obtain ⟨tail, hTail, hSplit⟩ := stored_split hLast
  have hSublist : (wal.pending ++ (calls.filter AppendCall.complete).map AppendCall.message).Sublist
      (wal.pending ++ calls.map AppendCall.message) :=
    List.Sublist.append_left (List.filter_sublist.map _) _
  have hAll : PendingValid (wal.pending ++ (calls.filter AppendCall.complete).map AppendCall.message) := by
    refine ⟨?_, hIds.sublist hSublist, ?_⟩
    · intro message hMem
      rcases List.mem_append.mp hMem with hOld | hNew
      · exact hValid.within message hOld
      · obtain ⟨call, hCall, rfl⟩ := List.mem_map.mp hNew
        exact (AppendCall.within_of_complete (List.mem_filter.mp hCall).2).1
    · intro first hFirst second hSecond
      exact hClient first (hSublist.subset hFirst) second (hSublist.subset hSecond)
  rw [hFile, hSplit, ← List.append_assoc, ← walBytes_append] at hStored
  obtain ⟨newFile, hLoad, _⟩ := load_eq hStored hTail hAll
  refine ⟨{ pending := wal.pending ++ (calls.filter AppendCall.complete).map AppendCall.message },
    newFile, ?_, fun message hMem => List.mem_append_right _ (hReturned message hMem)⟩
  rw [construct, if_neg hPath]
  exact hLoad

def secondMessage : LogMessage := { id := 2, clientId := [99], content := [98] }

def diskFull : Exception := .systemError "cannot write file"

theorem failed_appends_harmless_sample :
    RecoversReturned [119] {} none [⟨sampleMessage, .failed 0 diskFull⟩, ⟨secondMessage, .done⟩] := by
  refine failed_appends_harmless [119] none none {} _ sample_construct ?_ ?_ ?_
  · simp only [IdsIncreasing]
    decide
  · decide
  · refine List.Pairwise.cons (fun later _ hTorn => absurd rfl hTorn.1) ?_
    exact List.pairwise_singleton _ _

/-- The disk is full after five bytes of the first frame, and has room again for
the second. -/
def tornCalls : List AppendCall := [⟨sampleMessage, .failed 5 diskFull⟩, ⟨secondMessage, .done⟩]

/-- The second frame follows a part of the first one, and the log cannot be opened again. -/
theorem failed_append_damages_log :
    construct [119] none .saved = (.ok {}, none) ∧
      IdsIncreasing (tornCalls.map AppendCall.message) ∧
      (∀ call ∈ tornCalls, call.message.clientId = [99]) ∧
      (appendAll {} none tornCalls).1 = [secondMessage] ∧
      ¬RecoversReturned [119] {} none tornCalls := by
  refine ⟨sample_construct, ?_, by decide, rfl, ?_⟩
  · simp only [IdsIncreasing]
    decide
  · rintro ⟨reopened, newFile, hOpen, _⟩
    have hFile : appendAll {} none tornCalls =
        ([secondMessage], some ((walFrame sampleMessage).take 5 ++ walFrame secondMessage)) := rfl
    have hLoop : loadLoop ((walFrame sampleMessage).take 5 ++ walFrame secondMessage) 0 [] =
        .error (.protocolError "reserved header bits must be zero") := by
      rw [loadLoop, dif_pos (by decide)]
      rfl
    have hFailed : (construct [119] (appendAll {} none tornCalls).2 .saved).1 =
        .error (.protocolError "reserved header bits must be zero") := by
      rw [hFile, construct, if_neg (by decide), load, readFile_some, hLoop]
    rw [hOpen] at hFailed
    cases hFailed

end LogBridge.WriteAheadLog
