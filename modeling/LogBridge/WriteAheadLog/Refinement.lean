import LogBridge.Library.Runs
import LogBridge.Library.Watermark
import LogBridge.WriteAheadLog.Recovery

/-! Runs of the write-ahead log with crashes. The file and the memory together
refine the history of the calls that took effect: the log holds the appended
messages that no later confirmation covered. -/
namespace LogBridge.WriteAheadLog

open Checked Protocol Storage Watermark

/-- A call that took effect on the log. -/
inductive LogEvent where
  | append (message : LogMessage)
  | confirm (confirmedId : UInt64)
  deriving DecidableEq, Repr

/-- A later confirmation covers the message. -/
def covered (message : LogMessage) (later : List LogEvent) : Bool :=
  later.any fun event => match event with
    | .append _ => false
    | .confirm confirmedId => message.id ≤ confirmedId

/-- The purpose of the log: the appended messages, in order, without those that
a later confirmation covered. -/
def survivors : List LogEvent → List LogMessage
  | [] => []
  | .append message :: later =>
      if covered message later then survivors later else message :: survivors later
  | .confirm _ :: later => survivors later

/-- All appended messages of a history, in order. -/
def appended : List LogEvent → List LogMessage
  | [] => []
  | .append message :: later => message :: appended later
  | .confirm _ :: later => appended later

theorem covered_concat_append (message last : LogMessage) (later : List LogEvent) :
    covered message (later ++ [.append last]) = covered message later := by
  simp [covered]

theorem covered_concat_confirm (message : LogMessage) (later : List LogEvent)
    (confirmedId : UInt64) :
    covered message (later ++ [.confirm confirmedId]) =
      (covered message later || decide (message.id ≤ confirmedId)) := by
  simp [covered]

@[simp] theorem survivors_concat_append (events : List LogEvent) (message : LogMessage) :
    survivors (events ++ [.append message]) = survivors events ++ [message] := by
  induction events with
  | nil => rfl
  | cons event later ih =>
      cases event with
      | append first =>
          simp only [List.cons_append, survivors, covered_concat_append, ih]
          split <;> rfl
      | confirm confirmedId => simpa [survivors] using ih

@[simp] theorem survivors_concat_confirm (events : List LogEvent) (confirmedId : UInt64) :
    survivors (events ++ [.confirm confirmedId]) =
      (survivors events).filter fun message => ¬message.id ≤ confirmedId := by
  induction events with
  | nil => rfl
  | cons event later ih =>
      cases event with
      | append first =>
          simp only [List.cons_append, survivors, covered_concat_confirm, ih]
          by_cases hLater : covered first later = true
          · simp [hLater]
          · by_cases hLe : first.id ≤ confirmedId
            · simp [hLater, hLe, UInt64.not_lt.mpr hLe]
            · simp [hLater, hLe, UInt64.not_le.mp hLe]
      | confirm other => simpa [survivors] using ih

@[simp] theorem appended_append (first second : List LogEvent) :
    appended (first ++ second) = appended first ++ appended second := by
  induction first with
  | nil => rfl
  | cons event later ih => cases event <;> simp [appended, ih]

theorem survivors_sublist (events : List LogEvent) :
    (survivors events).Sublist (appended events) := by
  induction events with
  | nil => exact List.Sublist.refl _
  | cons event later ih =>
      cases event with
      | append message =>
          unfold survivors appended
          split
          · exact ih.cons _
          · exact ih.cons_cons _
      | confirm confirmedId => exact ih

/-! One step of the log. -/

/-- An action of a run. A crash inside a call leaves the file as some end of its
storage call does. -/
inductive WalAction where
  | append (message : LogMessage)
  | confirm (confirmedId : UInt64)
  | crash
  | crashInAppend (message : LogMessage) (outcome : AppendOutcome)
  | crashInConfirm (confirmedId : UInt64) (outcome : SaveOutcome)
  | reopen
  | crashInReopen (outcome : SaveOutcome)
  deriving DecidableEq, Repr

/-- The log object while the process runs, and the file. -/
structure WalState where
  memory : Option WriteAheadLog := none
  file : Option Bytes := none
  deriving DecidableEq, Repr

def step (path : Bytes) (state : WalState) : WalAction → Option WalState
  | .append message => state.memory.map fun wal =>
      let (_, wal, file) := wal.append state.file message .done
      { memory := some wal, file }
  | .confirm confirmedId => state.memory.map fun wal =>
      let (_, wal, file) := wal.confirm state.file confirmedId .saved
      { memory := some wal, file }
  | .crash => some { state with memory := none }
  | .crashInAppend message outcome => state.memory.map fun wal =>
      { memory := none, file := (wal.append state.file message outcome).2.2 }
  | .crashInConfirm confirmedId outcome => state.memory.map fun wal =>
      { memory := none, file := (wal.confirm state.file confirmedId outcome).2.2 }
  | .reopen =>
      if state.memory.isSome then none
      else
        let opened := construct path state.file .saved
        some { memory := opened.1.toOption, file := opened.2 }
  | .crashInReopen outcome =>
      if state.memory.isSome then none
      else some { memory := none, file := (construct path state.file outcome).2 }

/-- The frame of the message was stored completely before the crash. -/
def frameStored (message : LogMessage) : AppendOutcome → Bool
  | .done => true
  | .notOpened _ => false
  | .failed written _ => (walFrame message).length ≤ written

/-- The rename of the rewrite took place before the crash. -/
def renamed : SaveOutcome → Bool
  | .saved => true
  | .failedBeforeRename _ => false
  | .failedAfterRename _ => true

/-- The effect an action has on the log. -/
def effect : WalAction → List LogEvent
  | .append message => [.append message]
  | .confirm confirmedId => [.confirm confirmedId]
  | .crashInAppend message outcome =>
      if frameStored message outcome then [.append message] else []
  | .crashInConfirm confirmedId outcome =>
      if renamed outcome then [.confirm confirmedId] else []
  | .crash | .reopen | .crashInReopen _ => []

/-- The messages handed to `append`, whether or not the call completed. -/
def offered : WalAction → List LogMessage
  | .append message => [message]
  | .crashInAppend message _ => [message]
  | _ => []

/-- The history of a run. -/
def effects (actions : List WalAction) : List LogEvent := actions.flatMap effect

theorem effects_concat (actions : List WalAction) (action : WalAction) :
    effects (actions ++ [action]) = effects actions ++ effect action := by
  simp [effects]

/-- The file belongs to the history: it is the encoding of the survivors, and
while the process is down an incomplete frame may follow. -/
structure Refines (events : List LogEvent) (state : WalState) : Prop where
  running : ∀ wal, state.memory = some wal →
    wal.pending = survivors events ∧ readFile state.file = walBytes (survivors events)
  down : state.memory = none →
    ∃ tail, Torn tail ∧ readFile state.file = walBytes (survivors events) ++ tail

theorem refines_of_running {events : List LogEvent} {state : WalState} {wal : WriteAheadLog}
    (hMemory : state.memory = some wal) (hPending : wal.pending = survivors events)
    (hFile : readFile state.file = walBytes (survivors events)) : Refines events state where
  running := by
    rintro other hOther
    obtain rfl := Option.some.inj (hMemory.symm.trans hOther)
    exact ⟨hPending, hFile⟩
  down hNone := by
    rw [hMemory] at hNone
    cases hNone

theorem refines_of_down {events : List LogEvent} {state : WalState} {tail : Bytes}
    (hMemory : state.memory = none) (hTorn : Torn tail)
    (hFile : readFile state.file = walBytes (survivors events) ++ tail) : Refines events state where
  running := by
    intro wal hSome
    rw [hMemory] at hSome
    cases hSome
  down _ := ⟨tail, hTorn, hFile⟩

/-! What each call does to a file that holds the frames of `pending`. -/

section Calls
variable {wal : WriteAheadLog} {file : Option Bytes} {message : LogMessage}

theorem append_done (wal : WriteAheadLog) (file : Option Bytes) (hLimits : WithinLimits message) :
    wal.append file message .done = (.ok (), { pending := wal.pending ++ [message] },
      some (readFile file ++ walFrame message)) := by
  simp [append, serializeLogMessage_walFrame hLimits, appendDurably]

/-- A crash inside `append` leaves the whole frame or an incomplete one. -/
theorem append_file (wal : WriteAheadLog) (file : Option Bytes) (hLimits : WithinLimits message)
    (outcome : AppendOutcome) :
    ∃ tail, readFile (wal.append file message outcome).2.2 = readFile file ++ tail ∧
      if frameStored message outcome then tail = walFrame message else Torn tail := by
  rw [append, serializeLogMessage_walFrame hLimits]
  cases outcome with
  | done => exact ⟨walFrame message, rfl, rfl⟩
  | notOpened error => exact ⟨[], by simp [appendDurably], Torn.nil⟩
  | failed written error =>
      refine ⟨(walFrame message).take written, rfl, ?_⟩
      by_cases hStored : (walFrame message).length ≤ written
      · simp [frameStored, hStored, List.take_of_length_le hStored]
      · simp only [frameStored, hStored, decide_false, Bool.false_eq_true, if_false]
        exact ⟨message, hLimits, written, by omega, rfl⟩

/-- The messages that a confirmation keeps. -/
def keptAfter (confirmedId : UInt64) (pending : List LogMessage) : List LogMessage :=
  pending.filter fun message => ¬message.id ≤ confirmedId

/-- Of increasing ids a confirmation covers the first ones. -/
theorem keptAfter_suffix {pending : List LogMessage} (h : IdsIncreasing pending)
    (confirmedId : UInt64) : keptAfter confirmedId pending <:+ pending := by
  have hSuffix := above_suffix h.toNat confirmedId.toNat
  simpa [keptAfter, UInt64.lt_iff_toNat_lt] using hSuffix

/-- The confirmation of the last message of a batch covers exactly the batch. -/
theorem keptAfter_getLast {batch rest : List LogMessage} {last : LogMessage}
    (h : IdsIncreasing (batch ++ rest)) (hLast : batch.getLast? = some last) :
    keptAfter last.id (batch ++ rest) = rest := by
  have hAbove := above_getLast h.toNat hLast
  simpa [keptAfter, UInt64.lt_iff_toNat_lt] using hAbove

theorem confirm_eq (hWithin : ∀ message ∈ wal.pending, WithinLimits message)
    (confirmedId : UInt64) (outcome : SaveOutcome) :
    wal.confirm file confirmedId outcome =
      if keptAfter confirmedId wal.pending = wal.pending then (.ok (), wal, file)
      else
        let (result, file) :=
          writeAtomically file (walBytes (keptAfter confirmedId wal.pending)) outcome
        (result, { pending := keptAfter confirmedId wal.pending }, file) := by
  have hIff : (keptAfter confirmedId wal.pending).length = wal.pending.length ↔
      keptAfter confirmedId wal.pending = wal.pending :=
    ⟨fun h => List.filter_sublist.eq_of_length h, fun h => congrArg _ h⟩
  have hKept : ∀ message ∈ keptAfter confirmedId wal.pending, WithinLimits message :=
    fun message hMem => hWithin message (List.mem_of_mem_filter hMem)
  by_cases hSame : keptAfter confirmedId wal.pending = wal.pending
  · rw [if_pos hSame, confirm]
    exact if_pos (hIff.mpr hSame)
  · rw [if_neg hSame, confirm]
    dsimp only
    rw [rewriteLocked_eq hKept]
    exact if_neg fun h => hSame (hIff.mp h)

theorem confirm_saved (hWithin : ∀ message ∈ wal.pending, WithinLimits message)
    (hFile : readFile file = walBytes wal.pending) (confirmedId : UInt64) :
    ∃ file', wal.confirm file confirmedId .saved =
        (.ok (), { pending := keptAfter confirmedId wal.pending }, file') ∧
      readFile file' = walBytes (keptAfter confirmedId wal.pending) := by
  rw [confirm_eq hWithin]
  by_cases hSame : keptAfter confirmedId wal.pending = wal.pending
  · exact ⟨file, by rw [if_pos hSame, hSame], by rw [hSame, hFile]⟩
  · exact ⟨some (walBytes (keptAfter confirmedId wal.pending)), by
      rw [if_neg hSame, writeAtomically], rfl⟩

/-- A crash inside `confirm` leaves the old or the compacted file. -/
theorem confirm_file (hWithin : ∀ message ∈ wal.pending, WithinLimits message)
    (hFile : readFile file = walBytes wal.pending) (confirmedId : UInt64) (outcome : SaveOutcome) :
    readFile (wal.confirm file confirmedId outcome).2.2 =
      if renamed outcome then walBytes (keptAfter confirmedId wal.pending)
      else walBytes wal.pending := by
  rw [confirm_eq hWithin]
  by_cases hSame : keptAfter confirmedId wal.pending = wal.pending
  · rw [if_pos hSame, hSame, ite_self]
    exact hFile
  · rw [if_neg hSame]
    cases outcome with
    | saved => rfl
    | failedBeforeRename error => exact hFile
    | failedAfterRename error => rfl

end Calls

/-! Runs. -/

/-- The conditions on a run: the messages handed to `append` are accepted by the
encoder, and those appended belong to one client with increasing ids. -/
structure ValidRun (actions : List WalAction) : Prop where
  accepted : ∀ action ∈ actions, ∀ message ∈ offered action,
    ∃ frame, serializeLogMessage message = .ok frame
  idsIncreasing : IdsIncreasing (appended (effects actions))
  sameClient : ∀ first ∈ appended (effects actions), ∀ second ∈ appended (effects actions),
    first.clientId = second.clientId

theorem ValidRun.of_concat {actions : List WalAction} {action : WalAction}
    (h : ValidRun (actions ++ [action])) : ValidRun actions := by
  have hSublist : (appended (effects actions)).Sublist
      (appended (effects (actions ++ [action]))) := by
    rw [effects_concat, appended_append]
    exact List.sublist_append_left _ _
  refine ⟨?_, h.idsIncreasing.sublist hSublist, ?_⟩
  · intro other hMem
    exact h.accepted other (List.mem_append_left _ hMem)
  · intro first hFirst second hSecond
    exact h.sameClient first (hSublist.subset hFirst) second (hSublist.subset hSecond)

theorem mem_offered_of_mem_appended {message : LogMessage} {actions : List WalAction}
    (h : message ∈ appended (effects actions)) : ∃ action ∈ actions, message ∈ offered action := by
  induction actions with
  | nil => cases h
  | cons action rest ih =>
      rw [effects, List.flatMap_cons, appended_append, List.mem_append] at h
      rcases h with h | h
      · refine ⟨action, List.mem_cons_self .., ?_⟩
        cases action with
        | append other => simpa [effect, appended, offered] using h
        | crashInAppend other outcome =>
            simp only [effect] at h
            split at h
            · simpa [appended, offered] using h
            · cases h
        | crashInConfirm confirmedId outcome =>
            simp only [effect] at h
            split at h <;> cases h
        | confirm confirmedId => cases h
        | crash => cases h
        | reopen => cases h
        | crashInReopen outcome => cases h
      · obtain ⟨other, hMem, hOffered⟩ := ih h
        exact ⟨other, List.mem_cons_of_mem _ hMem, hOffered⟩

theorem ValidRun.pendingValid {actions : List WalAction} (h : ValidRun actions) :
    PendingValid (survivors (effects actions)) := by
  have hAll : PendingValid (appended (effects actions)) := by
    refine ⟨?_, h.idsIncreasing, h.sameClient⟩
    intro message hMem
    obtain ⟨action, hAction, hOffered⟩ := mem_offered_of_mem_appended hMem
    obtain ⟨frame, hFrame⟩ := h.accepted action hAction message hOffered
    exact (serializeLogMessage_eq_ok_iff.mp hFrame).1
  exact hAll.sublist (survivors_sublist _)

/-- Opening the file of a stopped process recovers the survivors. -/
theorem construct_of_down {path : Bytes} {events : List LogEvent} {state : WalState}
    (hPath : path ≠ []) (hValid : PendingValid (survivors events)) (hRefines : Refines events state)
    (hDown : state.memory = none) :
    ∃ file, construct path state.file .saved = (.ok { pending := survivors events }, file) ∧
      readFile file = walBytes (survivors events) := by
  obtain ⟨tail, hTorn, hFile⟩ := hRefines.down hDown
  rw [construct, if_neg hPath]
  exact load_eq hFile hTorn hValid

/-- Every action keeps the file and the memory in step with the history. -/
theorem Refines.step {path : Bytes} {actions : List WalAction} {action : WalAction}
    {state next : WalState} (hPath : path ≠ []) (hValid : ValidRun (actions ++ [action]))
    (hRefines : Refines (effects actions) state)
    (hStep : WriteAheadLog.step path state action = some next) :
    Refines (effects (actions ++ [action])) next := by
  have hPending := hValid.of_concat.pendingValid
  have hLimits : ∀ message ∈ offered action, WithinLimits message := by
    intro message hMem
    obtain ⟨frame, hFrame⟩ := hValid.accepted action (by simp) message hMem
    exact (serializeLogMessage_eq_ok_iff.mp hFrame).1
  rw [effects_concat]
  cases action with
  | append message =>
      obtain ⟨wal, hMemory, rfl⟩ := Option.map_eq_some_iff.mp hStep
      obtain ⟨hWal, hFile⟩ := hRefines.running wal hMemory
      rw [append_done _ _ (hLimits message (by simp [offered]))]
      exact refines_of_running rfl (by simp [effect, hWal]) (by simp [effect, hFile])
  | confirm confirmedId =>
      obtain ⟨wal, hMemory, rfl⟩ := Option.map_eq_some_iff.mp hStep
      obtain ⟨hWal, hFile⟩ := hRefines.running wal hMemory
      rw [← hWal] at hFile hPending
      obtain ⟨file, hConfirm, hNew⟩ := confirm_saved hPending.within hFile confirmedId
      rw [hConfirm]
      refine refines_of_running rfl ?_ ?_
      · simp [effect, keptAfter, hWal]
      · simpa [effect, keptAfter, hWal] using hNew
  | crash =>
      obtain rfl := Option.some.inj hStep
      cases hMemory : state.memory with
      | none =>
          obtain ⟨tail, hTorn, hFile⟩ := hRefines.down hMemory
          exact refines_of_down rfl hTorn (by simpa [effect] using hFile)
      | some wal =>
          have hFile := (hRefines.running wal hMemory).2
          exact refines_of_down rfl Torn.nil (by simpa [effect] using hFile)
  | crashInAppend message outcome =>
      obtain ⟨wal, hMemory, rfl⟩ := Option.map_eq_some_iff.mp hStep
      have hFile := (hRefines.running wal hMemory).2
      obtain ⟨tail, hNew, hTail⟩ :=
        append_file wal state.file (hLimits message (by simp [offered])) outcome
      rw [hFile] at hNew
      by_cases hStored : frameStored message outcome = true
      · rw [if_pos hStored] at hTail
        exact refines_of_down rfl Torn.nil (by simp [effect, hStored, hNew, hTail])
      · rw [if_neg hStored] at hTail
        exact refines_of_down rfl hTail (by simp [effect, hStored, hNew])
  | crashInConfirm confirmedId outcome =>
      obtain ⟨wal, hMemory, rfl⟩ := Option.map_eq_some_iff.mp hStep
      obtain ⟨hWal, hFile⟩ := hRefines.running wal hMemory
      rw [← hWal] at hFile hPending
      have hNew := confirm_file hPending.within hFile confirmedId outcome
      refine refines_of_down rfl Torn.nil ?_
      rw [List.append_nil, hNew]
      by_cases hRenamed : renamed outcome = true
      · simp [effect, hRenamed, keptAfter, hWal]
      · simp [effect, hRenamed, hWal]
  | reopen =>
      simp only [WriteAheadLog.step] at hStep
      split_ifs at hStep with hSome
      obtain rfl := Option.some.inj hStep
      obtain ⟨file, hConstruct, hFile⟩ := construct_of_down hPath hPending hRefines
        (Option.not_isSome_iff_eq_none.mp hSome)
      rw [hConstruct]
      exact refines_of_running rfl (by simp [effect]) (by simpa [effect] using hFile)
  | crashInReopen outcome =>
      simp only [WriteAheadLog.step] at hStep
      split_ifs at hStep with hSome
      obtain rfl := Option.some.inj hStep
      obtain ⟨tail, hTorn, hFile⟩ := hRefines.down (Option.not_isSome_iff_eq_none.mp hSome)
      obtain ⟨rest, hRest, hNew⟩ := construct_file hFile hTorn hPending outcome
      exact refines_of_down rfl hRest (by simpa [effect] using hNew)

theorem refines_run {path : Bytes} {actions : List WalAction} {state : WalState}
    (hPath : path ≠ []) (hValid : ValidRun actions)
    (hRun : Runs.run (WriteAheadLog.step path) {} actions = some state) :
    Refines (effects actions) state := by
  revert hValid
  refine Runs.induct (motive := fun actions state => ValidRun actions →
    Refines (effects actions) state) ?_ ?_ hRun
  · intro _
    exact refines_of_down rfl Torn.nil rfl
  · intro past middle action next _ ih hStep hValid
    exact (ih hValid.of_concat).step hPath hValid hStep

/-- Over every run, with crashes at any point of any call: while the process
runs, memory holds the survivors of the history and the file is their encoding;
while it is down, opening the file succeeds, recovers the survivors and leaves
the file as their encoding. -/
theorem log_refines_history (path : Bytes) (actions : List WalAction) (state : WalState)
    (hPath : path ≠ []) (hValid : ValidRun actions)
    (hRun : Runs.run (WriteAheadLog.step path) {} actions = some state) :
    (∀ wal, state.memory = some wal → wal.pending = survivors (effects actions) ∧
      encodePending wal.pending = .ok (readFile state.file)) ∧
    (state.memory = none → ∃ file,
      construct path state.file .saved =
        (.ok { pending := survivors (effects actions) }, file) ∧
      encodePending (survivors (effects actions)) = .ok (readFile file)) := by
  have hRefines := refines_run hPath hValid hRun
  have hEncode := encodePending_eq hValid.pendingValid.within
  constructor
  · intro wal hMemory
    obtain ⟨hWal, hFile⟩ := hRefines.running wal hMemory
    exact ⟨hWal, by rw [hWal, hFile, hEncode]⟩
  · intro hDown
    obtain ⟨file, hConstruct, hFile⟩ := construct_of_down hPath hValid.pendingValid hRefines hDown
    exact ⟨file, hConstruct, by rw [hEncode, hFile]⟩

def sampleFirst : LogMessage := { id := 1, clientId := [99], content := [97] }
def sampleSecond : LogMessage := { id := 2, clientId := [99], content := [98, 99] }

/-- The second append is cut after five bytes of its frame. -/
def sampleRun : List WalAction :=
  [.reopen, .append sampleFirst,
    .crashInAppend sampleSecond (.failed 5 (.systemError "cannot write persistent file"))]

theorem log_refines_history_sample :
    ∃ state file, Runs.run (step [119]) {} sampleRun = some state ∧
      construct [119] state.file .saved = (.ok { pending := [sampleFirst] }, file) := by
  have hOpen : Runs.run (step [119]) {} sampleRun =
      Runs.run (step [119]) { memory := some {} } sampleRun.tail := by
    simp [sampleRun, Runs.run, step, construct, load, loadLoop_end, Except.toOption]
  have hRun : Runs.run (step [119]) {} sampleRun = some _ := hOpen.trans rfl
  have hValid : ValidRun sampleRun := by
    refine ⟨?_, by decide, by decide⟩
    simp only [sampleRun, List.forall_mem_cons, offered, List.not_mem_nil, false_implies,
      implies_true, true_and, and_true]
    exact ⟨⟨_, rfl⟩, ⟨_, rfl⟩⟩
  obtain ⟨file, hConstruct, _⟩ :=
    (log_refines_history [119] sampleRun _ (by decide) hValid hRun).2 rfl
  exact ⟨_, file, hRun, hConstruct⟩

end LogBridge.WriteAheadLog
