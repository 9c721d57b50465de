import LogBridge.ClientState.Numbers
import LogBridge.Library.Runs

/-! Opening the client state again after a run of successful calls. The source
path is one line of the file, so a path with a newline is read back cut off; the
constructor then takes the source for another file and drops the checkpoint. -/
namespace LogBridge.ClientState

open Checked Storage

inductive StateCall where
  | nextMessageId
  | updateFileCheckpoint (offset deviceId inode : UInt64)
  deriving DecidableEq, Repr

/-- A successful call. A call that throws has no next state. -/
def callStep (current : ClientState × Option Bytes) :
    StateCall → Option (ClientState × Option Bytes)
  | .nextMessageId =>
      match current.1.nextMessageId current.2 .saved with
      | (.ok _, next) => some next
      | (.error _, _) => none
  | .updateFileCheckpoint offset deviceId inode =>
      match current.1.updateFileCheckpoint current.2 offset deviceId inode .saved with
      | (.ok (), next) => some next
      | (.error _, _) => none

/-- Offset, device and inode of the last update, zero before the first. -/
def lastCheckpoint (calls : List StateCall) : UInt64 × UInt64 × UInt64 :=
  calls.foldl (fun last call =>
    match call with
    | .nextMessageId => last
    | .updateFileCheckpoint offset deviceId inode => (offset, deviceId, inode)) (0, 0, 0)

def checkpoint (state : ClientState) : UInt64 × UInt64 × UInt64 :=
  (state.fileOffset, state.fileDeviceId, state.fileInode)

/-- The state that the file gives: the source path is cut at its first newline. -/
def cutSource (state : ClientState) : ClientState :=
  { state with sourcePath := state.sourcePath.takeWhile Text.inLine }

/-- The file loads to the state in memory, but for the source path. -/
structure Kept (sourcePath : Bytes) (current : ClientState × Option Bytes) : Prop where
  readable : Readable current.1
  sourcePath_eq : current.1.sourcePath = sourcePath
  file : ∃ data, current.2 = some data ∧ load data = .ok current.1.cutSource

variable {path sourcePath generated : Bytes} {file : Option Bytes}
  {current next : ClientState × Option Bytes}

theorem takeWhile_inLine_eq_self_iff {text : Bytes} :
    text.takeWhile Text.inLine = text ↔ Text.newline ∉ text := by
  rw [List.takeWhile_eq_self_iff]
  constructor
  · intro h hMem
    exact absurd (h _ hMem) (by decide)
  · intro h byte hMem
    simp only [Text.inLine, decide_eq_true_eq]
    rintro rfl
    exact h hMem

theorem lineAt_newline {line : Bytes} {index : Nat} {input : Text.Stream}
    (h : lineAt index input = some line) : Text.newline ∉ line := by
  induction index generalizing input with
  | zero =>
      rcases hLine : Text.getline input with ⟨found, after⟩
      rw [lineAt, hLine] at h
      obtain rfl : found = some line := h
      exact Text.newline_not_mem_of_getline hLine
  | succ index ih => exact ih h

/-- A loaded state can be written and read back, its source path included. -/
theorem Loaded.readable {data : Bytes} {state : ClientState} (h : Loaded data state) :
    Readable state ∧ Text.newline ∉ state.sourcePath := by
  refine ⟨⟨h.clientId_ne_nil, lineAt_newline h.clientId, h.nextId_ne_zero⟩, ?_⟩
  rcases h.format with ⟨_, _, _, hSource⟩ | ⟨_, _, _, hSource⟩
  · exact lineAt_newline hSource
  · exact lineAt_newline hSource

theorem kept_of_saved {state : ClientState} (hReadable : Readable state)
    (hSource : state.sourcePath = sourcePath) : Kept sourcePath (state, some state.stateText) :=
  ⟨hReadable, hSource, _, rfl, load_stateText hReadable⟩

/-- The state that the constructor starts from can be written and read back. -/
theorem readable_loadOrCreate {base : ClientState} (hGenerated : IsGenerated generated)
    (h : loadOrCreate file [] generated = .ok base) :
    Readable base ∧ Text.newline ∉ base.sourcePath := by
  cases file with
  | none =>
      cases h
      exact ⟨readable_of_generated hGenerated (by simp), List.not_mem_nil⟩
  | some data => exact (loaded_of_load h).readable

theorem kept_construct (hGenerated : IsGenerated generated) {state : ClientState}
    (h : construct path sourcePath file [] generated .saved = (.ok state, next.2)) :
    Kept sourcePath (state, next.2) ∧
      (Text.newline ∈ sourcePath → state.checkpoint = (0, 0, 0)) := by
  rcases construct_cases h with ⟨_, _, hError⟩ | ⟨base, corrected, hBase, hCorrected, hEnds⟩
  · cases hError
  obtain ⟨hReadable, hSource⟩ := readable_loadOrCreate hGenerated hBase
  have hZero : Text.newline ∈ sourcePath → corrected.checkpoint = (0, 0, 0) := by
    intro hMem
    rcases hCorrected.checkpoint with ⟨hSame, _⟩ | ⟨_, hOffset, hDevice, hInode⟩
    · exact absurd hMem (hSame ▸ hSource)
    · rw [checkpoint, hOffset, hDevice, hInode]
  rcases hEnds with ⟨hFile, hSome, rfl, hResult⟩ | ⟨hFile, hResult | ⟨_, hResult⟩⟩
  · -- nothing was saved: the file is the one that was loaded
    cases hResult
    obtain ⟨data, rfl⟩ := Option.isSome_iff_exists.mp hSome
    refine ⟨⟨hReadable, hCorrected.sourcePath_eq, data, hFile, ?_⟩, hZero⟩
    rw [cutSource, takeWhile_inLine_eq_self_iff.mpr hSource]
    exact hBase
  · cases hResult
    rw [hFile]
    refine ⟨kept_of_saved ⟨?_, ?_, ?_⟩ hCorrected.sourcePath_eq, hZero⟩
    · rw [hCorrected.clientId_eq]
      exact hReadable.clientId_ne_nil
    · rw [hCorrected.clientId_eq]
      exact hReadable.clientId_line
    · intro hNextId
      have hLe := hCorrected.nextId_le
      rw [hNextId] at hLe
      exact hReadable.nextId_ne_zero (UInt64.le_zero_iff.mp hLe)
  · cases hResult

/-- What a successful call does. A checkpoint that is already there is not saved
again. -/
theorem callStep_cases {call : StateCall} (hStep : callStep current call = some next) :
    (call = .nextMessageId ∧ current.1.nextId ≠ maxId ∧
      next = (current.1.advanced, some current.1.advanced.stateText)) ∨
    ∃ offset deviceId inode, call = .updateFileCheckpoint offset deviceId inode ∧
      next.1 = current.1.withCheckpoint offset deviceId inode ∧
      (next = current ∨ next.2 = some next.1.stateText) := by
  cases call with
  | nextMessageId =>
      rw [callStep] at hStep
      rcases nextMessageId_cases current.1 current.2 .saved with
        ⟨_, _, hCall⟩ | ⟨_, _, _, hCall⟩ | ⟨hFull, hCall⟩
      · rw [hCall] at hStep
        cases hStep
      · rw [hCall] at hStep
        cases hStep
      · rw [hCall] at hStep
        cases hStep
        exact Or.inl ⟨rfl, hFull, rfl⟩
  | updateFileCheckpoint offset deviceId inode =>
      rw [callStep] at hStep
      rcases updateFileCheckpoint_cases current.1 current.2 offset deviceId inode .saved with
        ⟨_, _, _, hCall, _⟩ | ⟨after, hCall, ⟨rfl, hSame⟩ | rfl⟩
      · rw [hCall] at hStep
        cases hStep
      · rw [hCall] at hStep
        cases hStep
        exact Or.inr ⟨offset, deviceId, inode, rfl, rfl, Or.inl (Prod.ext hSame rfl)⟩
      · rw [hCall] at hStep
        cases hStep
        exact Or.inr ⟨offset, deviceId, inode, rfl, rfl, Or.inr rfl⟩

/-- A successful call keeps the file in step with memory. -/
theorem Kept.step (h : Kept sourcePath current) {call : StateCall}
    (hStep : callStep current call = some next) : Kept sourcePath next := by
  rcases callStep_cases hStep with
    ⟨_, hFull, rfl⟩ | ⟨offset, deviceId, inode, _, hNext, rfl | hFile⟩
  · exact kept_of_saved (h.readable.advanced hFull) h.sourcePath_eq
  · exact h
  · have hSaved : next = (next.1, some next.1.stateText) := Prod.ext rfl hFile
    rw [hSaved, hNext]
    exact kept_of_saved (h.readable.withCheckpoint offset deviceId inode) h.sourcePath_eq

theorem checkpoint_step {calls : List StateCall} {call : StateCall}
    (hStart : current.1.checkpoint = lastCheckpoint calls)
    (hStep : callStep current call = some next) :
    next.1.checkpoint = lastCheckpoint (calls ++ [call]) := by
  rw [lastCheckpoint, List.foldl_append, ← lastCheckpoint]
  rcases callStep_cases hStep with ⟨rfl, _, rfl⟩ | ⟨offset, deviceId, inode, rfl, hNext, _⟩
  · exact hStart
  · rw [hNext]
    rfl

/-- Constructing again with the same source does not throw, and gives the same
client, next id and checkpoint. -/
def Restored (path sourcePath generated : Bytes) (current : ClientState × Option Bytes) : Prop :=
  ∃ reopened, (construct path sourcePath current.2 [] generated .saved).1 = .ok reopened ∧
    reopened.clientId = current.1.clientId ∧ reopened.nextId = current.1.nextId ∧
    reopened.checkpoint = current.1.checkpoint

/-- What the constructor makes of a file that it accepts, without recovered
messages. -/
theorem construct_loaded {data : Bytes} {loaded : ClientState} (hPath : path ≠ [])
    (hSourcePath : sourcePath ≠ []) (hLoad : load data = .ok loaded) (hNextId : loaded.nextId ≠ 0) :
    (construct path sourcePath (some data) [] generated .saved).1 =
      .ok (loaded.correctSource sourcePath false).1 := by
  have hPrepare : prepare sourcePath (some data) [] generated =
      .ok (loaded.correctSource sourcePath false) := by
    refine bind_eq_ok_iff.mpr ⟨loaded, hLoad, ?_⟩
    have hKept : (loaded.correctSource sourcePath false).1.nextId = loaded.nextId := by
      rw [correctSource]
      split_ifs <;> rfl
    change (loaded.correctSource sourcePath false).1.correctNextId [] _ = _
    refine throwIf_bind_eq_ok_iff.mpr ⟨by simp, ?_⟩
    refine throwIf_bind_eq_ok_iff.mpr ⟨by decide, ?_⟩
    rw [if_neg]
    · rfl
    · rw [hKept]
      intro hLe
      exact hNextId (UInt64.le_zero_iff.mp hLe)
  rw [construct, if_neg (not_or.mpr ⟨hPath, hSourcePath⟩), hPrepare]
  rcases loaded.correctSource sourcePath false with ⟨corrected, _ | _⟩
  · rfl
  · rfl

theorem Kept.restored (h : Kept sourcePath current) (hPath : path ≠ [])
    (hSourcePath : sourcePath ≠ []) :
    Restored path sourcePath generated current ↔
      Text.newline ∉ sourcePath ∨ current.1.checkpoint = (0, 0, 0) := by
  obtain ⟨hReadable, hSource, data, hFile, hLoad⟩ := h
  have hOpen : (construct path sourcePath (some data) [] generated .saved).1 = _ :=
    construct_loaded hPath hSourcePath hLoad hReadable.nextId_ne_zero
  rw [Restored, hFile, hOpen, correctSource]
  by_cases hLine : Text.newline ∉ sourcePath
  · have hSame : current.1.cutSource.sourcePath = sourcePath := by
      rw [cutSource, hSource]
      exact takeWhile_inLine_eq_self_iff.mpr hLine
    rw [if_neg (not_not.mpr hSame)]
    exact iff_of_true ⟨_, rfl, rfl, rfl, rfl⟩ (Or.inl hLine)
  · have hOther : current.1.cutSource.sourcePath ≠ sourcePath := by
      rw [cutSource, hSource]
      exact fun hSame => hLine (takeWhile_inLine_eq_self_iff.mp hSame)
    rw [if_pos hOther]
    constructor
    · rintro ⟨reopened, hReopened, _, _, hCheckpoint⟩
      cases hReopened
      exact Or.inr hCheckpoint.symm
    · rintro (hNot | hZero)
      · exact absurd hNot hLine
      · exact ⟨_, rfl, rfl, rfl, hZero.symm⟩

/-- From any state file on which the constructor succeeds, and after every run
of successful calls: the state is restored exactly when the source path has no
newline or the last checkpoint is all zero. -/
theorem restored_iff (path sourcePath generated again : Bytes) (file : Option Bytes)
    (start finish : ClientState × Option Bytes) (calls : List StateCall)
    (hGenerated : IsGenerated generated)
    (hStart : construct path sourcePath file [] generated .saved = (.ok start.1, start.2))
    (hCalls : Runs.run callStep start calls = some finish) :
    Restored path sourcePath again finish ↔
      Text.newline ∉ sourcePath ∨ lastCheckpoint calls = (0, 0, 0) := by
  have hPaths : ¬(path = [] ∨ sourcePath = []) := by
    intro hEmpty
    rw [construct, if_pos hEmpty] at hStart
    cases hStart
  obtain ⟨hPath, hSourcePath⟩ := not_or.mp hPaths
  obtain ⟨hKept, hZero⟩ := kept_construct hGenerated hStart
  have hFinish : Kept sourcePath finish :=
    @Runs.invariant _ _ _ _ _ _ (Kept sourcePath) (fun _ => True) hKept
      (fun _ _ _ _ h hStep => h.step hStep) (fun _ _ => trivial) hCalls
  rw [hFinish.restored hPath hSourcePath]
  by_cases hLine : Text.newline ∈ sourcePath
  · have hCheckpoint : finish.1.checkpoint = lastCheckpoint calls :=
      @Runs.induct _ _ _ _ _ _ (fun past state => state.1.checkpoint = lastCheckpoint past)
        (hZero hLine) (fun _ _ _ _ _ h hStep => checkpoint_step h hStep) hCalls
    rw [hCheckpoint]
  · exact iff_of_true (Or.inl hLine) (Or.inl hLine)

def sampleCalls : List StateCall := [.nextMessageId, .updateFileCheckpoint 12 3 4]

theorem restored_iff_sample :
    ∃ finish, (Runs.run callStep ({ clientId := .replicate 32 48, sourcePath := [112] },
        some (stateText { clientId := .replicate 32 48, sourcePath := [112] })) sampleCalls = some finish) ∧
      Restored [100] [112] [] finish :=
  ⟨_, rfl, (restored_iff [100] [112] (.replicate 32 48) [] none (_, _) (_, _) sampleCalls (by decide)
    rfl rfl).mpr (Or.inl (by decide))⟩

/-- With the source path "a\nb" the checkpoint is dropped. -/
theorem restored_fails_on_newline :
    ∃ start finish, construct [100] [97, 10, 98] none [] (.replicate 32 48) .saved =
        (.ok start, some start.stateText) ∧
      Runs.run callStep (start, some start.stateText) sampleCalls = some finish ∧
      ¬Restored [100] [97, 10, 98] [] finish := by
  refine ⟨_, _, rfl, rfl, ?_⟩
  rintro ⟨reopened, hReopened, _, _, hCheckpoint⟩
  cases hReopened
  exact absurd hCheckpoint (by decide)

end LogBridge.ClientState
