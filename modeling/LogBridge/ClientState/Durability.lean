import LogBridge.ClientState.RoundTrip
import LogBridge.Library.Runs
import LogBridge.Persistence.Leaves

/-! The message ids and the loss of power. An id is returned only after the next one
is on the medium, so none is given out a second time, wherever the process is killed
and whatever is left when the power is lost. -/
namespace LogBridge.ClientState

open Checked Persistence Scripted

/-! The members with the system calls of their saves. -/

def persistOn (parent : Bytes) (state : ClientState) : Program Disk Reply Exception Unit :=
  writeAtomically parent state.stateText

def constructOn (parent path sourcePath : Bytes) (file : Option Bytes)
    (recoveredMessages : List LogMessage) (generated : Bytes) : Program Disk Reply Exception ClientState :=
  if path = [] ∨ sourcePath = [] then
    throwing (.invalidArgument "client state path and source cannot be empty")
  else
    match prepare sourcePath file recoveredMessages generated with
    | .error error => throwing error
    | .ok (state, false) => pure state
    | .ok (state, true) => do
        persistOn parent state
        pure state

def nextMessageIdOn (parent : Bytes) (state : ClientState) :
    Program Disk Reply Exception (UInt64 × ClientState) :=
  if state.nextId = maxId then throwing (.overflowError "message ID space is exhausted")
  else do
    let advanced := { state with nextId := state.nextId + 1 }
    persistOn parent advanced
    pure (state.nextId, advanced)

def updateFileCheckpointOn (parent : Bytes) (state : ClientState) (offset deviceId inode : UInt64) :
    Program Disk Reply Exception ClientState :=
  if offset = state.fileOffset ∧ deviceId = state.fileDeviceId ∧ inode = state.fileInode then pure state
  else do
    let updated := { state with fileOffset := offset, fileDeviceId := deviceId, fileInode := inode }
    persistOn parent updated
    pure updated

section Calls
variable {parent path sourcePath generated : Bytes} {recovered : List LogMessage} {state : ClientState}
  {offset deviceId inode : UInt64}

theorem constructOn_changed {file : Option Bytes} (hPath : ¬(path = [] ∨ sourcePath = []))
    (hPrepare : prepare sourcePath file recovered generated = .ok (state, true)) :
    constructOn parent path sourcePath file recovered generated = (do
      writeAtomically parent state.stateText
      pure state) := by
  rw [constructOn, if_neg hPath, hPrepare]
  rfl

theorem nextMessageIdOn_eq (hFull : state.nextId ≠ maxId) :
    state.nextMessageIdOn parent = (do
      writeAtomically parent state.advanced.stateText
      pure (state.nextId, state.advanced)) := by
  rw [nextMessageIdOn, if_neg hFull]
  rfl

theorem updateFileCheckpointOn_eq
    (hChanged : ¬(offset = state.fileOffset ∧ deviceId = state.fileDeviceId ∧ inode = state.fileInode)) :
    state.updateFileCheckpointOn parent offset deviceId inode = (do
      writeAtomically parent (state.withCheckpoint offset deviceId inode).stateText
      pure (state.withCheckpoint offset deviceId inode)) := by
  rw [updateFileCheckpointOn, if_neg hChanged]
  rfl

/-! The members in terms of the ends of their saves. -/

theorem refines_constructOn (parent path sourcePath : Bytes) (recovered : List LogMessage)
    (generated : Bytes) (disk : Disk) (replies : List Reply) :
    match constructOn parent path sourcePath disk.content recovered generated disk replies with
    | (.returned state, after, _) =>
        construct path sourcePath disk.content recovered generated .saved = (.ok state, after.content)
    | (.threw error, after, _) => ∃ outcome,
        construct path sourcePath disk.content recovered generated outcome = (.error error, after.content)
    | (.stopped, after, _) => ∃ outcome error,
        construct path sourcePath disk.content recovered generated outcome = (.error error, after.content) := by
  by_cases hPath : path = [] ∨ sourcePath = []
  · rw [constructOn, if_pos hPath]
    exact ⟨.saved, by rw [construct, if_pos hPath]⟩
  cases hPrepare : prepare sourcePath disk.content recovered generated with
  | error error =>
      rw [constructOn, if_neg hPath, hPrepare]
      exact ⟨.saved, by rw [construct, if_neg hPath, hPrepare]⟩
  | ok prepared =>
      obtain ⟨state, changed⟩ := prepared
      cases changed with
      | false =>
          rw [constructOn, if_neg hPath, hPrepare]
          dsimp only [pure]
          rw [construct, if_neg hPath, hPrepare]
      | true =>
          rw [constructOn_changed hPath hPrepare]
          have hSave := refines_replace parent state.stateText state disk replies
          revert hSave
          generalize (writeAtomically parent state.stateText >>= fun _ => pure state) disk replies = run
          rcases run with ⟨value | error | _, after, rest⟩
          · rintro ⟨rfl, hSave⟩
            simp only [construct, if_neg hPath, hPrepare, persist, hSave]
          · rintro ⟨outcome, hSave⟩
            refine ⟨outcome, ?_⟩
            simp only [construct, if_neg hPath, hPrepare, persist, hSave]
          · rintro ⟨outcome, error, hSave⟩
            refine ⟨outcome, error, ?_⟩
            simp only [construct, if_neg hPath, hPrepare, persist, hSave]

theorem refines_nextMessageIdOn (parent : Bytes) (state : ClientState) (disk : Disk) (replies : List Reply) :
    match state.nextMessageIdOn parent disk replies with
    | (.returned (id, next), after, _) =>
        state.nextMessageId disk.content .saved = (.ok id, next, after.content)
    | (.threw error, after, _) => ∃ outcome,
        state.nextMessageId disk.content outcome = (.error error, state, after.content)
    | (.stopped, after, _) => ∃ outcome error,
        state.nextMessageId disk.content outcome = (.error error, state, after.content) := by
  by_cases hFull : state.nextId = maxId
  · rw [nextMessageIdOn, if_pos hFull]
    exact ⟨.saved, by rw [nextMessageId, if_pos hFull]⟩
  rw [nextMessageIdOn_eq hFull]
  have hSave := refines_replace parent state.advanced.stateText (state.nextId, state.advanced) disk replies
  revert hSave
  generalize (writeAtomically parent state.advanced.stateText >>= fun _ =>
    pure (state.nextId, state.advanced)) disk replies = run
  rcases run with ⟨value | error | _, after, rest⟩
  · rintro ⟨rfl, hSave⟩
    rw [advanced] at hSave
    simp only [nextMessageId, if_neg hFull, persist, hSave, advanced]
  · rintro ⟨outcome, hSave⟩
    refine ⟨outcome, ?_⟩
    rw [advanced] at hSave
    simp only [nextMessageId, if_neg hFull, persist, hSave]
  · rintro ⟨outcome, error, hSave⟩
    refine ⟨outcome, error, ?_⟩
    rw [advanced] at hSave
    simp only [nextMessageId, if_neg hFull, persist, hSave]

theorem refines_updateFileCheckpointOn (parent : Bytes) (state : ClientState)
    (offset deviceId inode : UInt64) (disk : Disk) (replies : List Reply) :
    match state.updateFileCheckpointOn parent offset deviceId inode disk replies with
    | (.returned next, after, _) => state.updateFileCheckpoint disk.content offset deviceId inode .saved =
        (.ok (), next, after.content)
    | (.threw error, after, _) => ∃ outcome,
        state.updateFileCheckpoint disk.content offset deviceId inode outcome =
          (.error error, state, after.content)
    | (.stopped, after, _) => ∃ outcome error,
        state.updateFileCheckpoint disk.content offset deviceId inode outcome =
          (.error error, state, after.content) := by
  by_cases hSame : offset = state.fileOffset ∧ deviceId = state.fileDeviceId ∧ inode = state.fileInode
  · rw [updateFileCheckpointOn, if_pos hSame]
    dsimp only [pure]
    rw [updateFileCheckpoint, if_pos hSame]
  rw [updateFileCheckpointOn_eq hSame]
  have hSave := refines_replace parent (state.withCheckpoint offset deviceId inode).stateText
    (state.withCheckpoint offset deviceId inode) disk replies
  revert hSave
  generalize (writeAtomically parent (state.withCheckpoint offset deviceId inode).stateText >>= fun _ =>
    pure (state.withCheckpoint offset deviceId inode)) disk replies = run
  rcases run with ⟨value | error | _, after, rest⟩
  · rintro ⟨rfl, hSave⟩
    rw [withCheckpoint] at hSave
    simp only [updateFileCheckpoint, if_neg hSame, persist, hSave, withCheckpoint]
  · rintro ⟨outcome, hSave⟩
    refine ⟨outcome, ?_⟩
    rw [withCheckpoint] at hSave
    simp only [updateFileCheckpoint, if_neg hSame, persist, hSave]
  · rintro ⟨outcome, error, hSave⟩
    refine ⟨outcome, error, ?_⟩
    rw [withCheckpoint] at hSave
    simp only [updateFileCheckpoint, if_neg hSame, persist, hSave]

end Calls

/-- The state file, the state of the running process, and every id that was returned. -/
structure Machine where
  disk : Disk := {}
  state : Option ClientState := none
  allocated : List (Bytes × UInt64) := []

inductive MachineAction where
  | start (recovered : List LogMessage) (generated : Bytes) (replies : List Reply)
  | allocate (replies : List Reply)
  | checkpoint (offset deviceId inode : UInt64) (replies : List Reply)
  | kill
  | losePower (content : Option Bytes)
  deriving DecidableEq, Repr

namespace Machine

/-- A constructor that throws ends the process. -/
def start (parent path sourcePath : Bytes) (machine : Machine) (recovered : List LogMessage)
    (generated : Bytes) (replies : List Reply) : Machine :=
  match constructOn parent path sourcePath machine.disk.content recovered generated machine.disk replies with
  | (.returned state, disk, _) => { machine with disk, state := some state }
  | (_, disk, _) => { machine with disk }

def allocate (parent : Bytes) (machine : Machine) (state : ClientState) (replies : List Reply) : Machine :=
  match state.nextMessageIdOn parent machine.disk replies with
  | (.returned (id, next), disk, _) =>
      { disk, state := some next, allocated := machine.allocated ++ [(state.clientId, id)] }
  | (.threw _, disk, _) => { machine with disk }
  | (.stopped, disk, _) => { machine with disk, state := none }

def checkpoint (parent : Bytes) (machine : Machine) (state : ClientState) (offset deviceId inode : UInt64)
    (replies : List Reply) : Machine :=
  match state.updateFileCheckpointOn parent offset deviceId inode machine.disk replies with
  | (.returned next, disk, _) => { machine with disk, state := some next }
  | (.threw _, disk, _) => { machine with disk }
  | (.stopped, disk, _) => { machine with disk, state := none }

def step (parent path sourcePath : Bytes) (machine : Machine) : MachineAction → Option Machine
  | .start recovered generated replies =>
      if machine.state.isSome then none
      else some (machine.start parent path sourcePath recovered generated replies)
  | .allocate replies => do
      let state ← machine.state
      return machine.allocate parent state replies
  | .checkpoint offset deviceId inode replies => do
      let state ← machine.state
      return machine.checkpoint parent state offset deviceId inode replies
  | .kill => some { machine with state := none }
  | .losePower content =>
      if machine.disk.CrashLeaves content then
        some { machine with disk := .recovered content, state := none }
      else none

/-- The ids were given out under the id of this client, and the next one is above them. -/
def Above (allocated : List (Bytes × UInt64)) (state : ClientState) : Prop :=
  ∀ pair ∈ allocated, pair.1 = state.clientId ∧ pair.2 < state.nextId

/-- The content is read as a state above all ids, or there are none yet. -/
def Opens (allocated : List (Bytes × UInt64)) (content : Option Bytes) : Prop :=
  content = none ∧ allocated = [] ∨
    ∃ data state, content = some data ∧ load data = .ok state ∧ Above allocated state

/-- The invariant of the ids. -/
structure Unique (machine : Machine) : Prop where
  left : machine.disk.Leaves (Opens machine.allocated)
  memory : ∀ state, machine.state = some state → Readable state ∧ Above machine.allocated state
  increasing : machine.allocated.Pairwise fun first second => first.1 = second.1 ∧ first.2 < second.2

variable {parent path sourcePath generated : Bytes} {recovered : List LogMessage} {machine next : Machine}
  {state : ClientState} {allocated : List (Bytes × UInt64)} {replies : List Reply}

theorem opens_stateText (hReadable : Readable state) (hAbove : Above allocated state) :
    Opens allocated (some state.stateText) :=
  Or.inr ⟨_, _, rfl, load_stateText hReadable, hAbove⟩

/-- A process that has ended, or has taken nothing of the save into memory. -/
theorem Unique.fails {disk : Disk} {kept : Option ClientState} (h : Unique machine)
    (hKept : kept = machine.state ∨ kept = none) (hReadable : Readable state)
    (hAbove : Above machine.allocated state) (hAdds : machine.disk.Adds state.stateText disk) :
    Unique { machine with disk, state := kept } where
  left := hAdds _ h.left (opens_stateText hReadable hAbove)
  memory := by
    rcases hKept with rfl | rfl
    · exact h.memory
    · intro other hOther
      cases hOther
  increasing := h.increasing

/-- A saved state. -/
theorem unique_of_saved {disk : Disk} (hReadable : Readable state)
    (hAbove : Above allocated state) (hSettled : disk.Settled)
    (hContent : disk.content = some state.stateText)
    (hIncreasing : allocated.Pairwise fun first second => first.1 = second.1 ∧ first.2 < second.2) :
    Unique { disk, allocated, state := some state } where
  left := by
    refine hSettled.leaves_iff.mpr ?_
    rw [hContent]
    exact opens_stateText hReadable hAbove
  memory := by
    rintro _ ⟨⟩
    exact ⟨hReadable, hAbove⟩
  increasing := hIncreasing

/-- The state that the constructor arrives at is above all ids. -/
theorem Unique.prepared {changed : Bool} (h : Unique machine) (hGenerated : IsGenerated generated)
    (hRecovered : ∀ message ∈ recovered, IsGenerated message.clientId)
    (hPrepare : prepare sourcePath machine.disk.content recovered generated = .ok (state, changed)) :
    Readable state ∧ Above machine.allocated state := by
  obtain ⟨base, hBase, hCorrected, _⟩ := prepare_eq_ok hPrepare
  have hStart : Readable base ∧ Above machine.allocated base := by
    rcases h.left.visible with ⟨hNone, hEmpty⟩ | ⟨data, loaded, hData, hLoad, hAbove⟩
    · rw [hNone] at hBase
      have hAbove : Above machine.allocated base := by simp [hEmpty, Above]
      cases recovered with
      | nil =>
          cases hBase
          exact ⟨readable_of_generated hGenerated (by simp), hAbove⟩
      | cons front rest =>
          cases hBase
          exact ⟨readable_of_generated (hRecovered front (List.mem_cons_self ..)) (by simp), hAbove⟩
    · rw [hData] at hBase
      cases hLoad.symm.trans hBase
      exact ⟨(loaded_of_load hLoad).readable.1, hAbove⟩
  obtain ⟨hReadable, hAbove⟩ := hStart
  have hNextId : base.nextId ≤ state.nextId := hCorrected.nextId_le
  constructor
  · constructor
    · rw [hCorrected.clientId_eq]
      exact hReadable.clientId_ne_nil
    · rw [hCorrected.clientId_eq]
      exact hReadable.clientId_line
    · intro hZero
      rw [hZero] at hNextId
      exact hReadable.nextId_ne_zero (UInt64.le_zero_iff.mp hNextId)
  · intro pair hMem
    obtain ⟨hClient, hLt⟩ := hAbove pair hMem
    exact ⟨hClient.trans hCorrected.clientId_eq.symm, UInt64.lt_of_lt_of_le hLt hNextId⟩

theorem Unique.start (h : Unique machine) (hGenerated : IsGenerated generated)
    (hRecovered : ∀ message ∈ recovered, IsGenerated message.clientId) :
    Unique (machine.start parent path sourcePath recovered generated replies) := by
  by_cases hPath : path = [] ∨ sourcePath = []
  · rw [Machine.start, constructOn, if_pos hPath]
    exact { h with }
  cases hPrepare : prepare sourcePath machine.disk.content recovered generated with
  | error error =>
      rw [Machine.start, constructOn, if_neg hPath, hPrepare]
      exact { h with }
  | ok prepared =>
      obtain ⟨state, changed⟩ := prepared
      obtain ⟨hReadable, hAbove⟩ := h.prepared hGenerated hRecovered hPrepare
      cases changed with
      | false =>
          rw [Machine.start, constructOn, if_neg hPath, hPrepare]
          refine ⟨h.left, ?_, h.increasing⟩
          rintro _ ⟨⟩
          exact ⟨hReadable, hAbove⟩
      | true =>
          rw [Machine.start, constructOn_changed hPath hPrepare]
          rcases replace_cases parent state.stateText state machine.disk replies with
            ⟨after, rest, hSettled, hContent, hEnd⟩ | ⟨after, rest, hAdds, ⟨error, hEnd⟩ | hEnd⟩
          · rw [hEnd]
            exact unique_of_saved hReadable hAbove hSettled hContent h.increasing
          · rw [hEnd]
            exact h.fails (Or.inl rfl) hReadable hAbove hAdds
          · rw [hEnd]
            exact h.fails (Or.inl rfl) hReadable hAbove hAdds

theorem Unique.allocate (h : Unique machine) (hState : machine.state = some state) :
    Unique (machine.allocate parent state replies) := by
  obtain ⟨hReadable, hAbove⟩ := h.memory state hState
  by_cases hFull : state.nextId = maxId
  · rw [Machine.allocate, nextMessageIdOn, if_pos hFull]
    exact { h with }
  have hLt := lt_add_one_of_ne_maxId hFull
  have hAdvanced := hReadable.advanced hFull
  have hMore : Above machine.allocated state.advanced :=
    fun pair hMem => ⟨(hAbove pair hMem).1, UInt64.lt_trans (hAbove pair hMem).2 hLt⟩
  rw [Machine.allocate, nextMessageIdOn_eq hFull]
  rcases replace_cases parent state.advanced.stateText (state.nextId, state.advanced) machine.disk replies with
    ⟨after, rest, hSettled, hContent, hEnd⟩ | ⟨after, rest, hAdds, ⟨error, hEnd⟩ | hEnd⟩
  · rw [hEnd]
    refine unique_of_saved hAdvanced ?_ hSettled hContent ?_
    · intro pair hMem
      rcases List.mem_append.mp hMem with hOld | hNew
      · exact hMore pair hOld
      · rw [List.mem_singleton.mp hNew]
        exact ⟨rfl, hLt⟩
    · refine List.pairwise_append.mpr ⟨h.increasing, List.pairwise_singleton _ _, ?_⟩
      intro first hFirst second hSecond
      rw [List.mem_singleton.mp hSecond]
      exact hAbove first hFirst
  · rw [hEnd]
    exact h.fails (Or.inl rfl) hAdvanced hMore hAdds
  · rw [hEnd]
    exact h.fails (Or.inr rfl) hAdvanced hMore hAdds

theorem Unique.checkpoint {offset deviceId inode : UInt64} (h : Unique machine)
    (hState : machine.state = some state) :
    Unique (machine.checkpoint parent state offset deviceId inode replies) := by
  obtain ⟨hReadable, hAbove⟩ := h.memory state hState
  by_cases hSame : offset = state.fileOffset ∧ deviceId = state.fileDeviceId ∧ inode = state.fileInode
  · rw [Machine.checkpoint, updateFileCheckpointOn, if_pos hSame]
    refine ⟨h.left, ?_, h.increasing⟩
    rintro _ ⟨⟩
    exact ⟨hReadable, hAbove⟩
  have hUpdated := hReadable.withCheckpoint offset deviceId inode
  rw [Machine.checkpoint, updateFileCheckpointOn_eq hSame]
  rcases replace_cases parent (state.withCheckpoint offset deviceId inode).stateText
    (state.withCheckpoint offset deviceId inode) machine.disk replies with
    ⟨after, rest, hSettled, hContent, hEnd⟩ | ⟨after, rest, hAdds, ⟨error, hEnd⟩ | hEnd⟩
  · rw [hEnd]
    exact unique_of_saved hUpdated hAbove hSettled hContent h.increasing
  · rw [hEnd]
    exact h.fails (Or.inl rfl) hUpdated hAbove hAdds
  · rw [hEnd]
    exact h.fails (Or.inr rfl) hUpdated hAbove hAdds

/-- The ids that a start may use are generated ones. -/
def UsesGenerated : MachineAction → Prop
  | .start recovered generated _ =>
      IsGenerated generated ∧ ∀ message ∈ recovered, IsGenerated message.clientId
  | _ => True

theorem Unique.step {action : MachineAction} (h : Unique machine) (hGenerated : UsesGenerated action)
    (hStep : machine.step parent path sourcePath action = some next) : Unique next := by
  cases action with
  | start recovered generated replies =>
      rw [Machine.step] at hStep
      split_ifs at hStep
      cases hStep
      exact h.start hGenerated.1 hGenerated.2
  | allocate replies =>
      obtain ⟨state, hState, hStep⟩ := Option.bind_eq_some_iff.mp hStep
      cases hStep
      exact h.allocate hState
  | checkpoint offset deviceId inode replies =>
      obtain ⟨state, hState, hStep⟩ := Option.bind_eq_some_iff.mp hStep
      cases hStep
      exact h.checkpoint hState
  | kill =>
      cases hStep
      refine ⟨h.left, ?_, h.increasing⟩
      intro state hState
      cases hState
  | losePower content =>
      rw [Machine.step] at hStep
      split_ifs at hStep with hLeaves
      cases hStep
      refine ⟨Disk.leaves_recovered_iff.mpr (h.left content hLeaves), ?_, h.increasing⟩
      intro state hState
      cases hState

theorem unique_initial : Unique {} where
  left := by
    intro content hLeaves
    obtain ⟨entry, hMem, hEntry⟩ := hLeaves
    rw [List.mem_singleton.mp hMem] at hEntry
    exact Or.inl ⟨hEntry, rfl⟩
  memory := by
    intro state hState
    cases hState
  increasing := List.Pairwise.nil

end Machine

/-- Whatever calls fail, wherever the process is killed and whenever the power is lost:
all ids of a data directory are given out under one client id and grow, and what is
left is read as a state of this client whose next id is above them. -/
theorem ids_survive_power_loss (parent path sourcePath : Bytes) (actions : List MachineAction)
    (machine : Machine) (hGenerated : ∀ action ∈ actions, Machine.UsesGenerated action)
    (hRun : Runs.run (Machine.step parent path sourcePath) {} actions = some machine) :
    (machine.allocated.Pairwise fun first second => first.1 = second.1 ∧ first.2 < second.2) ∧
      ∀ content, machine.disk.CrashLeaves content → content = none ∧ machine.allocated = [] ∨
        ∃ data state, content = some data ∧ load data = .ok state ∧
          ∀ pair ∈ machine.allocated, pair.1 = state.clientId ∧ pair.2 < state.nextId := by
  have hUnique : Machine.Unique machine := Runs.invariant Machine.unique_initial
    (fun _ _ _ hUses h hStep => h.step hUses hStep) hGenerated hRun
  exact ⟨hUnique.increasing, hUnique.left⟩

/-- A process has allocated an id and is killed inside the next call, before the
rename. The power is lost, and a second process allocates again. -/
def sampleAllocations : List MachineAction :=
  let saved : List Reply := List.replicate 8 (.success 200)
  let clientId := List.replicate 32 48
  [.start [] clientId saved, .allocate saved, .allocate [.success 0, .success 200],
    .losePower (some (stateText { clientId, nextId := 2, sourcePath := [108] })),
    .start [] (List.replicate 32 49) saved, .allocate saved]

def sampleMachine : Machine :=
  (Runs.run (Machine.step [] [115] [108]) {} sampleAllocations).getD {}

theorem ids_survive_power_loss_sample :
    sampleMachine.allocated = [(List.replicate 32 48, 1), (List.replicate 32 48, 2)] ∧
      sampleMachine.allocated.Pairwise fun first second => first.1 = second.1 ∧ first.2 < second.2 := by
  refine ⟨rfl, (ids_survive_power_loss [] [115] [108] sampleAllocations sampleMachine ?_ rfl).1⟩
  simp [sampleAllocations, Machine.UsesGenerated, IsGenerated, hexDigits]

end LogBridge.ClientState
