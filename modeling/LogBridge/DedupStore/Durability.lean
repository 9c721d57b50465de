import LogBridge.DedupStore.Failures
import LogBridge.Library.Runs
import LogBridge.Persistence.Leaves

/-! The watermarks and the loss of power. The process may be killed between any two
system calls of a save, calls may fail, and the power may be lost at any moment.
A confirmation that was saved survives all of this. One that only found its
watermark in memory survives if the store was opened on a settled disk. -/
namespace LogBridge.DedupStore

open Checked Persistence Scripted

/-- `confirm` with the system calls of its save. -/
def confirmOn (parent : Bytes) (store : DedupStore) (clientId : Bytes) (confirmedId : UInt64) :
    Program Disk Reply Exception (UInt64 × DedupStore) :=
  if clientId = [] ∨ confirmedId = 0 then
    throwing (.invalidArgument "client ID and confirmed ID cannot be empty")
  else
    let current := store.highestConfirmed clientId
    if confirmedId ≤ current then pure (current, store)
    else do
      let updated := store.confirmed.insert clientId confirmedId
      writeAtomically parent (stateText updated)
      pure (confirmedId, { confirmed := updated })

variable {parent clientId : Bytes} {store : DedupStore} {confirmedId : UInt64}

theorem confirmOn_argument (h : clientId = [] ∨ confirmedId = 0) :
    store.confirmOn parent clientId confirmedId =
      throwing (.invalidArgument "client ID and confirmed ID cannot be empty") := by
  rw [confirmOn, if_pos h]

theorem confirmOn_old (h : ¬(clientId = [] ∨ confirmedId = 0))
    (hOld : confirmedId ≤ store.highestConfirmed clientId) :
    store.confirmOn parent clientId confirmedId = pure (store.highestConfirmed clientId, store) := by
  rw [confirmOn, if_neg h]
  exact if_pos hOld

theorem confirmOn_new (h : ¬(clientId = [] ∨ confirmedId = 0))
    (hNew : ¬confirmedId ≤ store.highestConfirmed clientId) :
    store.confirmOn parent clientId confirmedId = (do
      writeAtomically parent (stateText (store.confirmed.insert clientId confirmedId))
      pure (confirmedId, { confirmed := store.confirmed.insert clientId confirmedId })) := by
  rw [confirmOn, if_neg h]
  exact if_neg hNew

/-- A call in terms of the ends of its save. -/
theorem refines_confirmOn (parent : Bytes) (store : DedupStore) (clientId : Bytes) (confirmedId : UInt64)
    (disk : Disk) (replies : List Reply) :
    match store.confirmOn parent clientId confirmedId disk replies with
    | (.returned (value, next), after, _) =>
        store.confirm disk.content clientId confirmedId .saved = (.ok value, next, after.content)
    | (.threw error, after, _) => ∃ outcome,
        store.confirm disk.content clientId confirmedId outcome = (.error error, store, after.content)
    | (.stopped, after, _) => ∃ outcome error,
        store.confirm disk.content clientId confirmedId outcome = (.error error, store, after.content) := by
  by_cases hArgument : clientId = [] ∨ confirmedId = 0
  · rw [confirmOn_argument hArgument]
    refine ⟨.saved, ?_⟩
    rw [confirm, if_pos hArgument]
  by_cases hOld : confirmedId ≤ store.highestConfirmed clientId
  · rw [confirmOn_old hArgument hOld]
    dsimp only [pure]
    rw [confirm, if_neg hArgument]
    exact if_pos hOld
  · rw [confirmOn_new hArgument hOld]
    have hSave := refines_replace parent (stateText (store.confirmed.insert clientId confirmedId))
      (confirmedId, ({ confirmed := store.confirmed.insert clientId confirmedId } : DedupStore)) disk replies
    revert hSave
    generalize (writeAtomically parent (stateText (store.confirmed.insert clientId confirmedId)) >>= fun _ =>
      pure (confirmedId, ({ confirmed := store.confirmed.insert clientId confirmedId } : DedupStore)))
      disk replies = run
    rcases run with ⟨value | error | _, after, rest⟩
    · rintro ⟨rfl, hSave⟩
      simp only [confirm, if_neg hArgument, if_neg hOld, persist, hSave]
    · rintro ⟨outcome, hSave⟩
      refine ⟨outcome, ?_⟩
      simp only [confirm, if_neg hArgument, if_neg hOld, persist, hSave]
    · rintro ⟨outcome, error, hSave⟩
      refine ⟨outcome, error, ?_⟩
      simp only [confirm, if_neg hArgument, if_neg hOld, persist, hSave]

/-- The state file, the store of the running process, and the confirmations that
`confirm` has returned: after a save, or because the watermark was there already. -/
structure Machine where
  disk : Disk := {}
  store : Option DedupStore := none
  saved : List (Bytes × UInt64) := []
  repeated : List (Bytes × UInt64) := []

inductive MachineAction where
  | start
  | confirm (clientId : Bytes) (confirmedId : UInt64) (replies : List Reply)
  | kill
  | losePower (content : Option Bytes)
  deriving DecidableEq, Repr

namespace Machine

/-- A call whose replies run out is one in which the process is killed. -/
def confirm (parent : Bytes) (machine : Machine) (store : DedupStore) (clientId : Bytes)
    (confirmedId : UInt64) (replies : List Reply) : Machine :=
  match store.confirmOn parent clientId confirmedId machine.disk replies with
  | (.returned (_, next), disk, _) =>
      if confirmedId ≤ store.highestConfirmed clientId then
        { machine with disk, store := some next, repeated := machine.repeated ++ [(clientId, confirmedId)] }
      else { machine with disk, store := some next, saved := machine.saved ++ [(clientId, confirmedId)] }
  | (.threw _, disk, _) => { machine with disk }
  | (.stopped, disk, _) => { machine with disk, store := none }

def step (path parent : Bytes) (machine : Machine) : MachineAction → Option Machine
  | .start =>
      match machine.store, construct path machine.disk.content with
      | none, .ok store => some { machine with store := some store }
      | none, .error _ => some machine
      | some _, _ => none
  | .confirm clientId confirmedId replies => do
      let store ← machine.store
      return machine.confirm parent store clientId confirmedId replies
  | .kill => some { machine with store := none }
  | .losePower content =>
      if machine.disk.CrashLeaves content then
        some { machine with disk := .recovered content, store := none }
      else none

variable {path : Bytes} {machine next : Machine} {replies : List Reply} {acks : List (Bytes × UInt64)}

/-- What a call does to the machine. A save that does not return adds its text to
what may be left. -/
theorem confirm_cases (parent clientId : Bytes) (confirmedId : UInt64) (replies : List Reply)
    (hStore : machine.store = some store) :
    machine.confirm parent store clientId confirmedId replies = machine ∨
    (confirmedId ≤ store.highestConfirmed clientId ∧
      machine.confirm parent store clientId confirmedId replies =
        { machine with repeated := machine.repeated ++ [(clientId, confirmedId)] }) ∨
    confirmedId ≠ 0 ∧ store.highestConfirmed clientId < confirmedId ∧
      ((∃ disk, disk.Settled ∧
          disk.content = some (stateText (store.confirmed.insert clientId confirmedId)) ∧
          machine.confirm parent store clientId confirmedId replies = { machine with
            disk
            store := some { confirmed := store.confirmed.insert clientId confirmedId }
            saved := machine.saved ++ [(clientId, confirmedId)] }) ∨
        ∃ disk kept, (kept = machine.store ∨ kept = none) ∧
          machine.disk.Adds (stateText (store.confirmed.insert clientId confirmedId)) disk ∧
          machine.confirm parent store clientId confirmedId replies = { machine with disk, store := kept }) := by
  by_cases hArgument : clientId = [] ∨ confirmedId = 0
  · left
    rw [confirm, confirmOn_argument hArgument]
    rfl
  right
  by_cases hOld : confirmedId ≤ store.highestConfirmed clientId
  · left
    refine ⟨hOld, ?_⟩
    rw [confirm, confirmOn_old hArgument hOld]
    dsimp only [pure]
    rw [if_pos hOld, ← hStore]
  right
  refine ⟨fun hZero => hArgument (Or.inr hZero), UInt64.not_le.mp hOld, ?_⟩
  rw [confirm, confirmOn_new hArgument hOld]
  rcases replace_cases parent (stateText (store.confirmed.insert clientId confirmedId))
    (confirmedId, ({ confirmed := store.confirmed.insert clientId confirmedId } : DedupStore))
    machine.disk replies with
    ⟨after, rest, hSettled, hContent, hEnd⟩ | ⟨after, rest, hAdds, ⟨error, hEnd⟩ | hEnd⟩
  · left
    refine ⟨after, hSettled, hContent, ?_⟩
    rw [hEnd]
    dsimp only
    rw [if_neg hOld]
  · right
    rw [hEnd]
    exact ⟨after, machine.store, Or.inl rfl, hAdds, rfl⟩
  · right
    rw [hEnd]
    exact ⟨after, none, Or.inr rfl, hAdds, rfl⟩

/-- A store that covers the confirmations. -/
def Covers (acks : List (Bytes × UInt64)) (store : DedupStore) : Prop :=
  ∀ ack ∈ acks, ack.2 ≤ store.highestConfirmed ack.1

/-- The content can be read, and the store is then nowhere below. -/
def Opens (path : Bytes) (acks : List (Bytes × UInt64)) (content : Option Bytes) : Prop :=
  ∃ store, construct path content = .ok store ∧ Covers acks store

/-- The content can be read, and the store is nowhere below the one in memory. -/
def Ahead (path : Bytes) (store : DedupStore) (content : Option Bytes) : Prop :=
  ∃ opened, construct path content = .ok opened ∧
    ∀ clientId, store.highestConfirmed clientId ≤ opened.highestConfirmed clientId

/-- Whatever is left covers the confirmations, and so does memory. -/
structure Secured (path : Bytes) (acks : List (Bytes × UInt64)) (machine : Machine) : Prop where
  left : machine.disk.Leaves (Opens path acks)
  memory : ∀ store, machine.store = some store → Readable store.confirmed ∧ Covers acks store

theorem Covers.insert (h : Covers acks store) (hNew : store.highestConfirmed clientId < confirmedId) :
    Covers (acks ++ [(clientId, confirmedId)])
      { confirmed := store.confirmed.insert clientId confirmedId } := by
  intro ack hMem
  rcases List.mem_append.mp hMem with hOld | hAdded
  · exact UInt64.le_trans (h ack hOld) (Session.le_highestConfirmed_insert store hNew ack.1)
  · rw [List.mem_singleton.mp hAdded]
    dsimp only
    rw [highestConfirmed_insert, if_pos rfl]
    exact UInt64.le_refl _

theorem Covers.of_append (h : Covers (acks ++ [(clientId, confirmedId)]) store) : Covers acks store :=
  fun ack hMem => h ack (List.mem_append_left _ hMem)

/-- A save that returns. -/
theorem Secured.saves {disk : Disk} (hPath : path ≠ []) (h : Secured path acks machine)
    (hStore : machine.store = some store) (hWord : IsWord clientId) (hId : confirmedId ≠ 0)
    (hNew : store.highestConfirmed clientId < confirmedId) (hSettled : disk.Settled)
    (hContent : disk.content = some (stateText (store.confirmed.insert clientId confirmedId)))
    (saved : List (Bytes × UInt64)) :
    Secured path (acks ++ [(clientId, confirmedId)]) { machine with
      disk, saved, store := some { confirmed := store.confirmed.insert clientId confirmedId } } := by
  obtain ⟨hReadable, hCovers⟩ := h.memory store hStore
  have hInserted := hReadable.insert hWord hId
  have hMore := hCovers.insert hNew
  constructor
  · refine hSettled.leaves_iff.mpr ?_
    rw [hContent]
    exact ⟨_, Session.construct_stateText hPath hInserted, hMore⟩
  · rintro _ ⟨⟩
    exact ⟨hInserted, hMore⟩

/-- A save that does not. -/
theorem Secured.fails {disk : Disk} {kept : Option DedupStore} (hPath : path ≠ [])
    (h : Secured path acks machine) (hStore : machine.store = some store) (hWord : IsWord clientId)
    (hId : confirmedId ≠ 0) (hNew : store.highestConfirmed clientId < confirmedId)
    (hKept : kept = machine.store ∨ kept = none)
    (hAdds : machine.disk.Adds (stateText (store.confirmed.insert clientId confirmedId)) disk) :
    Secured path acks { machine with disk, store := kept } := by
  obtain ⟨hReadable, hCovers⟩ := h.memory store hStore
  constructor
  · refine hAdds _ h.left ⟨_, Session.construct_stateText hPath (hReadable.insert hWord hId), ?_⟩
    exact (hCovers.insert hNew).of_append
  · rcases hKept with rfl | rfl
    · exact h.memory
    · intro other hOther
      cases hOther

/-- The other steps. -/
theorem Secured.starts (h : Secured path acks machine)
    (hOpen : construct path machine.disk.content = .ok store) :
    Secured path acks { machine with store := some store } where
  left := h.left
  memory := by
    rintro _ ⟨⟩
    obtain ⟨opened, hOpened, hCovers⟩ := h.left.visible
    cases hOpen.symm.trans hOpened
    exact ⟨Session.construct_readable hOpen, hCovers⟩

theorem Secured.loses {content : Option Bytes} (h : Secured path acks machine)
    (hLeaves : machine.disk.CrashLeaves content) :
    Secured path acks { machine with disk := .recovered content, store := none } where
  left := Disk.leaves_recovered_iff.mpr (h.left content hLeaves)
  memory := by
    intro store hStore
    cases hStore

theorem Secured.killed (h : Secured path acks machine) :
    Secured path acks { machine with store := none } where
  left := h.left
  memory := by
    intro store hStore
    cases hStore

theorem Secured.of_subset {fewer : List (Bytes × UInt64)} (h : Secured path acks machine)
    (hSubset : fewer ⊆ acks) : Secured path fewer machine where
  left := by
    refine h.left.mono ?_
    rintro content ⟨store, hOpen, hCovers⟩
    exact ⟨store, hOpen, fun ack hMem => hCovers ack (hSubset hMem)⟩
  memory store hStore := (h.memory store hStore).imp_right fun hCovers ack hMem => hCovers ack (hSubset hMem)

/-- The client id of a call is one word. -/
def NamesWord : MachineAction → Prop
  | .confirm clientId _ _ => IsWord clientId
  | _ => True

/-- Where the store is opened, nothing of an earlier save is unfinished. -/
def StartsSettled (machine : Machine) (action : MachineAction) : Prop :=
  action = .start → machine.disk.Settled

/-- Every step keeps what was saved. -/
theorem Secured.step {action : MachineAction} (hPath : path ≠ []) (h : Secured path machine.saved machine)
    (hWord : NamesWord action) (hStep : machine.step path parent action = some next) :
    Secured path next.saved next := by
  cases action with
  | start =>
      rw [Machine.step] at hStep
      split at hStep
      · next store _ hOpen =>
          cases hStep
          exact h.starts hOpen
      · cases hStep
        exact h
      · cases hStep
  | confirm clientId confirmedId replies =>
      obtain ⟨store, hStore, hStep⟩ := Option.bind_eq_some_iff.mp hStep
      cases hStep
      rcases confirm_cases parent clientId confirmedId replies hStore with hSame | ⟨_, hSame⟩ |
         ⟨hId, hNew, ⟨disk, hSettled, hContent, hSame⟩ | ⟨disk, kept, hKept, hAdds, hSame⟩⟩
      · rw [hSame]
        exact h
      · rw [hSame]
        exact ⟨h.left, h.memory⟩
      · rw [hSame]
        exact h.saves hPath hStore hWord hId hNew hSettled hContent _
      · rw [hSame]
        exact h.fails hPath hStore hWord hId hNew hKept hAdds
  | kill =>
      cases hStep
      exact h.killed
  | losePower content =>
      rw [Machine.step] at hStep
      split_ifs at hStep with hLeaves
      cases hStep
      exact h.loses hLeaves

/-- The same for all confirmations, where what may be left is nowhere below memory. -/
structure Even (path : Bytes) (machine : Machine) : Prop where
  secured : Secured path (machine.saved ++ machine.repeated) machine
  ahead : ∀ store, machine.store = some store → machine.disk.Leaves (Ahead path store)

theorem Even.repeats (h : Even path machine) (hStore : machine.store = some store)
    (hOld : confirmedId ≤ store.highestConfirmed clientId) :
    Even path { machine with repeated := machine.repeated ++ [(clientId, confirmedId)] } where
  ahead := h.ahead
  secured := by
    rw [← List.append_assoc]
    constructor
    · intro content hLeaves
      obtain ⟨opened, hOpen, hAhead⟩ := h.ahead store hStore content hLeaves
      obtain ⟨other, hOther, hCovers⟩ := h.secured.left content hLeaves
      cases hOpen.symm.trans hOther
      refine ⟨opened, hOpen, ?_⟩
      intro ack hMem
      rcases List.mem_append.mp hMem with hBefore | hAdded
      · exact hCovers ack hBefore
      · rw [List.mem_singleton.mp hAdded]
        exact UInt64.le_trans hOld (hAhead clientId)
    · intro other hOther
      cases hStore.symm.trans hOther
      obtain ⟨hReadable, hCovers⟩ := h.secured.memory store hStore
      refine ⟨hReadable, ?_⟩
      intro ack hMem
      rcases List.mem_append.mp hMem with hBefore | hAdded
      · exact hCovers ack hBefore
      · rw [List.mem_singleton.mp hAdded]
        exact hOld

theorem Even.step {action : MachineAction} (hPath : path ≠ []) (h : Even path machine)
    (hWord : NamesWord action) (hSettledStart : StartsSettled machine action)
    (hStep : machine.step path parent action = some next) : Even path next := by
  cases action with
  | start =>
      rw [Machine.step] at hStep
      split at hStep
      · next store _ hOpen =>
          cases hStep
          refine ⟨h.secured.starts hOpen, ?_⟩
          rintro _ ⟨⟩
          exact (hSettledStart rfl).leaves_iff.mpr ⟨store, hOpen, fun _ => UInt64.le_refl _⟩
      · cases hStep
        exact h
      · cases hStep
  | confirm clientId confirmedId replies =>
      obtain ⟨store, hStore, hStep⟩ := Option.bind_eq_some_iff.mp hStep
      cases hStep
      obtain ⟨hReadable, _⟩ := h.secured.memory store hStore
      rcases confirm_cases parent clientId confirmedId replies hStore with hSame | ⟨hOld, hSame⟩ |
         ⟨hId, hNew, ⟨disk, hSettled, hContent, hSame⟩ | ⟨disk, kept, hKept, hAdds, hSame⟩⟩
      · rw [hSame]
        exact h
      · rw [hSame]
        exact h.repeats hStore hOld
      · rw [hSame]
        constructor
        · refine (h.secured.saves hPath hStore hWord hId hNew hSettled hContent _).of_subset ?_
          intro ack hMem
          simp only [List.mem_append] at hMem ⊢
          tauto
        · rintro _ ⟨⟩
          refine hSettled.leaves_iff.mpr ?_
          rw [hContent]
          exact ⟨_, Session.construct_stateText hPath (hReadable.insert hWord hId), fun _ => UInt64.le_refl _⟩
      · rw [hSame]
        refine ⟨h.secured.fails hPath hStore hWord hId hNew hKept hAdds, ?_⟩
        intro other hOther
        rcases hKept with rfl | rfl
        · cases hStore.symm.trans hOther
          exact hAdds _ (h.ahead store hStore) ⟨_, Session.construct_stateText hPath
            (hReadable.insert hWord hId), Session.le_highestConfirmed_insert store hNew⟩
        · cases hOther
  | kill =>
      cases hStep
      refine ⟨h.secured.killed, ?_⟩
      intro store hStore
      cases hStore
  | losePower content =>
      rw [Machine.step] at hStep
      split_ifs at hStep with hLeaves
      cases hStep
      refine ⟨h.secured.loses hLeaves, ?_⟩
      intro store hStore
      cases hStore

end Machine

/-- So many calls that succeed. -/
def succeeding (count : Nat) : List Reply := List.replicate count (.success 100)

/-- A rename that is not yet on the medium. -/
def unsettledDisk : Disk where
  target := some { content := stateText ((∅ : ConfirmedMap).insert [97] 5), synced := true }
  replaced := [none]
  renames := 1

/-- The condition on the starts is needed. A process is killed between the rename
and the sync of the directory, the next one confirms the same id again, and the
power is lost. -/
theorem unsettled_start_forgets :
    Runs.run (Machine.step [100] []) {}
      [.start, .confirm [97] 5 (succeeding 5), .start, .confirm [97] 5 []] = some {
        disk := unsettledDisk
        store := some { confirmed := (∅ : ConfirmedMap).insert [97] 5 }
        repeated := [([97], 5)] } ∧
    unsettledDisk.CrashLeaves none ∧ construct [100] none = .ok {} := by
  have hReadable : Readable ((∅ : ConfirmedMap).insert [97] 5) :=
    Readable.empty.insert (by simp [IsWord, Text.isSpace]) (by decide)
  have hStart : Machine.step [100] [] { disk := unsettledDisk } .start = some {
      disk := unsettledDisk, store := some { confirmed := (∅ : ConfirmedMap).insert [97] 5 } } := by
    have hOpen : construct [100] unsettledDisk.content =
        .ok { confirmed := (∅ : ConfirmedMap).insert [97] 5 } :=
      Session.construct_stateText (by decide) hReadable
    simp only [Machine.step, hOpen]
  refine ⟨?_, ?_, rfl⟩
  · exact Runs.run_cons rfl <| Runs.run_cons rfl <| Runs.run_cons hStart <| Runs.run_cons rfl rfl
  · exact ⟨none, by simp [unsettledDisk], rfl⟩

end LogBridge.DedupStore
