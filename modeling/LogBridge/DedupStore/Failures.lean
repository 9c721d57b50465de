import LogBridge.DedupStore.Persistence
import LogBridge.Library.Runs

/-! Saves that fail while the server runs on, and restarts at any point. A save
that fails after its rename leaves the file ahead of memory, and the next save
of another client writes the file from the older map. No value that a call has
returned is lost by this, for it is in memory before it is returned. -/
namespace LogBridge.DedupStore

open Checked Storage

/-- A store with its file, and every client with a value its calls returned. -/
structure Session where
  store : DedupStore := {}
  file : Option Bytes := none
  returned : List (Bytes × UInt64) := []

inductive SessionEvent where
  | confirm (clientId : Bytes) (confirmedId : UInt64) (outcome : SaveOutcome)
  | reopen
  deriving DecidableEq, Repr

namespace Session

/-- A call that throws returns nothing. A store that cannot be opened again has
no next state. -/
def step (path : Bytes) (session : Session) : SessionEvent → Option Session
  | .confirm clientId confirmedId outcome =>
      match session.store.confirm session.file clientId confirmedId outcome with
      | (.ok value, store, file) =>
          some { store, file, returned := session.returned ++ [(clientId, value)] }
      | (.error _, store, file) => some { session with store, file }
  | .reopen =>
      match construct path session.file with
      | .ok store => some { session with store }
      | .error _ => none

/-- The client id of a call is one word; the confirmed id is arbitrary. -/
def NamesWord : SessionEvent → Prop
  | .confirm clientId _ _ => IsWord clientId
  | .reopen => True

/-- The file opens to watermarks that are nowhere below those in memory, and
memory is nowhere below what was returned. -/
structure Sound (path : Bytes) (session : Session) : Prop where
  readable : Readable session.store.confirmed
  opens : ∃ disk, construct path session.file = .ok disk ∧
    ∀ clientId, session.store.highestConfirmed clientId ≤ disk.highestConfirmed clientId
  returned_le : ∀ record ∈ session.returned,
    record.2 ≤ session.store.highestConfirmed record.1

variable {path clientId : Bytes} {confirmedId : UInt64} {session next : Session}

theorem construct_readable {file : Option Bytes} {store : DedupStore}
    (h : construct path file = .ok store) : Readable store.confirmed := by
  rw [construct] at h
  split_ifs at h
  exact load_readable h

theorem construct_stateText {values : ConfirmedMap} (hPath : path ≠ []) (h : Readable values) :
    construct path (some (stateText values)) = .ok { confirmed := values } :=
  construct_persisted hPath (Or.inr rfl) h

/-- A larger watermark of one client lowers none. -/
theorem le_highestConfirmed_insert (store : DedupStore)
    (hLt : store.highestConfirmed clientId < confirmedId) (other : Bytes) :
    store.highestConfirmed other ≤
      highestConfirmed { confirmed := store.confirmed.insert clientId confirmedId } other := by
  rw [highestConfirmed_insert]
  split_ifs with hSame
  · rw [← hSame]
    exact UInt64.le_of_lt hLt
  · exact UInt64.le_refl _

theorem Sound.confirm (hPath : path ≠ []) (h : Sound path session) (hWord : IsWord clientId)
    (outcome : SaveOutcome)
    (hStep : session.step path (.confirm clientId confirmedId outcome) = some next) :
    Sound path next := by
  obtain ⟨hReadable, ⟨disk, hOpen, hDisk⟩, hReturned⟩ := h
  rw [step] at hStep
  rcases confirm_cases session.store session.file clientId confirmedId outcome with
    ⟨hCall, _⟩ | ⟨hCall, _, _, hLe⟩ |
    ⟨_, hId, hLt, ⟨_, hCall⟩ | ⟨error, ⟨_, hCall⟩ | ⟨_, hCall⟩⟩⟩
  · rw [hCall] at hStep
    cases hStep
    exact ⟨hReadable, ⟨disk, hOpen, hDisk⟩, hReturned⟩
  · rw [hCall] at hStep
    cases hStep
    refine ⟨hReadable, ⟨disk, hOpen, hDisk⟩, fun record hMem => ?_⟩
    rcases List.mem_append.mp hMem with hOld | hNew
    · exact hReturned record hOld
    · rw [List.mem_singleton.mp hNew]
      exact UInt64.le_refl _
  · rw [hCall] at hStep
    cases hStep
    have hInserted := hReadable.insert hWord hId
    have hGrown := le_highestConfirmed_insert session.store hLt
    refine ⟨hInserted, ⟨_, construct_stateText hPath hInserted, fun _ => UInt64.le_refl _⟩,
      fun record hMem => ?_⟩
    rcases List.mem_append.mp hMem with hOld | hNew
    · exact UInt64.le_trans (hReturned record hOld) (hGrown record.1)
    · rw [List.mem_singleton.mp hNew]
      dsimp only
      rw [highestConfirmed_insert, if_pos rfl]
      exact UInt64.le_refl _
  · rw [hCall] at hStep
    cases hStep
    exact ⟨hReadable, ⟨disk, hOpen, hDisk⟩, hReturned⟩
  · -- the file now holds the new entry, memory does not
    rw [hCall] at hStep
    cases hStep
    exact ⟨hReadable, ⟨_, construct_stateText hPath (hReadable.insert hWord hId),
      le_highestConfirmed_insert session.store hLt⟩, hReturned⟩

theorem Sound.reopen (h : Sound path session) (hStep : session.step path .reopen = some next) :
    Sound path next := by
  obtain ⟨_, ⟨disk, hOpen, hDisk⟩, hReturned⟩ := h
  rw [step, hOpen] at hStep
  cases hStep
  refine ⟨construct_readable hOpen, ⟨disk, hOpen, fun _ => UInt64.le_refl _⟩, ?_⟩
  intro record hMem
  exact UInt64.le_trans (hReturned record hMem) (hDisk record.1)

/-- No event of a sound session is stuck: every reopening succeeds. -/
theorem Sound.enabled (h : Sound path session) (event : SessionEvent) :
    ∃ next, session.step path event = some next := by
  cases event with
  | confirm clientId confirmedId outcome =>
      rw [step]
      rcases session.store.confirm session.file clientId confirmedId outcome with
        ⟨_ | value, store, file⟩
      · exact ⟨_, rfl⟩
      · exact ⟨_, rfl⟩
  | reopen =>
      obtain ⟨_, ⟨disk, hOpen, _⟩, _⟩ := h
      rw [step, hOpen]
      exact ⟨_, rfl⟩

theorem Sound.run (hPath : path ≠ []) {events : List SessionEvent}
    (hWords : ∀ event ∈ events, NamesWord event) (h : Sound path session) :
    ∃ finish, Runs.run (step path) session events = some finish ∧ Sound path finish := by
  induction events generalizing session with
  | nil => exact ⟨session, rfl, h⟩
  | cons event rest ih =>
      rw [List.forall_mem_cons] at hWords
      obtain ⟨next, hStep⟩ := h.enabled event
      have hNext : Sound path next := by
        cases event with
        | confirm clientId confirmedId outcome => exact h.confirm hPath hWords.1 outcome hStep
        | reopen => exact h.reopen hStep
      obtain ⟨finish, hRest, hFinish⟩ := ih hWords.2 hNext
      exact ⟨finish, Runs.run_cons hStep hRest, hFinish⟩

/-- What one call does to the watermarks in memory. -/
def Atomic (store : DedupStore) (clientId : Bytes)
    (result : Except Exception UInt64 × DedupStore × Option Bytes) : Prop :=
  match result with
  | (.error _, after, _) =>
      ∀ other, after.highestConfirmed other = store.highestConfirmed other
  | (.ok _, after, _) =>
      (∀ other, other ≠ clientId → after.highestConfirmed other = store.highestConfirmed other) ∧
        store.highestConfirmed clientId ≤ after.highestConfirmed clientId

theorem confirm_atomic (store : DedupStore) (file : Option Bytes) (clientId : Bytes)
    (confirmedId : UInt64) (outcome : SaveOutcome) :
    Atomic store clientId (store.confirm file clientId confirmedId outcome) := by
  rcases confirm_cases store file clientId confirmedId outcome with
    ⟨hCall, _⟩ | ⟨hCall, _⟩ | ⟨_, _, hLt, ⟨_, hCall⟩ | ⟨error, ⟨_, hCall⟩ | ⟨_, hCall⟩⟩⟩
  · rw [hCall]
    exact fun _ => rfl
  · rw [hCall]
    exact ⟨fun _ _ => rfl, UInt64.le_refl _⟩
  · rw [hCall]
    refine ⟨fun other hOther => ?_, le_highestConfirmed_insert store hLt clientId⟩
    rw [highestConfirmed_insert, if_neg (Ne.symm hOther)]
  · rw [hCall]
    exact fun _ => rfl
  · rw [hCall]
    exact fun _ => rfl

/-- From any file on which the store opens, with saves failing before or after
their rename and the store opened again at any point: every reopening succeeds,
every call is atomic in memory, and no watermark ever falls below a value that
was returned. -/
theorem never_forgets (path : Bytes) (file : Option Bytes) (start : DedupStore)
    (events : List SessionEvent) (hOpen : construct path file = .ok start)
    (hWords : ∀ event ∈ events, NamesWord event) :
    ∃ finish, Runs.run (step path) { store := start, file } events = some finish ∧
      (∀ clientId confirmedId outcome, Atomic finish.store clientId
        (finish.store.confirm finish.file clientId confirmedId outcome)) ∧
      (∃ reopened, construct path finish.file = .ok reopened ∧ ∀ record ∈ finish.returned,
        record.2 ≤ reopened.highestConfirmed record.1) ∧
      ∀ record ∈ finish.returned, record.2 ≤ finish.store.highestConfirmed record.1 := by
  have hPath : path ≠ [] := by
    rintro rfl
    cases hOpen
  have hStart : Sound path { store := start, file } :=
    ⟨construct_readable hOpen, ⟨start, hOpen, fun _ => UInt64.le_refl _⟩, by simp⟩
  obtain ⟨finish, hRun, hFinish⟩ := hStart.run hPath hWords
  obtain ⟨_, ⟨disk, hDisk, hLe⟩, hReturned⟩ := hFinish
  refine ⟨finish, hRun, fun clientId confirmedId outcome => ?_, ⟨disk, hDisk, ?_⟩, hReturned⟩
  · exact confirm_atomic finish.store finish.file clientId confirmedId outcome
  · intro record hMem
    exact UInt64.le_trans (hReturned record hMem) (hLe record.1)

/-- A watermark that reached the file only, overwritten by the save of another
client before the store is opened again. -/
def sampleEvents : List SessionEvent :=
  [.confirm [97] 5 .saved, .confirm [97] 9 (.failedAfterRename (.systemError "cannot sync persistent file")),
    .confirm [98] 2 .saved, .reopen]

theorem never_forgets_sample :
    ∃ finish, Runs.run (step [100]) { store := {}, file := none } sampleEvents = some finish ∧
      ∀ record ∈ finish.returned, record.2 ≤ finish.store.highestConfirmed record.1 := by
  obtain ⟨finish, hRun, _, _, hReturned⟩ :=
    never_forgets [100] none {} sampleEvents rfl (by simp [sampleEvents, NamesWord, IsWord, Text.isSpace])
  exact ⟨finish, hRun, hReturned⟩

end Session
end LogBridge.DedupStore
