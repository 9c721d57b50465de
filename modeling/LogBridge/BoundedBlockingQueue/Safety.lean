import LogBridge.BoundedBlockingQueue.Turns

/-! Every interleaving of the threads is a history of a bounded first-in first-out
queue. What a thread has taken and not yet returned is in its own hands, which
includes the batch of a timed wait. -/
namespace LogBridge.BoundedBlockingQueue
variable {α : Type}

/-- The caller is told that nothing will come. -/
def Result.IsEmpty : Result α → Bool
  | .popped none => true
  | .batch _ [] => true
  | _ => false

/-- The values a call returned to its caller. -/
def Result.values : Result α → List α
  | .popped (some value) => [value]
  | .batch _ items => items
  | _ => []

/-- The value of a successful push. -/
def Result.pushedValues : Result α → List α
  | .pushed value true => [value]
  | _ => []

def Note.result : Note α → Option (Result α)
  | .returned result => some result
  | _ => none

/-- What a note means for the abstract queue. -/
def Note.operation : Note α → Option (BoundedFifo.Operation α)
  | .accepted value => some (.accept value)
  | .removed value => some (.remove value)
  | .closed => some .close
  | .returned result => if result.IsEmpty then some .drained else none

def results (notes : List (Note α)) : List (Result α) := notes.filterMap Note.result

def operations (notes : List (Note α)) : List (BoundedFifo.Operation α) := notes.filterMap Note.operation

/-- The values whose push put them into the queue, in order. -/
def accepted (notes : List (Note α)) : List α := BoundedFifo.accepted (operations notes)

/-- The values taken from the queue, in order. -/
def removed (notes : List (Note α)) : List α := BoundedFifo.removed (operations notes)

def allNotes (history : List (Event α)) : List (Note α) := history.map Event.note

def notesOf (thread : Nat) (history : List (Event α)) : List (Note α) :=
  (history.filter fun event => event.thread = thread).map Event.note

/-- The value of a push that has succeeded and not returned yet. -/
def Phase.offered : Phase α → List α
  | .pushed value => [value]
  | _ => []

/-- What a thread has taken and not returned yet. -/
def Phase.held : Phase α → List α
  | .popped value => [value]
  | .fill _ batch _ => batch
  | .filled _ batch => batch
  | _ => []

/-- What holds after every interleaving. -/
structure QueueSafe (capacity : Nat) (state : State α) : Prop where
  bounded : state.queue.size ≤ capacity
  /-- First in, first out, with no loss and no duplicate. -/
  fifo : removed (allNotes state.history) ++ state.queue.queue = accepted (allNotes state.history)
  closed_iff : state.queue.closed = true ↔ Note.closed ∈ allNotes state.history
  /-- Each thread's values in the queue are those of its successful pushes. -/
  pushes : ∀ thread phase, state.threads[thread]? = some phase →
    accepted (notesOf thread state.history) =
      (results (notesOf thread state.history)).flatMap Result.pushedValues ++ phase.offered
  /-- Each thread returns what it removed, in that order. -/
  removals : ∀ thread phase, state.threads[thread]? = some phase →
    removed (notesOf thread state.history) =
      (results (notesOf thread state.history)).flatMap Result.values ++ phase.held
  batches : ∀ maxItems items, Note.returned (.batch maxItems items) ∈ allNotes state.history →
    items.length ≤ maxItems
  acceptedOpen : ∀ past thread value future, state.history = past ++ ⟨thread, .accepted value⟩ :: future →
    Note.closed ∉ allNotes past
  emptyAtEnd : ∀ past thread result future,
    state.history = past ++ ⟨thread, .returned result⟩ :: future → result.IsEmpty →
      Note.closed ∈ allNotes past ∧ removed (allNotes past) = accepted (allNotes past)

/-! Notes one after the other. -/

@[simp] theorem operations_append (first second : List (Note α)) :
    operations (first ++ second) = operations first ++ operations second :=
  List.filterMap_append

@[simp] theorem operations_cons (note : Note α) (rest : List (Note α)) :
    operations (note :: rest) = note.operation.toList ++ operations rest := by
  cases h : note.operation <;> simp [operations, h]

@[simp] theorem operations_nil : operations ([] : List (Note α)) = [] := rfl

@[simp] theorem operations_removed (values : List α) :
    operations (values.map Note.removed) = values.map .remove := by
  induction values with
  | nil => rfl
  | cons value rest ih => simp [Note.operation, ih]

theorem accepted_append (first second : List (Note α)) :
    accepted (first ++ second) = accepted first ++ accepted second := by
  simp [accepted]

theorem removed_append (first second : List (Note α)) :
    removed (first ++ second) = removed first ++ removed second := by
  simp [removed]

theorem results_append (first second : List (Note α)) :
    results (first ++ second) = results first ++ results second :=
  List.filterMap_append

theorem closed_mem_operations {notes : List (Note α)} :
    .close ∈ operations notes ↔ Note.closed ∈ notes := by
  induction notes with
  | nil => simp
  | cons note rest ih =>
      cases note with
      | returned result => cases h : result.IsEmpty <;> simp [ih, Note.operation, h]
      | _ => simp [ih, Note.operation]

theorem allNotes_append (first second : List (Event α)) :
    allNotes (first ++ second) = allNotes first ++ allNotes second :=
  List.map_append

@[simp] theorem allNotes_move (thread : Nat) (notes : List (Note α)) :
    allNotes (notes.map (Event.mk thread)) = notes := by
  simp [allNotes, Function.comp_def]

theorem notesOf_move (thread other : Nat) (history : List (Event α)) (notes : List (Note α)) :
    notesOf other (history ++ notes.map (Event.mk thread)) =
      notesOf other history ++ if thread = other then notes else [] := by
  by_cases hSame : thread = other
  · simp [notesOf, List.filter_map, Function.comp_def, hSame]
  · simp [notesOf, List.filter_map, Function.comp_def, hSame]

@[simp] theorem accepted_nil : accepted ([] : List (Note α)) = [] := rfl

@[simp] theorem removed_nil : removed ([] : List (Note α)) = [] := rfl

@[simp] theorem results_nil : results ([] : List (Note α)) = [] := rfl

@[simp] theorem results_returned (result : Result α) : results [Note.returned result] = [result] := rfl

@[simp] theorem accepted_returned (result : Result α) : accepted [Note.returned result] = [] := by
  cases h : result.IsEmpty <;> simp [accepted, BoundedFifo.accepted, Note.operation, h]

@[simp] theorem removed_returned (result : Result α) : removed [Note.returned result] = [] := by
  cases h : result.IsEmpty <;> simp [removed, BoundedFifo.removed, Note.operation, h]

@[simp] theorem accepted_map_removed (values : List α) : accepted (values.map Note.removed) = [] := by
  induction values with
  | nil => rfl
  | cons value rest ih => exact ih

@[simp] theorem removed_map_removed (values : List α) : removed (values.map Note.removed) = values := by
  induction values with
  | nil => rfl
  | cons value rest ih => exact congrArg (value :: ·) ih

@[simp] theorem results_map_removed (values : List α) : results (values.map Note.removed) = [] := by
  simp [results, Note.result, List.filterMap_map]

/-! What one turn adds. -/

section Turn
variable {queue newQueue : BoundedBlockingQueue α} {phase next : Phase α} {notes : List (Note α)}

@[simp] theorem Phase.wake_offered (phase : Phase α) : phase.wake.offered = phase.offered := by
  cases phase <;> rfl

@[simp] theorem Phase.wake_held (phase : Phase α) : phase.wake.held = phase.held := by
  cases phase <;> rfl

theorem Turn.offered_eq (hTurn : Turn queue phase newQueue next notes) :
    phase.offered ++ accepted notes = (results notes).flatMap Result.pushedValues ++ next.offered := by
  cases hTurn with
  | woken => simp
  | sleepFill hCollects => cases hCollects <;> simp [Phase.offered]
  | fill hCollects => cases hCollects <;> simp [Phase.offered]
  | filled => simp [Phase.offered, Result.pushedValues]
  | _ => rfl

theorem Turn.held_eq (hTurn : Turn queue phase newQueue next notes) :
    phase.held ++ removed notes = (results notes).flatMap Result.values ++ next.held := by
  cases hTurn with
  | woken => simp
  | sleepFill hCollects => cases hCollects <;> simp [Phase.held]
  | fill hCollects => cases hCollects <;> simp [Phase.held]
  | sleepAgain => simp [Phase.held]
  | giveUp => simp [Phase.held]
  | filled => simp [Phase.held, Result.values]
  | _ => rfl

/-- A batch that is returned fits. -/
theorem Turn.batch_length (hTurn : Turn queue phase newQueue next notes) (hFits : phase.Fits)
    {maxItems : Nat} {items : List α} (hMem : Note.returned (.batch maxItems items) ∈ notes) :
    items.length ≤ maxItems := by
  cases hTurn with
  | noBatchLeft =>
      cases List.mem_singleton.mp hMem
      exact Nat.zero_le _
  | filled =>
      cases List.mem_singleton.mp hMem
      exact hFits.2
  | sleepFill => simp at hMem
  | fill => simp at hMem
  | _ => simp at hMem

theorem Turn.capacity_eq (hTurn : Turn queue phase newQueue next notes) :
    newQueue.capacity = queue.capacity := by
  cases hTurn <;> rfl

/-- A turn continues the history of the abstract queue. -/
theorem Turn.history {capacity : Nat} {past : List (BoundedFifo.Operation α)}
    (hTurn : Turn queue phase newQueue next notes) (hFits : phase.Fits)
    (hCapacity : queue.capacity = capacity)
    (h : BoundedFifo.History capacity past queue.queue queue.closed) :
    BoundedFifo.History capacity (past ++ operations notes) newQueue.queue newQueue.closed := by
  cases hTurn with
  | accept hOpen hRoom =>
      rw [hOpen] at h ⊢
      exact h.accept _ (hCapacity ▸ hRoom)
  | take hQueue =>
      rw [hQueue] at h
      exact h.remove
  | noneLeft hEmpty hClosed =>
      rw [hEmpty, hClosed] at h ⊢
      exact h.drained
  | noBatchLeft hEmpty hClosed =>
      rw [hEmpty, hClosed] at h ⊢
      exact h.drained
  | sleepFill _ hQueue =>
      rw [operations_removed]
      rw [← List.append_nil queue.queue, hQueue] at h
      exact h.remove_all
  | fill _ hQueue =>
      rw [operations_removed]
      rw [hQueue] at h
      exact h.remove_all
  | close => exact h.close
  | filled =>
      -- a batch that is returned here is not empty, and says nothing about the end
      have hNone : ∀ size (batch : List α), batch ≠ [] →
          operations [Note.returned (.batch size batch)] = [] := by
        intro size batch hBatch
        cases batch with
        | nil => exact absurd rfl hBatch
        | cons value rest => rfl
      rw [hNone _ _ hFits.1, List.append_nil]
      exact h
  | _ => simpa [operations, Note.operation, Note.result, Result.IsEmpty] using h

end Turn

/-! All threads. -/

/-- What a thread's notes and its phase have in common. -/
structure Accounts (notes : List (Note α)) (phase : Phase α) : Prop where
  fits : phase.Fits
  pushes : accepted notes = (results notes).flatMap Result.pushedValues ++ phase.offered
  removals : removed notes = (results notes).flatMap Result.values ++ phase.held

theorem Accounts.turn {queue newQueue : BoundedBlockingQueue α} {phase next : Phase α}
    {past notes : List (Note α)} (h : Accounts past phase)
    (hTurn : Turn queue phase newQueue next notes) : Accounts (past ++ notes) next := by
  constructor
  · exact hTurn.fits h.fits
  · rw [accepted_append, h.pushes, List.append_assoc, hTurn.offered_eq, results_append,
      List.flatMap_append, List.append_assoc]
  · rw [removed_append, h.removals, List.append_assoc, hTurn.held_eq, results_append,
      List.flatMap_append, List.append_assoc]

theorem Accounts.wake {notes : List (Note α)} {phase : Phase α} (h : Accounts notes phase) :
    Accounts notes phase.wake :=
  ⟨Phase.wake_fits h.fits, by simpa using h.pushes, by simpa using h.removals⟩

/-- A notification leaves a thread where it is, or wakes it. -/
theorem notify_getElem? {condition : ConditionVariable} {target : Nat} {threads woken : List (Phase α)}
    {breadth : Breadth} (h : notify condition target threads breadth = some woken) {thread : Nat}
    {phase : Phase α} (hThread : woken[thread]? = some phase) :
    ∃ before, threads[thread]? = some before ∧ (phase = before ∨ phase = before.wake) := by
  cases breadth with
  | all =>
      cases h
      rw [List.getElem?_map] at hThread
      obtain ⟨before, hBefore, rfl⟩ := Option.map_eq_some_iff.mp hThread
      refine ⟨before, hBefore, ?_⟩
      split_ifs with hSleeps
      · exact .inr rfl
      · exact .inl rfl
  | one =>
      rw [notify] at h
      split_ifs at h with hNobody
      · cases h
        exact ⟨phase, hThread, .inl rfl⟩
      · obtain ⟨sleeper, hSleeper, h⟩ := Option.bind_eq_some_iff.mp h
        split_ifs at h with hSleeps
        cases h
        rw [List.getElem?_set] at hThread
        split_ifs at hThread with hTarget hLength
        · subst hTarget
          cases hThread
          exact ⟨sleeper, hSleeper, .inr rfl⟩
        · exact ⟨phase, hThread, .inl rfl⟩

/-- The invariant of the steps. -/
structure Consistent (capacity : Nat) (state : State α) : Prop where
  capacity_eq : state.queue.capacity = capacity
  history : BoundedFifo.History capacity (operations (allNotes state.history)) state.queue.queue
    state.queue.closed
  threads : ∀ thread phase, state.threads[thread]? = some phase →
    Accounts (notesOf thread state.history) phase
  batches : ∀ maxItems items, Note.returned (.batch maxItems items) ∈ allNotes state.history →
    items.length ≤ maxItems

theorem Consistent.fits {capacity : Nat} {state : State α} (h : Consistent capacity state) :
    ∀ phase ∈ state.threads, phase.Fits := by
  intro phase hMem
  obtain ⟨thread, hThread⟩ := List.getElem?_of_mem hMem
  exact (h.threads thread phase hThread).fits

theorem Consistent.start {capacity threads : Nat} {state : State α}
    (hStart : start capacity threads = .ok state) : Consistent capacity state := by
  obtain ⟨queue, hConstruct, hState⟩ := Checked.bind_eq_ok_iff.mp hStart
  obtain ⟨_, _, hQueue⟩ := Checked.bind_eq_ok_iff.mp hConstruct
  cases hQueue
  cases hState
  refine ⟨rfl, .start, ?_, by simp [allNotes]⟩
  intro thread phase hThread
  obtain ⟨_, rfl⟩ : thread < threads ∧ Phase.idle = phase := by
    simpa [List.getElem?_replicate] using hThread
  exact ⟨trivial, rfl, rfl⟩

theorem Consistent.step {capacity : Nat} {state next : State α} {action : Action α}
    (h : Consistent capacity state) (hStep : step state action = some next) :
    Consistent capacity next := by
  obtain ⟨phase, newPhase, notes, hThread, hTurn, hHistory, hThreads⟩ := step_cases h.fits hStep
  have hAccounts := h.threads action.thread phase hThread
  constructor
  · rw [hTurn.capacity_eq]
    exact h.capacity_eq
  · rw [hHistory, allNotes_append, allNotes_move, operations_append]
    exact hTurn.history hAccounts.fits h.capacity_eq h.history
  · have hMoved : ∀ other before, (state.threads.set action.thread newPhase)[other]? = some before →
        Accounts (notesOf other next.history) before := by
      intro other before hOther
      rw [hHistory, notesOf_move]
      rw [List.getElem?_set] at hOther
      split_ifs at hOther with hSame hLength
      · cases hOther
        rw [if_pos hSame]
        rw [← hSame]
        exact hAccounts.turn hTurn
      · rw [if_neg hSame, List.append_nil]
        exact h.threads other before hOther
    intro other after hOther
    rcases hThreads with ⟨_, hSet⟩ | ⟨condition, breadth, target, _, hNotify⟩
    · rw [hSet] at hOther
      exact hMoved other after hOther
    · obtain ⟨before, hBefore, rfl | rfl⟩ := notify_getElem? hNotify hOther
      · exact hMoved other _ hBefore
      · exact (hMoved other _ hBefore).wake
  · intro maxItems items hMem
    rw [hHistory, allNotes_append, allNotes_move] at hMem
    rcases List.mem_append.mp hMem with hOld | hNew
    · exact h.batches maxItems items hOld
    · exact hTurn.batch_length hAccounts.fits hNew

theorem Consistent.run {capacity threads : Nat} {actions : List (Action α)} {state finish : State α}
    (hStart : BoundedBlockingQueue.start capacity threads = .ok state)
    (hRun : Runs.run BoundedBlockingQueue.step state actions = some finish) :
    Consistent capacity finish :=
  @Runs.invariant _ _ _ _ _ _ (fun state => Consistent capacity state) (fun _ => True)
    (.start hStart) (fun _ _ _ _ h hStep => h.step hStep) (fun _ _ => trivial) hRun

/-- After any interleaving of any number of threads the queue is safe. -/
theorem queue_safe (capacity threads : Nat) (actions : List (Action α)) (state finish : State α)
    (hStart : start capacity threads = .ok state)
    (hRun : Runs.run step state actions = some finish) : QueueSafe capacity finish := by
  have h := Consistent.run hStart hRun
  constructor
  · exact h.history.length_le
  · exact h.history.removed_append_items
  · exact h.history.closed_iff.trans closed_mem_operations
  · exact fun thread phase hThread => (h.threads thread phase hThread).pushes
  · exact fun thread phase hThread => (h.threads thread phase hThread).removals
  · exact h.batches
  · intro past thread value future hHistory
    have hOperations := h.history
    rw [hHistory, allNotes_append, operations_append] at hOperations
    exact fun hClosed => hOperations.open_of_accept (closed_mem_operations.mpr hClosed)
  · intro past thread result future hHistory hEmpty
    have hOperations := h.history
    have hNote : (Note.returned result).operation = some .drained := if_pos hEmpty
    have hFuture : operations (allNotes (⟨thread, .returned result⟩ :: future)) =
        .drained :: operations (allNotes future) := by
      rw [allNotes, List.map_cons, operations_cons, hNote]
      rfl
    rw [hHistory, allNotes_append, operations_append, hFuture] at hOperations
    obtain ⟨hClosed, hAll⟩ := hOperations.removed_of_drained
    exact ⟨closed_mem_operations.mp hClosed, hAll⟩

/-- One thread waits for a batch while another one pushes. -/
def sampleActions : List (Action Nat) :=
  [.call 1 (.popBatch 2 5), .run 1 false, .call 0 (.push 7), .run 0 false, .notify 0 1, .run 1 false,
    .wake 1, .run 1 true, .notify 1 0]

theorem queue_safe_sample : ∃ state finish : State Nat, start 1 2 = .ok state ∧
    Runs.run step state sampleActions = some finish ∧ QueueSafe 1 finish :=
  ⟨_, _, rfl, rfl, queue_safe 1 2 sampleActions _ _ rfl rfl⟩

end LogBridge.BoundedBlockingQueue
