import LogBridge.BoundedBlockingQueue.Model

/-! What one step can do: one thread takes a turn, and a notification wakes some of
the others. -/
namespace LogBridge.BoundedBlockingQueue
variable {α : Type}

/-- A batch under construction has an element and is not full. -/
def Phase.Fits : Phase α → Prop
  | .fill size batch _ => batch ≠ [] ∧ batch.length < size.maxItems
  | .filled size batch => batch ≠ [] ∧ batch.length ≤ size.maxItems
  | _ => True

/-- A thread that takes elements for a batch, and the batch it has. -/
inductive Collects (size : BatchSize) : Phase α → List α → Prop
  | first : Collects size (.popBatch size .awake) []
  | again {batch} : Collects size (.fill size batch .awake) batch

/-- One turn of a thread: the queue and its phase before and after, and its notes. -/
inductive Turn : BoundedBlockingQueue α → Phase α → BoundedBlockingQueue α → Phase α →
    List (Note α) → Prop
  | callPush {queue value} : Turn queue .idle queue (.push value .awake) []
  | callPop {queue} : Turn queue .idle queue (.pop .awake) []
  | callPopBatch {queue size} : Turn queue .idle queue (.popBatch size .awake) []
  | callClose {queue} : Turn queue .idle queue .close []
  | badCall {queue error} : Turn queue .idle queue .idle [.returned (.threw error)]
  | refuse {queue value} (hClosed : queue.closed = true) :
      Turn queue (.push value .awake) queue .idle [.returned (.pushed value false)]
  | accept {queue value} (hOpen : queue.closed = false) (hRoom : queue.queue.length < queue.capacity) :
      Turn queue (.push value .awake) { queue with queue := queue.queue ++ [value] } (.pushed value)
        [.accepted value]
  | sleepFull {queue value} (hFull : queue.capacity ≤ queue.queue.length) :
      Turn queue (.push value .awake) queue (.push value .asleep) []
  | take {queue value rest} (hQueue : queue.queue = value :: rest) :
      Turn queue (.pop .awake) { queue with queue := rest } (.popped value) [.removed value]
  | noneLeft {queue} (hEmpty : queue.queue = []) (hClosed : queue.closed = true) :
      Turn queue (.pop .awake) queue .idle [.returned (.popped none)]
  | noBatchLeft {queue size} (hEmpty : queue.queue = []) (hClosed : queue.closed = true) :
      Turn queue (.popBatch size .awake) queue .idle [.returned (.batch size.maxItems [])]
  | sleepEmpty {queue} (hEmpty : queue.queue = []) : Turn queue (.pop .awake) queue (.pop .asleep) []
  | sleepFirst {queue size} (hEmpty : queue.queue = []) :
      Turn queue (.popBatch size .awake) queue (.popBatch size .asleep) []
  | sleepFill {queue phase size batch taken} (hCollects : Collects size phase batch)
      (hQueue : queue.queue = taken) (hTaken : taken ≠ [])
      (hLess : (batch ++ taken).length < size.maxItems) :
      Turn queue phase { queue with queue := [] } (.fill size (batch ++ taken) .asleep)
        (taken.map .removed)
  | fill {queue phase size batch taken rest} (hCollects : Collects size phase batch)
      (hQueue : queue.queue = taken ++ rest) (hTaken : taken ≠ [])
      (hSize : (batch ++ taken).length ≤ size.maxItems) :
      Turn queue phase { queue with queue := rest } (.filled size (batch ++ taken)) (taken.map .removed)
  | sleepAgain {queue size batch} (hEmpty : queue.queue = []) :
      Turn queue (.fill size batch .awake) queue (.fill size batch .asleep) []
  | giveUp {queue size batch} (hEmpty : queue.queue = []) :
      Turn queue (.fill size batch .awake) queue (.filled size batch) []
  | closeAgain {queue} (hClosed : queue.closed = true) :
      Turn queue .close queue .idle [.returned .closed]
  | close {queue} (hOpen : queue.closed = false) :
      Turn queue .close { queue with closed := true } (.closing .notEmpty) [.closed]
  | pushed {queue value} : Turn queue (.pushed value) queue .idle [.returned (.pushed value true)]
  | popped {queue value} : Turn queue (.popped value) queue .idle [.returned (.popped (some value))]
  | filled {queue size batch} :
      Turn queue (.filled size batch) queue .idle [.returned (.batch size.maxItems batch)]
  | closing {queue} : Turn queue (.closing .notEmpty) queue (.closing .notFull) []
  | closed {queue} : Turn queue (.closing .notFull) queue .idle [.returned .closed]
  | woken {queue phase} (hAsleep : phase.sleepsOn ≠ none) : Turn queue phase queue phase.wake []

/-- How the loop of `popBatch` ends: with what it took, and what is left. -/
theorem fillBatch_cases {size : BatchSize} {batch : List α} (closed : Bool) (items : List α)
    (hLength : batch.length ≤ size.maxItems) :
    ∃ taken rest next, fillBatch size closed batch items = (rest, next, taken.map .removed) ∧
      items = taken ++ rest ∧ (batch ++ taken).length ≤ size.maxItems ∧
      (next = .filled size (batch ++ taken) ∨
        rest = [] ∧ (batch ++ taken).length < size.maxItems ∧
          next = .fill size (batch ++ taken) .asleep) := by
  induction items generalizing batch with
  | nil =>
      have hSize : (batch ++ []).length ≤ size.maxItems := by simpa using hLength
      rw [fillBatch]
      split_ifs with hMore
      · exact ⟨[], [], _, rfl, rfl, hSize, .inr ⟨rfl, by simpa using hMore.1, by simp⟩⟩
      · exact ⟨[], [], _, rfl, rfl, hSize, .inl (by simp)⟩
  | cons value rest ih =>
      rw [fillBatch]
      split_ifs with hMore
      · have hNext : (batch ++ [value]).length ≤ size.maxItems := by
          rw [List.length_append]
          exact hMore
        obtain ⟨taken, left, next, hFill, hItems, hSize, hEnd⟩ := ih hNext
        rw [List.append_assoc] at hSize hEnd
        exact ⟨value :: taken, left, next, by rw [hFill]; rfl, by rw [hItems]; rfl, hSize, hEnd⟩
      · exact ⟨[], value :: rest, _, rfl, rfl, by simpa using hLength, .inl (by simp)⟩

/-- Taking the first element and then the loop, as a turn. -/
theorem fillBatch_turn {queue : BoundedBlockingQueue α} {phase : Phase α} {size : BatchSize}
    {batch items : List α} {value : α} (hCollects : Collects size phase batch)
    (hQueue : queue.queue = value :: items) (hLess : batch.length < size.maxItems) :
    ∃ rest next notes, fillBatch size queue.closed (batch ++ [value]) items = (rest, next, notes) ∧
      Turn queue phase { queue with queue := rest } next (.removed value :: notes) := by
  have hLength : (batch ++ [value]).length ≤ size.maxItems := by
    rw [List.length_append]
    exact hLess
  obtain ⟨taken, rest, next, hFill, rfl, hSize, hEnd⟩ :=
    fillBatch_cases queue.closed items hLength
  rw [List.append_assoc] at hSize hEnd
  have hTaken : value :: taken ≠ [] := List.cons_ne_nil value taken
  refine ⟨rest, next, _, hFill, ?_⟩
  rcases hEnd with rfl | ⟨rfl, hMore, rfl⟩
  · exact .fill hCollects hQueue hTaken hSize
  · rw [List.append_nil] at hQueue
    exact .sleepFill hCollects hQueue hTaken hMore

theorem critical_turn {queue newQueue : BoundedBlockingQueue α} {timedOut : Bool} {phase next : Phase α}
    {notes : List (Note α)} (hFits : phase.Fits)
    (h : queue.critical timedOut phase = some (newQueue, next, notes)) :
    Turn queue phase newQueue next notes := by
  cases phase with
  | push value wait =>
      cases wait with
      | asleep => cases h
      | awake =>
          rw [critical] at h
          split_ifs at h with hReady hClosed
          · cases h
            exact .refuse hClosed
          · cases h
            have hOpen : queue.closed = false := Bool.eq_false_iff.mpr hClosed
            exact .accept hOpen (hReady.resolve_right hClosed)
          · cases h
            exact .sleepFull (Nat.not_lt.mp fun hRoom => hReady (.inl hRoom))
  | pop wait =>
      cases wait with
      | asleep => cases h
      | awake =>
          rw [critical] at h
          cases hQueue : queue.queue with
          | nil =>
              simp only [hQueue] at h
              split_ifs at h with hClosed
              · cases h
                exact .noneLeft hQueue hClosed
              · cases h
                exact .sleepEmpty hQueue
          | cons value rest =>
              simp only [hQueue] at h
              cases h
              exact .take hQueue
  | popBatch size wait =>
      cases wait with
      | asleep => cases h
      | awake =>
          rw [critical] at h
          cases hQueue : queue.queue with
          | nil =>
              simp only [hQueue] at h
              split_ifs at h with hClosed
              · cases h
                exact .noBatchLeft hQueue hClosed
              · cases h
                exact .sleepFirst hQueue
          | cons value rest =>
              obtain ⟨items, last, taken, hFill, hTurn⟩ :=
                fillBatch_turn .first hQueue size.positive
              rw [List.nil_append] at hFill
              simp only [hQueue, hFill] at h
              cases h
              exact hTurn
  | fill size batch wait =>
      cases wait with
      | asleep => cases h
      | awake =>
          rw [critical] at h
          cases hQueue : queue.queue with
          | nil =>
              have hSame : queue = { queue with queue := [] } := by rw [← hQueue]
              simp only [hQueue, fillBatch] at h
              split_ifs at h with hReady hMore hTimedOut
              · -- ready although the queue is empty, so it is closed
                exact absurd (hReady.resolve_left nofun) (by simp [hMore.2])
              · cases h
                rw [← hSame]
                exact .giveUp hQueue
              · cases h
                exact .giveUp hQueue
              · cases h
                exact .sleepAgain hQueue
          | cons value rest =>
              obtain ⟨items, last, taken, hFill, hTurn⟩ := fillBatch_turn .again hQueue hFits.2
              simp only [hQueue, fillBatch, if_pos hFits.2, hFill] at h
              cases h
              exact hTurn
  | close =>
      rw [critical] at h
      split_ifs at h with hClosed
      · cases h
        exact .closeAgain hClosed
      · cases h
        exact .close (Bool.eq_false_iff.mpr hClosed)
  | idle => cases h
  | pushed value => cases h
  | popped value => cases h
  | filled size batch => cases h
  | closing condition => cases h

theorem begin_turn (queue : BoundedBlockingQueue α) (request : Request α) :
    Turn queue .idle queue (begin request).1 (begin request).2 := by
  cases request with
  | push value => exact .callPush
  | pop => exact .callPop
  | popBatch maxItems maxWait =>
      rw [begin]
      cases batchSize maxItems maxWait with
      | error error => exact .badCall
      | ok size => exact .callPopBatch
  | close => exact .callClose

theorem notification_turn (queue : BoundedBlockingQueue α) {phase next : Phase α}
    {condition : ConditionVariable} {breadth : Breadth} {notes : List (Note α)}
    (h : phase.notification = some (condition, breadth, next, notes)) :
    Turn queue phase queue next notes := by
  cases phase with
  | pushed value =>
      cases h
      exact .pushed
  | popped value =>
      cases h
      exact .popped
  | filled size batch =>
      cases h
      exact .filled
  | closing first =>
      cases first with
      | notEmpty =>
          cases h
          exact .closing
      | notFull =>
          cases h
          exact .closed
  | _ => cases h

/-- A thread that owes a notification has left the critical section. -/
theorem critical_quiet {queue newQueue : BoundedBlockingQueue α} {timedOut : Bool} {phase next : Phase α}
    {notes : List (Note α)} (h : critical queue timedOut phase = some (newQueue, next, notes)) :
    phase.notification = none := by
  cases phase with
  | pushed value => cases h
  | popped value => cases h
  | filled size batch => cases h
  | closing condition => cases h
  | _ => rfl

theorem asleep_quiet {phase : Phase α} (h : phase.sleepsOn ≠ none) : phase.notification = none := by
  cases phase with
  | pushed value => exact absurd rfl h
  | popped value => exact absurd rfl h
  | filled size batch => exact absurd rfl h
  | closing condition => exact absurd rfl h
  | _ => rfl

theorem Phase.wake_fits {phase : Phase α} (hFits : phase.Fits) : phase.wake.Fits := by
  cases phase with
  | fill size batch wait => exact hFits
  | filled size batch => exact hFits
  | _ => trivial

theorem Turn.fits {queue newQueue : BoundedBlockingQueue α} {phase next : Phase α} {notes : List (Note α)}
    (hTurn : Turn queue phase newQueue next notes) (hFits : phase.Fits) : next.Fits := by
  cases hTurn with
  | sleepFill _ _ hTaken hLess => exact ⟨by simp [hTaken], hLess⟩
  | fill _ _ hTaken hSize => exact ⟨by simp [hTaken], hSize⟩
  | sleepAgain => exact hFits
  | giveUp => exact ⟨hFits.1, Nat.le_of_lt hFits.2⟩
  | woken => exact Phase.wake_fits hFits
  | _ => trivial

/-- A step is a turn of one thread, and after its turn a notification may wake others. -/
theorem step_cases {state next : State α} {action : Action α}
    (hFits : ∀ phase ∈ state.threads, phase.Fits)
    (hStep : step state action = some next) :
    ∃ phase newPhase notes, state.threads[action.thread]? = some phase ∧
      Turn state.queue phase next.queue newPhase notes ∧
      next.history = state.history ++ notes.map (Event.mk action.thread) ∧
      (phase.notification = none ∧ next.threads = state.threads.set action.thread newPhase ∨
        ∃ condition breadth target,
          phase.notification = some (condition, breadth, newPhase, notes) ∧
          notify condition target (state.threads.set action.thread newPhase) breadth =
            some next.threads) := by
  cases action with
  | call thread request =>
      rw [step] at hStep
      cases hThread : state.threads[thread]? with
      | none =>
          rw [hThread] at hStep
          cases hStep
      | some phase =>
          rw [hThread] at hStep
          cases phase with
          | idle =>
              cases hStep
              exact ⟨.idle, _, _, hThread, begin_turn _ request, rfl, .inl ⟨rfl, rfl⟩⟩
          | _ => cases hStep
  | run thread timedOut =>
      obtain ⟨phase, hThread, hStep⟩ := Option.bind_eq_some_iff.mp hStep
      obtain ⟨⟨queue, newPhase, notes⟩, hCritical, hStep⟩ := Option.bind_eq_some_iff.mp hStep
      cases hStep
      have hTurn := critical_turn (hFits phase (List.mem_of_getElem? hThread)) hCritical
      exact ⟨phase, newPhase, notes, hThread, hTurn, rfl, .inl ⟨critical_quiet hCritical, rfl⟩⟩
  | notify thread target =>
      obtain ⟨phase, hThread, hStep⟩ := Option.bind_eq_some_iff.mp hStep
      obtain ⟨⟨condition, breadth, newPhase, notes⟩, hNotification, hStep⟩ :=
        Option.bind_eq_some_iff.mp hStep
      obtain ⟨threads, hNotify, hStep⟩ := Option.bind_eq_some_iff.mp hStep
      cases hStep
      exact ⟨phase, newPhase, notes, hThread, notification_turn _ hNotification, rfl,
        .inr ⟨condition, breadth, target, hNotification, hNotify⟩⟩
  | wake thread =>
      obtain ⟨phase, hThread, hStep⟩ := Option.bind_eq_some_iff.mp hStep
      by_cases hAsleep : phase.sleepsOn = none
      · rw [if_pos hAsleep] at hStep
        cases hStep
      · rw [if_neg hAsleep] at hStep
        cases hStep
        exact ⟨phase, phase.wake, [], hThread, .woken hAsleep, rfl, .inl ⟨asleep_quiet hAsleep, rfl⟩⟩

end LogBridge.BoundedBlockingQueue
