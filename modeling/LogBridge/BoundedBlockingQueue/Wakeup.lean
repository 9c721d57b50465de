import LogBridge.BoundedBlockingQueue.Safety

/-! Which waiters may be left asleep. While the queue is open, threads that are awake
or still owe a notification cover every free slot a producer could use, and every
element a consumer could take. The timed wait of `popBatch` breaks this for the
slots it has freed. -/
namespace LogBridge.BoundedBlockingQueue
variable {α : Type}

/-- A `popBatch` that takes elements and has to wait for more finds no push asleep. -/
def WaitsUnblocking (state : State α) (action : Action α) : Prop :=
  ∀ phase, state.threads[action.thread]? = some phase → ∀ size batch, Collects size phase batch →
    state.queue.queue ≠ [] → batch.length + state.queue.size < size.maxItems →
      ∀ other ∈ state.threads, other.sleepsOn ≠ some .notFull

/-! Counting threads. -/

/-- Asleep on the condition variable. -/
def Phase.blockedOn (condition : ConditionVariable) (phase : Phase α) : Bool :=
  phase.sleepsOn = some condition

/-- Will look at the queue on behalf of the waiters, or will let one of them do so. -/
def Phase.covers (condition : ConditionVariable) : Phase α → Bool
  | .push _ .awake => condition = .notFull
  | .popped _ => condition = .notFull
  | .pop .awake => condition = .notEmpty
  | .popBatch _ .awake => condition = .notEmpty
  | .fill _ _ .awake => condition = .notEmpty
  | .pushed _ => condition = .notEmpty
  | _ => false

/-- Is about to wake all producers. -/
def Phase.isFilled : Phase α → Bool
  | .filled _ _ => true
  | _ => false

/-- While a thread is asleep, everything that is available to it is covered. -/
def Covered (condition : ConditionVariable) (available : Nat) (threads : List (Phase α)) : Prop :=
  threads.countP (Phase.blockedOn condition) = 0 ∨ available ≤ threads.countP (Phase.covers condition)

theorem countP_set (holds : Phase α → Bool) (new : Phase α) {threads : List (Phase α)} {thread : Nat}
    {old : Phase α} (hThread : threads[thread]? = some old) :
    (threads.set thread new).countP holds + (holds old).toNat =
      threads.countP holds + (holds new).toNat := by
  induction threads generalizing thread with
  | nil => cases hThread
  | cons first rest ih =>
      cases thread with
      | zero =>
          cases hThread
          rw [List.set_cons_zero, List.countP_cons, List.countP_cons]
          cases holds old <;> cases holds new <;> simp
      | succ thread =>
          have hRest := ih hThread
          rw [List.set_cons_succ, List.countP_cons, List.countP_cons]
          omega

theorem countP_blockedOn_eq_zero_iff {condition : ConditionVariable} {threads : List (Phase α)} :
    threads.countP (Phase.blockedOn condition) = 0 ↔
      ∀ phase ∈ threads, phase.sleepsOn ≠ some condition := by
  simp [List.countP_eq_zero, Phase.blockedOn]

@[simp] theorem Phase.wake_blockedOn (phase : Phase α) (condition : ConditionVariable) :
    phase.wake.blockedOn condition = false := by
  cases phase <;> rfl

@[simp] theorem Phase.wake_isFilled (phase : Phase α) : phase.wake.isFilled = phase.isFilled := by
  cases phase <;> rfl

/-- Asleep, a thread covers nothing. Woken, it covers what its condition variable is about. -/
theorem wake_covers {phase : Phase α} {condition : ConditionVariable}
    (h : phase.sleepsOn = some condition) (other : ConditionVariable) :
    phase.covers other = false ∧ phase.wake.covers other = decide (other = condition) := by
  cases phase with
  | push value wait =>
      cases wait <;> cases h
      exact ⟨rfl, rfl⟩
  | pop wait =>
      cases wait <;> cases h
      exact ⟨rfl, rfl⟩
  | popBatch size wait =>
      cases wait <;> cases h
      exact ⟨rfl, rfl⟩
  | fill size batch wait =>
      cases wait <;> cases h
      exact ⟨rfl, rfl⟩
  | _ => cases h

/-! Notifications. -/

section Notify
variable {condition : ConditionVariable} {breadth : Breadth} {target thread : Nat}
  {threads woken : List (Phase α)} {phase next : Phase α} {notes : List (Note α)}

theorem notify_one (h : notify condition target threads .one = some woken) :
    threads.countP (Phase.blockedOn condition) = 0 ∧ woken = threads ∨
      ∃ sleeper, threads[target]? = some sleeper ∧ sleeper.sleepsOn = some condition ∧
        woken = threads.set target sleeper.wake := by
  rw [notify] at h
  split_ifs at h with hNobody
  · cases h
    exact .inl ⟨countP_blockedOn_eq_zero_iff.mpr hNobody, rfl⟩
  · obtain ⟨sleeper, hSleeper, h⟩ := Option.bind_eq_some_iff.mp h
    split_ifs at h with hSleeps
    cases h
    exact .inr ⟨sleeper, hSleeper, hSleeps, rfl⟩

theorem notify_all (h : notify condition target threads .all = some woken) :
    woken.countP (Phase.blockedOn condition) = 0 := by
  cases h
  rw [List.countP_eq_zero]
  intro phase hMem
  obtain ⟨before, _, rfl⟩ := List.mem_map.mp hMem
  split_ifs with hSleeps
  · simp
  · simpa [Phase.blockedOn] using hSleeps

/-- A notification does not change a count that its waiters do not change by waking. -/
theorem notify_countP (holds : Phase α → Bool)
    (h : notify condition target threads breadth = some woken)
    (hWake : ∀ phase : Phase α, phase.sleepsOn = some condition → holds phase.wake = holds phase) :
    woken.countP holds = threads.countP holds := by
  cases breadth with
  | all =>
      cases h
      rw [List.countP_map]
      refine List.countP_congr fun phase _ => ?_
      rw [Function.comp_apply]
      split_ifs with hSleeps
      · rw [hWake phase hSleeps]
      · rfl
  | one =>
      rcases notify_one h with ⟨_, rfl⟩ | ⟨sleeper, hSleeper, hSleeps, rfl⟩
      · rfl
      · have hSet := countP_set holds sleeper.wake hSleeper
        rw [hWake sleeper hSleeps] at hSet
        exact Nat.add_right_cancel hSet

/-- A thread that notifies covers a waiter until it has done so, if the notification
is for one, and nothing afterwards. -/
theorem notification_covers (h : phase.notification = some (condition, breadth, next, notes))
    (other : ConditionVariable) :
    phase.blockedOn other = false ∧ next.blockedOn other = false ∧ next.covers other = false ∧
      next.isFilled = false ∧ phase.covers other = decide (breadth = .one ∧ condition = other) ∧
      (phase.isFilled = true → condition = .notFull ∧ breadth = .all) := by
  cases phase with
  | pushed value =>
      cases h
      cases other <;> exact ⟨rfl, rfl, rfl, rfl, rfl, nofun⟩
  | popped value =>
      cases h
      cases other <;> exact ⟨rfl, rfl, rfl, rfl, rfl, nofun⟩
  | filled size batch =>
      cases h
      exact ⟨rfl, rfl, rfl, rfl, rfl, fun _ => ⟨rfl, rfl⟩⟩
  | closing first =>
      cases first <;> cases h <;> exact ⟨rfl, rfl, rfl, rfl, rfl, nofun⟩
  | _ => cases h

theorem Covered.notify {other : ConditionVariable} {available : Nat}
    (hThread : threads[thread]? = some phase)
    (hNotification : phase.notification = some (condition, breadth, next, notes))
    (hNotify : notify condition target (threads.set thread next) breadth = some woken)
    (h : Covered other available threads) : Covered other available woken := by
  obtain ⟨hAwake, hNextAwake, hNextCovers, _, hCovers, _⟩ := notification_covers hNotification other
  have hBlocked := countP_set (Phase.blockedOn other) next hThread
  have hCover := countP_set (Phase.covers other) next hThread
  rw [hAwake, hNextAwake] at hBlocked
  rw [hNextCovers, hCovers] at hCover
  by_cases hOther : condition = other
  · subst hOther
    cases breadth with
    | all => exact .inl (notify_all hNotify)
    | one =>
        rcases notify_one hNotify with ⟨hNobody, rfl⟩ | ⟨sleeper, hSleeper, hSleeps, rfl⟩
        · exact .inl hNobody
        · -- the sleeper takes over what the notification covered
          have hWoken := countP_set (Phase.blockedOn condition) sleeper.wake hSleeper
          have hTaken := countP_set (Phase.covers condition) sleeper.wake hSleeper
          obtain ⟨hAsleep, hWake⟩ := wake_covers hSleeps condition
          rw [sleeper.wake_blockedOn] at hWoken
          rw [hAsleep, hWake] at hTaken
          simp at hBlocked hCover hWoken hTaken
          rcases h with hNobody | hCovered
          · exact .inl (by omega)
          · exact .inr (by omega)
  · have hSameBlocked := notify_countP (Phase.blockedOn other) hNotify fun sleeper hSleeps => by
      rw [sleeper.wake_blockedOn]
      simp [Phase.blockedOn, hSleeps, hOther]
    have hSameCover := notify_countP (Phase.covers other) hNotify fun sleeper hSleeps => by
      obtain ⟨hAsleep, hWake⟩ := wake_covers hSleeps other
      rw [hAsleep, hWake]
      exact decide_eq_false (Ne.symm hOther)
    simp [hOther] at hBlocked hCover
    rwa [Covered, hSameBlocked, hSameCover, hBlocked, hCover]

end Notify

/-! Turns. -/

section Turn
variable {queue newQueue : BoundedBlockingQueue α} {threads : List (Phase α)} {thread : Nat}
  {phase next : Phase α} {notes : List (Note α)}

/-- A thread that notifies does not touch the queue. -/
theorem Turn.queue_eq (hTurn : Turn queue phase newQueue next notes)
    (hNotification : phase.notification ≠ none) : newQueue = queue := by
  cases hTurn with
  | accept => exact absurd rfl hNotification
  | take => exact absurd rfl hNotification
  | sleepFill hCollects => cases hCollects <;> exact absurd rfl hNotification
  | fill hCollects => cases hCollects <;> exact absurd rfl hNotification
  | close => exact absurd rfl hNotification
  | _ => rfl

/-- A turn that makes no notification takes at least the element it covered, and puts
nobody to sleep but at an empty queue. -/
theorem Turn.consumers (hTurn : Turn queue phase newQueue next notes)
    (hQuiet : phase.notification = none) :
    newQueue.size = 0 ∨
      (next.blockedOn .notEmpty).toNat ≤ (phase.blockedOn .notEmpty).toNat ∧
        newQueue.size + (phase.covers .notEmpty).toNat ≤ queue.size + (next.covers .notEmpty).toNat := by
  cases hTurn with
  | noneLeft hEmpty => exact .inl (by simp [size, hEmpty])
  | noBatchLeft hEmpty => exact .inl (by simp [size, hEmpty])
  | sleepEmpty hEmpty => exact .inl (by simp [size, hEmpty])
  | sleepFirst hEmpty => exact .inl (by simp [size, hEmpty])
  | sleepAgain hEmpty => exact .inl (by simp [size, hEmpty])
  | giveUp hEmpty => exact .inl (by simp [size, hEmpty])
  | sleepFill => exact .inl rfl
  | accept => exact .inr ⟨Nat.le_refl _, by simp [size, Phase.covers]⟩
  | take hQueue => exact .inr ⟨Nat.le_refl _, by simp [size, hQueue, Phase.covers]⟩
  | fill hCollects hQueue hTaken =>
      have hSome := List.length_pos_iff.mpr hTaken
      refine .inr ⟨Nat.zero_le _, ?_⟩
      cases hCollects <;> simp [size, hQueue, Phase.covers] <;> omega
  | woken hAsleep =>
      obtain ⟨condition, hSleeps⟩ := Option.ne_none_iff_exists'.mp hAsleep
      rw [phase.wake_blockedOn, (wake_covers hSleeps _).1]
      exact .inr ⟨Nat.zero_le _, Nat.le_add_right _ _⟩
  | pushed => cases hQuiet
  | popped => cases hQuiet
  | filled => cases hQuiet
  | closing => cases hQuiet
  | closed => cases hQuiet
  | close => exact .inr ⟨Nat.le_refl _, Nat.le_refl _⟩
  | _ => exact .inr ⟨by simp [Phase.blockedOn, Phase.sleepsOn], by simp [Phase.covers]⟩

/-- The same for slots. A push sleeps only at a full queue, and a freed slot is covered,
except where `popBatch` takes elements and sleeps. -/
theorem Turn.producers (hTurn : Turn queue phase newQueue next notes)
    (hQuiet : phase.notification = none) (hOpen : newQueue.closed = false) :
    newQueue.capacity ≤ newQueue.size ∨ next.isFilled = true ∨
      (∃ size batch, Collects size phase batch ∧ queue.queue ≠ [] ∧
        batch.length + queue.size < size.maxItems ∧ next.blockedOn .notFull = false) ∨
      (next.blockedOn .notFull).toNat ≤ (phase.blockedOn .notFull).toNat ∧
        phase.isFilled.toNat ≤ next.isFilled.toNat ∧
        queue.size + (phase.covers .notFull).toNat ≤ newQueue.size + (next.covers .notFull).toNat := by
  cases hTurn with
  | close => cases hOpen
  | refuse hClosed => exact absurd (hOpen.symm.trans hClosed) Bool.false_ne_true
  | sleepFull hFull => exact .inl hFull
  | fill => exact .inr (.inl rfl)
  | giveUp => exact .inr (.inl rfl)
  | sleepFill hCollects hQueue hTaken hLess =>
      rw [List.length_append, ← hQueue] at hLess
      exact .inr (.inr (.inl ⟨_, _, hCollects, hQueue ▸ hTaken, hLess, rfl⟩))
  | accept =>
      refine .inr (.inr (.inr ⟨Nat.le_refl _, Nat.le_refl _, ?_⟩))
      simp [size, Phase.covers]
  | take hQueue =>
      refine .inr (.inr (.inr ⟨Nat.le_refl _, Nat.le_refl _, ?_⟩))
      simp [size, hQueue, Phase.covers]
  | woken hAsleep =>
      obtain ⟨condition, hSleeps⟩ := Option.ne_none_iff_exists'.mp hAsleep
      rw [phase.wake_blockedOn, phase.wake_isFilled, (wake_covers hSleeps _).1]
      exact .inr (.inr (.inr ⟨Nat.zero_le _, Nat.le_refl _, Nat.le_add_right _ _⟩))
  | pushed => cases hQuiet
  | popped => cases hQuiet
  | filled => cases hQuiet
  | closing => cases hQuiet
  | closed => cases hQuiet
  | _ =>
      refine .inr (.inr (.inr ⟨?_, Nat.le_refl _, ?_⟩))
      · simp [Phase.blockedOn, Phase.sleepsOn]
      · simp [Phase.covers]

theorem covered_turn_consumers (hTurn : Turn queue phase newQueue next notes)
    (hThread : threads[thread]? = some phase) (hQuiet : phase.notification = none)
    (h : Covered .notEmpty queue.size threads) :
    Covered .notEmpty newQueue.size (threads.set thread next) := by
  have hBlocked := countP_set (Phase.blockedOn .notEmpty) next hThread
  have hCover := countP_set (Phase.covers .notEmpty) next hThread
  rcases hTurn.consumers hQuiet with hEmpty | ⟨hSleeps, hTakes⟩
  · exact .inr (hEmpty ▸ Nat.zero_le _)
  · rcases h with hNobody | hCovered
    · exact .inl (by omega)
    · exact .inr (by omega)

/-- All producers are about to be woken, or the free slots are covered. -/
def SlotsCovered (queue : BoundedBlockingQueue α) (threads : List (Phase α)) : Prop :=
  0 < threads.countP Phase.isFilled ∨ Covered .notFull (queue.capacity - queue.size) threads

theorem SlotsCovered.turn (hTurn : Turn queue phase newQueue next notes)
    (hThread : threads[thread]? = some phase) (hQuiet : phase.notification = none)
    (hOpen : newQueue.closed = false)
    (hUnblocking : ∀ size batch, Collects size phase batch → queue.queue ≠ [] →
      batch.length + queue.size < size.maxItems → threads.countP (Phase.blockedOn .notFull) = 0)
    (h : SlotsCovered queue threads) : SlotsCovered newQueue (threads.set thread next) := by
  have hBlocked := countP_set (Phase.blockedOn .notFull) next hThread
  have hFilled := countP_set Phase.isFilled next hThread
  have hCover := countP_set (Phase.covers .notFull) next hThread
  have hCapacity := hTurn.capacity_eq
  rcases hTurn.producers hQuiet hOpen with hFull | hNext |
    ⟨size, batch, hCollects, hSome, hLess, hAwake⟩ | ⟨hSleeps, hFills, hTakes⟩
  · exact .inr (.inr (by omega))
  · refine .inl (List.countP_pos_iff.mpr ⟨next, ?_, hNext⟩)
    exact List.mem_set (List.getElem?_eq_some_iff.mp hThread).1 next
  · have hNobody := hUnblocking size batch hCollects hSome hLess
    rw [hAwake] at hBlocked
    exact .inr (.inl (by simp at hBlocked; omega))
  · rcases h with hAll | hNobody | hCovered
    · exact .inl (by omega)
    · exact .inr (.inl (by omega))
    · exact .inr (.inr (by omega))

theorem SlotsCovered.notify {condition : ConditionVariable} {breadth : Breadth} {target : Nat}
    {woken : List (Phase α)} (hThread : threads[thread]? = some phase)
    (hNotification : phase.notification = some (condition, breadth, next, notes))
    (hNotify : notify condition target (threads.set thread next) breadth = some woken)
    (h : SlotsCovered queue threads) : SlotsCovered queue woken := by
  obtain ⟨_, _, _, hNext, _, hFilled⟩ := notification_covers hNotification .notFull
  by_cases hAll : phase.isFilled = true
  · obtain ⟨rfl, rfl⟩ := hFilled hAll
    exact .inr (.inl (notify_all hNotify))
  · rcases h with hOther | hCovered
    · -- another thread is about to wake them
      have hSet := countP_set Phase.isFilled next hThread
      have hWoken := notify_countP Phase.isFilled hNotify fun sleeper _ => sleeper.wake_isFilled
      rw [hNext, Bool.eq_false_iff.mpr hAll] at hSet
      exact .inl (by simp at hSet; omega)
    · exact .inr (hCovered.notify hThread hNotification hNotify)

end Turn

/-! Runs. -/

/-- The invariant of an open queue. -/
structure AllCovered (state : State α) : Prop where
  consumers : Covered .notEmpty state.queue.size state.threads
  producers : SlotsCovered state.queue state.threads

theorem AllCovered.start {capacity threads : Nat} {state : State α}
    (hStart : start capacity threads = .ok state) : AllCovered state := by
  obtain ⟨queue, hConstruct, hState⟩ := Checked.bind_eq_ok_iff.mp hStart
  cases hState
  have hIdle : ∀ condition, (List.replicate threads (Phase.idle : Phase α)).countP
      (Phase.blockedOn condition) = 0 := by
    intro condition
    rw [List.countP_replicate]
    rfl
  exact ⟨.inl (hIdle _), .inr (.inl (hIdle _))⟩

theorem AllCovered.step {state next : State α} {action : Action α}
    (h : AllCovered state) (hFits : ∀ phase ∈ state.threads, phase.Fits)
    (hMeets : WaitsUnblocking state action) (hOpen : next.queue.closed = false)
    (hStep : step state action = some next) : AllCovered next := by
  obtain ⟨phase, newPhase, notes, hThread, hTurn, _, ⟨hQuiet, hThreads⟩ |
    ⟨condition, breadth, target, hNotification, hNotify⟩⟩ := step_cases hFits hStep
  · constructor
    · rw [hThreads]
      exact covered_turn_consumers hTurn hThread hQuiet h.consumers
    · rw [hThreads]
      refine h.producers.turn hTurn hThread hQuiet hOpen ?_
      intro size batch hCollects hSome hLess
      exact countP_blockedOn_eq_zero_iff.mpr (hMeets phase hThread size batch hCollects hSome hLess)
  · have hQueue := hTurn.queue_eq (by simp [hNotification])
    constructor
    · rw [hQueue]
      exact h.consumers.notify hThread hNotification hNotify
    · rw [hQueue]
      exact h.producers.notify hThread hNotification hNotify

end LogBridge.BoundedBlockingQueue
