import LogBridge.BoundedBlockingQueue.Wakeup
import LogBridge.Library.Progress

/-! The queue after `close`. Every call that is under way and every later one returns
after a bounded number of turns of its thread, and no thread depends on a spurious
wakeup or on a timeout: a thread that is still asleep is about to be woken by the
thread that closed the queue. -/
namespace LogBridge.BoundedBlockingQueue
variable {α : Type}

/-- An upper bound on the turns of a call in a closed queue. -/
def Phase.turnsLeft : Phase α → Nat
  | .idle => 0
  | .push _ .awake | .pop .awake | .popBatch _ .awake | .fill _ _ .awake => 2
  | .push _ .asleep | .pop .asleep | .popBatch _ .asleep | .fill _ _ .asleep => 3
  | .pushed _ | .popped _ | .filled _ _ | .close | .closing .notFull => 1
  | .closing .notEmpty => 2

def turnsLeft : List (Phase α) → Nat
  | [] => 0
  | phase :: rest => phase.turnsLeft + turnsLeft rest

/-- Is about to notify all waiters on the condition variable, as its next step or as
the one after it. -/
def Phase.closes (condition : ConditionVariable) : Phase α → Bool
  | .closing .notEmpty => true
  | .closing .notFull => condition = .notFull
  | _ => false

theorem turnsLeft_set {threads : List (Phase α)} {thread : Nat} {old : Phase α} (new : Phase α)
    (hThread : threads[thread]? = some old) :
    turnsLeft (threads.set thread new) + old.turnsLeft = turnsLeft threads + new.turnsLeft := by
  induction threads generalizing thread with
  | nil => cases hThread
  | cons first rest ih =>
      cases thread with
      | zero =>
          cases hThread
          rw [List.set_cons_zero, turnsLeft, turnsLeft]
          omega
      | succ thread =>
          have hRest := ih hThread
          rw [List.set_cons_succ, turnsLeft, turnsLeft]
          omega

theorem turnsLeft_le (threads : List (Phase α)) : turnsLeft threads ≤ 3 * threads.length := by
  induction threads with
  | nil => exact Nat.le_refl _
  | cons phase rest ih =>
      have hPhase : phase.turnsLeft ≤ 3 := by
        unfold Phase.turnsLeft
        split <;> omega
      rw [turnsLeft, List.length_cons]
      omega

/-- The loop of `popBatch` does not wait in a closed queue. -/
theorem fillBatch_closed (size : BatchSize) (batch items : List α) :
    ∃ rest taken notes, fillBatch size true batch items = (rest, .filled size taken, notes) := by
  induction items generalizing batch with
  | nil =>
      rw [fillBatch, if_neg (by simp)]
      exact ⟨_, _, _, rfl⟩
  | cons value rest ih =>
      rw [fillBatch]
      split_ifs
      · obtain ⟨left, taken, notes, hFill⟩ := ih (batch ++ [value])
        rw [hFill]
        exact ⟨_, _, _, rfl⟩
      · exact ⟨_, _, _, rfl⟩

/-- In a closed queue a thread that has the mutex does not go to sleep. -/
theorem critical_closed {queue newQueue : BoundedBlockingQueue α} {timedOut : Bool}
    {phase next : Phase α} {notes : List (Note α)} (hClosed : queue.closed = true)
    (h : queue.critical timedOut phase = some (newQueue, next, notes)) :
    newQueue.closed = true ∧ next.sleepsOn = none ∧ next.turnsLeft < phase.turnsLeft := by
  cases phase with
  | push value wait =>
      cases wait with
      | asleep => cases h
      | awake =>
          rw [critical, if_pos (.inr hClosed), if_pos hClosed] at h
          cases h
          exact ⟨hClosed, rfl, Nat.zero_lt_succ _⟩
  | pop wait =>
      cases wait with
      | asleep => cases h
      | awake =>
          rw [critical] at h
          cases hQueue : queue.queue with
          | nil =>
              simp only [hQueue, if_pos hClosed] at h
              cases h
              exact ⟨hClosed, rfl, Nat.zero_lt_succ _⟩
          | cons value rest =>
              simp only [hQueue] at h
              cases h
              exact ⟨hClosed, rfl, Nat.lt_succ_self _⟩
  | popBatch size wait =>
      cases wait with
      | asleep => cases h
      | awake =>
          rw [critical] at h
          cases hQueue : queue.queue with
          | nil =>
              simp only [hQueue, if_pos hClosed] at h
              cases h
              exact ⟨hClosed, rfl, Nat.zero_lt_succ _⟩
          | cons value rest =>
              obtain ⟨items, taken, filled, hFill⟩ := fillBatch_closed size [value] rest
              simp only [hQueue, hClosed, hFill] at h
              cases h
              exact ⟨rfl, rfl, Nat.lt_succ_self _⟩
  | fill size batch wait =>
      cases wait with
      | asleep => cases h
      | awake =>
          obtain ⟨items, taken, filled, hFill⟩ := fillBatch_closed size batch queue.queue
          rw [critical, if_pos (.inr hClosed), hClosed] at h
          simp only [hFill] at h
          cases h
          exact ⟨rfl, rfl, Nat.lt_succ_self _⟩
  | close =>
      rw [critical, if_pos hClosed] at h
      cases h
      exact ⟨hClosed, rfl, Nat.zero_lt_succ _⟩
  | idle => cases h
  | pushed value => cases h
  | popped value => cases h
  | filled size batch => cases h
  | closing condition => cases h

/-! Notifications bring the number of turns down as well. -/

theorem wake_turnsLeft (phase : Phase α) : phase.wake.turnsLeft ≤ phase.turnsLeft := by
  cases phase with
  | push value wait => cases wait <;> simp [Phase.wake, Phase.turnsLeft]
  | pop wait => cases wait <;> simp [Phase.wake, Phase.turnsLeft]
  | popBatch size wait => cases wait <;> simp [Phase.wake, Phase.turnsLeft]
  | fill size batch wait => cases wait <;> simp [Phase.wake, Phase.turnsLeft]
  | _ => exact Nat.le_refl _

theorem wake_turnsLeft_lt {phase : Phase α} (hAsleep : phase.sleepsOn ≠ none) :
    phase.wake.turnsLeft < phase.turnsLeft := by
  cases phase with
  | push value wait => cases wait <;> simp_all [Phase.wake, Phase.turnsLeft, Phase.sleepsOn]
  | pop wait => cases wait <;> simp_all [Phase.wake, Phase.turnsLeft, Phase.sleepsOn]
  | popBatch size wait => cases wait <;> simp_all [Phase.wake, Phase.turnsLeft, Phase.sleepsOn]
  | fill size batch wait => cases wait <;> simp_all [Phase.wake, Phase.turnsLeft, Phase.sleepsOn]
  | _ => exact absurd rfl hAsleep

theorem turnsLeft_map_le (woken : Phase α → Phase α) (threads : List (Phase α))
    (h : ∀ phase, (woken phase).turnsLeft ≤ phase.turnsLeft) :
    turnsLeft (threads.map woken) ≤ turnsLeft threads := by
  induction threads with
  | nil => exact Nat.le_refl _
  | cons phase rest ih =>
      rw [List.map_cons, turnsLeft, turnsLeft]
      exact Nat.add_le_add (h phase) ih

theorem notify_turnsLeft {condition : ConditionVariable} {breadth : Breadth} {target : Nat}
    {threads woken : List (Phase α)} (h : notify condition target threads breadth = some woken) :
    turnsLeft woken ≤ turnsLeft threads := by
  cases breadth with
  | all =>
      cases h
      apply turnsLeft_map_le
      intro phase
      split_ifs
      · exact wake_turnsLeft phase
      · exact Nat.le_refl _
  | one =>
      rcases notify_one h with ⟨_, rfl⟩ | ⟨sleeper, hSleeper, _, rfl⟩
      · exact Nat.le_refl _
      · have hSet := turnsLeft_set sleeper.wake hSleeper
        have hWake := wake_turnsLeft sleeper
        omega

/-- A notification is one turn. -/
theorem notification_turnsLeft {phase next : Phase α} {condition : ConditionVariable}
    {breadth : Breadth} {notes : List (Note α)}
    (h : phase.notification = some (condition, breadth, next, notes)) :
    next.turnsLeft < phase.turnsLeft ∧ next.sleepsOn = none := by
  cases phase with
  | pushed value => cases h; exact ⟨Nat.zero_lt_succ _, rfl⟩
  | popped value => cases h; exact ⟨Nat.zero_lt_succ _, rfl⟩
  | filled size batch => cases h; exact ⟨Nat.zero_lt_succ _, rfl⟩
  | closing first =>
      cases first with
      | notEmpty => cases h; exact ⟨Nat.lt_succ_self _, rfl⟩
      | notFull => cases h; exact ⟨Nat.zero_lt_succ _, rfl⟩
  | _ => cases h

def Action.isCall : Action α → Bool
  | .call _ _ => true
  | _ => false

/-- A step in a closed queue is one turn less, and a new call adds at most two. -/
theorem step_turnsLeft {state next : State α} {action : Action α} (hClosed : state.queue.closed = true)
    (hStep : step state action = some next) :
    next.queue.closed = true ∧
      turnsLeft next.threads + (if !action.isCall then 1 else 0) ≤
        turnsLeft state.threads + (if action.isCall then 2 else 0) := by
  cases action with
  | call thread request =>
      rw [step] at hStep
      split at hStep
      · next hThread =>
          cases hStep
          have hSet := turnsLeft_set (begin request).1 hThread
          have hBegin : (begin request).1.turnsLeft ≤ 2 := by
            cases request with
            | popBatch maxItems maxWait =>
                rw [begin]
                split
                · exact Nat.zero_le _
                · exact Nat.le_refl _
            | push value => exact Nat.le_refl _
            | pop => exact Nat.le_refl _
            | close => exact Nat.le_succ _
          refine ⟨hClosed, ?_⟩
          change turnsLeft (state.threads.set thread _) + 0 ≤ turnsLeft state.threads + 2
          rw [Phase.turnsLeft] at hSet
          omega
      · cases hStep
  | run thread timedOut =>
      obtain ⟨phase, hThread, hStep⟩ := Option.bind_eq_some_iff.mp hStep
      obtain ⟨⟨queue, newPhase, notes⟩, hCritical, hStep⟩ := Option.bind_eq_some_iff.mp hStep
      cases hStep
      obtain ⟨hNext, _, hLess⟩ := critical_closed hClosed hCritical
      have hSet := turnsLeft_set newPhase hThread
      refine ⟨hNext, ?_⟩
      change turnsLeft (state.threads.set thread newPhase) + 1 ≤ turnsLeft state.threads + 0
      omega
  | notify thread target =>
      obtain ⟨phase, hThread, hStep⟩ := Option.bind_eq_some_iff.mp hStep
      obtain ⟨⟨condition, breadth, newPhase, notes⟩, hNotification, hStep⟩ :=
        Option.bind_eq_some_iff.mp hStep
      obtain ⟨threads, hNotify, hStep⟩ := Option.bind_eq_some_iff.mp hStep
      cases hStep
      have hSet := turnsLeft_set newPhase hThread
      have hLess := (notification_turnsLeft hNotification).1
      have hWoken := notify_turnsLeft hNotify
      refine ⟨hClosed, ?_⟩
      change turnsLeft threads + 1 ≤ turnsLeft state.threads + 0
      omega
  | wake thread =>
      obtain ⟨phase, hThread, hStep⟩ := Option.bind_eq_some_iff.mp hStep
      split_ifs at hStep with hAsleep
      cases hStep
      have hSet := turnsLeft_set phase.wake hThread
      have hLess := wake_turnsLeft_lt hAsleep
      refine ⟨hClosed, ?_⟩
      change turnsLeft (state.threads.set thread phase.wake) + 1 ≤ turnsLeft state.threads + 0
      omega

/-! Nobody is forgotten by `close`. -/

/-- If a thread waits on the condition variable, its waiters are about to be woken. -/
def Woken (condition : ConditionVariable) (threads : List (Phase α)) : Prop :=
  threads.countP (Phase.blockedOn condition) = 0 ∨ 0 < threads.countP (Phase.closes condition)

theorem Woken.of_counts {condition : ConditionVariable} {threads others : List (Phase α)}
    (h : Woken condition threads)
    (hBlocked : others.countP (Phase.blockedOn condition) ≤ threads.countP (Phase.blockedOn condition))
    (hCloses : threads.countP (Phase.closes condition) ≤ others.countP (Phase.closes condition)) :
    Woken condition others := by
  rcases h with hNobody | hSoon
  · exact .inl (Nat.le_zero.mp (hNobody ▸ hBlocked))
  · exact .inr (Nat.lt_of_lt_of_le hSoon hCloses)

/-- A thread takes a turn in which it does not fall asleep. -/
theorem Woken.set {condition : ConditionVariable} {threads : List (Phase α)} {thread : Nat}
    {phase : Phase α} (next : Phase α) (h : Woken condition threads)
    (hThread : threads[thread]? = some phase) (hAwake : next.sleepsOn = none)
    (hCloses : phase.closes condition = true → next.closes condition = true) :
    Woken condition (threads.set thread next) := by
  have hBlocked := countP_set (Phase.blockedOn condition) next hThread
  have hClosing := countP_set (Phase.closes condition) next hThread
  have hNext : next.blockedOn condition = false := by simp [Phase.blockedOn, hAwake]
  have hLe : (phase.closes condition).toNat ≤ (next.closes condition).toNat := by
    cases hPhase : phase.closes condition with
    | false => exact Nat.zero_le _
    | true => exact Nat.le_of_eq (by rw [hCloses hPhase])
  rw [hNext] at hBlocked
  refine h.of_counts ?_ ?_
  · rw [Bool.toNat_false] at hBlocked
    omega
  · omega

@[simp] theorem Phase.wake_closes (phase : Phase α) (condition : ConditionVariable) :
    phase.wake.closes condition = phase.closes condition := by
  cases phase <;> rfl

theorem closes_of_quiet {phase : Phase α} (h : phase.notification = none) (condition : ConditionVariable) :
    phase.closes condition = false := by
  cases phase with
  | closing next => cases next <;> cases h
  | _ => rfl

theorem wake_sleepsOn (phase : Phase α) : phase.wake.sleepsOn = none := by
  cases phase <;> rfl

/-- The notification reaches all waiters, or it is not the one that was due. -/
theorem notification_closes {phase next : Phase α} {condition : ConditionVariable} {breadth : Breadth}
    {notes : List (Note α)} (h : phase.notification = some (condition, breadth, next, notes))
    (other : ConditionVariable) : condition = other ∧ breadth = .all ∨
      (phase.closes other = true → next.closes other = true) := by
  cases phase with
  | closing first =>
      cases first with
      | notEmpty =>
          cases h
          cases other with
          | notEmpty => exact .inl ⟨rfl, rfl⟩
          | notFull => exact .inr fun _ => rfl
      | notFull =>
          cases h
          cases other with
          | notEmpty => exact .inr nofun
          | notFull => exact .inl ⟨rfl, rfl⟩
  | pushed value => exact .inr nofun
  | popped value => exact .inr nofun
  | filled size batch => exact .inr nofun
  | _ => cases h

theorem Woken.notify {condition other : ConditionVariable} {breadth : Breadth} {target : Nat}
    {threads woken : List (Phase α)} (h : Woken other threads)
    (hNotify : notify condition target threads breadth = some woken) : Woken other woken := by
  have hCloses := notify_countP (Phase.closes other) hNotify fun phase _ => phase.wake_closes other
  refine h.of_counts ?_ (Nat.le_of_eq hCloses.symm)
  by_cases hSame : condition = other
  · subst hSame
    cases breadth with
    | all =>
        rw [notify_all hNotify]
        exact Nat.zero_le _
    | one =>
        rcases notify_one hNotify with ⟨_, rfl⟩ | ⟨sleeper, hSleeper, _, rfl⟩
        · exact Nat.le_refl _
        · have hSet := countP_set (Phase.blockedOn condition) sleeper.wake hSleeper
          rw [sleeper.wake_blockedOn] at hSet
          simp at hSet
          omega
  · refine Nat.le_of_eq (notify_countP (Phase.blockedOn other) hNotify fun phase hSleeps => ?_)
    rw [phase.wake_blockedOn]
    simp [Phase.blockedOn, hSleeps, hSame]

/-- The invariant: a closed queue leaves nobody asleep. -/
def CloseCovers (state : State α) : Prop :=
  state.queue.closed = true → ∀ condition, Woken condition state.threads

/-- The turn that closes the queue. -/
theorem Turn.closing_of_closed {queue newQueue : BoundedBlockingQueue α} {phase next : Phase α}
    {notes : List (Note α)} (hTurn : Turn queue phase newQueue next notes)
    (hOpen : queue.closed = false) (hClosed : newQueue.closed = true) : next = .closing .notEmpty := by
  cases hTurn with
  | close => rfl
  | _ => exact absurd (hOpen.symm.trans hClosed) Bool.false_ne_true

theorem CloseCovers.step {state next : State α} {action : Action α} (h : CloseCovers state)
    (hFits : ∀ phase ∈ state.threads, phase.Fits) (hStep : step state action = some next) :
    CloseCovers next := by
  intro hClosed condition
  cases action with
  | call thread request =>
      rw [BoundedBlockingQueue.step] at hStep
      split at hStep
      · next hThread =>
          cases hStep
          refine (h hClosed condition).set (begin request).1 hThread ?_ (fun hCloses => by cases hCloses)
          cases request with
          | popBatch maxItems maxWait =>
              rw [begin]
              split
              · rfl
              · rfl
          | _ => rfl
      · cases hStep
  | run thread timedOut =>
      obtain ⟨phase, hThread, hStep⟩ := Option.bind_eq_some_iff.mp hStep
      obtain ⟨⟨queue, newPhase, notes⟩, hCritical, hStep⟩ := Option.bind_eq_some_iff.mp hStep
      cases hStep
      cases hBefore : state.queue.closed with
      | true =>
          refine (h hBefore condition).set newPhase hThread (critical_closed hBefore hCritical).2.1 ?_
          rw [closes_of_quiet (critical_quiet hCritical)]
          intro hCloses
          cases hCloses
      | false =>
          -- this turn has closed the queue
          have hTurn := critical_turn (hFits phase (List.mem_of_getElem? hThread)) hCritical
          obtain rfl := hTurn.closing_of_closed hBefore hClosed
          refine .inr (List.countP_pos_iff.mpr ⟨.closing .notEmpty, ?_, rfl⟩)
          exact List.mem_set (List.getElem?_eq_some_iff.mp hThread).1 _
  | notify thread target =>
      obtain ⟨phase, hThread, hStep⟩ := Option.bind_eq_some_iff.mp hStep
      obtain ⟨⟨notified, breadth, newPhase, notes⟩, hNotification, hStep⟩ :=
        Option.bind_eq_some_iff.mp hStep
      obtain ⟨threads, hNotify, hStep⟩ := Option.bind_eq_some_iff.mp hStep
      cases hStep
      rcases notification_closes hNotification condition with ⟨rfl, rfl⟩ | hDue
      · exact .inl (notify_all hNotify)
      · exact ((h hClosed condition).set newPhase hThread
          (notification_turnsLeft hNotification).2 hDue).notify hNotify
  | wake thread =>
      obtain ⟨phase, hThread, hStep⟩ := Option.bind_eq_some_iff.mp hStep
      split_ifs at hStep with hAsleep
      cases hStep
      refine (h hClosed condition).set phase.wake hThread (wake_sleepsOn phase) ?_
      rw [phase.wake_closes]
      exact id

/-! Some thread can go on. -/

/-- A notification can be made: there is a waiter to wake, or nobody waits. -/
theorem exists_notify (condition : ConditionVariable) (breadth : Breadth) (threads : List (Phase α)) :
    ∃ target woken, notify condition target threads breadth = some woken := by
  cases breadth with
  | all => exact ⟨0, _, rfl⟩
  | one =>
      by_cases hNobody : ∀ phase ∈ threads, phase.sleepsOn ≠ some condition
      · exact ⟨0, threads, if_pos hNobody⟩
      · push Not at hNobody
        obtain ⟨phase, hMem, hSleeps⟩ := hNobody
        obtain ⟨target, hTarget⟩ := List.getElem?_of_mem hMem
        refine ⟨target, threads.set target phase.wake, ?_⟩
        rw [notify, if_neg (fun h => h phase hMem hSleeps), hTarget]
        exact if_pos hSleeps

/-- A turn that needs neither a timeout nor a spurious wakeup. -/
def Action.isPrompt : Action α → Prop
  | .run _ timedOut => timedOut = false
  | .notify _ _ => True
  | _ => False

/-- Some thread can take such a turn. -/
def Goes (state : State α) : Prop := ∃ action next, action.isPrompt ∧ step state action = some next

theorem goes_of_notification {state : State α} {thread : Nat} {phase : Phase α}
    (hThread : state.threads[thread]? = some phase) (h : phase.notification ≠ none) : Goes state := by
  obtain ⟨⟨condition, breadth, next, notes⟩, hNotification⟩ := Option.ne_none_iff_exists'.mp h
  obtain ⟨target, woken, hNotify⟩ := exists_notify condition breadth (state.threads.set thread next)
  refine ⟨.notify thread target, { state.move thread next notes with threads := woken }, trivial, ?_⟩
  rw [step, hThread, Option.bind_eq_bind, Option.bind_some, hNotification, Option.bind_eq_bind,
    Option.bind_some]
  dsimp only
  rw [hNotify]
  rfl

/-- A thread that wants the mutex of a closed queue has a turn. -/
theorem critical_isSome {queue : BoundedBlockingQueue α} {phase : Phase α} (hClosed : queue.closed = true)
    (hCalls : phase ≠ .idle) (hAwake : phase.sleepsOn = none) (hQuiet : phase.notification = none) :
    (queue.critical false phase).isSome := by
  cases phase with
  | idle => exact absurd rfl hCalls
  | push value wait =>
      cases wait with
      | asleep => cases hAwake
      | awake => rw [critical, if_pos (.inr hClosed), if_pos hClosed]; rfl
  | pop wait =>
      cases wait with
      | asleep => cases hAwake
      | awake =>
          rw [critical]
          cases hQueue : queue.queue <;> simp [hClosed]
  | popBatch size wait =>
      cases wait with
      | asleep => cases hAwake
      | awake =>
          rw [critical]
          cases hQueue : queue.queue <;> simp [hClosed]
  | fill size batch wait =>
      cases wait with
      | asleep => cases hAwake
      | awake => rw [critical, if_pos (.inr hClosed)]; rfl
  | close => rw [critical, if_pos hClosed]; rfl
  | pushed value => cases hQuiet
  | popped value => cases hQuiet
  | filled size batch => cases hQuiet
  | closing next => cases next <;> cases hQuiet

theorem CloseCovers.goes {state : State α} (h : CloseCovers state) (hClosed : state.queue.closed = true)
    (hCalls : ∃ phase ∈ state.threads, phase ≠ .idle) : Goes state := by
  obtain ⟨phase, hMem, hBusy⟩ := hCalls
  obtain ⟨thread, hThread⟩ := List.getElem?_of_mem hMem
  by_cases hQuiet : phase.notification = none
  · cases hSleeps : phase.sleepsOn with
    | some condition =>
        -- the thread that closed the queue still has to notify
        rcases h hClosed condition with hNobody | hSoon
        · exact absurd hSleeps (countP_blockedOn_eq_zero_iff.mp hNobody phase hMem)
        · obtain ⟨closer, hCloser, hCloses⟩ := List.countP_pos_iff.mp hSoon
          obtain ⟨other, hOther⟩ := List.getElem?_of_mem hCloser
          refine goes_of_notification hOther ?_
          intro hNone
          rw [closes_of_quiet hNone] at hCloses
          cases hCloses
    | none =>
        obtain ⟨⟨queue, next, notes⟩, hCritical⟩ :=
          Option.isSome_iff_exists.mp (critical_isSome hClosed hBusy hSleeps hQuiet)
        refine ⟨.run thread false, { state.move thread next notes with queue }, rfl, ?_⟩
        rw [BoundedBlockingQueue.step, hThread, Option.bind_eq_bind, Option.bind_some, hCritical]
        rfl
  · exact goes_of_notification hThread hQuiet

/-! Runs. -/

/-- What is certain of a closed queue. -/
structure Releases (state : State α) : Prop where
  /-- Each turn brings a call closer to its return, and a new call needs two turns at most. -/
  bounded : ∀ actions next, Runs.run step state actions = some next →
    actions.countP (fun action => !action.isCall) + turnsLeft next.threads ≤
      3 * state.threads.length + 2 * actions.countP Action.isCall
  /-- As long as a call has not returned, some thread can go on. -/
  alive : ∀ actions next, Runs.run step state actions = some next →
    (∃ phase ∈ next.threads, phase ≠ .idle) → Goes next
  /-- All calls can return, without a timeout or a spurious wakeup. -/
  returns : ∃ actions finish, (∀ action ∈ actions, action.isPrompt) ∧
    Runs.run step state actions = some finish ∧ (∀ phase ∈ finish.threads, phase = .idle) ∧
    actions.length ≤ 3 * state.threads.length

/-- The invariant of a closed queue. -/
structure Closed (capacity : Nat) (state : State α) : Prop where
  consistent : Consistent capacity state
  covers : CloseCovers state
  closed : state.queue.closed = true

theorem Closed.step {capacity : Nat} {state next : State α} {action : Action α}
    (h : Closed capacity state) (hStep : step state action = some next) : Closed capacity next where
  consistent := h.consistent.step hStep
  covers := h.covers.step h.consistent.fits hStep
  closed := (step_turnsLeft h.closed hStep).1

theorem Closed.releases {capacity : Nat} {state : State α} (h : Closed capacity state) :
    Releases state := by
  have hLeft := turnsLeft_le state.threads
  have hCount : ∀ actions next, Runs.run BoundedBlockingQueue.step state actions = some next →
      Closed capacity next ∧ actions.countP (fun action => !action.isCall) + turnsLeft next.threads ≤
        turnsLeft state.threads + 2 * actions.countP Action.isCall := by
    have hFed : ∀ (state : State α) action next, True → Closed capacity state →
        BoundedBlockingQueue.step state action = some next → Closed capacity next ∧
          turnsLeft next.threads + (if !action.isCall then 1 else 0) ≤
            turnsLeft state.threads + (if action.isCall then 2 else 0) :=
      fun _ _ _ _ hHolds hStep => ⟨hHolds.step hStep, (step_turnsLeft hHolds.closed hStep).2⟩
    intro actions next hRun
    exact Runs.count_add_rank_le_of_feeding hFed h (fun _ _ => trivial) hRun
  constructor
  · intro actions next hRun
    have hNext := (hCount actions next hRun).2
    omega
  · intro actions next hRun hCalls
    have hNext := (hCount actions next hRun).1
    exact hNext.covers.goes hNext.closed hCalls
  · have hMove : ∀ state : State α, Closed capacity state → (¬∀ phase ∈ state.threads, phase = .idle) →
        ∃ action next, action.isPrompt ∧ BoundedBlockingQueue.step state action = some next ∧
          Closed capacity next ∧ turnsLeft next.threads < turnsLeft state.threads := by
      intro state hHolds hGoal
      push Not at hGoal
      obtain ⟨action, next, hPrompt, hNext⟩ := hHolds.covers.goes hHolds.closed hGoal
      have hLess := (step_turnsLeft hHolds.closed hNext).2
      refine ⟨action, next, hPrompt, hNext, hHolds.step hNext, ?_⟩
      cases action with
      | call thread request => cases hPrompt
      | wake thread => cases hPrompt
      | run thread timedOut => exact hLess
      | notify thread target => exact hLess
    obtain ⟨actions, finish, hPrompt, hRun, _, hIdle, hLength⟩ := Runs.reaches hMove h
    exact ⟨actions, finish, hPrompt, hRun, hIdle, Nat.le_trans hLength hLeft⟩

/-- From every reachable state in which the queue has been closed, with any number of
threads in any calls. -/
theorem close_releases_all (capacity threads : Nat) (actions : List (Action α)) (state finish : State α)
    (hStart : start capacity threads = .ok state) (hRun : Runs.run step state actions = some finish)
    (hClosed : finish.queue.closed = true) : Releases finish := by
  have hInvariant : Consistent capacity finish ∧ CloseCovers finish := by
    refine Runs.induct (motive := fun _ state => Consistent capacity state ∧ CloseCovers state)
      ⟨.start hStart, ?_⟩ ?_ hRun
    · obtain ⟨queue, hConstruct, hState⟩ := Checked.bind_eq_ok_iff.mp hStart
      cases hState
      intro _ condition
      refine .inl ?_
      rw [List.countP_replicate]
      rfl
    · intro _ before action after _ hPast hStep
      exact ⟨hPast.1.step hStep, hPast.2.step hPast.1.fits hStep⟩
  exact Closed.releases ⟨hInvariant.1, hInvariant.2, hClosed⟩

/-- A producer sleeps at a full queue and a consumer has its element, when the queue
is closed. -/
def closeActions : List (Action Nat) :=
  [.call 0 (.push 7), .run 0 false, .notify 0 0, .call 0 (.push 8), .run 0 false,
    .call 1 (.popBatch 2 5), .run 1 false, .call 2 .close, .run 2 false]

theorem close_releases_all_sample : ∃ state finish : State Nat, start 1 3 = .ok state ∧
    Runs.run step state closeActions = some finish ∧
    finish.threads[0]? = some (.push 8 .asleep) ∧ Releases finish :=
  ⟨_, _, rfl, rfl, rfl, close_releases_all 1 3 closeActions _ _ rfl rfl rfl⟩

end LogBridge.BoundedBlockingQueue
