import LogBridge.Client.Identity
import LogBridge.Library.Progress

/-! The end of a session. Once the flag is cleared, each thread has a bounded number
of steps left, and as long as one of them has not ended some thread can go on: none
waits for the other for ever, whatever is in the queue and whether or not the server
answers. -/
namespace LogBridge

open Checked Protocol Storage

/-- An upper bound on the steps of the producer after the flag is cleared. A line
takes one step for its id, one for the log and one for the queue. -/
def Producer.stepsLeft : Producer → Nat
  | .finished => 0
  | .closing => 1
  | .polling _ => 2
  | .opening => 3
  | .enqueuing _ messages => 3 + messages.length
  | .collecting _ lines messages => 4 + messages.length + 3 * lines.length
  | .appending _ _ lines messages => 6 + messages.length + 3 * lines.length

def Consumer.stepsLeft : Consumer → Nat
  | .finished => 0
  | .looping => 1
  | .delivering _ => 2
  | .awaiting _ => 3
  | .batching batch => 3 + (sendBatchSize - batch.length)

/-- The steps of both threads, and the `close` of the main thread. -/
def Session.stepsLeft (session : Session) : Nat :=
  session.producer.stepsLeft + session.consumer.stepsLeft + (!session.queueClosed).toNat

/-- The actions of the producer and of the consumer. -/
def ClientAction.ofThreads : ClientAction → Bool
  | .thread .stop | .thread .closeFromMain => false
  | .thread _ | .allocate _ _ | .append | .checkpoint _ | .reply _ => true
  | _ => false

/-- The process goes on after the action. -/
def ClientAction.goesOn : ClientAction → Prop
  | .finish | .crash | .crashInAppend _ | .crashInReply _ _ => False
  | _ => True

/-- `popBatch` takes no more elements than it was asked for. -/
def Session.BatchFits (session : Session) : Prop :=
  ∀ batch, session.consumer = .batching batch → batch.length ≤ sendBatchSize

namespace Session

variable {config : ClientConfig} {log : FileSystem} {action : ThreadAction}
  {session next : Session} {disconnects : Bool}

theorem threadStep_batchFits (h : session.BatchFits)
    (hMoved : session.threadStep config log action = some (next, disconnects)) : next.BatchFits := by
  revert hMoved
  fun_cases Session.threadStep <;> intro hMoved <;> cases hMoved
  case case25 hLooping =>
      intro batch hBatch
      split_ifs at hBatch
      cases hBatch
      exact Nat.zero_le _
  case case27 batch message rest hQueue hBatching hRoom =>
      rintro _ ⟨⟩
      rw [List.length_append, List.length_singleton]
      exact hRoom
  all_goals
    intro batch hBatch
    first
      | exact h batch hBatch
      | cases hBatch

theorem threadStep_stepsLeft (hStopped : session.running = false)
    (hMoved : session.threadStep config log action = some (next, disconnects)) :
    next.running = false ∧
      next.stepsLeft + (if (ClientAction.thread action).ofThreads then 1 else 0) ≤ session.stepsLeft := by
  revert hMoved
  fun_cases Session.threadStep <;> intro hMoved <;> cases hMoved <;>
    simp_all [producerFails, stepsLeft, Producer.stepsLeft, Consumer.stepsLeft, ClientAction.ofThreads]
  all_goals omega

/-- A step of the producer. -/
theorem stepsLeft_lt (hConsumer : next.consumer = session.consumer)
    (hClosed : next.queueClosed = session.queueClosed)
    (hProducer : next.producer.stepsLeft < session.producer.stepsLeft) :
    next.stepsLeft + 1 ≤ session.stepsLeft := by
  rw [stepsLeft, stepsLeft, hConsumer, hClosed]
  omega

theorem stepsLeft_producerFails (hProducer : 1 < session.producer.stepsLeft) :
    session.producerFails.stepsLeft + 1 ≤ session.stepsLeft :=
  stepsLeft_lt rfl rfl hProducer

/-! Some thread can go on. -/

/-- A thread action that is possible. -/
def Goes (config : ClientConfig) (log : FileSystem) (session : Session) (action : ThreadAction) : Prop :=
  (session.threadStep config log action).isSome

/-- The consumer takes what is in the queue, and ends when it is closed. -/
theorem consumer_goes (hStopped : session.running = false) (hClosed : session.queueClosed = true)
    (hFits : session.BatchFits) : session.consumer = .finished ∨
      ∃ action, (ClientAction.thread action).ofThreads = true ∧ Goes config log session action := by
  cases hConsumer : session.consumer with
  | delivering messages =>
      refine Or.inr ⟨.attempt .failed, rfl, ?_⟩
      simp only [Goes, threadStep, hConsumer, hStopped]
      split_ifs <;> rfl
  | awaiting messages => exact Or.inr ⟨.replyFails, rfl, by simp [Goes, threadStep, hConsumer]⟩
  | looping => exact Or.inr ⟨.consume, rfl, by simp [Goes, threadStep, hConsumer]⟩
  | batching batch =>
      have hLength := hFits batch hConsumer
      cases hQueue : session.queue with
      | nil =>
          refine Or.inr ⟨.popDone, rfl, ?_⟩
          cases batch with
          | nil => simp [Goes, threadStep, hConsumer, hQueue, hClosed]
          | cons first rest => simp [Goes, threadStep, hConsumer, hQueue]
      | cons message rest =>
          rcases hLength.lt_or_eq with hLess | hFull
          · exact Or.inr ⟨.popOne, rfl, by simp [Goes, threadStep, hConsumer, hQueue, hLess]⟩
          · refine Or.inr ⟨.popDone, rfl, ?_⟩
            cases batch with
            | nil => cases hFull
            | cons first taken => simp [Goes, threadStep, hConsumer, hFull]
  | finished => exact Or.inl rfl

end Session
namespace Client

variable {config : ClientConfig} {client next : Client} {session : Session}

/-- What an action leaves of a session whose flag is cleared. -/
def StopsFrom (session : Session) (counted : Bool) (next : Client) : Prop :=
  ∃ nextSession, next.session = some nextSession ∧ nextSession.running = false ∧
    nextSession.stepsLeft + (if counted then 1 else 0) ≤ session.stepsLeft

/-- An action that keeps the process costs its thread a step. -/
theorem step_stepsLeft {action : ClientAction} (hSession : client.session = some session)
    (hStopped : session.running = false) (hGoesOn : action.goesOn)
    (hStep : client.step config action = some next) :
    StopsFrom session action.ofThreads next := by
  cases acts_of_step hStep with
  | appendLog hLog => exact ⟨session, hSession, hStopped, Nat.le_refl _⟩
  | changeLog => exact ⟨session, hSession, hStopped, Nat.le_refl _⟩
  | deleteState hDown => cases hDown.symm.trans hSession
  | start hDown hStart => cases hDown.symm.trans hSession
  | thread hOther hMoved =>
      rw [Option.some.inj (hOther.symm.trans hSession)] at hMoved
      exact ⟨_, rfl, Session.threadStep_stepsLeft hStopped hMoved⟩
  | allocate hOther hAct =>
      cases hOther.symm.trans hSession
      obtain ⟨reader, line, lines, messages, hProducer, ⟨_, rfl, _⟩ | ⟨_, rfl⟩⟩ := allocate_cases hAct
      · exact ⟨_, rfl, rfl, Session.stepsLeft_producerFails (by
          rw [hProducer, Producer.stepsLeft]
          omega)⟩
      · exact ⟨_, rfl, hStopped, Session.stepsLeft_lt rfl rfl (by
          simp [hProducer, Producer.stepsLeft]
          omega)⟩
  | append hOther hAct =>
      cases hOther.symm.trans hSession
      obtain ⟨reader, message, lines, messages, hProducer, ⟨_, rfl⟩ | ⟨_, rfl⟩⟩ := append_cases hAct
      · exact ⟨_, rfl, rfl, Session.stepsLeft_producerFails (by
          rw [hProducer, Producer.stepsLeft]
          omega)⟩
      · exact ⟨_, rfl, hStopped, Session.stepsLeft_lt rfl rfl (by
          simp [hProducer, Producer.stepsLeft]
          omega)⟩
  | checkpoint hOther hAct =>
      cases hOther.symm.trans hSession
      obtain ⟨reader, messages, _, hProducer, _, _, ⟨_, rfl, _⟩ | ⟨rfl, _⟩⟩ := checkpoint_cases hAct
      · exact ⟨_, rfl, rfl, Session.stepsLeft_producerFails (by
          rw [hProducer, Producer.stepsLeft]
          omega)⟩
      · exact ⟨_, rfl, hStopped, Session.stepsLeft_lt rfl rfl (by
          simp [hProducer, Producer.stepsLeft])⟩
  | reply hOther hAct =>
      cases hOther.symm.trans hSession
      revert hAct
      fun_cases Client.reply <;> intro hAct <;> cases hAct <;> refine ⟨_, rfl, hStopped, ?_⟩ <;>
        simp_all [Session.stepsLeft, Consumer.stepsLeft, ClientAction.ofThreads]
      all_goals omega
  | finish hOther hFinished => cases hGoesOn
  | crash hOther => cases hGoesOn
  | crashInAppend hOther hAct => cases hGoesOn
  | crashInReply hOther hAct => cases hGoesOn

/-- Both threads have ended. -/
def Ended (session : Session) : Prop :=
  session.producer = .finished ∧ session.consumer = .finished

theorem step_thread_of_goes (action : ThreadAction) (hSession : client.session = some session)
    (hGoes : session.Goes config client.log action) :
    ∃ next, client.step config (.thread action) = some next := by
  obtain ⟨⟨moved, disconnects⟩, hMoved⟩ := Option.isSome_iff_exists.mp hGoes
  exact ⟨_, by rw [step, hSession, Option.bind_eq_bind, Option.bind_some, hMoved]; rfl⟩

/-- A thread takes a step. -/
def Moves (config : ClientConfig) (client : Client) : Prop :=
  ∃ action next, action.ofThreads = true ∧ action.goesOn ∧ client.step config action = some next

theorem moves_of_goes (action : ThreadAction) (hSession : client.session = some session)
    (hOwn : (ClientAction.thread action).ofThreads = true)
    (hGoes : session.Goes config client.log action) : Moves config client := by
  obtain ⟨next, hNext⟩ := step_thread_of_goes action hSession hGoes
  exact ⟨.thread action, next, hOwn, trivial, hNext⟩

/-- The producer waits for nothing once the queue is closed. -/
theorem producer_moves (hSession : client.session = some session) (hStopped : session.running = false)
    (hClosed : session.queueClosed = true) :
    session.producer = .finished ∨ Moves config client := by
  cases hProducer : session.producer with
  | opening =>
      refine Or.inr (moves_of_goes (.openReader {}) hSession rfl ?_)
      simp only [Session.Goes, Session.threadStep, hProducer]
      split <;> rfl
  | polling reader =>
      refine Or.inr (moves_of_goes (.poll {}) hSession rfl ?_)
      simp [Session.Goes, Session.threadStep, hProducer, hStopped]
  | collecting reader lines messages =>
      cases lines with
      | nil =>
          have hSome : (client.checkpoint session .saved).isSome := by
            rw [checkpoint, hProducer]
            dsimp only
            split <;> rfl
          obtain ⟨next, hNext⟩ := Option.isSome_iff_exists.mp hSome
          exact Or.inr ⟨.checkpoint .saved, next, rfl, trivial, by rw [step, hSession]; exact hNext⟩
      | cons line lines =>
          have hSome : (client.allocate session 0 .saved).isSome := by
            rw [allocate, hProducer]
            dsimp only
            split <;> rfl
          obtain ⟨next, hNext⟩ := Option.isSome_iff_exists.mp hSome
          exact Or.inr ⟨.allocate 0 .saved, next, rfl, trivial, by rw [step, hSession]; exact hNext⟩
  | appending reader message lines messages =>
      have hSome : (client.append session).isSome := by
        rw [append, hProducer]
        dsimp only
        split <;> rfl
      obtain ⟨next, hNext⟩ := Option.isSome_iff_exists.mp hSome
      exact Or.inr ⟨.append, next, rfl, trivial, by rw [step, hSession]; exact hNext⟩
  | enqueuing reader messages =>
      refine Or.inr (moves_of_goes .push hSession rfl ?_)
      cases messages with
      | nil => simp [Session.Goes, Session.threadStep, hProducer]
      | cons message rest => simp [Session.Goes, Session.threadStep, hProducer, hClosed]
  | closing =>
      refine Or.inr (moves_of_goes .closeQueue hSession rfl ?_)
      simp [Session.Goes, Session.threadStep, hProducer]
  | finished => exact Or.inl rfl

/-- As long as a thread has not ended, the main thread closes the queue or a thread
takes a step, and less is left. -/
theorem exists_move (config : ClientConfig) (hSession : client.session = some session)
    (hStopped : session.running = false)
    (hFits : session.BatchFits) (hEnded : ¬Ended session) :
    ∃ action next nextSession, action.goesOn ∧ client.step config action = some next ∧
      next.session = some nextSession ∧ nextSession.stepsLeft < session.stepsLeft := by
  cases hClosed : session.queueClosed with
  | false =>
      have hMoved : session.threadStep config client.log .closeFromMain =
          some ({ session with queueClosed := true }, false) := by
        simp [Session.threadStep, hStopped]
      refine ⟨.thread .closeFromMain, { client with session := some { session with queueClosed := true } },
        _, trivial, ?_, rfl, ?_⟩
      · rw [step, hSession, Option.bind_eq_bind, Option.bind_some, hMoved]
        rfl
      · simp [Session.stepsLeft, hClosed]
  | true =>
      have hMoves : Moves config client := by
        rcases producer_moves hSession hStopped hClosed with hProducer | hMoves
        · rcases Session.consumer_goes hStopped hClosed hFits with hConsumer | ⟨action, hOwn, hGoes⟩
          · exact absurd ⟨hProducer, hConsumer⟩ hEnded
          · exact moves_of_goes action hSession hOwn hGoes
        · exact hMoves
      obtain ⟨action, next, hOwn, hGoesOn, hNext⟩ := hMoves
      obtain ⟨nextSession, hNextSession, _, hLeft⟩ := step_stepsLeft hSession hStopped hGoesOn hNext
      rw [hOwn, if_pos rfl] at hLeft
      exact ⟨action, next, nextSession, hGoesOn, hNext, hNextSession, hLeft⟩

/-- `popBatch` never takes more than it was asked for. -/
theorem batchFits_step {action : ClientAction} {moved : Session}
    (hFits : ∀ session, client.session = some session → session.BatchFits)
    (hStep : client.step config action = some next) (hMoved : next.session = some moved) :
    moved.BatchFits := by
  cases acts_of_step hStep with
  | appendLog hLog => exact hFits moved hMoved
  | changeLog => exact hFits moved hMoved
  | deleteState hDown => exact hFits moved hMoved
  | start hDown hStart =>
      revert hStart
      fun_cases Client.start <;> intro hStart <;> cases hStart <;> simp_all [Session.BatchFits]
      rw [← hMoved]
      intro batch hBatch
      cases hBatch
  | thread hSession hThread =>
      cases hMoved
      exact Session.threadStep_batchFits (hFits _ hSession) hThread
  | allocate hSession hAct =>
      have hOld := hFits _ hSession
      obtain ⟨_, _, _, _, _, ⟨_, rfl, _⟩ | ⟨_, rfl⟩⟩ := allocate_cases hAct <;> cases hMoved <;> exact hOld
  | append hSession hAct =>
      have hOld := hFits _ hSession
      obtain ⟨_, _, _, _, _, ⟨_, rfl⟩ | ⟨_, rfl⟩⟩ := append_cases hAct <;> cases hMoved <;> exact hOld
  | checkpoint hSession hAct =>
      have hOld := hFits _ hSession
      obtain ⟨_, _, _, _, _, _, ⟨_, rfl, _⟩ | ⟨rfl, _⟩⟩ := checkpoint_cases hAct <;> cases hMoved <;>
        exact hOld
  | reply hSession hAct =>
      revert hAct
      fun_cases Client.reply <;> intro hAct <;> cases hAct <;> cases hMoved <;> intro batch hBatch <;>
        cases hBatch
  | finish hSession hFinished => cases hMoved
  | crash hSession => cases hMoved
  | crashInAppend hSession hAct =>
      obtain ⟨_, _, _, _, _, _, ⟨_, rfl⟩ | ⟨_, rfl⟩⟩ := crashInAppend_cases hAct <;> cases hMoved
  | crashInReply hSession hAct =>
      revert hAct
      fun_cases Client.crashInReply <;> intro hAct <;> cases hAct
      cases hMoved

/-! Runs. -/

/-- The process runs with the flag cleared. -/
def Stopping (client : Client) : Prop :=
  ∃ session, client.session = some session ∧ session.running = false ∧ session.BatchFits

def stepsLeft (client : Client) : Nat := (client.session.map Session.stepsLeft).getD 0

theorem stepsLeft_of_session (hSession : client.session = some session) :
    client.stepsLeft = session.stepsLeft := by
  rw [stepsLeft, hSession]
  rfl

theorem Stopping.step {action : ClientAction} (h : Stopping client) (hGoesOn : action.goesOn)
    (hStep : client.step config action = some next) :
    Stopping next ∧ next.stepsLeft + (if action.ofThreads then 1 else 0) ≤ client.stepsLeft := by
  obtain ⟨session, hSession, hStopped, hFits⟩ := h
  obtain ⟨nextSession, hNext, hNextStopped, hLeft⟩ := step_stepsLeft hSession hStopped hGoesOn hStep
  have hNextFits := batchFits_step (by
    intro other hOther
    rw [Option.some.inj (hOther.symm.trans hSession)]
    exact hFits) hStep hNext
  rw [stepsLeft_of_session hSession, stepsLeft_of_session hNext]
  exact ⟨⟨nextSession, hNext, hNextStopped, hNextFits⟩, hLeft⟩

/-- A state in which the threads have ended. -/
def AllEnded (client : Client) : Prop := ∃ session, client.session = some session ∧ Ended session

theorem Stopping.move (h : Stopping client) (config : ClientConfig) (hEnded : ¬AllEnded client) :
    ∃ action next, action.goesOn ∧ client.step config action = some next ∧
      next.stepsLeft < client.stepsLeft := by
  obtain ⟨session, hSession, hStopped, hFits⟩ := h
  obtain ⟨action, next, nextSession, hGoesOn, hNext, hNextSession, hLess⟩ :=
    exists_move config hSession hStopped hFits fun hBoth => hEnded ⟨session, hSession, hBoth⟩
  rw [← stepsLeft_of_session hSession, ← stepsLeft_of_session hNextSession] at hLess
  exact ⟨action, next, hGoesOn, hNext, hLess⟩

/-- What is certain once the flag is cleared. -/
structure ShutsDown (config : ClientConfig) (client : Client) : Prop where
  /-- However the threads interleave with each other and with the writer of the log,
  they take no more steps than are left now. -/
  bounded : ∀ actions next, (∀ action ∈ actions, action.goesOn) →
    Runs.run (Client.step config) client actions = some next →
      actions.countP ClientAction.ofThreads + next.stepsLeft ≤ client.stepsLeft
  /-- At no point do they all wait. -/
  alive : ∀ actions next, (∀ action ∈ actions, action.goesOn) →
    Runs.run (Client.step config) client actions = some next → ¬AllEnded next →
      ∃ action after, action.goesOn ∧ next.step config action = some after ∧
        after.stepsLeft < next.stepsLeft
  /-- The process can end from here. -/
  ends : ∃ actions finish, Runs.run (Client.step config) client (actions ++ [.finish]) = some finish ∧
    actions.length ≤ client.stepsLeft ∧ finish.session = none

theorem Stopping.shutsDown (h : Stopping client) : ShutsDown config client where
  bounded actions next hGoesOn hRun :=
    (Runs.count_add_rank_le (fun _ _ _ hAllowed hHolds hStep => hHolds.step hAllowed hStep) h hGoesOn
      hRun).2
  alive actions next hGoesOn hRun hEnded := by
    have hNext := (Runs.count_add_rank_le
      (fun _ _ _ hAllowed hHolds hStep => Stopping.step hHolds hAllowed hStep) h hGoesOn hRun).1
    exact hNext.move config hEnded
  ends := by
    have hMove : ∀ state, Stopping state → ¬AllEnded state → ∃ action next, action.goesOn ∧
        Client.step config state action = some next ∧ Stopping next ∧
        next.stepsLeft < state.stepsLeft := by
      intro state hHolds hGoal
      obtain ⟨action, next, hGoesOn, hNext, hLess⟩ := hHolds.move config hGoal
      exact ⟨action, next, hGoesOn, hNext, (hHolds.step hGoesOn hNext).1, hLess⟩
    obtain ⟨actions, finish, _, hRun, ⟨_, hSession, hStopped, _⟩, ⟨session, hSame, hEnded⟩, hLength⟩ :=
      Runs.reaches hMove h
    cases hSame.symm.trans hSession
    refine ⟨actions, finish.stopped, (Runs.run_concat_eq_some_iff _ _).mpr ⟨finish, hRun, ?_⟩, hLength, rfl⟩
    rw [Client.step, hSession, Option.bind_eq_bind, Option.bind_some, if_pos ⟨hEnded.1, hEnded.2, hStopped⟩]
    rfl

/-- From every reachable state in which the flag is cleared, by a signal or by a
failure of the producer. -/
theorem shutdown_completes (config : ClientConfig) (log : FileSystem) (past : List ClientAction)
    (client : Client) (session : Session)
    (hRun : Runs.run (Client.step config) { log } past = some client)
    (hSession : client.session = some session) (hStopped : session.running = false) :
    ShutsDown config client := by
  have hFits : ∀ session, client.session = some session → session.BatchFits := by
    refine Runs.induct (motive := fun _ client => ∀ session, client.session = some session →
      session.BatchFits) nofun ?_ hRun
    intro _ middle action next _ hPast hStep moved hMoved
    exact batchFits_step hPast hStep hMoved
  exact Stopping.shutsDown ⟨session, hSession, hStopped, hFits session hSession⟩

/-! The flag is cleared while a line has been read and is not logged yet. -/

def stopActions : List ClientAction :=
  [.start sampleState.clientId .saved .saved, .thread (.openReader {}), .thread (.poll {}),
    .thread .stop]

theorem shutdown_completes_sample : ∃ client session,
    Runs.run (Client.step sampleConfig) { log := sampleLog } stopActions = some client ∧
      client.session = some session ∧ session.producer.remaining = [[97]] ∧
      ShutsDown sampleConfig client := by
  have hRun : ∃ client session,
      Runs.run (Client.step sampleConfig) { log := sampleLog } stopActions = some client ∧
        client.session = some session ∧ session.producer.remaining = [[97]] ∧
        session.running = false :=
    ⟨_, _, Runs.run_cons (sample_start rfl) <| Runs.run_cons rfl <| Runs.run_cons sample_poll <|
      Runs.run_cons rfl rfl, rfl, rfl, rfl⟩
  obtain ⟨client, session, hRun, hSession, hRemaining, hStopped⟩ := hRun
  exact ⟨client, session, hRun, hSession, hRemaining,
    shutdown_completes sampleConfig sampleLog stopActions client session hRun hSession hStopped⟩

end Client
end LogBridge
