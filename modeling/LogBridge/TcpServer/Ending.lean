import LogBridge.Library.Progress
import LogBridge.TcpServer.Stopping

/-! The end of the server process. Once the flag of the loops is cleared, the main
thread takes a bounded number of steps, never waits for good, and leaves nothing open. -/
namespace LogBridge

open Protocol

/-- The steps that are left to `closeSocket`. -/
def CloseStage.stepsLeft : CloseStage → Nat
  | .exchange => 3
  | .shutdown _ => 2
  | .close _ => 1

def StopStage.stepsLeft : StopStage → Nat
  | .flag => 7
  | .client stage => 3 + stage.stepsLeft
  | .listener stage => stage.stepsLeft

theorem CloseStage.stepsLeft_pos (stage : CloseStage) : 0 < stage.stepsLeft := by
  cases stage <;> exact Nat.succ_pos _

theorem CloseStage.stepsLeft_le (stage : CloseStage) : stage.stepsLeft ≤ 3 := by
  cases stage with
  | exchange => exact Nat.le_refl 3
  | shutdown fd => exact Nat.le_succ 2
  | close fd => exact Nat.le_add_left 1 2

theorem StopStage.stepsLeft_le (stage : StopStage) : stage.stepsLeft ≤ 7 := by
  cases stage with
  | flag => exact Nat.le_refl 7
  | client stage => exact Nat.le_trans (Nat.add_le_add_left stage.stepsLeft_le 3) (by decide)
  | listener stage => exact Nat.le_trans stage.stepsLeft_le (by decide)

theorem StopStage.stepsLeft_pos (stage : StopStage) : 0 < stage.stepsLeft := by
  cases stage with
  | flag => exact Nat.succ_pos 6
  | client stage => exact Nat.lt_add_right _ (Nat.succ_pos 2)
  | listener stage => exact stage.stepsLeft_pos

def SignalStage.stepsLeft : SignalStage → Nat
  | .waiting => 9
  | .clearing => 8
  | .stopping stage => stage.stepsLeft
  | .finished => 0

/-- The steps that are left after a part of a frame was received. -/
def FramePart.stepsAfter : FramePart → Nat
  | .payload => 19 + 2 * ackFrameLength
  | .header => 21 + 2 * ackFrameLength + 2 * maxFramePayloadLength

theorem FramePart.lt_stepsAfter (part : FramePart) : 10 < part.stepsAfter := by
  cases part with
  | header => exact Nat.lt_add_right _ (Nat.lt_add_right _ (by decide))
  | payload => exact Nat.lt_add_right _ (by decide)

/-- The steps that are left to the main thread with the flag cleared. A byte takes two. -/
def MainStage.stepsLeft : MainStage → Nat
  | .finished _ => 0
  | .destroy _ stage => stage.stepsLeft
  | .joining _ => 8
  | .leaving _ => 9
  | .looping | .acceptFailed _ => 10
  | .drop stage => 9 + stage.stepsLeft
  | .serving => 11
  | .recheck => 13
  | .store _ => 14
  | .acceptBlocked _ _ => 15
  | .acceptCall _ => 16
  | .loadListen | .acceptRetry _ => 17
  | .checkStop => 18
  | .accept stage => 18 + stage.stepsLeft
  | .sendBlocked _ _ left => 11 + 2 * left
  | .sendCall _ left => 12 + 2 * left
  | .sendAck => 13 + 2 * ackFrameLength
  | .confirm left => 14 + 2 * ackFrameLength + 2 * left
  | .writing _ left => 15 + 2 * ackFrameLength + 2 * left
  | .received _ part => part.stepsAfter
  | .receiveBlocked _ _ part left => part.stepsAfter + 2 * left
  | .receiveCall _ part left => part.stepsAfter + 2 * left + 1
  | .receive => FramePart.stepsAfter .header + 2 * frameHeaderSize + 2

/-- The main thread does not wait for the network or the other thread, and its next
step does not depend on what it has received. -/
def MainStage.goesOn : MainStage → Bool
  | .acceptBlocked _ _ | .receiveBlocked _ _ _ _ | .sendBlocked _ _ _ => false
  | .received _ .header | .joining _ | .finished _ => false
  | _ => true

/-- What a call has left to receive, to send or to open is at most what it began with. -/
def MainStage.Sized : MainStage → Prop
  | .receiveCall _ .header left | .receiveBlocked _ _ .header left => left ≤ frameHeaderSize
  | .receiveCall _ .payload left | .receiveBlocked _ _ .payload left => left ≤ maxFramePayloadLength
  | .confirm left | .writing _ left => left ≤ filesPerSave
  | .sendCall _ left | .sendBlocked _ _ left => left ≤ ackFrameLength
  | _ => True

/-- The steps of the two threads. -/
def ProcessAction.ofThreads : ProcessAction → Bool
  | .main _ | .signal _ => true
  | _ => false

def ProcessAction.interrupts : ProcessAction → Bool
  | .main .interrupted => true
  | _ => false

/-- A step of a thread that is neither an interruption nor an error by chance, and
needs no signal. -/
def ProcessAction.isPrompt : ProcessAction → Prop
  | .main .interrupted | .main .failed | .signal .received => False
  | .main _ | .signal _ => True
  | _ => False

namespace ServerProcess

variable {process next : ServerProcess}

def stepsLeft (process : ServerProcess) : Nat := process.main.stepsLeft + process.signal.stepsLeft

/-- The loops are about to end, or have ended. -/
def Ending (process : ServerProcess) : Prop :=
  process.running = false ∨ process.stopRequested = true

theorem closeSocket_stepsLeft {member : SocketMember} {stage after : CloseStage}
    (h : (process.closeSocket member stage).2 = some after) : after.stepsLeft < stage.stepsLeft := by
  cases stage with
  | exchange =>
      obtain ⟨fd, _, rfl⟩ := Option.map_eq_some_iff.mp h
      exact Nat.lt_succ_self 2
  | shutdown fd =>
      cases h
      exact Nat.lt_succ_self 1
  | close fd => cases h

theorem stop_stepsLeft {stage after : StopStage} (h : (process.stop stage).2 = some after) :
    after.stepsLeft < stage.stepsLeft := by
  cases stage with
  | flag =>
      cases h
      exact Nat.lt_succ_self 6
  | client stage =>
      have hLess := fun after => @closeSocket_stepsLeft process .clientFd stage after
      rw [stop] at h
      revert h hLess
      rcases process.closeSocket .clientFd stage with ⟨closed, _ | next⟩
      · rintro ⟨⟩ _
        cases stage with
        | exchange => exact Nat.lt_add_of_pos_right (Nat.succ_pos 2)
        | shutdown fd => exact Nat.lt_add_of_pos_right (Nat.succ_pos 1)
        | close fd => exact Nat.lt_add_of_pos_right Nat.one_pos
      · rintro ⟨⟩ hLess
        exact Nat.add_lt_add_left (hLess next rfl) 3
  | listener stage =>
      have hLess := fun after => @closeSocket_stepsLeft process .listenFd stage after
      rw [stop] at h
      revert h hLess
      rcases process.closeSocket .listenFd stage with ⟨closed, _ | next⟩
      · rintro ⟨⟩
      · rintro ⟨⟩ hLess
        exact hLess next rfl

/-- What a step of the main thread costs. An interrupted call is made again. -/
structure Costs (result : CallResult) (process next : ServerProcess) : Prop where
  main : next.main.stepsLeft + 1 ≤
    process.main.stepsLeft + (if result = .interrupted then 3 else 0)
  signal : next.signal = process.signal
  ending : process.Ending → next.Ending

variable {result : CallResult}

theorem costs_jump {main : MainStage} (h : main.stepsLeft < process.main.stepsLeft) :
    Costs result process { process with main } :=
  ⟨Nat.le_add_right_of_le h, rfl, id⟩

theorem costs_branch {condition : Prop} [Decidable condition] {first second : MainStage}
    (hFirst : first.stepsLeft < process.main.stepsLeft) (hSecond : second.stepsLeft < process.main.stepsLeft) :
    Costs result process { process with main := if condition then first else second } := by
  refine costs_jump ?_
  split_ifs
  · exact hFirst
  · exact hSecond

theorem costs_keeps {closing : List Nat} {main : MainStage} (hKeeps : Keeps closing process next)
    (h : main.stepsLeft < process.main.stepsLeft) : Costs result process { next with main } where
  main := Nat.le_add_right_of_le h
  signal := hKeeps.signal
  ending := by
    intro hEnding
    exact hEnding.imp hKeeps.running.trans hKeeps.stopRequested.trans

theorem outerStep_costs (hLooping : process.main = .looping → process.running = false)
    (hStep : process.outerStep result = some next) : Costs result process next := by
  revert hStep
  fun_cases ServerProcess.outerStep <;> intro hStep <;> cases hStep
  case case1 hMain =>
      refine costs_jump ?_
      rw [hLooping hMain, hMain]
      exact Nat.lt_succ_self 9
  case case2 thrown hMain =>
      refine ⟨?_, rfl, fun _ => Or.inr rfl⟩
      rw [hMain]
      exact Nat.le_refl 9
  case case3 thrown hMain _ =>
      refine costs_jump ?_
      rw [hMain]
      exact Nat.lt_succ_self 7
  case case5 thrown stage hMain closed after hStop =>
      have hLess := @stop_stepsLeft process stage after (by rw [hStop])
      have hKeeps := stop_keeps process stage
      rw [hStop] at hKeeps
      refine costs_keeps hKeeps ?_
      rw [hMain]
      exact hLess
  case case6 thrown stage hMain closed hStop =>
      have hKeeps := stop_keeps process stage
      rw [hStop] at hKeeps
      refine costs_keeps hKeeps ?_
      rw [hMain]
      exact stage.stepsLeft_pos

theorem acceptStep_costs (hStep : process.acceptStep result = some next) :
    Costs result process next := by
  have hKeeps := closeSocket_keeps process .clientFd
  have hLess := fun stage after => @closeSocket_stepsLeft process .clientFd stage after
  revert hStep
  fun_cases ServerProcess.acceptStep <;> intro hStep <;> cases hStep
  case case1 stage hMain closed after hClose =>
      specialize hKeeps stage
      specialize hLess stage after
      rw [hClose] at hKeeps hLess
      refine costs_keeps hKeeps ?_
      rw [hMain]
      exact Nat.add_lt_add_left (hLess rfl) 18
  case case2 stage hMain closed hClose =>
      specialize hKeeps stage
      rw [hClose] at hKeeps
      refine costs_keeps hKeeps ?_
      rw [hMain]
      exact Nat.lt_add_of_pos_right stage.stepsLeft_pos
  case case7 copy resource fd hMain hReady =>
      refine ⟨?_, rfl, id⟩
      rw [hMain]
      exact Nat.le_refl 15
  case case12 copy resource hMain =>
      refine ⟨?_, rfl, id⟩
      rw [hMain]
      exact Nat.le_refl 18
  case case15 fd hMain =>
      refine ⟨?_, rfl, id⟩
      rw [hMain]
      exact Nat.le_refl 14
  case case17 stage hMain closed after hClose =>
      specialize hKeeps stage
      specialize hLess stage after
      rw [hClose] at hKeeps hLess
      refine costs_keeps hKeeps ?_
      rw [hMain]
      exact Nat.add_lt_add_left (hLess rfl) 9
  case case18 stage hMain closed hClose =>
      specialize hKeeps stage
      rw [hClose] at hKeeps
      refine costs_keeps hKeeps ?_
      rw [hMain]
      exact Nat.lt_add_of_pos_right stage.stepsLeft_pos
  -- the other steps only jump, some of them by the flag
  all_goals
    first
      | refine costs_branch ?_ ?_
      | refine costs_jump ?_
    all_goals
      simp only [*, MainStage.stepsLeft, CloseStage.stepsLeft]
      omega

theorem serveStep_costs (hServing : process.main = .serving → process.running = false)
    (hStep : process.serveStep result = some next) : Costs result process next := by
  revert hStep
  fun_cases ServerProcess.serveStep <;> intro hStep <;> cases hStep
  case case1 hMain =>
      refine costs_jump ?_
      rw [hServing hMain, hMain]
      exact Nat.lt_succ_self 10
  case case6 fd resource part left count hMain socket hCount =>
      refine ⟨Nat.le_add_right_of_le ?_, rfl, id⟩
      rw [hMain]
      dsimp only
      split_ifs <;> simp only [MainStage.stepsLeft] <;> omega
  case case11 fd resource part left hMain =>
      refine ⟨?_, rfl, id⟩
      rw [hMain]
      simp [MainStage.stepsLeft]
  case case19 left fd hMain hFree =>
      refine ⟨Nat.le_add_right_of_le ?_, rfl, id⟩
      rw [hMain]
      simp only [MainStage.stepsLeft]
      omega
  case case22 fd left hMain =>
      refine ⟨Nat.le_add_right_of_le ?_, rfl, id⟩
      rw [hMain]
      simp only [MainStage.stepsLeft]
      omega
  case case23 fd left hMain =>
      refine ⟨Nat.le_add_right_of_le ?_, rfl, id⟩
      rw [hMain]
      simp only [MainStage.stepsLeft]
      omega
  case case28 fd resource left count hMain socket hCount =>
      refine ⟨Nat.le_add_right_of_le ?_, rfl, id⟩
      rw [hMain]
      dsimp only
      split_ifs <;> simp only [MainStage.stepsLeft] <;> omega
  case case33 fd resource left hMain =>
      refine ⟨?_, rfl, id⟩
      rw [hMain]
      simp only [MainStage.stepsLeft, if_pos]
      omega
  case case4 fd part left hMain hNone =>
      refine costs_jump ?_
      rw [hMain]
      exact Nat.lt_add_right _ (Nat.lt_add_right _ part.lt_stepsAfter)
  case case8 fd resource part left hMain hEnd =>
      refine costs_jump ?_
      rw [hMain]
      exact Nat.lt_add_right _ part.lt_stepsAfter
  case case10 fd resource part left hMain =>
      refine costs_jump ?_
      rw [hMain]
      exact Nat.lt_add_right _ part.lt_stepsAfter
  all_goals
    refine costs_jump ?_
    simp only [*, MainStage.stepsLeft, FramePart.stepsAfter, filesPerSave]
    omega

theorem signalStep_main {event : SignalEvent} (hStep : process.signalStep event = some next) :
    next.main = process.main := by
  revert hStep
  fun_cases ServerProcess.signalStep <;> intro hStep <;> cases hStep
  case case5 stage hSignal closed after hStop =>
      have hKeeps := stop_keeps process stage
      rw [hStop] at hKeeps
      exact hKeeps.main
  case case6 stage hSignal closed hStop =>
      have hKeeps := stop_keeps process stage
      rw [hStop] at hKeeps
      exact hKeeps.main
  all_goals rfl

theorem signalStep_costs {event : SignalEvent} (hEnding : process.Ending)
    (hStep : process.signalStep event = some next) :
    next.signal.stepsLeft < process.signal.stepsLeft ∧ next.Ending := by
  revert hStep
  fun_cases ServerProcess.signalStep <;> intro hStep <;> cases hStep
  case case1 hSignal =>
      rw [hSignal]
      exact ⟨Nat.lt_succ_self 8, hEnding⟩
  case case2 hSignal hRequested =>
      rw [hSignal]
      exact ⟨Nat.succ_pos 8, hEnding⟩
  case case4 hSignal =>
      rw [hSignal]
      exact ⟨Nat.lt_succ_self 7, Or.inl rfl⟩
  case case5 stage hSignal closed after hStop =>
      have hLess := @stop_stepsLeft process stage after (by rw [hStop])
      have hKeeps := stop_keeps process stage
      rw [hStop] at hKeeps
      rw [hSignal]
      exact ⟨hLess, hEnding.imp hKeeps.running.trans hKeeps.stopRequested.trans⟩
  case case6 stage hSignal closed hStop =>
      have hKeeps := stop_keeps process stage
      rw [hStop] at hKeeps
      rw [hSignal]
      exact ⟨stage.stepsLeft_pos, hEnding.imp hKeeps.running.trans hKeeps.stopRequested.trans⟩

/-- Before the end of `main` waits for the signal thread, it is the flag of the loops
that ends them. -/
theorem Ordered.not_running (h : Ordered process) (hEnding : process.Ending)
    (hOver : process.main.phase.isOver = false) : process.running = false := by
  refine hEnding.resolve_right ?_
  intro hRequested
  cases (h.requested hRequested).symm.trans hOver

theorem step_costs {action : ProcessAction} (h : Ordered process) (hEnding : process.Ending)
    (hStep : process.step action = some next) :
    next.Ending ∧ next.stepsLeft + (if action.ofThreads then 1 else 0) ≤
      process.stepsLeft + (if action.interrupts then 3 else 0) := by
  cases action with
  | main result =>
      have hCosts : Costs result process next := by
        rcases mainStep_cases hStep with hOuter | hAccept | hServe
        · exact outerStep_costs (fun hMain => h.not_running hEnding (by rw [hMain]; rfl)) hOuter
        · exact acceptStep_costs hAccept
        · exact serveStep_costs (fun hMain => h.not_running hEnding (by rw [hMain]; rfl)) hServe
      have hMain := hCosts.main
      refine ⟨hCosts.ending hEnding, ?_⟩
      rw [ServerProcess.stepsLeft, ServerProcess.stepsLeft, hCosts.signal]
      cases result <;> simp [ProcessAction.ofThreads, ProcessAction.interrupts] at hMain ⊢ <;> omega
  | signal event =>
      obtain ⟨hLess, hNext⟩ := signalStep_costs hEnding hStep
      refine ⟨hNext, ?_⟩
      rw [ServerProcess.stepsLeft, ServerProcess.stepsLeft, signalStep_main hStep]
      exact Nat.add_lt_add_left hLess _
  | arrive resource count =>
      rw [ServerProcess.step] at hStep
      split_ifs at hStep
      cases hStep
      exact ⟨hEnding, Nat.le_refl _⟩
  | drain resource count =>
      cases hStep
      exact ⟨hEnding, Nat.le_refl _⟩
  | peerEnds resource =>
      cases hStep
      exact ⟨hEnding, Nat.le_refl _⟩

/-! Nobody waits for good. -/

theorem mainStep_isSome {result : CallResult} (h : (process.outerStep result).isSome ∨
    (process.acceptStep result).isSome ∨ (process.serveStep result).isSome) :
    (process.mainStep result).isSome := by
  simpa [mainStep, Option.orElse_eq_or, Option.isSome_or, or_assoc] using h

/-- A step that waits for nothing can be taken. -/
theorem mainStep_done (h : process.main.goesOn = true) : (process.mainStep .done).isSome := by
  apply mainStep_isSome
  cases hMain : process.main with
  | looping => exact Or.inl (by simp [outerStep, hMain])
  | leaving thrown => exact Or.inl (by simp [outerStep, hMain])
  | destroy thrown stage =>
      left
      simp only [outerStep, hMain]
      split <;> rfl
  | accept stage =>
      right; left
      simp only [acceptStep, hMain]
      split <;> rfl
  | drop stage =>
      right; left
      simp only [acceptStep, hMain]
      split <;> rfl
  | acceptCall fd =>
      right; left
      simp only [acceptStep, hMain]
      split <;> rfl
  | receive =>
      right; right
      simp only [serveStep, hMain]
      split <;> rfl
  | receiveCall fd part left =>
      right; right
      simp only [serveStep, hMain]
      split <;> rfl
  | received fd part =>
      cases part with
      | header => simp [MainStage.goesOn, hMain] at h
      | payload => exact Or.inr (Or.inr (by simp [serveStep, hMain]))
  | sendAck =>
      right; right
      simp only [serveStep, hMain]
      split <;> rfl
  | sendCall fd left =>
      right; right
      simp only [serveStep, hMain]
      split <;> rfl
  | acceptBlocked | receiveBlocked | sendBlocked | joining | finished =>
      simp [MainStage.goesOn, hMain] at h
  | _ => simp [acceptStep, serveStep, hMain]

/-- The signal thread needs no further signal. -/
theorem signalStep_isSome (h : Ordered process) (hEnding : process.Ending)
    (hBusy : process.signal ≠ .finished) :
    ∃ event, event ≠ .received ∧ (process.signalStep event).isSome := by
  cases hSignal : process.signal with
  | waiting =>
      have hRequested : process.stopRequested = true := by
        refine hEnding.resolve_left ?_
        intro hStopped
        have hCleared := h.cleared hStopped
        rw [hSignal] at hCleared
        cases hCleared
      exact ⟨.noticed, by simp, by simp [signalStep, hSignal, hRequested]⟩
  | clearing => exact ⟨.step, by simp, by simp [signalStep, hSignal]⟩
  | stopping stage =>
      refine ⟨.step, by simp, ?_⟩
      simp only [signalStep, hSignal]
      split <;> rfl
  | finished => exact absurd hSignal hBusy

/-- A thread can go on at once. -/
def Goes (process : ServerProcess) : Prop :=
  ∃ action next, action.isPrompt ∧ process.step action = some next

theorem goes_of_main (result : CallResult) (hPrompt : (ProcessAction.main result).isPrompt)
    (h : (process.mainStep result).isSome) : Goes process := by
  obtain ⟨next, hNext⟩ := Option.isSome_iff_exists.mp h
  exact ⟨.main result, next, hPrompt, hNext⟩

/-- A blocked call returns when its socket was shut down. -/
theorem goes_of_shut {resource : Resource} (hShut : (process.sockets resource).shut = true)
    (hBlocked : (∃ fd, process.main = .acceptBlocked fd resource) ∨
      (∃ fd part left, process.main = .receiveBlocked fd resource part left) ∨
      ∃ fd left, process.main = .sendBlocked fd resource left) : Goes process := by
  refine goes_of_main .woken trivial (mainStep_isSome ?_)
  rcases hBlocked with ⟨fd, hMain⟩ | ⟨fd, part, left, hMain⟩ | ⟨fd, left, hMain⟩
  · simp [acceptStep, hMain, hShut]
  · simp [serveStep, hMain, hShut]
  · simp [serveStep, hMain, hShut]

/-- Until `main` has returned, a thread can go on. -/
theorem Ordered.goes (hSound : Sound process) (h : Ordered process) (hEnding : process.Ending)
    (hUnfinished : ∀ thrown, process.main ≠ .finished thrown) : Goes process := by
  by_cases hSignal : process.signal = .finished
  · by_cases hMoves : process.main.goesOn = true
    · exact goes_of_main .done trivial (mainStep_done hMoves)
    · have hAimed := hSound.main
      have hRelies := h.relies
      have hListening := h.listening
      cases hMain : process.main with
      | acceptBlocked fd resource =>
          rw [hMain] at hAimed hListening
          have hShut := hListening.resolve_left (by simp [MainStage.phase, MainPhase.isOver])
          simp only [ListenerWatched, hSignal] at hShut
          exact goes_of_shut (hAimed.2.1 ▸ hShut) (Or.inl ⟨fd, hMain⟩)
      | receiveBlocked fd resource part left =>
          rw [hMain] at hAimed hRelies
          change process.ConnectionWatched at hRelies
          simp only [ConnectionWatched, hSignal] at hRelies
          exact goes_of_shut (hAimed.1 ▸ hRelies) (Or.inr (Or.inl ⟨fd, part, left, hMain⟩))
      | sendBlocked fd resource left =>
          rw [hMain] at hAimed hRelies
          change process.ConnectionWatched at hRelies
          simp only [ConnectionWatched, hSignal] at hRelies
          exact goes_of_shut (hAimed.1 ▸ hRelies) (Or.inr (Or.inr ⟨fd, left, hMain⟩))
      | received fd part =>
          cases part with
          | header =>
              refine goes_of_main (.declared 0) trivial (mainStep_isSome ?_)
              simp [ServerProcess.serveStep, hMain]
          | payload => simp [MainStage.goesOn, hMain] at hMoves
      | joining thrown =>
          refine goes_of_main .done trivial (mainStep_isSome ?_)
          simp [ServerProcess.outerStep, hMain, hSignal]
      | finished thrown => exact absurd hMain (hUnfinished thrown)
      | _ => simp [MainStage.goesOn, hMain] at hMoves
  · obtain ⟨event, hEvent, hStep⟩ := signalStep_isSome h hEnding hSignal
    obtain ⟨next, hNext⟩ := Option.isSome_iff_exists.mp hStep
    refine ⟨.signal event, next, ?_, hNext⟩
    cases event with
    | received => exact absurd rfl hEvent
    | noticed => trivial
    | step => trivial

/-! The number of steps. -/

theorem sized_serveStep (h : process.main.Sized) (hStep : process.serveStep result = some next) :
    next.main.Sized := by
  revert hStep
  fun_cases ServerProcess.serveStep <;> intro hStep <;> cases hStep
  case case1 hMain =>
      dsimp only
      split_ifs <;> trivial
  case case6 fd resource part left count hMain socket hCount =>
      rw [hMain] at h
      dsimp only
      split_ifs
      · trivial
      · cases part with
        | header => exact Nat.le_trans (Nat.sub_le _ _) h
        | payload => exact Nat.le_trans (Nat.sub_le _ _) h
  case case11 fd resource part left hMain =>
      rw [hMain] at h
      cases part with
      | header => exact h
      | payload => exact h
  case case28 fd resource left count hMain socket hCount =>
      rw [hMain] at h
      dsimp only
      split_ifs
      · trivial
      · exact Nat.le_trans (Nat.sub_le _ _) h
  case case5 fd part left hMain resource hSome =>
      rw [hMain] at h
      cases part with
      | header => exact h
      | payload => exact h
  case case19 left fd hMain hFree =>
      rw [hMain] at h
      exact Nat.le_of_succ_le h
  case case22 fd left hMain =>
      rw [hMain] at h
      exact h
  case case27 fd left hMain resource hSome =>
      rw [hMain] at h
      exact h
  case case33 fd resource left hMain =>
      rw [hMain] at h
      exact h
  all_goals
    first
      | trivial
      | exact Nat.le_refl _

theorem sized_acceptStep (hStep : process.acceptStep result = some next) : next.main.Sized := by
  revert hStep
  fun_cases ServerProcess.acceptStep <;> intro hStep <;> cases hStep
  all_goals
    first
      | trivial
      | (dsimp only; split_ifs <;> trivial)

theorem sized_outerStep (hStep : process.outerStep result = some next) : next.main.Sized := by
  revert hStep
  fun_cases ServerProcess.outerStep <;> intro hStep <;> cases hStep
  all_goals
    first
      | trivial
      | (dsimp only; split_ifs <;> trivial)

theorem sized_step {action : ProcessAction} (h : process.main.Sized)
    (hStep : process.step action = some next) : next.main.Sized := by
  cases action with
  | main result =>
      rcases mainStep_cases hStep with hOuter | hAccept | hServe
      · exact sized_outerStep hOuter
      · exact sized_acceptStep hAccept
      · exact sized_serveStep h hServe
  | signal event =>
      have hMain := signalStep_main hStep
      rwa [hMain]
  | arrive resource count =>
      rw [ServerProcess.step] at hStep
      split_ifs at hStep
      cases hStep
      exact h
  | drain resource count =>
      cases hStep
      exact h
  | peerEnds resource =>
      cases hStep
      exact h

/-- The steps that a frame of the greatest length takes, with those of the stop. -/
def stepsToEnd : Nat := 32 + 2 * ackFrameLength + 2 * frameHeaderSize + 2 * maxFramePayloadLength

theorem stepsLeft_le (h : process.main.Sized) : process.stepsLeft ≤ stepsToEnd := by
  have hSignal : process.signal.stepsLeft ≤ 9 := by
    cases process.signal with
    | stopping stage => exact Nat.le_trans stage.stepsLeft_le (by decide)
    | _ => decide
  have hMain : process.main.stepsLeft + 9 ≤ stepsToEnd := by
    cases hStage : process.main with
    | accept stage =>
        have hStageLeft := stage.stepsLeft_le
        simp only [MainStage.stepsLeft, stepsToEnd]
        omega
    | drop stage =>
        have hStageLeft := stage.stepsLeft_le
        simp only [MainStage.stepsLeft, stepsToEnd]
        omega
    | destroy thrown stage =>
        have hStageLeft := stage.stepsLeft_le
        simp only [MainStage.stepsLeft, stepsToEnd]
        omega
    | receiveCall fd part left =>
        rw [hStage] at h
        cases part <;> simp only [MainStage.stepsLeft, FramePart.stepsAfter, MainStage.Sized, stepsToEnd] at h ⊢ <;>
          omega
    | receiveBlocked fd resource part left =>
        rw [hStage] at h
        cases part <;> simp only [MainStage.stepsLeft, FramePart.stepsAfter, MainStage.Sized, stepsToEnd] at h ⊢ <;>
          omega
    | received fd part =>
        cases part <;> simp only [MainStage.stepsLeft, FramePart.stepsAfter, stepsToEnd] <;> omega
    | _ =>
        rw [hStage] at h
        simp only [MainStage.stepsLeft, FramePart.stepsAfter, MainStage.Sized, filesPerSave, stepsToEnd] at h ⊢
        omega
  exact Nat.le_trans (Nat.add_le_add_left hSignal _) hMain

/-! Runs. -/

/-- What is certain once the flag of the loops is cleared. -/
structure Stops (process : ServerProcess) : Prop where
  /-- The two threads take a bounded number of steps, and an interrupted call at most three more. -/
  bounded : ∀ actions finish, Runs.run step process actions = some finish →
    actions.countP ProcessAction.ofThreads ≤ stepsToEnd + 3 * actions.countP ProcessAction.interrupts
  /-- Until `main` has returned, some thread can go on, without a further signal. -/
  alive : ∀ actions finish, Runs.run step process actions = some finish →
    (∀ thrown, finish.main ≠ .finished thrown) → Goes finish
  /-- The process can end by itself. -/
  ends : ∃ actions finish thrown, (∀ action ∈ actions, action.isPrompt) ∧
    Runs.run step process actions = some finish ∧ finish.main = .finished thrown ∧
    actions.length ≤ stepsToEnd

/-- The invariant of a process that is about to end. -/
structure EndsSoon (process : ServerProcess) : Prop where
  sound : Sound process
  ordered : Ordered process
  ending : process.Ending
  sized : process.main.Sized

theorem EndsSoon.step {action : ProcessAction} (h : EndsSoon process)
    (hStep : process.step action = some next) : EndsSoon next where
  sound := h.sound.step hStep
  ordered := h.ordered.step h.sound hStep
  ending := (step_costs h.ordered h.ending hStep).1
  sized := sized_step h.sized hStep

theorem ofThreads_of_isPrompt {action : ProcessAction} (h : action.isPrompt) :
    action.ofThreads = true ∧ action.interrupts = false := by
  cases action with
  | main result =>
      cases result with
      | interrupted => cases h
      | _ => exact ⟨rfl, rfl⟩
  | signal event => exact ⟨rfl, rfl⟩
  | _ => cases h

theorem EndsSoon.stops (h : EndsSoon process) : Stops process := by
  have hLeft := stepsLeft_le h.sized
  have hCount : ∀ actions finish, Runs.run ServerProcess.step process actions = some finish →
      EndsSoon finish ∧ actions.countP ProcessAction.ofThreads + finish.stepsLeft ≤
        process.stepsLeft + 3 * actions.countP ProcessAction.interrupts := by
    have hFed : ∀ (state : ServerProcess) action next, True → EndsSoon state →
        state.step action = some next → EndsSoon next ∧
          next.stepsLeft + (if action.ofThreads then 1 else 0) ≤
            state.stepsLeft + (if action.interrupts then 3 else 0) :=
      fun _ _ _ _ hHolds hStep => ⟨hHolds.step hStep, (step_costs hHolds.ordered hHolds.ending hStep).2⟩
    intro actions finish hRun
    exact Runs.count_add_rank_le_of_feeding hFed h (fun _ _ => trivial) hRun
  constructor
  · intro actions finish hRun
    have hFinish := (hCount actions finish hRun).2
    omega
  · intro actions finish hRun hUnfinished
    have hFinish := (hCount actions finish hRun).1
    exact hFinish.ordered.goes hFinish.sound hFinish.ending hUnfinished
  · have hMove : ∀ state : ServerProcess, EndsSoon state → (¬∃ thrown, state.main = .finished thrown) →
        ∃ action next, action.isPrompt ∧ state.step action = some next ∧ EndsSoon next ∧
          next.stepsLeft < state.stepsLeft := by
      intro state hHolds hGoal
      push Not at hGoal
      obtain ⟨action, next, hPrompt, hNext⟩ := hHolds.ordered.goes hHolds.sound hHolds.ending hGoal
      have hCost := (step_costs hHolds.ordered hHolds.ending hNext).2
      obtain ⟨hThread, hQuiet⟩ := ofThreads_of_isPrompt hPrompt
      rw [hThread, hQuiet] at hCost
      exact ⟨action, next, hPrompt, hNext, hHolds.step hNext, hCost⟩
    obtain ⟨actions, finish, hAll, hRun, _, ⟨thrown, hEnd⟩, hLength⟩ := Runs.reaches hMove h
    exact ⟨actions, finish, thrown, hAll, hRun, hEnd, Nat.le_trans hLength hLeft⟩

theorem sized_run {fd : Nat} {actions : List ProcessAction}
    (hRun : Runs.run step (initial fd) actions = some process) : process.main.Sized := by
  refine Runs.induct (motive := fun _ process => process.main.Sized) trivial ?_ hRun
  intro past middle action next _ hSized hStep
  exact sized_step hSized hStep

/-- Wherever the two threads stand when the flag is cleared, the process ends: no
call stays blocked, the threads take no more steps than the frame in hand needs, and
no client has to send, to read or to leave for it. -/
theorem stop_ends {fd : Nat} {actions : List ProcessAction}
    (hRun : Runs.run step (initial fd) actions = some process) (hEnding : process.Ending) :
    Stops process := by
  obtain ⟨hSound, hOrdered⟩ := sound_ordered_run hRun
  exact EndsSoon.stops ⟨hSound, hOrdered, hEnding, sized_run hRun⟩

theorem stop_ends_sample : ∃ process, Runs.run step (initial 3) sampleStop = some process ∧
    process.main = .store 4 ∧ Stops process :=
  ⟨_, rfl, rfl, @stop_ends _ 3 sampleStop rfl (Or.inl rfl)⟩

end ServerProcess
end LogBridge
