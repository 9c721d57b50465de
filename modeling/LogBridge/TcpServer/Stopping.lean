import LogBridge.TcpServer.Ownership

/-! The order of the stores and calls in `stop`. The flag is set before the sockets
are closed, each socket is shut down before its descriptor is closed, and the main
thread looks at the flag again after it has stored a client: so no socket is left
on which the main thread could stay blocked, and what fails because of the stop is
not taken for an error. -/
namespace LogBridge

def SignalStage.beforeFlag : SignalStage → Bool
  | .waiting | .clearing | .stopping .flag => true
  | _ => false

/-- The flag of the loops has been cleared. -/
def SignalStage.hasCleared : SignalStage → Bool
  | .waiting | .clearing => false
  | _ => true

/-- What the main thread relies on, by where it stands. -/
inductive MainPhase where
  | apart
  | accepting (fd : Option Nat)
  | failed (error : AcceptError)
  | rechecking
  | session
  | leaving (thrown : Option AcceptError)
  | joining (thrown : Option AcceptError)
  | destroying (thrown : Option AcceptError) (stage : StopStage)
  | finished (thrown : Option AcceptError)
  deriving DecidableEq, Repr

def MainStage.phase : MainStage → MainPhase
  | .looping | .accept _ | .checkStop | .loadListen | .store _ | .drop _ => .apart
  | .acceptCall fd | .acceptBlocked fd _ | .acceptRetry fd => .accepting fd
  | .acceptFailed error => .failed error
  | .recheck => .rechecking
  | .leaving thrown => .leaving thrown
  | .joining thrown => .joining thrown
  | .destroy thrown stage => .destroying thrown stage
  | .finished thrown => .finished thrown
  | _ => .session

/-- The end of `main` has begun to wait for the signal thread. -/
def MainPhase.isOver : MainPhase → Bool
  | .joining _ | .destroying _ _ | .finished _ => true
  | _ => false

/-- What `stop` has done to the members. -/
def StopStage.Emptied (server : TcpServer) : StopStage → Prop
  | .flag => True
  | .client .exchange => server.stopped = true
  | .client _ | .listener .exchange => server.stopped = true ∧ server.clientFd = none
  | .listener _ => server.stopped = true ∧ server.clientFd = none ∧ server.listenFd = none

namespace ServerProcess

variable {process next : ServerProcess}

/-- The listening socket is shut down, or the signal thread will do it. -/
def ListenerWatched (process : ServerProcess) : Prop :=
  match process.signal with
  | .stopping (.listener (.shutdown fd)) => process.descriptors.table fd = some .listener
  | .stopping (.listener (.close _)) | .finished => (process.sockets .listener).shut = true
  | _ => ∃ fd, process.server.listenFd = some fd

/-- The same for the connection that is being served. -/
def ConnectionWatched (process : ServerProcess) : Prop :=
  match process.signal with
  | .waiting | .clearing | .stopping .flag | .stopping (.client .exchange) =>
      ∃ fd, process.server.clientFd = some fd
  | .stopping (.client (.shutdown fd)) =>
      process.descriptors.table fd = some (.connection process.current)
  | _ => (process.sockets (.connection process.current)).shut = true

def MainPhase.Relies (process : ServerProcess) : MainPhase → Prop
  | .apart => True
  | .accepting fd => process.server.stopped = false → fd = process.server.listenFd
  | .failed error => error = .other ∨ process.server.stopped = true
  | .rechecking => process.server.stopped = false → process.ConnectionWatched
  | .session => process.ConnectionWatched
  | .leaving thrown | .joining thrown => ∀ error ∈ thrown, error = .other
  | .destroying thrown stage =>
      (∀ error ∈ thrown, error = .other) ∧ process.signal = .finished ∧ stage.Emptied process.server
  | .finished thrown =>
      (∀ error ∈ thrown, error = .other) ∧ process.signal = .finished ∧
        process.server.clientFd = none ∧ process.server.listenFd = none

/-- The invariant of the order. -/
structure Ordered (process : ServerProcess) : Prop where
  requested : process.stopRequested = true → process.main.phase.isOver = true
  stopped : process.server.stopped = true ∨ process.signal.beforeFlag = true ∨
    (process.signal = .finished ∧ process.main.phase.isOver = true)
  cleared : process.running = false → process.signal.hasCleared = true
  listening : process.main.phase.isOver = true ∨ process.ListenerWatched
  shut : (process.sockets .listener).shut = true → process.server.stopped = true
  relies : MainPhase.Relies process process.main.phase

/-! The signal thread. -/

/-- A thread that has set the flag goes on in `stop`. -/
theorem Ordered.stops {signal : SignalStage} (h : Ordered process)
    (hKeeps : Keeps process.signal.held process next) (hStopped : next.server.stopped = true)
    (hBusy : process.signal ≠ .finished) (hCleared : signal.hasCleared = true)
    (hListening : process.ListenerWatched → ListenerWatched { next with signal })
    (hConnection : process.ConnectionWatched → ConnectionWatched { next with signal }) :
    Ordered { next with signal } where
  requested := by
    have hRequested := h.requested
    rw [← hKeeps.main, ← hKeeps.stopRequested] at hRequested
    exact hRequested
  stopped := Or.inl hStopped
  cleared _ := hCleared
  listening := h.listening.imp (fun hOver => by rw [← hKeeps.main] at hOver; exact hOver) hListening
  shut _ := hStopped
  relies := by
    have hRelies := h.relies
    change MainPhase.Relies { next with signal } next.main.phase
    rw [hKeeps.main]
    cases hPhase : process.main.phase with
    | apart => trivial
    | accepting fd =>
        intro hUnstopped
        cases hStopped.symm.trans hUnstopped
    | failed error => exact Or.inr hStopped
    | rechecking =>
        intro hUnstopped
        cases hStopped.symm.trans hUnstopped
    | session =>
        rw [hPhase] at hRelies
        exact hConnection hRelies
    | leaving thrown =>
        rw [hPhase] at hRelies
        exact hRelies
    | joining thrown =>
        rw [hPhase] at hRelies
        exact hRelies
    | destroying thrown stage =>
        rw [hPhase] at hRelies
        exact absurd hRelies.2.1 hBusy
    | finished thrown =>
        rw [hPhase] at hRelies
        exact absurd hRelies.2.1 hBusy

/-- The stage of the signal thread after a step of `stop`. -/
def SignalStage.afterStop (stage : Option StopStage) : SignalStage :=
  (stage.map .stopping).getD .finished

/-- Behind the flag, `stop` has set it. -/
theorem Ordered.stopped_of_stopping {stage : StopStage} (h : Ordered process)
    (hSignal : process.signal = .stopping stage) (hStage : stage ≠ .flag) :
    process.server.stopped = true := by
  rcases h.stopped with hStopped | hBefore | ⟨hFinished, _⟩
  · exact hStopped
  · rw [hSignal] at hBefore
    cases stage with
    | flag => exact absurd rfl hStage
    | client stage => cases hBefore
    | listener stage => cases hBefore
  · cases hSignal.symm.trans hFinished

theorem shutdown_shut {fd : Nat} {resource : Resource}
    (h : process.descriptors.table fd = some resource) (other : Resource) :
    ((process.shutdown fd).sockets other).shut =
      (decide (other = resource) || (process.sockets other).shut) := by
  rw [shutdown, h]
  by_cases hSame : other = resource
  · subst hSame
    simp [setSocket]
  · simp [setSocket, hSame]

theorem shutdown_of_shut {fd : Nat} {resource : Resource} (h : (process.sockets resource).shut = true) :
    ((process.shutdown fd).sockets resource).shut = true := by
  cases hTable : process.descriptors.table fd with
  | none =>
      rw [shutdown, hTable]
      exact h
  | some other => rw [shutdown_shut hTable, h, Bool.or_true]

theorem Ordered.stopStep {stage : StopStage} (hSound : Sound process) (h : Ordered process)
    (hSignal : process.signal = .stopping stage) :
    Ordered { (process.stop stage).1 with signal := SignalStage.afterStop (process.stop stage).2 } := by
  have hKeeps := stop_keeps process stage
  have hHeld : process.signal.held = stage.held := by rw [hSignal]; rfl
  rw [← hHeld] at hKeeps
  have hBusy : process.signal ≠ .finished := by simp [hSignal]
  cases stage with
  | flag =>
      refine h.stops hKeeps rfl hBusy rfl ?_ ?_
      · intro hListening
        rw [ListenerWatched, hSignal] at hListening
        exact hListening
      · intro hConnection
        rw [ConnectionWatched, hSignal] at hConnection
        exact hConnection
  | client stage =>
      have hStopped := h.stopped_of_stopping hSignal (by simp)
      cases stage with
      | exchange =>
          cases hFd : process.server.clientFd with
          | none =>
              simp only [stop, closeSocket, TcpServer.descriptor, hFd, Option.map_none] at hKeeps ⊢
              refine h.stops hKeeps hStopped hBusy rfl ?_ ?_
              · intro hListening
                rw [ListenerWatched, hSignal] at hListening
                exact hListening
              · intro hConnection
                rw [ConnectionWatched, hSignal] at hConnection
                obtain ⟨fd, hSome⟩ := hConnection
                cases hFd.symm.trans hSome
          | some fd =>
              simp only [stop, closeSocket, TcpServer.descriptor, hFd, Option.map_some] at hKeeps ⊢
              refine h.stops hKeeps hStopped hBusy rfl ?_ ?_
              · intro hListening
                rw [ListenerWatched, hSignal] at hListening
                exact hListening
              · intro _
                exact hSound.clientFd fd hFd
      | shutdown fd =>
          have hShut := fun hTable => @shutdown_shut process fd (.connection process.current) hTable
            (.connection process.current)
          obtain ⟨sockets, hSame⟩ := shutdown_eq process fd
          simp only [stop, closeSocket, hSame] at hKeeps hShut ⊢
          refine h.stops hKeeps hStopped hBusy rfl ?_ ?_
          · intro hListening
            rw [ListenerWatched, hSignal] at hListening
            exact hListening
          · intro hConnection
            rw [ConnectionWatched, hSignal] at hConnection
            exact (hShut hConnection).trans (by simp)
      | close fd =>
          refine h.stops hKeeps hStopped hBusy rfl ?_ ?_
          · intro hListening
            rw [ListenerWatched, hSignal] at hListening
            exact hListening
          · intro hConnection
            rw [ConnectionWatched, hSignal] at hConnection
            exact hConnection
  | listener stage =>
      have hStopped := h.stopped_of_stopping hSignal (by simp)
      cases stage with
      | exchange =>
          cases hFd : process.server.listenFd with
          | none =>
              simp only [stop, closeSocket, TcpServer.descriptor, hFd, Option.map_none] at hKeeps ⊢
              refine h.stops hKeeps hStopped hBusy rfl ?_ ?_
              · intro hListening
                rw [ListenerWatched, hSignal] at hListening
                obtain ⟨fd, hSome⟩ := hListening
                cases hFd.symm.trans hSome
              · intro hConnection
                rw [ConnectionWatched, hSignal] at hConnection
                exact hConnection
          | some fd =>
              simp only [stop, closeSocket, TcpServer.descriptor, hFd, Option.map_some] at hKeeps ⊢
              refine h.stops hKeeps hStopped hBusy rfl ?_ ?_
              · intro _
                exact hSound.listenFd fd hFd
              · intro hConnection
                rw [ConnectionWatched, hSignal] at hConnection
                exact hConnection
      | shutdown fd =>
          have hShut := fun hTable => @shutdown_shut process fd .listener hTable .listener
          have hStays := fun resource => @shutdown_of_shut process fd resource
          obtain ⟨sockets, hSame⟩ := shutdown_eq process fd
          simp only [stop, closeSocket, hSame] at hKeeps hShut hStays ⊢
          refine h.stops hKeeps hStopped hBusy rfl ?_ ?_
          · intro hListening
            rw [ListenerWatched, hSignal] at hListening
            exact (hShut hListening).trans (by simp)
          · intro hConnection
            rw [ConnectionWatched, hSignal] at hConnection
            exact hStays _ hConnection
      | close fd =>
          refine h.stops hKeeps hStopped hBusy rfl ?_ ?_
          · intro hListening
            rw [ListenerWatched, hSignal] at hListening
            exact hListening
          · intro hConnection
            rw [ConnectionWatched, hSignal] at hConnection
            exact hConnection

/-- Before the flag, the members still hold the sockets. -/
theorem watched_beforeFlag (h : process.signal.beforeFlag = true) :
    (process.ListenerWatched ↔ ∃ fd, process.server.listenFd = some fd) ∧
      (process.ConnectionWatched ↔ ∃ fd, process.server.clientFd = some fd) := by
  unfold ListenerWatched ConnectionWatched
  generalize process.signal = signal at h
  cases signal with
  | waiting => exact ⟨Iff.rfl, Iff.rfl⟩
  | clearing => exact ⟨Iff.rfl, Iff.rfl⟩
  | stopping stage =>
      cases stage with
      | flag => exact ⟨Iff.rfl, Iff.rfl⟩
      | client stage => cases h
      | listener stage => cases h
  | finished => cases h

/-- Before the flag, the signal thread only moves on. -/
theorem Ordered.waits (h : Ordered process) (running : Bool) {signal : SignalStage}
    (hBefore : process.signal.beforeFlag = true) (hAfter : signal.beforeFlag = true)
    (hCleared : running = false → signal.hasCleared = true) :
    Ordered { process with running, signal } := by
  have hOld := watched_beforeFlag hBefore
  have hNew := @watched_beforeFlag { process with running, signal } hAfter
  have hConnection : process.ConnectionWatched → ConnectionWatched { process with running, signal } :=
    fun hWatched => hNew.2.mpr (hOld.2.mp hWatched)
  have hBusy : process.signal ≠ .finished := by
    intro hFinished
    rw [hFinished] at hBefore
    cases hBefore
  refine ⟨h.requested, Or.inr (Or.inl hAfter), hCleared,
    h.listening.imp id fun hWatched => hNew.1.mpr (hOld.1.mp hWatched), h.shut, ?_⟩
  have hRelies := h.relies
  change MainPhase.Relies { process with running, signal } process.main.phase
  cases hPhase : process.main.phase with
  | rechecking =>
      rw [hPhase] at hRelies
      exact fun hUnstopped => hConnection (hRelies hUnstopped)
  | session =>
      rw [hPhase] at hRelies
      exact hConnection hRelies
  | destroying thrown stage =>
      rw [hPhase] at hRelies
      exact absurd hRelies.2.1 hBusy
  | finished thrown =>
      rw [hPhase] at hRelies
      exact absurd hRelies.2.1 hBusy
  | _ =>
      rw [hPhase] at hRelies
      exact hRelies

/-- After `request_stop` the main thread only waits for the signal thread. -/
theorem Ordered.notices (h : Ordered process)
    (hRequested : process.stopRequested = true) : Ordered { process with signal := .finished } := by
  have hOver := h.requested hRequested
  refine ⟨h.requested, Or.inr (Or.inr ⟨rfl, hOver⟩), fun _ => rfl, Or.inl hOver, h.shut, ?_⟩
  have hRelies := h.relies
  change MainPhase.Relies { process with signal := .finished } process.main.phase
  cases hPhase : process.main.phase with
  | joining thrown =>
      rw [hPhase] at hRelies
      exact hRelies
  | destroying thrown stage =>
      rw [hPhase] at hRelies
      exact ⟨hRelies.1, rfl, hRelies.2.2⟩
  | finished thrown =>
      rw [hPhase] at hRelies
      exact ⟨hRelies.1, rfl, hRelies.2.2⟩
  | _ =>
      rw [hPhase] at hOver
      cases hOver

theorem Ordered.signalStep {event : SignalEvent} (hSound : Sound process) (h : Ordered process)
    (hStep : process.signalStep event = some next) : Ordered next := by
  revert hStep
  fun_cases ServerProcess.signalStep <;> intro hStep <;> cases hStep
  case case1 hSignal =>
      have hCleared := h.cleared
      rw [hSignal] at hCleared
      exact h.waits process.running (by rw [hSignal]; rfl) rfl hCleared
  case case2 hSignal hRequested => exact h.notices hRequested
  case case4 hSignal => exact h.waits false (by rw [hSignal]; rfl) rfl fun _ => rfl
  case case5 stage hSignal closed after hStop =>
      have hNext := h.stopStep hSound hSignal
      rw [hStop] at hNext
      exact hNext
  case case6 stage hSignal closed hStop =>
      have hNext := h.stopStep hSound hSignal
      rw [hStop] at hNext
      exact hNext

/-! The main thread. -/

/-- The main thread leaves alone what the watch over the sockets rests on. -/
structure Undisturbed (process next : ServerProcess) : Prop where
  listenFd : next.server.listenFd = process.server.listenFd
  stopped : next.server.stopped = process.server.stopped
  signal : next.signal = process.signal
  running : next.running = process.running
  stopRequested : next.stopRequested = process.stopRequested
  table : ∀ fd ∈ process.signal.held, next.descriptors.table fd = process.descriptors.table fd
  shut : (next.sockets .listener).shut = (process.sockets .listener).shut

theorem Undisturbed.listener (h : Undisturbed process next) (hWatched : process.ListenerWatched) :
    next.ListenerWatched := by
  have hTable := h.table
  unfold ListenerWatched at *
  rw [h.signal, h.listenFd, h.shut]
  split at hWatched
  · next fd hSignal =>
      rw [hSignal] at hTable
      exact (hTable fd (List.mem_singleton_self fd)).trans hWatched
  · exact hWatched
  · exact hWatched
  · exact hWatched

theorem Undisturbed.connection (h : Undisturbed process next)
    (hClient : next.server.clientFd = process.server.clientFd) (hCurrent : next.current = process.current)
    (hShut : (next.sockets (.connection process.current)).shut =
      (process.sockets (.connection process.current)).shut)
    (hWatched : process.ConnectionWatched) : next.ConnectionWatched := by
  have hTable := h.table
  unfold ConnectionWatched at *
  rw [h.signal, hClient, hCurrent, hShut]
  split at hWatched
  · exact hWatched
  · exact hWatched
  · exact hWatched
  · exact hWatched
  · next fd hSignal =>
      rw [hSignal] at hTable
      exact (hTable fd (List.mem_singleton_self fd)).trans hWatched
  · exact hWatched

theorem Ordered.moves (h : Ordered process) (hSame : Undisturbed process next)
    (hOver : next.main.phase.isOver = process.main.phase.isOver)
    (hRelies : MainPhase.Relies next next.main.phase) : Ordered next where
  requested := by
    rw [hSame.stopRequested, hOver]
    exact h.requested
  stopped := by
    rw [hSame.stopped, hSame.signal, hOver]
    exact h.stopped
  cleared := by
    rw [hSame.running, hSame.signal]
    exact h.cleared
  listening := by
    rw [hOver]
    exact h.listening.imp id hSame.listener
  shut := by
    rw [hSame.shut, hSame.stopped]
    exact h.shut
  relies := hRelies

theorem undisturbed_main (process : ServerProcess) (main : MainStage) :
    Undisturbed process { process with main } :=
  ⟨rfl, rfl, rfl, rfl, rfl, fun _ _ => rfl, rfl⟩

/-- Only the stage changes. -/
theorem Ordered.jumps (h : Ordered process) (main : MainStage)
    (hOver : main.phase.isOver = process.main.phase.isOver)
    (hRelies : MainPhase.Relies process main.phase) : Ordered { process with main } := by
  refine h.moves (undisturbed_main process main) hOver ?_
  change MainPhase.Relies { process with main } main.phase
  revert hRelies
  generalize main.phase = phase
  cases phase <;> exact id

/-- The signal thread holds other descriptors than the main thread. -/
theorem Sound.apart (hSound : Sound process) {fd : Nat} (hMain : fd ∈ process.main.held) :
    fd ∉ process.signal.held := by
  have hLedger := hSound.held
  rw [ServerProcess.held] at hLedger
  intro hSignal
  exact (List.nodup_append.mp (List.nodup_append.mp hLedger.nodup).2.1).2.2 fd hMain fd hSignal rfl

/-- The main thread takes a step of `closeSocket` on the client. -/
theorem undisturbed_close {stage : CloseStage} (hSound : Sound process)
    (hBefore : process.main.held = stage.held)
    (hStage : ∀ fd ∈ stage.held, process.descriptors.table fd = some (.connection process.current))
    (main : MainStage) :
    Undisturbed process { (process.closeSocket .clientFd stage).1 with main } := by
  cases stage with
  | exchange => exact ⟨rfl, rfl, rfl, rfl, rfl, fun _ _ => rfl, rfl⟩
  | shutdown fd =>
      have hShut := shutdown_shut (hStage fd (List.mem_singleton_self fd)) .listener
      obtain ⟨sockets, hSame⟩ := shutdown_eq process fd
      simp only [closeSocket, hSame] at hShut ⊢
      exact ⟨rfl, rfl, rfl, rfl, rfl, fun _ _ => rfl, hShut.trans (by simp)⟩
  | close fd =>
      refine ⟨rfl, rfl, rfl, rfl, rfl, ?_, rfl⟩
      intro other hOther
      refine Descriptors.close_table_of_ne ?_
      rintro rfl
      exact hSound.apart (hBefore ▸ List.mem_singleton_self other) hOther

/-- A new descriptor is none that the signal thread holds. -/
theorem openAt_table_held {fd : Nat} (hSound : Sound process) (hFree : process.descriptors.table fd = none)
    (resource : Resource) : ∀ other ∈ process.signal.held,
      (process.openAt fd resource).descriptors.table other = process.descriptors.table other := by
  intro other hOther
  refine Descriptors.openAt_table_of_ne resource ?_
  rintro rfl
  have hMem : other ∈ process.held := List.mem_append_right _ (List.mem_append_right _ hOther)
  exact hSound.held.not_mem hFree hMem

/-- A socket that is read or written is no more shut than before. -/
theorem setSocket_shut {resource : Resource} {state : SocketState}
    (h : state.shut = (process.sockets resource).shut) (other : Resource) :
    ((process.setSocket resource state).sockets other).shut = (process.sockets other).shut := by
  by_cases hSame : other = resource
  · subst hSame
    simp [setSocket, h]
  · simp [setSocket, hSame]

theorem Ordered.acceptStep {result : CallResult} (hSound : Sound process) (h : Ordered process)
    (hStep : process.acceptStep result = some next) : Ordered next := by
  have hAimed := hSound.main
  have hRelies := h.relies
  have hWatched : process.main.phase.isOver = false → process.server.stopped = false →
      process.signal.beforeFlag = true ∧ process.ListenerWatched := by
    intro hOver hUnstopped
    refine ⟨?_, h.listening.resolve_left (by simp [hOver])⟩
    rcases h.stopped with hStopped | hBefore | ⟨_, hLate⟩
    · cases hStopped.symm.trans hUnstopped
    · exact hBefore
    · cases hOver.symm.trans hLate
  revert hStep
  fun_cases ServerProcess.acceptStep <;> intro hStep <;> cases hStep
  case case1 stage hMain closed after hClose =>
      rw [hMain] at hAimed
      have hSame := undisturbed_close hSound (by rw [hMain]; rfl) (Aimed.closing (Or.inl hAimed))
        (.accept after)
      rw [hClose] at hSame
      exact h.moves hSame (by rw [hMain]; rfl) trivial
  case case2 stage hMain closed hClose =>
      rw [hMain] at hAimed
      have hSame := undisturbed_close hSound (by rw [hMain]; rfl) (Aimed.closing (Or.inl hAimed)) .checkStop
      rw [hClose] at hSame
      exact h.moves hSame (by rw [hMain]; rfl) trivial
  case case3 hMain =>
      split_ifs
      · exact h.jumps _ (by rw [hMain]; rfl) (by simp [MainStage.phase, MainPhase.Relies])
      · exact h.jumps _ (by rw [hMain]; rfl) trivial
  case case4 hMain => exact h.jumps _ (by rw [hMain]; rfl) fun _ => rfl
  case case5 fd hMain hNone =>
      rw [hMain] at hRelies
      refine h.jumps _ (by rw [hMain]; rfl) (Or.inr ?_)
      by_contra hUnstopped
      rw [Bool.not_eq_true] at hUnstopped
      obtain ⟨hBefore, hListening⟩ := hWatched (by rw [hMain]; rfl) hUnstopped
      obtain ⟨copy, hCopy⟩ := (watched_beforeFlag hBefore).1.mp hListening
      rw [hRelies hUnstopped, hCopy, Option.bind_some, hSound.listenFd copy hCopy] at hNone
      cases hNone
  case case6 fd hMain resource hSome =>
      rw [hMain] at hRelies
      exact h.jumps _ (by rw [hMain]; rfl) hRelies
  case case7 copy resource fd hMain hReady =>
      refine h.moves ⟨rfl, rfl, rfl, rfl, rfl, ?_, ?_⟩ (by rw [hMain]; rfl) trivial
      · exact openAt_table_held hSound hReady.2 _
      · exact @setSocket_shut process resource
          { process.sockets resource with ready := (process.sockets resource).ready - 1 } rfl .listener
  case case9 copy resource hMain hShut =>
      rw [hMain] at hAimed
      exact h.jumps _ (by rw [hMain]; rfl) (Or.inr (h.shut (hAimed.2.1 ▸ hShut)))
  case case11 copy resource hMain => exact h.jumps _ (by rw [hMain]; rfl) (Or.inl rfl)
  case case12 copy resource hMain =>
      rw [hMain] at hRelies
      exact h.jumps _ (by rw [hMain]; rfl) hRelies
  case case13 copy hMain =>
      rw [hMain] at hRelies
      split_ifs with hStopped
      · exact h.jumps _ (by rw [hMain]; rfl) (Or.inr hStopped)
      · exact h.jumps _ (by rw [hMain]; rfl) hRelies
  case case14 error hMain =>
      rw [hMain] at hRelies
      split_ifs with hStopped
      · exact h.jumps _ (by rw [hMain]; rfl) (by simp [MainStage.phase, MainPhase.Relies])
      · refine h.jumps _ (by rw [hMain]; rfl) ?_
        rintro thrown ⟨⟩
        exact hRelies.resolve_right hStopped
  case case15 fd hMain =>
      refine h.moves ⟨rfl, rfl, rfl, rfl, rfl, fun _ _ => rfl, rfl⟩ (by rw [hMain]; rfl) ?_
      intro hUnstopped
      obtain ⟨hBefore, _⟩ := hWatched (by rw [hMain]; rfl) hUnstopped
      refine (watched_beforeFlag ?_).2.mpr ⟨fd, rfl⟩
      exact hBefore
  case case16 hMain =>
      rw [hMain] at hRelies
      split_ifs with hStopped
      · exact h.jumps _ (by rw [hMain]; rfl) trivial
      · exact h.jumps _ (by rw [hMain]; rfl) (hRelies (Bool.not_eq_true _ ▸ hStopped))
  case case17 stage hMain closed after hClose =>
      rw [hMain] at hAimed
      have hSame := undisturbed_close hSound (by rw [hMain]; rfl) (Aimed.closing (Or.inr hAimed))
        (.drop after)
      rw [hClose] at hSame
      exact h.moves hSame (by rw [hMain]; rfl) trivial
  case case18 stage hMain closed hClose =>
      rw [hMain] at hAimed
      have hSame := undisturbed_close hSound (by rw [hMain]; rfl) (Aimed.closing (Or.inr hAimed))
        (.leaving none)
      rw [hClose] at hSame
      exact h.moves hSame (by rw [hMain]; rfl) (by simp [MainStage.phase, MainPhase.Relies])

/-- What `stop` does to the members in the destructor. -/
theorem emptied_stop {stage : StopStage} (h : stage.Emptied process.server) :
    (process.stop stage).1.server.stopped = true ∧
      match (process.stop stage).2 with
      | some after => after.Emptied (process.stop stage).1.server
      | none => (process.stop stage).1.server.clientFd = none ∧
          (process.stop stage).1.server.listenFd = none := by
  cases stage with
  | flag => exact ⟨rfl, rfl⟩
  | client stage =>
      cases stage with
      | exchange =>
          cases hFd : process.server.clientFd with
          | none =>
              simp only [stop, closeSocket, TcpServer.descriptor, hFd, Option.map_none]
              exact ⟨h, h, rfl⟩
          | some fd =>
              simp only [stop, closeSocket, TcpServer.descriptor, hFd, Option.map_some]
              exact ⟨h, h, rfl⟩
      | shutdown fd =>
          obtain ⟨sockets, hSame⟩ := shutdown_eq process fd
          simp only [stop, closeSocket, hSame]
          exact ⟨h.1, h⟩
      | close fd => exact ⟨h.1, h⟩
  | listener stage =>
      cases stage with
      | exchange =>
          cases hFd : process.server.listenFd with
          | none =>
              simp only [stop, closeSocket, TcpServer.descriptor, hFd, Option.map_none]
              exact ⟨h.1, h.2, rfl⟩
          | some fd =>
              simp only [stop, closeSocket, TcpServer.descriptor, hFd, Option.map_some]
              exact ⟨h.1, h.1, h.2, rfl⟩
      | shutdown fd =>
          obtain ⟨sockets, hSame⟩ := shutdown_eq process fd
          simp only [stop, closeSocket, hSame]
          exact ⟨h.1, h⟩
      | close fd => exact ⟨h.1, h.2⟩

/-- A step of the destructor. -/
theorem Ordered.destroys {thrown : Option AcceptError} {stage : StopStage} (h : Ordered process)
    (hMain : process.main = .destroy thrown stage) (main : MainStage)
    (hNext : main = match (process.stop stage).2 with
      | some after => .destroy thrown after
      | none => .finished thrown) :
    Ordered { (process.stop stage).1 with main } := by
  have hKeeps := stop_keeps process stage
  have hRelies := h.relies
  rw [hMain] at hRelies
  obtain ⟨hThrown, hFinished, hEmptied⟩ := hRelies
  obtain ⟨hStopped, hAfter⟩ := emptied_stop hEmptied
  have hSignal : (process.stop stage).1.signal = .finished := hKeeps.signal.trans hFinished
  have hOver : main.phase.isOver = true := by
    rw [hNext]
    cases (process.stop stage).2 <;> rfl
  refine ⟨fun _ => hOver, Or.inl hStopped, ?_, Or.inl hOver, fun _ => hStopped, ?_⟩
  · intro _
    change (process.stop stage).1.signal.hasCleared = true
    rw [hSignal]
    rfl
  · subst hNext
    revert hAfter
    cases hStop : (process.stop stage).2 with
    | none => exact fun hBoth => ⟨hThrown, hSignal, hBoth.1, hBoth.2⟩
    | some after => exact fun hAfter => ⟨hThrown, hSignal, hAfter⟩

theorem Ordered.outerStep {result : CallResult} (h : Ordered process)
    (hStep : process.outerStep result = some next) : Ordered next := by
  have hRelies := h.relies
  revert hStep
  fun_cases ServerProcess.outerStep <;> intro hStep <;> cases hStep
  case case1 hMain =>
      split_ifs
      · exact h.jumps _ (by rw [hMain]; rfl) trivial
      · exact h.jumps _ (by rw [hMain]; rfl) (by simp [MainStage.phase, MainPhase.Relies])
  case case2 thrown hMain =>
      rw [hMain] at hRelies
      refine ⟨fun _ => rfl, ?_, h.cleared, Or.inl rfl, h.shut, hRelies⟩
      exact h.stopped.imp id (Or.imp id fun hLate => ⟨hLate.1, rfl⟩)
  case case3 thrown hMain hJoined =>
      rw [hMain] at hRelies
      exact h.jumps _ (by rw [hMain]; rfl) ⟨hRelies, hJoined, trivial⟩
  case case5 thrown stage hMain closed after hStop =>
      have hNext := h.destroys hMain (.destroy thrown after) (by rw [hStop])
      rw [hStop] at hNext
      exact hNext
  case case6 thrown stage hMain closed hStop =>
      have hNext := h.destroys hMain (.finished thrown) (by rw [hStop])
      rw [hStop] at hNext
      exact hNext

/-- A step on the connection that is being served, or its end. -/
theorem Ordered.serves (h : Ordered process) (hPhase : process.main.phase = .session)
    (hSame : Undisturbed process next) (hClient : next.server.clientFd = process.server.clientFd)
    (hCurrent : next.current = process.current)
    (hShut : (next.sockets (.connection process.current)).shut =
      (process.sockets (.connection process.current)).shut)
    (hNext : next.main.phase = .session ∨ next.main.phase = .apart) : Ordered next := by
  have hRelies := h.relies
  rw [hPhase] at hRelies
  rcases hNext with hSession | hApart
  · refine h.moves hSame (by rw [hSession, hPhase]) ?_
    rw [hSession]
    exact hSame.connection hClient hCurrent hShut hRelies
  · refine h.moves hSame (by rw [hApart, hPhase]; rfl) ?_
    rw [hApart]
    trivial

theorem close_table_held {fd left : Nat} (hSound : Sound process)
    (hMain : process.main = .writing fd left) : ∀ other ∈ process.signal.held,
      (process.close fd).descriptors.table other = process.descriptors.table other := by
  intro other hOther
  refine Descriptors.close_table_of_ne ?_
  rintro rfl
  exact hSound.apart (by rw [hMain]; exact List.mem_singleton_self other) hOther

theorem Ordered.serveStep {result : CallResult} (hSound : Sound process) (h : Ordered process)
    (hStep : process.serveStep result = some next) : Ordered next := by
  revert hStep
  fun_cases ServerProcess.serveStep <;> intro hStep <;> cases hStep
  case case1 hMain =>
      refine h.serves (by rw [hMain]; rfl) (undisturbed_main process _) rfl rfl rfl ?_
      cases process.running with
      | false => exact Or.inr rfl
      | true => exact Or.inl rfl
  case case6 fd resource part left count hMain socket hCount =>
      have hShut := @setSocket_shut process resource { socket with ready := socket.ready - count } rfl
      refine h.serves (by rw [hMain]; rfl)
        ⟨rfl, rfl, rfl, rfl, rfl, fun _ _ => rfl, hShut .listener⟩ rfl rfl (hShut _) (Or.inl ?_)
      dsimp only
      split_ifs <;> rfl
  case case19 left fd hMain hFree =>
      exact h.serves (by rw [hMain]; rfl)
        ⟨rfl, rfl, rfl, rfl, rfl, openAt_table_held hSound hFree _, rfl⟩ rfl rfl rfl (Or.inl rfl)
  case case22 fd left hMain =>
      exact h.serves (by rw [hMain]; rfl)
        ⟨rfl, rfl, rfl, rfl, rfl, close_table_held hSound hMain, rfl⟩ rfl rfl rfl (Or.inl rfl)
  case case23 fd left hMain =>
      exact h.serves (by rw [hMain]; rfl)
        ⟨rfl, rfl, rfl, rfl, rfl, close_table_held hSound hMain, rfl⟩ rfl rfl rfl (Or.inr rfl)
  case case28 fd resource left count hMain socket hCount =>
      have hShut := @setSocket_shut process resource { socket with room := socket.room - count } rfl
      refine h.serves (by rw [hMain]; rfl)
        ⟨rfl, rfl, rfl, rfl, rfl, fun _ _ => rfl, hShut .listener⟩ rfl rfl (hShut _) (Or.inl ?_)
      dsimp only
      split_ifs <;> rfl
  all_goals
    refine h.serves ?_ (undisturbed_main process _) rfl rfl rfl ?_
    · simp only [*, MainStage.phase]
    · first
        | exact Or.inl rfl
        | exact Or.inr rfl

/-- What the network does to a socket. -/
theorem Ordered.arrives {resource : Resource} {state : SocketState} (h : Ordered process)
    (hShut : state.shut = (process.sockets resource).shut) :
    Ordered (process.setSocket resource state) := by
  have hSame : Undisturbed process (process.setSocket resource state) :=
    ⟨rfl, rfl, rfl, rfl, rfl, fun _ _ => rfl, setSocket_shut hShut .listener⟩
  have hConnection := hSame.connection rfl rfl (setSocket_shut hShut _)
  refine h.moves hSame rfl ?_
  have hRelies := h.relies
  change MainPhase.Relies (process.setSocket resource state) process.main.phase
  cases hPhase : process.main.phase with
  | rechecking =>
      rw [hPhase] at hRelies
      exact fun hUnstopped => hConnection (hRelies hUnstopped)
  | session =>
      rw [hPhase] at hRelies
      exact hConnection hRelies
  | _ =>
      rw [hPhase] at hRelies
      exact hRelies

theorem Ordered.step {action : ProcessAction} (hSound : Sound process) (h : Ordered process)
    (hStep : process.step action = some next) : Ordered next := by
  cases action with
  | main result =>
      rcases mainStep_cases hStep with hOuter | hAccept | hServe
      · exact h.outerStep hOuter
      · exact h.acceptStep hSound hAccept
      · exact h.serveStep hSound hServe
  | signal event => exact h.signalStep hSound hStep
  | arrive resource count =>
      rw [ServerProcess.step] at hStep
      split_ifs at hStep
      cases hStep
      exact h.arrives rfl
  | drain resource count =>
      cases hStep
      exact h.arrives rfl
  | peerEnds resource =>
      cases hStep
      exact h.arrives rfl

theorem ordered_initial (fd : Nat) : Ordered (initial fd) where
  requested := by simp [initial]
  stopped := Or.inr (Or.inl rfl)
  cleared := by simp [initial]
  listening := Or.inr ⟨fd, rfl⟩
  shut := by simp [initial]
  relies := trivial

/-! What holds of the descriptors. -/

/-- Both invariants hold in every state of every run. -/
theorem sound_ordered_run {fd : Nat} {actions : List ProcessAction}
    (hRun : Runs.run step (initial fd) actions = some process) : Sound process ∧ Ordered process := by
  refine Runs.induct (motive := fun _ process => Sound process ∧ Ordered process)
    ⟨sound_initial fd, ordered_initial fd⟩ ?_ hRun
  intro past middle action next _ hBoth hStep
  exact ⟨hBoth.1.step hStep, hBoth.2.step hBoth.1 hStep⟩

/-- The two threads and the descriptors. -/
structure DescriptorsSafe (process : ServerProcess) : Prop where
  /-- Each `close` is given an open descriptor, and no resource is closed twice. -/
  closedOnce : process.descriptors.closed.Nodup ∧ none ∉ process.descriptors.closed
  accepts : ∀ fd resource, process.main = .acceptBlocked fd resource → resource = .listener
  /-- A frame is read from the connection that was accepted last, and is answered there. -/
  receives : ∀ fd resource part left, process.main = .receiveBlocked fd resource part left →
    resource = .connection process.current
  sends : ∀ fd resource left, process.main = .sendBlocked fd resource left →
    resource = .connection process.current
  /-- What fails because of the stop is not reported as an error. -/
  reported : ∀ error, process.main = .finished (some error) → error = .other
  /-- At the end nothing is open, and what was opened was closed once. -/
  noneLeft : ∀ thrown, process.main = .finished thrown →
    (∀ fd, process.descriptors.table fd = none) ∧
      List.Perm process.descriptors.closed (process.descriptors.opened.map some)

theorem Ordered.held_finished {thrown : Option AcceptError} (h : Ordered process)
    (hMain : process.main = .finished thrown) : process.held = [] := by
  have hRelies := h.relies
  rw [hMain] at hRelies
  obtain ⟨_, hSignal, hClient, hListen⟩ := hRelies
  rw [held, TcpServer.held, hMain, hSignal, hClient, hListen]
  rfl

/-- In every interleaving of the two threads, of the calls that they make and of what
the network does, no descriptor is closed twice or while it means something else, no
call is made on a descriptor that was given out again, and none is left at the end. -/
theorem descriptors_safe {fd : Nat} {actions : List ProcessAction}
    (hRun : Runs.run step (initial fd) actions = some process) : DescriptorsSafe process := by
  obtain ⟨hSound, hOrdered⟩ := sound_ordered_run hRun
  have hAimed := hSound.main
  have hRelies := hOrdered.relies
  constructor
  · exact hSound.held.closed_once hSound.nodup
  · intro copy resource hMain
    rw [hMain] at hAimed
    exact hAimed.2.1
  · intro copy resource part left hMain
    rw [hMain] at hAimed
    exact hAimed.1
  · intro copy resource left hMain
    rw [hMain] at hAimed
    exact hAimed.1
  · intro error hMain
    rw [hMain] at hRelies
    exact hRelies.1 error rfl
  · intro thrown hMain
    refine Descriptors.Held.all_closed ?_
    rw [← hOrdered.held_finished hMain]
    exact hSound.held

/-- A signal arrives between `accept` and the store of the client. -/
def sampleStop : List ProcessAction :=
  List.replicate 5 (.main .done) ++
    [.arrive .listener 1, .main (.opened 4), .signal .received, .signal .step, .signal .step, .signal .step]

/-- The end of the process after it. -/
def sampleEnd : List ProcessAction :=
  [.main .done, .signal .step, .main .done, .signal .step, .main .done, .signal .step] ++
    List.replicate 7 (.main .done)

theorem descriptors_safe_sample : ∃ process,
    Runs.run step (initial 3) (sampleStop ++ sampleEnd) = some process ∧
      process.main = .finished none ∧ process.descriptors.opened = [.listener, .connection 1] ∧
      DescriptorsSafe process :=
  ⟨_, rfl, rfl, rfl, @descriptors_safe _ 3 (sampleStop ++ sampleEnd) rfl⟩

end ServerProcess
end LogBridge
