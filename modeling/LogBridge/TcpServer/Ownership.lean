import LogBridge.TcpServer.Model

/-! Who holds which descriptor. Whatever the order of the two threads, a descriptor
is held by a member of the server, by a thread that is about to close it or by the
call that has just opened it, and by no two of them. A copy of the number that a
thread still has may be closed under it, but it never comes to mean another resource. -/
namespace LogBridge

def CloseStage.held : CloseStage → List Nat
  | .exchange => []
  | .shutdown fd | .close fd => [fd]

def StopStage.held : StopStage → List Nat
  | .flag => []
  | .client stage | .listener stage => stage.held

def MainStage.held : MainStage → List Nat
  | .accept stage | .drop stage => stage.held
  | .store fd | .writing fd _ => [fd]
  | .destroy _ stage => stage.held
  | _ => []

def SignalStage.held : SignalStage → List Nat
  | .stopping stage => stage.held
  | _ => []

def TcpServer.held (server : TcpServer) : List Nat :=
  server.listenFd.toList ++ server.clientFd.toList

namespace ServerProcess

variable {process next : ServerProcess} {rest : List Nat}

def held (process : ServerProcess) : List Nat :=
  process.server.held ++ (process.main.held ++ process.signal.held)

/-! Closing. -/

/-- What `closeSocket` and `stop` leave as it is. -/
structure Keeps (closing : List Nat) (process next : ServerProcess) : Prop where
  others : ∀ fd ∉ closing, next.descriptors.table fd = process.descriptors.table fd
  table : ∀ fd, next.descriptors.table fd = process.descriptors.table fd ∨
    next.descriptors.table fd = none
  opened : next.descriptors.opened = process.descriptors.opened
  listenFd : next.server.listenFd = process.server.listenFd ∨ next.server.listenFd = none
  clientFd : next.server.clientFd = process.server.clientFd ∨ next.server.clientFd = none
  current : next.current = process.current
  main : next.main = process.main
  signal : next.signal = process.signal
  running : next.running = process.running
  stopRequested : next.stopRequested = process.stopRequested

theorem shutdown_eq (process : ServerProcess) (fd : Nat) :
    ∃ sockets, process.shutdown fd = { process with sockets } := by
  unfold shutdown
  split
  · exact ⟨process.sockets, rfl⟩
  · exact ⟨_, rfl⟩

theorem keeps_members (closing : List Nat) (process : ServerProcess) (server : TcpServer)
    (sockets : Resource → SocketState)
    (hListen : server.listenFd = process.server.listenFd ∨ server.listenFd = none)
    (hClient : server.clientFd = process.server.clientFd ∨ server.clientFd = none) :
    Keeps closing process { process with server, sockets } where
  others _ _ := rfl
  table _ := Or.inl rfl
  opened := rfl
  listenFd := hListen
  clientFd := hClient
  current := rfl
  main := rfl
  signal := rfl
  running := rfl
  stopRequested := rfl

theorem closeSocket_keeps (process : ServerProcess) (member : SocketMember) (stage : CloseStage) :
    Keeps stage.held process (process.closeSocket member stage).1 := by
  cases stage with
  | exchange =>
      cases member with
      | listenFd => exact keeps_members _ process _ process.sockets (Or.inr rfl) (Or.inl rfl)
      | clientFd => exact keeps_members _ process _ process.sockets (Or.inl rfl) (Or.inr rfl)
  | shutdown fd =>
      obtain ⟨sockets, hSame⟩ := shutdown_eq process fd
      rw [closeSocket, hSame]
      exact keeps_members _ process process.server sockets (Or.inl rfl) (Or.inl rfl)
  | close fd =>
      refine { keeps_members [fd] process process.server process.sockets (Or.inl rfl) (Or.inl rfl) with
        others := ?_, table := Descriptors.close_table, opened := rfl }
      intro other hOther
      exact Descriptors.close_table_of_ne fun hSame => hOther (hSame ▸ List.mem_singleton_self fd)

/-- The descriptor passes from the member to the thread, which then closes it. -/
theorem closeSocket_held (member : SocketMember) {stage : CloseStage}
    (h : process.descriptors.Held (process.server.held ++ (stage.held ++ rest))) :
    (process.closeSocket member stage).1.descriptors.Held
      ((process.closeSocket member stage).1.server.held ++
        (((process.closeSocket member stage).2.map CloseStage.held).getD [] ++ rest)) := by
  cases stage with
  | exchange =>
      refine h.pass ?_
      intro fd
      cases member with
      | listenFd =>
          cases hFd : process.server.listenFd with
          | none => simp [closeSocket, TcpServer.take, TcpServer.descriptor, TcpServer.held, CloseStage.held, hFd]
          | some taken =>
              simp [closeSocket, TcpServer.take, TcpServer.descriptor, TcpServer.held, CloseStage.held, hFd,
                List.count_cons]
              omega
      | clientFd =>
          cases hFd : process.server.clientFd with
          | none => simp [closeSocket, TcpServer.take, TcpServer.descriptor, TcpServer.held, CloseStage.held, hFd]
          | some taken =>
              simp [closeSocket, TcpServer.take, TcpServer.descriptor, TcpServer.held, CloseStage.held, hFd,
                List.count_cons]
  | shutdown fd =>
      obtain ⟨sockets, hSame⟩ := shutdown_eq process fd
      rw [closeSocket, hSame]
      exact h
  | close fd =>
      refine h.close ?_
      intro other
      simp only [CloseStage.held, closeSocket, ServerProcess.close, Option.map_none, Option.getD_none,
        List.count_append, List.count_singleton, List.count_nil, beq_iff_eq]
      split_ifs <;> omega

theorem stop_keeps (process : ServerProcess) (stage : StopStage) :
    Keeps stage.held process (process.stop stage).1 := by
  cases stage with
  | flag => exact keeps_members _ process _ process.sockets (Or.inl rfl) (Or.inl rfl)
  | client stage =>
      have hClosed := closeSocket_keeps process .clientFd stage
      rw [stop]
      revert hClosed
      rcases process.closeSocket .clientFd stage with ⟨closed, _ | after⟩ <;> exact id
  | listener stage =>
      have hClosed := closeSocket_keeps process .listenFd stage
      rw [stop]
      revert hClosed
      rcases process.closeSocket .listenFd stage with ⟨closed, _ | after⟩ <;> exact id

theorem stop_held {stage : StopStage}
    (h : process.descriptors.Held (process.server.held ++ (stage.held ++ rest))) :
    (process.stop stage).1.descriptors.Held ((process.stop stage).1.server.held ++
      (((process.stop stage).2.map StopStage.held).getD [] ++ rest)) := by
  cases stage with
  | flag => exact h
  | client stage =>
      have hClosed := closeSocket_held .clientFd h
      rw [stop]
      revert hClosed
      rcases process.closeSocket .clientFd stage with ⟨closed, _ | after⟩ <;> exact id
  | listener stage =>
      have hClosed := closeSocket_held .listenFd h
      rw [stop]
      revert hClosed
      rcases process.closeSocket .listenFd stage with ⟨closed, _ | after⟩ <;> exact id

/-! What the numbers mean. -/

/-- A copy of a descriptor: the number still means the resource, or nothing. -/
def MeansAtMost (table : Nat → Option Resource) (fd : Nat) (resource : Resource) : Prop :=
  table fd = some resource ∨ table fd = none

end ServerProcess

open ServerProcess

/-- What the main thread relies on where it stands. Before a client is stored, the
member holds none. -/
def MainStage.Aimed (table : Nat → Option Resource) (clientFd : Option Nat) (current : Nat) :
    MainStage → Prop
  | .accept (.shutdown fd) | .accept (.close fd) =>
      clientFd = none ∧ table fd = some (.connection current)
  | .checkStop | .loadListen | .acceptFailed _ => clientFd = none
  | .acceptCall fd | .acceptRetry fd =>
      clientFd = none ∧ ∀ copy, fd = some copy → MeansAtMost table copy .listener
  | .acceptBlocked fd resource =>
      clientFd = none ∧ resource = .listener ∧
        ∀ copy, fd = some copy → MeansAtMost table copy .listener
  | .store fd => clientFd = none ∧ table fd = some (.connection current)
  | .drop (.shutdown fd) | .drop (.close fd) => table fd = some (.connection current)
  | .receiveCall fd _ _ | .received fd _ | .sendCall fd _ => MeansAtMost table fd (.connection current)
  | .receiveBlocked fd resource _ _ | .sendBlocked fd resource _ =>
      resource = .connection current ∧ MeansAtMost table fd (.connection current)
  | .writing fd _ => ∃ number, table fd = some (.file number)
  | _ => True

/-- The number of a connection or a file. -/
def Resource.number : Resource → Nat
  | .listener => 0
  | .connection number | .file number => number

namespace ServerProcess

variable {process next : ServerProcess} {result : CallResult}

/-- The ledger is right, and each number means what its user takes it for. -/
structure Sound (process : ServerProcess) : Prop where
  held : process.descriptors.Held process.held
  numbered : ∀ resource ∈ process.descriptors.opened,
    resource.number < process.descriptors.opened.length
  nodup : process.descriptors.opened.Nodup
  listenFd : ∀ fd, process.server.listenFd = some fd → process.descriptors.table fd = some .listener
  clientFd : ∀ fd, process.server.clientFd = some fd →
    process.descriptors.table fd = some (.connection process.current)
  main : process.main.Aimed process.descriptors.table process.server.clientFd process.current

/-- The main thread moves on, and holds what it has held. -/
theorem Sound.moves (h : Sound process) (main : MainStage) (hHeld : main.held = process.main.held)
    (hMain : main.Aimed process.descriptors.table process.server.clientFd process.current) :
    Sound { process with main } where
  held := by
    have hLedger := h.held
    unfold ServerProcess.held at hLedger ⊢
    rwa [← hHeld] at hLedger
  numbered := h.numbered
  nodup := h.nodup
  listenFd := h.listenFd
  clientFd := h.clientFd
  main := hMain

theorem Aimed.meansAtMost {table changed : Nat → Option Resource} {fd : Nat} {resource : Resource}
    (hTable : changed fd = table fd ∨ changed fd = none) (h : MeansAtMost table fd resource) :
    MeansAtMost changed fd resource := by
  rcases hTable with hSame | hNone
  · exact h.imp hSame.trans hSame.trans
  · exact Or.inr hNone

/-- What `closeSocket` is closing in the main thread. -/
theorem Aimed.closing {table : Nat → Option Resource} {clientFd : Option Nat} {current : Nat}
    {stage : CloseStage} (h : (MainStage.accept stage).Aimed table clientFd current ∨
      (MainStage.drop stage).Aimed table clientFd current) :
    ∀ fd ∈ stage.held, table fd = some (.connection current) := by
  intro fd hMem
  cases stage with
  | exchange => cases hMem
  | shutdown other => exact (List.mem_singleton.mp hMem) ▸ h.elim And.right id
  | close other => exact (List.mem_singleton.mp hMem) ▸ h.elim And.right id

/-- The main thread is not misled when descriptors are closed that it does not hold. -/
theorem Aimed.keeps {closing : List Nat} (h : process.main.Aimed process.descriptors.table
      process.server.clientFd process.current)
    (hKeeps : Keeps closing process next) (hOthers : ∀ fd ∈ process.main.held, fd ∉ closing) :
    process.main.Aimed next.descriptors.table next.server.clientFd process.current := by
  have hNone : process.server.clientFd = none → next.server.clientFd = none := by
    intro hBefore
    exact hKeeps.clientFd.elim (fun hSame => hSame.trans hBefore) id
  have hCopy : ∀ fd resource, MeansAtMost process.descriptors.table fd resource →
      MeansAtMost next.descriptors.table fd resource :=
    fun fd resource hMeans => Aimed.meansAtMost (hKeeps.table fd) hMeans
  have hOwn : ∀ fd ∈ process.main.held, next.descriptors.table fd = process.descriptors.table fd :=
    fun fd hMem => hKeeps.others fd (hOthers fd hMem)
  clear hOthers
  revert h hOwn
  generalize process.main = main
  intro h hOwn
  cases main with
  | accept stage =>
      cases stage with
      | exchange => trivial
      | shutdown fd => exact ⟨hNone h.1, (hOwn fd (List.mem_singleton_self fd)).trans h.2⟩
      | close fd => exact ⟨hNone h.1, (hOwn fd (List.mem_singleton_self fd)).trans h.2⟩
  | checkStop => exact hNone h
  | loadListen => exact hNone h
  | acceptCall fd => exact ⟨hNone h.1, fun copy hFd => hCopy copy _ (h.2 copy hFd)⟩
  | acceptBlocked fd resource => exact ⟨hNone h.1, h.2.1, fun copy hFd => hCopy copy _ (h.2.2 copy hFd)⟩
  | acceptRetry fd => exact ⟨hNone h.1, fun copy hFd => hCopy copy _ (h.2 copy hFd)⟩
  | acceptFailed error => exact hNone h
  | store fd => exact ⟨hNone h.1, (hOwn fd (List.mem_singleton_self fd)).trans h.2⟩
  | drop stage =>
      cases stage with
      | exchange => trivial
      | shutdown fd => exact (hOwn fd (List.mem_singleton_self fd)).trans h
      | close fd => exact (hOwn fd (List.mem_singleton_self fd)).trans h
  | receiveCall fd part left => exact hCopy fd _ h
  | receiveBlocked fd resource part left => exact ⟨h.1, hCopy fd _ h.2⟩
  | received fd part => exact hCopy fd _ h
  | writing fd left => exact h.imp fun number hFile => (hOwn fd (List.mem_singleton_self fd)).trans hFile
  | sendCall fd left => exact hCopy fd _ h
  | sendBlocked fd resource left => exact ⟨h.1, hCopy fd _ h.2⟩
  | _ => trivial

/-! Closing keeps the ledger. -/

/-- A member is not one of the descriptors that a thread closes. -/
theorem Sound.others {closing : List Nat} (h : Sound process) (hKeeps : Keeps closing process next)
    (hClosing : ∀ fd ∈ closing, fd ∈ process.main.held ++ process.signal.held) :
    (∀ fd, next.server.listenFd = some fd → next.descriptors.table fd = some .listener) ∧
      ∀ fd, next.server.clientFd = some fd →
        next.descriptors.table fd = some (.connection next.current) := by
  have hLedger := h.held
  rw [ServerProcess.held, TcpServer.held] at hLedger
  constructor
  · intro fd hFd
    rcases hKeeps.listenFd with hSame | hNone
    · have hBefore := hSame.symm.trans hFd
      have hMem : fd ∈ process.server.listenFd.toList ++ process.server.clientFd.toList := by simp [hBefore]
      rw [hKeeps.others fd fun hIn => hLedger.disjoint hMem (hClosing fd hIn)]
      exact h.listenFd fd hBefore
    · cases hNone.symm.trans hFd
  · intro fd hFd
    rcases hKeeps.clientFd with hSame | hNone
    · have hBefore := hSame.symm.trans hFd
      have hMem : fd ∈ process.server.listenFd.toList ++ process.server.clientFd.toList := by simp [hBefore]
      rw [hKeeps.others fd fun hIn => hLedger.disjoint hMem (hClosing fd hIn), hKeeps.current]
      exact h.clientFd fd hBefore
    · cases hNone.symm.trans hFd

/-- The main thread takes a step of `closeSocket` or `stop`. -/
theorem Sound.mainCloses (h : Sound process) (main : MainStage)
    (hKeeps : Keeps process.main.held process next)
    (hHeld : next.descriptors.Held (next.server.held ++ (main.held ++ process.signal.held)))
    (hMain : main.Aimed next.descriptors.table next.server.clientFd next.current) :
    Sound { next with main } := by
  obtain ⟨hListen, hClient⟩ := h.others hKeeps fun fd hMem => List.mem_append_left _ hMem
  refine ⟨?_, ?_, ?_, hListen, hClient, hMain⟩
  · rw [← hKeeps.signal] at hHeld
    exact hHeld
  · rw [hKeeps.opened]
    exact h.numbered
  · rw [hKeeps.opened]
    exact h.nodup

/-- The signal thread takes a step of `stop`. -/
theorem Sound.signalCloses (h : Sound process) (signal : SignalStage)
    (hKeeps : Keeps process.signal.held process next)
    (hHeld : next.descriptors.Held (next.server.held ++ (signal.held ++ process.main.held))) :
    Sound { next with signal } := by
  obtain ⟨hListen, hClient⟩ := h.others hKeeps fun fd hMem => List.mem_append_right _ hMem
  have hLedger := h.held
  rw [ServerProcess.held] at hLedger
  have hMainHeld : ∀ fd ∈ process.main.held, fd ∉ process.signal.held := by
    intro fd hMem hSignal
    exact (List.nodup_append.mp (List.nodup_append.mp hLedger.nodup).2.1).2.2 fd hMem fd hSignal rfl
  refine ⟨?_, ?_, ?_, hListen, hClient, ?_⟩
  · rw [← hKeeps.main] at hHeld
    refine hHeld.pass ?_
    intro fd
    simp only [ServerProcess.held, List.count_append]
    omega
  · rw [hKeeps.opened]
    exact h.numbered
  · rw [hKeeps.opened]
    exact h.nodup
  · have hAimed := Aimed.keeps h.main hKeeps hMainHeld
    rw [hKeeps.main, hKeeps.current]
    exact hAimed

/-! A new descriptor. -/

/-- The main thread opens a descriptor that it then holds. It has no copy of another. -/
theorem Sound.opens {resource : Resource} {fd : Nat} (h : Sound process) (main : MainStage) (current : Nat)
    (hFree : process.descriptors.table fd = none) (hNumber : resource.number = process.nextNumber)
    (hBefore : process.main.held = []) (hHeld : main.held = [fd])
    (hCurrent : process.server.clientFd = none ∨ current = process.current)
    (hMain : main.Aimed (process.openAt fd resource).descriptors.table process.server.clientFd current) :
    Sound { process.openAt fd resource with current, main } := by
  have hNew : resource ∉ process.descriptors.opened := by
    intro hMem
    have hLess := h.numbered resource hMem
    rw [hNumber, nextNumber] at hLess
    exact absurd hLess (Nat.lt_irrefl _)
  have hOther : ∀ other found, process.descriptors.table other = some found →
      (process.openAt fd resource).descriptors.table other = some found := by
    intro other found hFound
    refine (Descriptors.openAt_table_of_ne resource ?_).trans hFound
    rintro rfl
    cases hFree.symm.trans hFound
  refine ⟨?_, ?_, ?_, ?_, ?_, hMain⟩
  · have hLedger := h.held.openAt hFree resource
    refine hLedger.pass ?_
    intro other
    simp only [ServerProcess.held, hBefore, hHeld, openAt, List.count_append, List.count_cons,
      List.count_nil]
    omega
  · intro other hMem
    change other.number < (process.descriptors.opened ++ [resource]).length
    rw [List.length_append, List.length_singleton]
    rcases List.mem_append.mp hMem with hOld | hLast
    · exact Nat.lt_succ_of_lt (h.numbered other hOld)
    · rw [List.mem_singleton.mp hLast, hNumber]
      exact Nat.lt_succ_self _
  · exact List.nodup_append.mpr ⟨h.nodup, List.nodup_singleton resource, by
      intro first hFirst second hSecond hSame
      rw [List.mem_singleton.mp hSecond] at hSame
      exact hNew (hSame ▸ hFirst)⟩
  · intro other hListen
    exact hOther other _ (h.listenFd other hListen)
  · intro other hClient
    rcases hCurrent with hNone | rfl
    · cases hNone.symm.trans hClient
    · exact hOther other _ (h.clientFd other hClient)

/-! The steps of the main thread. -/

/-- The main thread goes on inside `closeSocket` on the client. -/
theorem Sound.closesOn {stage after : CloseStage} {closed : ServerProcess} (h : Sound process)
    (hBefore : process.main.held = stage.held)
    (hStage : ∀ fd ∈ stage.held, process.descriptors.table fd = some (.connection process.current))
    (hClose : process.closeSocket .clientFd stage = (closed, some after)) (main : MainStage)
    (hHeld : main.held = after.held)
    (hMain : ∀ fd, after = .shutdown fd ∧ closed.server.clientFd = none ∨
        after = .close fd ∧ closed.server.clientFd = process.server.clientFd →
      closed.descriptors.table fd = some (.connection closed.current) →
      main.Aimed closed.descriptors.table closed.server.clientFd closed.current) :
    Sound { closed with main } := by
  have hKeeps := closeSocket_keeps process .clientFd stage
  have hLedger := h.held
  rw [ServerProcess.held, hBefore] at hLedger
  have hNext := closeSocket_held .clientFd hLedger
  rw [hClose] at hNext hKeeps
  rw [← hBefore] at hKeeps
  refine h.mainCloses main hKeeps (hHeld ▸ hNext) ?_
  have hCurrent : closed.current = process.current := hKeeps.current
  cases stage with
  | exchange =>
      cases hFd : process.server.clientFd with
      | none => simp [closeSocket, TcpServer.descriptor, hFd] at hClose
      | some fd =>
          simp only [closeSocket, TcpServer.descriptor, hFd, Option.map_some, Prod.mk.injEq,
            Option.some.injEq] at hClose
          obtain ⟨rfl, rfl⟩ := hClose
          exact hMain fd (Or.inl ⟨rfl, rfl⟩) (h.clientFd fd hFd)
  | shutdown fd =>
      obtain ⟨sockets, hSame⟩ := shutdown_eq process fd
      rw [closeSocket, hSame] at hClose
      cases hClose
      exact hMain fd (Or.inr ⟨rfl, rfl⟩) (hStage fd (List.mem_singleton_self fd))
  | close fd => cases hClose

/-- The main thread is done with `closeSocket` on the client. -/
theorem Sound.closesLast {stage : CloseStage} {closed : ServerProcess} (h : Sound process)
    (hBefore : process.main.held = stage.held)
    (hClose : process.closeSocket .clientFd stage = (closed, none)) (main : MainStage)
    (hHeld : main.held = [])
    (hMain : closed.server.clientFd = none ∨
        (∃ fd, stage = .close fd) ∧ closed.server.clientFd = process.server.clientFd →
      main.Aimed closed.descriptors.table closed.server.clientFd closed.current) :
    Sound { closed with main } := by
  have hKeeps := closeSocket_keeps process .clientFd stage
  have hLedger := h.held
  rw [ServerProcess.held, hBefore] at hLedger
  have hNext := closeSocket_held .clientFd hLedger
  rw [hClose] at hNext hKeeps
  rw [← hBefore] at hKeeps
  refine h.mainCloses main hKeeps (by rw [hHeld]; exact hNext) (hMain ?_)
  cases stage with
  | exchange =>
      obtain ⟨rfl, _⟩ := Prod.mk.inj hClose
      exact Or.inl rfl
  | shutdown fd => cases hClose
  | close fd =>
      cases hClose
      exact Or.inr ⟨⟨fd, rfl⟩, rfl⟩

theorem Sound.outerStep (h : Sound process) (hStep : process.outerStep result = some next) :
    Sound next := by
  revert hStep
  fun_cases ServerProcess.outerStep <;> intro hStep <;> cases hStep
  case case1 hMain =>
      split_ifs
      · exact h.moves _ (by rw [hMain]; rfl) trivial
      · exact h.moves _ (by rw [hMain]; rfl) trivial
  case case2 thrown hMain =>
      have hMoved := h.moves (.joining thrown) (by rw [hMain]; rfl) trivial
      exact { hMoved with }
  case case3 thrown hMain hJoined => exact h.moves _ (by rw [hMain]; rfl) trivial
  case case5 thrown stage hMain closed after hStop =>
      have hKeeps := stop_keeps process stage
      have hLedger := h.held
      rw [ServerProcess.held, hMain] at hLedger
      have hHeld := stop_held hLedger
      rw [hStop] at hKeeps hHeld
      exact h.mainCloses _ (hMain ▸ hKeeps) hHeld trivial
  case case6 thrown stage hMain closed hStop =>
      have hKeeps := stop_keeps process stage
      have hLedger := h.held
      rw [ServerProcess.held, hMain] at hLedger
      have hHeld := stop_held hLedger
      rw [hStop] at hKeeps hHeld
      exact h.mainCloses _ (hMain ▸ hKeeps) hHeld trivial

theorem Sound.acceptStep (h : Sound process) (hStep : process.acceptStep result = some next) :
    Sound next := by
  have hAimed := h.main
  revert hStep
  fun_cases ServerProcess.acceptStep <;> intro hStep <;> cases hStep
  case case1 stage hMain closed after hClose =>
      rw [hMain] at hAimed
      refine h.closesOn (by rw [hMain]; rfl) (Aimed.closing (Or.inl hAimed)) hClose _ rfl ?_
      rintro fd (⟨rfl, hNone⟩ | ⟨rfl, hSame⟩) hTable
      · exact ⟨hNone, hTable⟩
      · cases stage with
        | exchange =>
            cases hFd : process.server.clientFd <;>
              simp [closeSocket, TcpServer.descriptor, hFd] at hClose
        | shutdown other => exact ⟨hSame.trans hAimed.1, hTable⟩
        | close other => cases hClose
  case case2 stage hMain closed hClose =>
      rw [hMain] at hAimed
      refine h.closesLast (by rw [hMain]; rfl) hClose _ rfl ?_
      rintro (hNone | ⟨⟨fd, rfl⟩, hSame⟩)
      · exact hNone
      · exact hSame.trans hAimed.1
  case case3 hMain =>
      rw [hMain] at hAimed
      split_ifs
      · exact h.moves _ (by rw [hMain]; rfl) trivial
      · exact h.moves _ (by rw [hMain]; rfl) hAimed
  case case4 hMain =>
      rw [hMain] at hAimed
      exact h.moves _ (by rw [hMain]; rfl) ⟨hAimed, fun fd hFd => Or.inl (h.listenFd fd hFd)⟩
  case case5 fd hMain hNone =>
      rw [hMain] at hAimed
      exact h.moves _ (by rw [hMain]; rfl) hAimed.1
  case case6 fd hMain resource hSome =>
      rw [hMain] at hAimed
      obtain ⟨copy, rfl, hTable⟩ := Option.bind_eq_some_iff.mp hSome
      have hListener : resource = .listener := by
        rcases hAimed.2 copy rfl with hMeans | hNone
        · exact Option.some.inj (hTable.symm.trans hMeans)
        · cases hNone.symm.trans hTable
      exact h.moves _ (by rw [hMain]; rfl) ⟨hAimed.1, hListener, hAimed.2⟩
  case case7 copy resource fd hMain hReady =>
      rw [hMain] at hAimed
      have hOpened := h.opens (.store fd) process.nextNumber hReady.2
        (show (Resource.connection process.nextNumber).number = process.nextNumber from rfl)
        (by rw [hMain]; rfl) rfl (Or.inl hAimed.1) ⟨hAimed.1, Descriptors.openAt_table_self _⟩
      exact { hOpened with }
  case case9 copy resource hMain hShut =>
      rw [hMain] at hAimed
      exact h.moves _ (by rw [hMain]; rfl) hAimed.1
  case case11 copy resource hMain =>
      rw [hMain] at hAimed
      exact h.moves _ (by rw [hMain]; rfl) hAimed.1
  case case12 copy resource hMain =>
      rw [hMain] at hAimed
      exact h.moves _ (by rw [hMain]; rfl) ⟨hAimed.1, hAimed.2.2⟩
  case case13 copy hMain =>
      rw [hMain] at hAimed
      split_ifs
      · exact h.moves _ (by rw [hMain]; rfl) hAimed.1
      · exact h.moves _ (by rw [hMain]; rfl) hAimed
  case case14 error hMain =>
      split_ifs
      · exact h.moves _ (by rw [hMain]; rfl) trivial
      · exact h.moves _ (by rw [hMain]; rfl) trivial
  case case15 fd hMain =>
      rw [hMain] at hAimed
      refine ⟨?_, h.numbered, h.nodup, h.listenFd, ?_, trivial⟩
      · have hLedger := h.held
        rw [ServerProcess.held, TcpServer.held, hMain, hAimed.1] at hLedger
        refine hLedger.pass ?_
        intro other
        simp only [ServerProcess.held, TcpServer.held, MainStage.held, Option.toList_some,
          Option.toList_none, List.count_append, List.count_nil]
        omega
      · rintro other ⟨⟩
        exact hAimed.2
  case case16 hMain =>
      split_ifs
      · exact h.moves _ (by rw [hMain]; rfl) trivial
      · exact h.moves _ (by rw [hMain]; rfl) trivial
  case case17 stage hMain closed after hClose =>
      rw [hMain] at hAimed
      refine h.closesOn (by rw [hMain]; rfl) (Aimed.closing (Or.inr hAimed)) hClose _ rfl ?_
      rintro fd (⟨rfl, _⟩ | ⟨rfl, _⟩) hTable
      · exact hTable
      · exact hTable
  case case18 stage hMain closed hClose =>
      exact h.closesLast (by rw [hMain]; rfl) hClose _ rfl fun _ => trivial

/-- The main thread closes a file. -/
theorem Sound.closesFile {fd left : Nat} (h : Sound process) (hBefore : process.main = .writing fd left)
    (main : MainStage) (hHeld : main.held = [])
    (hMain : main.Aimed (process.close fd).descriptors.table process.server.clientFd process.current) :
    Sound { process.close fd with main } := by
  have hKeeps := closeSocket_keeps process .clientFd (.close fd)
  have hLedger := h.held
  rw [ServerProcess.held, hBefore] at hLedger
  have hNext := closeSocket_held .clientFd (show process.descriptors.Held
    (process.server.held ++ ((CloseStage.close fd).held ++ process.signal.held)) from hLedger)
  refine h.mainCloses main (hBefore ▸ hKeeps) ?_ hMain
  rw [hHeld]
  exact hNext

theorem Sound.serveStep (h : Sound process) (hStep : process.serveStep result = some next) :
    Sound next := by
  have hAimed := h.main
  revert hStep
  fun_cases ServerProcess.serveStep <;> intro hStep <;> cases hStep
  case case1 hMain =>
      split_ifs
      · exact h.moves _ (by rw [hMain]; rfl) trivial
      · exact h.moves _ (by rw [hMain]; rfl) trivial
  case case3 hMain fd hClient => exact h.moves _ (by rw [hMain]; rfl) (Or.inl (h.clientFd fd hClient))
  case case5 fd part left hMain resource hSome =>
      rw [hMain] at hAimed
      have hOwn : resource = .connection process.current := by
        rcases hAimed with hMeans | hNone
        · exact Option.some.inj (hSome.symm.trans hMeans)
        · cases hNone.symm.trans hSome
      exact h.moves _ (by rw [hMain]; rfl) ⟨hOwn, hAimed⟩
  case case6 fd resource part left count hMain socket hCount =>
      rw [hMain] at hAimed
      split_ifs
      · exact { h.moves (.received fd part) (by rw [hMain]; rfl) hAimed.2 with }
      · exact { h.moves (.receiveCall fd part (left - count)) (by rw [hMain]; rfl) hAimed.2 with }
  case case11 fd resource part left hMain =>
      rw [hMain] at hAimed
      exact h.moves _ (by rw [hMain]; rfl) hAimed.2
  case case12 fd hMain =>
      rw [hMain] at hAimed
      exact h.moves _ (by rw [hMain]; rfl) hAimed
  case case13 fd length hMain _ _ =>
      rw [hMain] at hAimed
      exact h.moves _ (by rw [hMain]; rfl) hAimed
  case case19 left fd hMain hFree =>
      exact h.opens (.writing fd left) process.current hFree rfl (by rw [hMain]; rfl) rfl (Or.inr rfl)
        ⟨_, Descriptors.openAt_table_self _⟩
  case case22 fd left hMain => exact h.closesFile hMain _ rfl trivial
  case case23 fd left hMain => exact h.closesFile hMain _ rfl trivial
  case case25 hMain fd hClient => exact h.moves _ (by rw [hMain]; rfl) (Or.inl (h.clientFd fd hClient))
  case case27 fd left hMain resource hSome =>
      rw [hMain] at hAimed
      have hOwn : resource = .connection process.current := by
        rcases hAimed with hMeans | hNone
        · exact Option.some.inj (hSome.symm.trans hMeans)
        · cases hNone.symm.trans hSome
      exact h.moves _ (by rw [hMain]; rfl) ⟨hOwn, hAimed⟩
  case case28 fd resource left count hMain socket hCount =>
      rw [hMain] at hAimed
      split_ifs
      · exact { h.moves .serving (by rw [hMain]; rfl) trivial with }
      · exact { h.moves (.sendCall fd (left - count)) (by rw [hMain]; rfl) hAimed.2 with }
  case case33 fd resource left hMain =>
      rw [hMain] at hAimed
      exact h.moves _ (by rw [hMain]; rfl) hAimed.2
  -- the other steps end the connection, or have no descriptor to rely on
  all_goals
    refine h.moves _ ?_ trivial
    simp only [*, MainStage.held]

theorem Sound.signalStep {event : SignalEvent} (h : Sound process)
    (hStep : process.signalStep event = some next) : Sound next := by
  have hSame : ∀ (running : Bool) (signal : SignalStage), signal.held = process.signal.held →
      Sound { process with running, signal } := by
    intro running signal hHeld
    refine { h with held := ?_ }
    have hLedger := h.held
    rw [ServerProcess.held, ← hHeld] at hLedger
    exact hLedger
  revert hStep
  fun_cases ServerProcess.signalStep <;> intro hStep <;> cases hStep
  case case1 hSignal => exact hSame _ _ (by rw [hSignal]; rfl)
  case case2 hSignal hRequested => exact hSame _ _ (by rw [hSignal]; rfl)
  case case4 hSignal => exact hSame _ _ (by rw [hSignal]; rfl)
  case case5 stage hSignal closed after hStop =>
      have hKeeps := stop_keeps process stage
      have hLedger : process.descriptors.Held
          (process.server.held ++ (stage.held ++ process.main.held)) := by
        refine h.held.pass ?_
        intro fd
        simp only [ServerProcess.held, hSignal, SignalStage.held, List.count_append]
        omega
      have hHeld := stop_held hLedger
      rw [hStop] at hKeeps hHeld
      exact h.signalCloses (.stopping after) (hSignal ▸ hKeeps) hHeld
  case case6 stage hSignal closed hStop =>
      have hKeeps := stop_keeps process stage
      have hLedger : process.descriptors.Held
          (process.server.held ++ (stage.held ++ process.main.held)) := by
        refine h.held.pass ?_
        intro fd
        simp only [ServerProcess.held, hSignal, SignalStage.held, List.count_append]
        omega
      have hHeld := stop_held hLedger
      rw [hStop] at hKeeps hHeld
      exact h.signalCloses .finished (hSignal ▸ hKeeps) hHeld

theorem mainStep_cases (hStep : process.mainStep result = some next) :
    process.outerStep result = some next ∨ process.acceptStep result = some next ∨
      process.serveStep result = some next := by
  rw [mainStep] at hStep
  cases hOuter : process.outerStep result with
  | some outer =>
      rw [hOuter] at hStep
      exact Or.inl hStep
  | none =>
      rw [hOuter] at hStep
      cases hAccept : process.acceptStep result with
      | some accepted =>
          rw [hAccept] at hStep
          exact Or.inr (Or.inl hStep)
      | none =>
          rw [hAccept] at hStep
          exact Or.inr (Or.inr hStep)

theorem Sound.step {action : ProcessAction} (h : Sound process)
    (hStep : process.step action = some next) : Sound next := by
  cases action with
  | main result =>
      rcases mainStep_cases hStep with hOuter | hAccept | hServe
      · exact h.outerStep hOuter
      · exact h.acceptStep hAccept
      · exact h.serveStep hServe
  | signal event => exact h.signalStep hStep
  | arrive resource count =>
      rw [ServerProcess.step] at hStep
      split_ifs at hStep
      cases hStep
      exact { h with }
  | drain resource count =>
      cases hStep
      exact { h with }
  | peerEnds resource =>
      cases hStep
      exact { h with }

theorem sound_initial (fd : Nat) : Sound (initial fd) where
  held := @Descriptors.Held.openAt Resource {} [] fd Descriptors.held_empty rfl .listener
  numbered := by simp [initial, Descriptors.openAt, Resource.number]
  nodup := by simp [initial, Descriptors.openAt]
  listenFd := by
    rintro other ⟨⟩
    exact Descriptors.openAt_table_self _
  clientFd := by
    intro other hOther
    cases hOther
  main := trivial

end ServerProcess
end LogBridge
