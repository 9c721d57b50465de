import LogBridge.System.Survival

/-! Delivery at least once. Calls that fail while the processes run on cost no
message: what the client no longer holds has been output, and the first copies of
the output are those of a run without failures. Only a save of a watermark that
fails leads to a second copy. -/
namespace LogBridge

open Checked Protocol Storage WriteAheadLog Watermark Server

namespace System

variable {config : ClientConfig} {dedupPath : Bytes} {system next : System} {shadow : Server}
  {session : Session} {acked pending old resent extra : List LogMessage} {tail : Bytes}
  {client : Client}

/-! The client is down. -/

theorem Down.keeps {rest : Bytes} (h : Down dedupPath system shadow acked pending extra tail)
    (hDown : client.session = none) (hConnection : client.connection = system.client.connection)
    (hHistory : client.history = system.client.history)
    (hDirectory : (client.foreseen extra).DirectoryValid (pending ++ extra) rest) :
    Survives dedupPath { system with client } shadow := by
  refine .down (h.ideal.halts hDown hConnection.ge (Or.inl h.stopped)
    (hHistory.trans (List.append_nil _).symm) hDirectory ?_ h.ideal.output h.ideal.covered)
  rw [hHistory]
  exact h.ideal.history_eq

/-- The connection is not opened before the first attempt to send. -/
theorem belongs_started {client next : Client} {connection : Nat} {clientId : Bytes}
    (h : client.Belongs connection clientId) (hDown : client.session = none)
    (hSame : next.connection = client.connection) : next.Belongs connection clientId where
  le := hSame ▸ h.le
  down _ := hSame ▸ h.down hDown
  running _ _ hOwn := absurd (hOwn.trans hSame) (h.down hDown).ne

/-- A start that succeeds goes on with all messages of the file. -/
theorem Down.opened {state : ClientState}
    (h : Down dedupPath system shadow acked pending extra tail)
    (hSession : client.session = some (Client.openedSession (pending ++ extra) state))
    (hConsistent : client.Consistent) (hConnection : client.connection = system.client.connection)
    (hHistory : client.history = system.client.history ++ extra) :
    Up dedupPath { system with client } (Client.openedSession (pending ++ extra) state) shadow acked
      [] [] [] [] := by
  have hEq : acked ++ (pending ++ extra) = client.history := by
    rw [hHistory, ← List.append_assoc, h.ideal.history_eq]
  have hView : (client.viewed (Client.openedSession (pending ++ extra) state) []
      (pending ++ extra)).Consistent := hConsistent.viewedSelf hSession
  have hLogged : (client.viewed (Client.openedSession (pending ++ extra) state) []
      (pending ++ extra)).history = client.history := List.append_nil _
  have hBelongs : ∀ connection clientId,
      Client.Belongs { system.client with walFile := some (walBytes pending) } connection clientId →
      (client.viewed (Client.openedSession (pending ++ extra) state) [] (pending ++ extra)).Belongs
        connection clientId :=
    fun _ _ hOwn => belongs_started hOwn h.stopped hConnection
  have hJoint : Joint { system with
      client := client.viewed (Client.openedSession (pending ++ extra) state) [] (pending ++ extra)
      server := shadow } := by
    refine h.ideal.joint.replaced hView (hLogged.trans hHistory) ?_ ?_ hBelongs
    · refine ⟨_, hView.holds rfl, acked, ?_, h.ideal.output⟩
      rw [hLogged]
      exact hEq
    · intro session hOpened
      cases hOpened
      exact Client.piped_opened (pending ++ extra) state
  refine ⟨hSession, ?_, ?_, ?_, Torn.nil, Or.inl ⟨rfl, rfl⟩⟩
  · exact h.ideal.client hJoint hBelongs hLogged hHistory hEq h.ideal.output h.ideal.covered
  · rw [List.append_nil]
    exact hView
  · have hFile := (hConsistent.running _ hSession).1.walFile
    simpa only [List.nil_append, List.append_nil] using hFile

theorem Down.start {generated : Bytes} {walOutcome stateOutcome : SaveOutcome}
    (h : Down dedupPath system shadow acked pending extra tail)
    (hStart : system.client.start config generated walOutcome stateOutcome = some client) :
    Survives dedupPath { system with client := client.withRecovered } shadow := by
  have hConnection := Client.start_connection hStart
  have hForeseen := Client.start_foreseen extra hStart
  have hDown : (system.client.foreseen extra).session = none := h.stopped
  have hConsistent : (client.foreseen extra).Consistent :=
    (Client.consistent_of_down hDown h.directory).start hDown hForeseen
  obtain ⟨hSame, _, hEnds⟩ := Client.start_cases hDown h.directory hForeseen
  have hHistory : client.history = system.client.history := List.append_cancel_right hSame
  have hFailed : ∀ rest, client.session = none →
      (client.foreseen extra).DirectoryValid (pending ++ extra) rest →
      Survives dedupPath { system with client := client.withRecovered } shadow := by
    intro rest hNone hDirectory
    rw [Client.withRecovered, hNone]
    exact h.keeps hNone hConnection hHistory hDirectory
  rcases hEnds with ⟨rest, hDirectory, hNone, _⟩ | ⟨_, corrected, hDirectory, _, _, _, hNone | hOpened, _⟩
  · exact hFailed rest hNone hDirectory
  · exact hFailed [] hNone hDirectory
  · have hRecovered : client.withRecovered = client.foreseen extra :=
      Client.withRecovered_eq hOpened hDirectory
    rw [hRecovered]
    exact .up (h.opened hOpened hConsistent hConnection hSame)

/-- While the client is down, only its files and the log may change. -/
theorem Down.local {action : ClientAction}
    (h : Down dedupPath system shadow acked pending extra tail)
    (hOther : ∀ generated walOutcome stateOutcome, action ≠ .start generated walOutcome stateOutcome)
    (hStep : system.client.step config action = some client) :
    Survives dedupPath { system with client } shadow := by
  have hNobody : ∀ session, system.client.session ≠ some session := by
    intro session hSession
    cases h.stopped.symm.trans hSession
  cases Client.acts_of_step hStep with
  | appendLog hLog => exact h.keeps h.stopped rfl rfl { h.directory with }
  | changeLog => exact h.keeps h.stopped rfl rfl { h.directory with }
  | deleteState hDown =>
      have hDirectory : (Client.foreseen { system.client with stateFile := none } extra).DirectoryValid
          (pending ++ extra) tail := { h.directory with stateFile := fun data hData => by cases hData }
      exact h.keeps h.stopped rfl rfl hDirectory
  | start => exact absurd rfl (hOther _ _ _)
  | thread hSession => exact absurd hSession (hNobody _)
  | allocate hSession => exact absurd hSession (hNobody _)
  | append hSession => exact absurd hSession (hNobody _)
  | checkpoint hSession => exact absurd hSession (hNobody _)
  | reply hSession => exact absurd hSession (hNobody _)
  | finish hSession => exact absurd hSession (hNobody _)
  | crash hSession => exact absurd hSession (hNobody _)
  | crashInAppend hSession => exact absurd hSession (hNobody _)
  | crashInReply hSession => exact absurd hSession (hNobody _)

/-! The client runs. -/

theorem Up.local {action : ClientAction}
    (h : Up dedupPath system session shadow acked old resent extra tail)
    (hReply : action.takesReply = false) (hStep : system.client.step config action = some client) :
    Survives dedupPath { system with client } shadow := by
  rcases Client.moves_of_step h.runs hReply hStep with
    ⟨moved, logged, hMoves⟩ | rfl | ⟨outcome, hCrash⟩
  · have hIdealStep := hMoves.viewed [] (resent ++ session.wal.pending) (Or.inr rfl)
    exact .up (h.work hMoves (h.ideal.joint.local hReply hIdealStep))
  · exact h.crash
  · exact h.crashInAppend hCrash

theorem Up.send (h : Up dedupPath system session shadow acked old resent extra tail)
    (hStep : system.send config = some next) : Survives dedupPath next shadow := by
  obtain ⟨other, hOther, hStep⟩ := Option.bind_eq_some_iff.mp hStep
  obtain ⟨client, hClient, hStep⟩ := Option.bind_eq_some_iff.mp hStep
  obtain rfl := Option.some.inj (h.runs.symm.trans hOther)
  cases hStep
  cases Client.acts_of_step hClient with
  | thread hSession hMoved =>
      obtain rfl := Option.some.inj (h.runs.symm.trans hSession)
      have hMoves := Client.moves_thread hMoved
      have hIdealStep := hMoves.viewed [] (resent ++ session.wal.pending) (Or.inr rfl)
      refine .up (h.work hMoves (h.ideal.joint.send (?_ : System.send config _ = some _)))
      exact Option.bind_eq_some_iff.mpr ⟨_, hIdealStep, rfl⟩

/-! The steps of the system. -/

theorem Survives.clientActs {action : ClientAction} (h : Survives dedupPath system shadow)
    (hStep : system.failingStep config dedupPath (.system (.client action)) = some next) :
    Survives dedupPath next shadow ∧ next.server = system.server := by
  obtain ⟨middle, hMiddle, hNext⟩ := Option.map_eq_some_iff.mp hStep
  rw [System.step] at hMiddle
  split_ifs at hMiddle with hLocal
  obtain ⟨client, hClient, rfl⟩ := Option.map_eq_some_iff.mp hMiddle
  split at hNext
  · next generated walOutcome stateOutcome hAction =>
      cases hAction
      cases hNext
      cases h with
      | down h =>
          rw [Client.step, h.stopped] at hClient
          exact ⟨h.start hClient, rfl⟩
      | up h =>
          rw [Client.step, h.runs] at hClient
          cases hClient
  · next hOther =>
      cases hNext
      cases h with
      | down h =>
          refine ⟨h.local (fun generated walOutcome stateOutcome hStart => ?_) hClient, rfl⟩
          exact hOther generated walOutcome stateOutcome (congrArg SystemAction.client hStart)
      | up h => exact ⟨h.local (takesReply_of_isLocal hLocal) hClient, rfl⟩

theorem Survives.lose {batches replies : List Packet} (h : Survives dedupPath system shadow)
    (hBatches : ∀ packet ∈ batches, packet ∈ system.batches)
    (hReplies : ∀ packet ∈ replies, packet ∈ system.replies) :
    Survives dedupPath { system with batches, replies } shadow :=
  h.beside rfl fun _ _ _ hIdeal => hIdeal.lose hBatches hReplies

/-- The reply that was taken is gone. -/
theorem Survives.took {index : Nat} (h : Survives dedupPath { system with client } shadow) :
    Survives dedupPath { system with client, replies := system.replies.eraseIdx index } shadow :=
  h.lose (fun _ hMem => hMem) fun _ hMem => List.mem_of_mem_eraseIdx hMem

/-- Only a client that runs takes a reply. -/
theorem Survives.running (h : Survives dedupPath system shadow)
    (hSession : system.client.session = some session) :
    ∃ acked old resent extra tail, Up dedupPath system session shadow acked old resent extra tail := by
  cases h with
  | down h => cases h.stopped.symm.trans hSession
  | up h =>
      obtain rfl := Option.some.inj (h.runs.symm.trans hSession)
      exact ⟨_, _, _, _, _, h⟩

theorem Survives.receiveReply {index : Nat} (h : Survives dedupPath system shadow)
    (hStep : system.step config dedupPath (.receiveReply index) = some next) :
    Survives dedupPath next shadow ∧ next.server = system.server := by
  obtain ⟨packet, hPacket, hStep⟩ := Option.bind_eq_some_iff.mp hStep
  obtain ⟨client, hClient, hStep⟩ := Option.bind_eq_some_iff.mp hStep
  cases hStep
  obtain ⟨hMem, hConnection⟩ := mem_of_takeReply hPacket
  obtain ⟨session, hSession, hReply⟩ := Option.bind_eq_some_iff.mp hClient
  obtain ⟨_, _, _, _, _, hUp⟩ := h.running hSession
  exact ⟨(hUp.reply config hMem hConnection hReply).took, rfl⟩

theorem Survives.crashInReply {index : Nat} {outcome : SaveOutcome} (h : Survives dedupPath system shadow)
    (hStep : system.step config dedupPath (.crashInReply index outcome) = some next) :
    Survives dedupPath next shadow ∧ next.server = system.server := by
  obtain ⟨packet, hPacket, hStep⟩ := Option.bind_eq_some_iff.mp hStep
  obtain ⟨client, hClient, hStep⟩ := Option.bind_eq_some_iff.mp hStep
  cases hStep
  obtain ⟨hMem, hConnection⟩ := mem_of_takeReply hPacket
  obtain ⟨session, hSession, hCrash⟩ := Option.bind_eq_some_iff.mp hClient
  obtain ⟨_, _, _, _, _, hUp⟩ := h.running hSession
  exact ⟨(hUp.crashInReply hMem hConnection hCrash).took, rfl⟩

theorem Survives.failReply {index : Nat} {outcome : SaveOutcome} (config : ClientConfig)
    (h : Survives dedupPath system shadow) (hStep : system.failReply index outcome = some next) :
    Survives dedupPath next shadow ∧ next.server = system.server := by
  obtain ⟨packet, hPacket, hStep⟩ := Option.bind_eq_some_iff.mp hStep
  obtain ⟨session, hSession, hStep⟩ := Option.bind_eq_some_iff.mp hStep
  obtain ⟨client, hClient, hStep⟩ := Option.bind_eq_some_iff.mp hStep
  cases hStep
  obtain ⟨hMem, hConnection⟩ := mem_of_takeReply hPacket
  obtain ⟨_, _, _, _, _, hUp⟩ := h.running hSession
  exact ⟨(hUp.failReply config hMem hConnection hClient).took, rfl⟩

theorem Survives.failAppend {outcome : AppendOutcome} (h : Survives dedupPath system shadow)
    (hStep : system.failingStep config dedupPath (.failAppend outcome) = some next) :
    Survives dedupPath next shadow ∧ next.server = system.server := by
  obtain ⟨session, hSession, hStep⟩ := Option.bind_eq_some_iff.mp hStep
  obtain ⟨client, hClient, hStep⟩ := Option.bind_eq_some_iff.mp hStep
  cases hStep
  obtain ⟨_, _, _, _, _, hUp⟩ := h.running hSession
  exact ⟨hUp.failAppend hClient, rfl⟩

theorem Survives.send (h : Survives dedupPath system shadow) (hStep : system.send config = some next) :
    Survives dedupPath next shadow ∧ next.server = system.server := by
  obtain ⟨session, hSession, _⟩ := Option.bind_eq_some_iff.mp hStep
  obtain ⟨_, _, _, _, _, hUp⟩ := h.running hSession
  refine ⟨hUp.send hStep, ?_⟩
  obtain ⟨_, _, hStep⟩ := Option.bind_eq_some_iff.mp hStep
  obtain ⟨_, _, hStep⟩ := Option.bind_eq_some_iff.mp hStep
  cases hStep
  rfl

/-- Only a save that fails makes the two servers differ. -/
theorem Survives.receiveBatch {index : Nat} {outcome : BatchOutcome} (config : ClientConfig)
    (hPath : dedupPath ≠ []) (h : Survives dedupPath system shadow)
    (hStep : system.receiveBatchWith dedupPath index outcome = some next) :
    ∃ other, Survives dedupPath next other ∧
      (outcome.save = .saved → Agrees system.server shadow → Agrees next.server other) := by
  obtain ⟨packet, hPacket, hStep⟩ := Option.bind_eq_some_iff.mp hStep
  obtain ⟨server, hServer, hStep⟩ := Option.bind_eq_some_iff.mp hStep
  cases hStep
  obtain ⟨ideal, acked, pending, hIdeal⟩ := h.exists_ideal
  obtain ⟨messages, clientId, hDecode, _⟩ := hIdeal.joint.batches packet (List.mem_of_getElem? hPacket)
  rw [stepFailing, hDecode] at hServer
  cases hServer
  refine ⟨_, h.beside rfl fun _ _ _ hIdeal => hIdeal.answers config hPath hPacket hDecode outcome, ?_⟩
  intro hSaved hAgrees
  obtain ⟨save, ackError⟩ := outcome
  obtain rfl : save = .saved := hSaved
  exact hAgrees.batch (batchWithinLimits_of_decode hDecode) ackError

theorem Survives.restartServer (h : Survives dedupPath system shadow)
    (hStep : system.step config dedupPath .restartServer = some next) :
    Survives dedupPath next shadow ∧ (Agrees system.server shadow → Agrees next.server shadow) := by
  obtain ⟨server, hServer, rfl⟩ := Option.map_eq_some_iff.mp hStep
  obtain ⟨ideal, acked, pending, hIdeal⟩ := h.exists_ideal
  cases hRestart : system.server.restart dedupPath with
  | error error =>
      rw [Server.step, hRestart] at hServer
      cases hServer
  | ok other =>
      rw [Server.step, hRestart] at hServer
      cases hServer
      refine ⟨h.beside rfl fun _ _ _ hIdeal => (hIdeal.restarts hRestart).1, (hIdeal.restarts hRestart).2⟩

/-- Every step, failing or not. -/
theorem Survives.step {action : FailingSystemAction} (hPath : dedupPath ≠ [])
    (h : Survives dedupPath system shadow)
    (hStep : system.failingStep config dedupPath action = some next) :
    ∃ other, Survives dedupPath next other ∧
      (¬action.FailsSave → Agrees system.server shadow → Agrees next.server other) := by
  have hBeside : Survives dedupPath next shadow ∧ next.server = system.server →
      ∃ other, Survives dedupPath next other ∧
        (¬action.FailsSave → Agrees system.server shadow → Agrees next.server other) :=
    fun hNext => ⟨shadow, hNext.1, fun _ hAgrees => hNext.2 ▸ hAgrees⟩
  cases action with
  | failAppend outcome => exact hBeside (h.failAppend hStep)
  | failReply index outcome => exact hBeside (h.failReply config hStep)
  | receiveBatch index outcome =>
      obtain ⟨other, hNext, hAgrees⟩ := h.receiveBatch config hPath hStep
      exact ⟨other, hNext, fun hSaved => hAgrees (not_not.mp hSaved)⟩
  | system action =>
      cases action with
      | client action => exact hBeside (h.clientActs hStep)
      | send =>
          obtain ⟨middle, hMiddle, rfl⟩ := Option.map_eq_some_iff.mp hStep
          exact hBeside (h.send hMiddle)
      | receiveBatch index ackError =>
          obtain ⟨middle, hMiddle, rfl⟩ := Option.map_eq_some_iff.mp hStep
          have hWith : system.receiveBatchWith dedupPath index { ackError } = some middle := hMiddle
          obtain ⟨other, hNext, hAgrees⟩ := h.receiveBatch config hPath hWith
          exact ⟨other, hNext, fun _ => hAgrees rfl⟩
      | receiveReply index =>
          obtain ⟨middle, hMiddle, rfl⟩ := Option.map_eq_some_iff.mp hStep
          exact hBeside (h.receiveReply hMiddle)
      | crashInReply index outcome =>
          obtain ⟨middle, hMiddle, rfl⟩ := Option.map_eq_some_iff.mp hStep
          exact hBeside (h.crashInReply hMiddle)
      | loseBatch index =>
          cases hStep
          refine hBeside ⟨h.lose (fun packet hMem => ?_) fun _ hMem => hMem, rfl⟩
          exact List.mem_of_mem_eraseIdx hMem
      | loseReply index =>
          cases hStep
          refine hBeside ⟨h.lose (fun _ hMem => hMem) fun packet hMem => ?_, rfl⟩
          exact List.mem_of_mem_eraseIdx hMem
      | restartServer =>
          obtain ⟨middle, hMiddle, rfl⟩ := Option.map_eq_some_iff.mp hStep
          obtain ⟨hNext, hAgrees⟩ := h.restartServer hMiddle
          exact ⟨shadow, hNext, fun _ => hAgrees⟩

theorem survives_initial (hPath : dedupPath ≠ []) (log : FileSystem) :
    Survives dedupPath { client := { log } } {} := by
  have hMirrors : Mirrors dedupPath [] {} {} := by
    refine ⟨remembers_initial hPath, ?_, List.Sublist.refl _, fun message hMem => by cases hMem⟩
    intro disk hOpen clientId
    have hEmpty := DedupStore.construct_persisted hPath (Or.inl ⟨rfl, rfl⟩) DedupStore.Readable.empty
    rw [Except.ok.inj (hOpen.symm.trans hEmpty)]
    exact UInt64.le_refl _
  have hIdeal : Ideal dedupPath { client := { log } } { log } {} [] [] := by
    refine ⟨joint_initial log, rfl, hMirrors, ?_, rfl, List.prefix_rfl, ?_⟩
    · intro packet hMem
      cases hMem
    · intro message hMem
      cases hMem
  obtain ⟨pending, tail, hDirectory⟩ := (Client.consistent_initial log).down rfl
  obtain rfl := List.suffix_nil.mp hDirectory.suffix
  have hForeseen : (Client.foreseen { log } []).DirectoryValid ([] ++ []) tail := by
    rw [Client.foreseen_nil]
    exact hDirectory
  refine .down (hIdeal.halts rfl (Nat.le_refl _) (Or.inl rfl) (List.append_nil _).symm hForeseen rfl
    List.prefix_rfl ?_)
  intro message hMem
  cases hMem

/-! What a run comes to. -/

/-- What holds whatever calls have failed. -/
structure AtLeastOnce (config : ClientConfig) (dedupPath : Bytes) (system : System) : Prop where
  /-- Leaving out repetitions, the output is a prefix of the history. -/
  outputs : ∃ firsts, firsts <+: system.client.history ∧ firsts.Sublist system.server.outputs ∧
    ∀ message ∈ system.server.outputs, message ∈ firsts
  historyOnce :
    (system.client.history.map fun message => (message.clientId, message.id)).Nodup
  /-- A restart of both sides reads back this log and these watermarks. -/
  confirmed : ∃ pending file store,
    WriteAheadLog.construct config.walPath system.client.walFile .saved = (.ok { pending }, file) ∧
    DedupStore.construct dedupPath system.server.file = .ok store ∧
    ∀ message ∈ system.client.history, message ∉ pending → message ∈ system.server.outputs ∧
      message.id ≤ store.highestConfirmed message.clientId

/-- What the file of the client holds, and what it does not. -/
theorem Survives.stored (h : Survives dedupPath system shadow) (hWalPath : config.walPath ≠ []) :
    ∃ ideal acked pending stored file, Ideal dedupPath system ideal shadow acked pending ∧
      WriteAheadLog.construct config.walPath system.client.walFile .saved =
        (.ok { pending := stored }, file) ∧
      ∀ message ∈ pending, message ∈ stored := by
  have hLoads : ∀ {stored extra tail}, (system.client.foreseen extra).DirectoryValid stored tail →
      ∃ file, WriteAheadLog.construct config.walPath system.client.walFile .saved =
        (.ok { pending := stored }, file) := by
    intro stored extra tail hDirectory
    obtain ⟨file, hLoad, _⟩ := load_eq hDirectory.walFile hDirectory.torn hDirectory.pendingValid
    refine ⟨file, ?_⟩
    rw [WriteAheadLog.construct, if_neg hWalPath]
    exact hLoad
  cases h with
  | down h =>
      obtain ⟨file, hLoad⟩ := hLoads h.directory
      exact ⟨_, _, _, _, file, h.ideal, hLoad, fun message hMem => List.mem_append_left _ hMem⟩
  | up h =>
      obtain ⟨file, hLoad⟩ := hLoads (h.disk.directory rfl rfl rfl h.file h.torn)
      refine ⟨_, _, _, _, file, h.ideal, hLoad, fun message hMem => ?_⟩
      exact List.mem_append_left _ (List.mem_append_right _ hMem)

theorem Ideal.increasing {ideal : Client} (h : Ideal dedupPath system ideal shadow acked pending) :
    system.client.history.Pairwise fun first second =>
      first.clientId = second.clientId → first.id < second.id :=
  h.logged ▸ h.joint.consistent.history

theorem historyOnce_of_increasing {history : List LogMessage}
    (h : history.Pairwise fun first second => first.clientId = second.clientId → first.id < second.id) :
    (history.map fun message => (message.clientId, message.id)).Nodup := by
  rw [List.Nodup, List.pairwise_map]
  refine h.imp ?_
  intro first second hLt hSame
  obtain ⟨hClient, hId⟩ := Prod.mk.inj hSame
  exact UInt64.ne_of_lt (hLt hClient) hId

theorem Survives.atLeastOnce (h : Survives dedupPath system shadow) (hWalPath : config.walPath ≠ []) :
    AtLeastOnce config dedupPath system := by
  obtain ⟨ideal, acked, pending, stored, file, hIdeal, hLoad, hStored⟩ := h.stored hWalPath
  obtain ⟨disk, hOpen, hLe⟩ := hIdeal.server.remembers.opens
  have hDelivered : Delivered system.client.history shadow := hIdeal.logged ▸ hIdeal.joint.delivered
  refine ⟨⟨shadow.outputs, hDelivered.outputs, hIdeal.server.sublist, ?_⟩,
    historyOnce_of_increasing hIdeal.increasing, stored, file, disk, hLoad, hOpen, ?_⟩
  · intro message hMem
    obtain ⟨hLogged, hId, hCovered⟩ := hIdeal.server.known message hMem
    exact hDelivered.mem_outputs hIdeal.increasing hLogged hId hCovered
  · intro message hMem hGone
    rw [← hIdeal.history_eq, List.mem_append] at hMem
    have hAcked := hMem.resolve_right fun hPending => hGone (hStored message hPending)
    exact ⟨hIdeal.server.sublist.subset (hIdeal.output.subset hAcked),
      UInt64.le_trans (hIdeal.covered message hAcked) (hLe _)⟩

/-- While no save of a watermark fails, nothing is output twice. -/
theorem Survives.endToEnd (h : Survives dedupPath system shadow) (hAgrees : Agrees system.server shadow)
    (hWalPath : config.walPath ≠ []) : EndToEnd config dedupPath system := by
  obtain ⟨ideal, acked, pending, hIdeal⟩ := h.exists_ideal
  have hOutputs : system.server.outputs <+: system.client.history := by
    rw [hAgrees.1, ← hIdeal.logged]
    exact hIdeal.joint.delivered.outputs
  refine ⟨hOutputs, ?_, (h.atLeastOnce hWalPath).confirmed⟩
  exact historyOnce_of_increasing (hIdeal.increasing.sublist hOutputs.sublist)

/-- Over every interleaving of the client, the server and the network, in which also
appends, compactions, saves of the watermark and acknowledgements fail while the
processes run on. -/
theorem survives_failures (config : ClientConfig) (dedupPath : Bytes) (log : FileSystem)
    (actions : List FailingSystemAction) (system : System) (hDedupPath : dedupPath ≠ [])
    (hWalPath : config.walPath ≠ [])
    (hRun : Runs.run (System.failingStep config dedupPath) { client := { log } } actions =
      some system) :
    AtLeastOnce config dedupPath system ∧
      ((∀ action ∈ actions, ¬action.FailsSave) → EndToEnd config dedupPath system) := by
  have hSurvives : ∃ shadow, Survives dedupPath system shadow ∧
      ((∀ action ∈ actions, ¬action.FailsSave) → Agrees system.server shadow) := by
    refine Runs.induct (motive := fun past system => ∃ shadow, Survives dedupPath system shadow ∧
      ((∀ action ∈ past, ¬action.FailsSave) → Agrees system.server shadow)) ?_ ?_ hRun
    · exact ⟨{}, survives_initial hDedupPath log, fun _ => ⟨rfl, fun _ => rfl⟩⟩
    · rintro past middle action next _ ⟨shadow, h, hAgrees⟩ hStep
      obtain ⟨other, hNext, hKeeps⟩ := h.step hDedupPath hStep
      refine ⟨other, hNext, fun hSaves => ?_⟩
      rw [List.forall_mem_append, List.forall_mem_singleton] at hSaves
      exact hKeeps hSaves.2 (hAgrees hSaves.1)
  obtain ⟨shadow, h, hAgrees⟩ := hSurvives
  exact ⟨h.atLeastOnce hWalPath, fun hSaves => h.endToEnd (hAgrees hSaves) hWalPath⟩

/-! A run in which a save fails and then a compaction: the line is output twice. -/

theorem failingStep_client {action : ClientAction} {client : Client} (hLocal : action.isLocal = true)
    (hOther : ∀ generated walOutcome stateOutcome, action ≠ .start generated walOutcome stateOutcome)
    (hStep : system.client.step config action = some client) :
    system.failingStep config dedupPath (.system (.client action)) = some { system with client } := by
  rw [failingStep, step_client hLocal hStep]
  cases action with
  | start generated walOutcome stateOutcome => exact absurd rfl (hOther _ _ _)
  | _ => rfl

def diskFull : Exception := .systemError "cannot write persistent file"

def failingActions : List FailingSystemAction :=
  (sampleActions.take 12).map .system ++
    [.receiveBatch 0 { save := .failedBeforeRename diskFull }, .system (.client (.thread .replyFails)),
      .system .send, .receiveBatch 0 {}, .failReply 0 (.failedBeforeRename diskFull),
      .system .send, .receiveBatch 0 {}, .system (.receiveReply 0)]

theorem survives_failures_sample : ∃ system,
    Runs.run (System.failingStep Client.sampleConfig [100]) { client := { log := Client.sampleLog } }
      failingActions = some system ∧
    system.server.outputs.map LogMessage.content = [[97], [97]] ∧
    AtLeastOnce Client.sampleConfig [100] system := by
  have hRun : ∃ system, Runs.run (System.failingStep Client.sampleConfig [100])
      { client := { log := Client.sampleLog } } failingActions = some system ∧
      system.server.outputs.map LogMessage.content = [[97], [97]] := by
    have hStart : System.failingStep Client.sampleConfig [100] { client := { log := Client.sampleLog } }
        (.system (.client (.start Client.sampleState.clientId .saved .saved))) = some _ :=
      congrArg (Option.map _) (step_client rfl (Client.sample_start rfl))
    refine ⟨_, Runs.run_cons hStart <|
      Runs.run_cons rfl <|
      Runs.run_cons (failingStep_client rfl nofun Client.sample_poll) <|
      -- the line is logged and reaches the consumer
      Runs.run_cons rfl <| Runs.run_cons rfl <| Runs.run_cons rfl <| Runs.run_cons rfl <|
      Runs.run_cons rfl <| Runs.run_cons rfl <| Runs.run_cons rfl <| Runs.run_cons rfl <|
      Runs.run_cons rfl <|
      -- the save fails, and later the compaction
      Runs.run_cons rfl <| Runs.run_cons rfl <| Runs.run_cons rfl <| Runs.run_cons rfl <|
      Runs.run_cons rfl <| Runs.run_cons rfl <| Runs.run_cons rfl <| Runs.run_cons rfl rfl, rfl⟩
  obtain ⟨system, hRun, hOutputs⟩ := hRun
  exact ⟨system, hRun, hOutputs, (survives_failures Client.sampleConfig [100] Client.sampleLog
    failingActions system (by decide) (by decide) hRun).1⟩

end System
end LogBridge
