import LogBridge.System.Draining

/-! Any number of clients with one server. Each client has its own log file, data
directory and connections. To each of them the shared server is a server of its
own: what the others send neither hides nor repeats one of its messages. -/
namespace LogBridge

open Checked Protocol Storage Watermark Server

/-- The clients with what is in flight between each of them and the server. -/
structure Fleet (ι : Type) where
  clients : ι → Client
  server : Server := {}
  batches : ι → List Packet := fun _ => []
  replies : ι → List Packet := fun _ => []

namespace Fleet
variable {ι : Type} [DecidableEq ι]

/-- One client with its packets, and the whole server. -/
def part (fleet : Fleet ι) (index : ι) : System where
  client := fleet.clients index
  server := fleet.server
  batches := fleet.batches index
  replies := fleet.replies index

def put (fleet : Fleet ι) (index : ι) (system : System) : Fleet ι where
  clients := Function.update fleet.clients index system.client
  server := system.server
  batches := Function.update fleet.batches index system.batches
  replies := Function.update fleet.replies index system.replies

/-- An action of one client, its connections or the server. A restart of the server
may be listed with any client. -/
def step (configs : ι → ClientConfig) (dedupPath : Bytes) (fleet : Fleet ι)
    (action : ι × SystemAction) : Option (Fleet ι) :=
  ((fleet.part action.1).step (configs action.1) dedupPath action.2).map (fleet.put action.1)

def initial (logs : ι → FileSystem) : Fleet ι where
  clients index := { log := logs index }

/-- A generated id is none of another client. -/
def Fresh (fleet : Fleet ι) : ι × SystemAction → Prop
  | (index, .client (.start generated _ _)) =>
      ∀ other, other ≠ index → generated ∉ (fleet.clients other).generatedIds
  | _ => True

end Fleet

namespace Client
variable {client next : Client} {config : ClientConfig}

theorem generatedIds_start {generated : Bytes} {walOutcome stateOutcome : SaveOutcome}
    (h : client.start config generated walOutcome stateOutcome = some next) :
    next.generatedIds = client.generatedIds ∨
      generated ∉ client.generatedIds ∧ next.generatedIds = client.generatedIds ++ [generated] := by
  revert h
  fun_cases Client.start <;> intro h <;> cases h
  case case4 hLog wal walFile hWal recovered hFresh generatedIds error stateFile hState =>
      by_cases hGenerates : client.generates recovered = true
      · exact Or.inr ⟨fun hOld => hFresh ⟨hGenerates, Or.inr hOld⟩, if_pos hGenerates⟩
      · exact Or.inl (if_neg hGenerates)
  case case5 hLog wal walFile hWal recovered hFresh generatedIds state stateFile hState =>
      by_cases hGenerates : client.generates recovered = true
      · exact Or.inr ⟨fun hOld => hFresh ⟨hGenerates, Or.inr hOld⟩, if_pos hGenerates⟩
      · exact Or.inl (if_neg hGenerates)
  all_goals exact Or.inl rfl

/-- Only the start of the process can add a client id. -/
theorem generatedIds_step {action : ClientAction} (h : client.step config action = some next) :
    next.generatedIds = client.generatedIds ∨ ∃ generated walOutcome stateOutcome,
      action = .start generated walOutcome stateOutcome ∧ generated ∉ client.generatedIds ∧
        next.generatedIds = client.generatedIds ++ [generated] := by
  cases acts_of_step h with
  | start hDown hStart =>
      refine (generatedIds_start hStart).imp_right ?_
      intro hMore
      exact ⟨_, _, _, rfl, hMore.1, hMore.2⟩
  | allocate hSession hAct =>
      left
      obtain ⟨_, _, _, _, _, ⟨_, rfl, _⟩ | ⟨_, rfl⟩⟩ := allocate_cases hAct
      · rfl
      · rfl
  | append hSession hAct =>
      left
      obtain ⟨_, _, _, _, _, ⟨_, rfl⟩ | ⟨_, rfl⟩⟩ := append_cases hAct
      · rfl
      · rfl
  | checkpoint hSession hAct =>
      left
      obtain ⟨_, _, _, _, _, _, ⟨_, rfl, _⟩ | ⟨rfl, _⟩⟩ := checkpoint_cases hAct
      · rfl
      · rfl
  | reply hSession hAct =>
      left
      revert hAct
      fun_cases Client.reply <;> intro hAct <;> cases hAct
      all_goals rfl
  | crashInAppend hSession hAct =>
      left
      obtain ⟨_, _, _, _, _, _, ⟨_, rfl⟩ | ⟨_, rfl⟩⟩ := crashInAppend_cases hAct
      · rfl
      · rfl
  | crashInReply hSession hAct =>
      left
      revert hAct
      fun_cases Client.crashInReply <;> intro hAct <;> cases hAct
      all_goals rfl
  | _ => exact Or.inl rfl

end Client

namespace System
variable {config : ClientConfig} {dedupPath : Bytes} {whole system : System}

/-- The same client and packets with another server, which has seen this client only. -/
structure Narrows (whole system : System) : Prop where
  client : system.client = whole.client
  batches : system.batches = whole.batches
  replies : system.replies = whole.replies
  outputs : system.server.outputs =
    whole.server.outputs.filter fun message => message.clientId ∈ whole.client.generatedIds

/-- The server has saved what it has output. -/
structure Kept (server : Server) : Prop where
  stored : Stored server
  exact : ∀ clientId, Exact messageKey 0 (clientView clientId server)

/-- Both servers have the same watermarks for the ids of the client. -/
theorem Narrows.watermark {clientId : Bytes} (h : Narrows whole system) (hWhole : Kept whole.server)
    (hOwn : Kept system.server) (hMem : clientId ∈ whole.client.generatedIds) :
    system.server.dedup.highestConfirmed clientId = whole.server.dedup.highestConfirmed clientId := by
  have hEmitted : (clientView clientId system.server).emitted = (clientView clientId whole.server).emitted := by
    simp only [clientView, h.outputs, List.filter_filter]
    refine List.filter_congr ?_
    intro message _
    by_cases hClient : message.clientId = clientId
    · simp [hClient, hMem]
    · simp [hClient]
  refine UInt64.toNat_inj.mp ?_
  change (clientView clientId system.server).watermark = (clientView clientId whole.server).watermark
  rw [hOwn.exact clientId, hWhole.exact clientId, hEmitted]

/-- A batch of a generated id. -/
theorem Kept.handleBatch {server : Server} {messages : List LogMessage} (h : Kept server)
    (hBatch : BatchWithinLimits messages) (hGenerated : IsGenerated (messages.head hBatch.ne_nil).clientId)
    (ackError : Option Exception) :
    ∃ next file, (server.handleBatch messages { ackError }).2 = next ∧ Kept next ∧
      next.outputs = server.outputs ++ messages.filter (fun message =>
        ¬message.id ≤ server.dedup.highestConfirmed (messages.head hBatch.ne_nil).clientId) ∧
      next.acks = server.acks ++ [batchAck messages hBatch.ne_nil file] := by
  have hStored := stored_handleBatch h.stored hBatch (isWord_of_generated hGenerated) ackError
  have hView := clientView_handleBatch server hBatch ackError
  obtain ⟨dedup, file, metrics, hHandle, _, _⟩ := handleBatch_eq server hBatch ackError
  rw [hHandle] at hStored hView ⊢
  refine ⟨_, file, rfl, ⟨hStored, ?_⟩, rfl, rfl⟩
  intro other
  rw [hView]
  split_ifs
  · exact (h.exact other).receive messages
  · exact h.exact other

theorem Kept.restart {server next : Server} (h : Kept server)
    (hStep : server.step dedupPath .restart = some next) : Kept next ∧ next.outputs = server.outputs := by
  obtain rfl := restart_of_stored h.stored hStep
  exact ⟨⟨{ h.stored with }, h.exact⟩, rfl⟩

theorem Joint.kept (h : Joint system) : Kept system.server :=
  ⟨h.delivered.stored, h.delivered.exact⟩

/-- A step of the client alone. -/
theorem Narrows.clientStep {action : ClientAction} {next : Client} (h : Narrows whole system)
    (hNew : ∀ generated walOutcome stateOutcome, action = .start generated walOutcome stateOutcome →
      generated ∉ whole.client.generatedIds →
        ∀ message ∈ whole.server.outputs, message.clientId ≠ generated)
    (hStep : whole.client.step config action = some next) (batches replies : List Packet) :
    Narrows { whole with client := next, batches, replies }
      { system with client := next, batches, replies } where
  client := rfl
  batches := rfl
  replies := rfl
  outputs := by
    rw [h.outputs]
    refine List.filter_congr ?_
    intro message hMem
    rcases Client.generatedIds_step hStep with hSame | ⟨generated, _, _, hAction, hFresh, hMore⟩
    · simp [hSame]
    · have hOther := hNew generated _ _ hAction hFresh message hMem
      simp [hMore, hOther]

/-- What a step of the client or the server does to the shared server. -/
structure Serves (whole next : System) : Prop where
  kept : Kept next.server
  outputs : ∃ added, next.server.outputs = whole.server.outputs ++ added ∧
    ∀ message ∈ added, message.clientId ∈ whole.client.generatedIds

theorem serves_same {client : Client} {batches replies : List Packet} (hWhole : Kept whole.server) :
    Serves whole { whole with client, batches, replies } :=
  ⟨hWhole, [], (List.append_nil _).symm, by simp⟩

theorem Narrows.receiveBatch {index : Nat} {ackError : Option Exception} {next : System}
    (h : Narrows whole system) (hWhole : Kept whole.server) (hJoint : Joint system)
    (hStep : whole.receiveBatch dedupPath index ackError = some next) :
    Serves whole next ∧ ∃ after, system.receiveBatch dedupPath index ackError = some after ∧
      Narrows next after := by
  obtain ⟨packet, hPacket, hStep⟩ := Option.bind_eq_some_iff.mp hStep
  obtain ⟨server, hServer, hStep⟩ := Option.bind_eq_some_iff.mp hStep
  cases hStep
  rw [← h.batches] at hPacket
  obtain ⟨messages, clientId, hDecode, hSame, ⟨before, after, hDue, _⟩, _⟩ :=
    hJoint.batches packet (List.mem_of_getElem? hPacket)
  have hBatch := batchWithinLimits_of_decode hDecode
  have hFront := hSame _ (List.head_mem hBatch.ne_nil)
  -- the client has logged the messages under one of its ids
  have hLogged : messages.head hBatch.ne_nil ∈ system.client.history := by
    rw [← hDue]
    exact List.mem_append_left _ (List.mem_append_right _ (List.head_mem hBatch.ne_nil))
  have hKnown : clientId ∈ whole.client.generatedIds := by
    obtain ⟨pending, hHolds, _⟩ := hJoint.held
    obtain ⟨tail, hDirectory⟩ := hHolds.directory
    rw [← hFront, ← h.client]
    exact hDirectory.known _ hLogged
  have hGenerated := hJoint.generated hLogged
  obtain ⟨_, file, rfl, hKept, hOutputs, hAcks⟩ := hWhole.handleBatch hBatch hGenerated ackError
  obtain ⟨_, ownFile, rfl, _, hOwnOutputs, hOwnAcks⟩ := hJoint.kept.handleBatch hBatch hGenerated ackError
  rw [Server.step, hDecode] at hServer
  obtain rfl := Option.some.inj hServer
  have hAdded : ∀ message ∈ messages.filter (fun message => ¬message.id ≤
      whole.server.dedup.highestConfirmed (messages.head hBatch.ne_nil).clientId),
      message.clientId ∈ whole.client.generatedIds := by
    intro message hMem
    rw [hSame message (List.mem_filter.mp hMem).1]
    exact hKnown
  refine ⟨⟨hKept, _, hOutputs, hAdded⟩, ?_⟩
  rw [System.receiveBatch, hPacket, Option.bind_eq_bind, Option.bind_some, Server.step, hDecode]
  refine ⟨_, rfl, h.client, ?_, ?_, ?_⟩
  · dsimp only
    rw [h.batches]
  · dsimp only
    rw [h.replies, hAcks, hOwnAcks, List.drop_left, List.drop_left]
    rfl
  · dsimp only
    rw [hOutputs, hOwnOutputs, h.outputs, List.filter_append, hFront,
      h.watermark hWhole hJoint.kept hKnown]
    rw [hFront] at hAdded
    congr 1
    refine (List.filter_eq_self.mpr ?_).symm
    intro message hMem
    exact decide_eq_true (hAdded message hMem)

theorem takeReply_congr (hReplies : system.replies = whole.replies) (hClient : system.client = whole.client)
    (index : Nat) : system.takeReply index = whole.takeReply index := by
  rw [takeReply, takeReply, hReplies, hClient]

/-- The smaller system can take every step of the client, its connections and the server. -/
theorem Narrows.step {action : SystemAction} {next : System} (h : Narrows whole system)
    (hWhole : Kept whole.server) (hJoint : Joint system)
    (hNew : ∀ generated walOutcome stateOutcome,
      action = .client (.start generated walOutcome stateOutcome) →
        generated ∉ whole.client.generatedIds →
          ∀ message ∈ whole.server.outputs, message.clientId ≠ generated)
    (hStep : whole.step config dedupPath action = some next) :
    Serves whole next ∧ ∃ after, system.step config dedupPath action = some after ∧
      Narrows next after := by
  cases action with
  | client action =>
      rw [System.step] at hStep ⊢
      split_ifs at hStep with hLocal
      obtain ⟨client, hClient, rfl⟩ := Option.map_eq_some_iff.mp hStep
      have hNext := h.clientStep (fun generated walOutcome stateOutcome hAction =>
        hNew generated walOutcome stateOutcome (congrArg SystemAction.client hAction)) hClient
        whole.batches whole.replies
      refine ⟨serves_same hWhole, { system with client }, ?_, ?_⟩
      · rw [if_pos hLocal, h.client, hClient]
        rfl
      · rw [← h.batches, ← h.replies] at hNext
        have hBatches := h.batches
        have hReplies := h.replies
        exact { hNext with batches := hBatches, replies := hReplies }
  | send =>
      obtain ⟨session, hSession, hStep⟩ := Option.bind_eq_some_iff.mp hStep
      obtain ⟨client, hClient, hStep⟩ := Option.bind_eq_some_iff.mp hStep
      cases hStep
      refine ⟨serves_same hWhole, ?_⟩
      rw [System.step, System.send, h.client, hSession, Option.bind_eq_bind, Option.bind_some, hClient,
        h.batches]
      refine ⟨_, rfl, ?_⟩
      have hNext := h.clientStep (by
        intro _ _ _ hAction
        cases hAction) hClient
      exact { hNext _ _ with replies := h.replies }
  | receiveBatch index ackError => exact h.receiveBatch hWhole hJoint hStep
  | receiveReply index =>
      obtain ⟨packet, hPacket, hStep⟩ := Option.bind_eq_some_iff.mp hStep
      obtain ⟨client, hClient, hStep⟩ := Option.bind_eq_some_iff.mp hStep
      cases hStep
      refine ⟨serves_same hWhole, ?_⟩
      rw [System.step, takeReply_congr h.replies h.client, hPacket, Option.bind_eq_bind, Option.bind_some,
        h.client, hClient, h.replies]
      refine ⟨_, rfl, ?_⟩
      have hNext := h.clientStep (by
        intro _ _ _ hAction
        cases hAction) hClient
      exact { hNext _ _ with batches := h.batches }
  | crashInReply index outcome =>
      obtain ⟨packet, hPacket, hStep⟩ := Option.bind_eq_some_iff.mp hStep
      obtain ⟨client, hClient, hStep⟩ := Option.bind_eq_some_iff.mp hStep
      cases hStep
      refine ⟨serves_same hWhole, ?_⟩
      rw [System.step, takeReply_congr h.replies h.client, hPacket, Option.bind_eq_bind, Option.bind_some,
        h.client, hClient, h.replies]
      refine ⟨_, rfl, ?_⟩
      have hNext := h.clientStep (by
        intro _ _ _ hAction
        cases hAction) hClient
      exact { hNext _ _ with batches := h.batches }
  | loseBatch index =>
      cases hStep
      refine ⟨serves_same hWhole, _, rfl, h.client, ?_, h.replies, h.outputs⟩
      dsimp only
      rw [h.batches]
  | loseReply index =>
      cases hStep
      refine ⟨serves_same hWhole, _, rfl, h.client, h.batches, ?_, h.outputs⟩
      dsimp only
      rw [h.replies]
  | restartServer =>
      obtain ⟨server, hServer, rfl⟩ := Option.map_eq_some_iff.mp hStep
      obtain ⟨hKept, hOutputs⟩ := hWhole.restart hServer
      refine ⟨⟨hKept, [], by rw [List.append_nil]; exact hOutputs, by simp⟩, ?_⟩
      have hPath : dedupPath ≠ [] := by
        rintro rfl
        cases hServer
      have hOwn : system.server.step dedupPath .restart = some { system.server with metrics := {} } := by
        rw [Server.step, Server.restart, construct_of_stored hPath hJoint.kept.stored]
        rfl
      rw [System.step, hOwn]
      refine ⟨_, rfl, h.client, h.batches, h.replies, ?_⟩
      rw [hOutputs]
      exact h.outputs

end System

namespace Fleet
variable {ι : Type} {configs : ι → ClientConfig} {dedupPath : Bytes} {logs : ι → FileSystem}
  {fleet next : Fleet ι}

/-- The fleet as one client sees it is a reachable state of a system with this client only. -/
def Seen (configs : ι → ClientConfig) (dedupPath : Bytes) (logs : ι → FileSystem) (fleet : Fleet ι)
    (index : ι) (system : System) : Prop :=
  (∃ actions, Runs.run (System.step (configs index) dedupPath) { client := { log := logs index } }
    actions = some system) ∧ System.Narrows (fleet.part index) system

/-- The invariant of the fleet. -/
structure Shared (configs : ι → ClientConfig) (dedupPath : Bytes) (logs : ι → FileSystem)
    (fleet : Fleet ι) : Prop where
  kept : System.Kept fleet.server
  owned : ∀ message ∈ fleet.server.outputs, ∃ index, message.clientId ∈ (fleet.clients index).generatedIds
  apart : ∀ first second, first ≠ second → ∀ clientId ∈ (fleet.clients first).generatedIds,
    clientId ∉ (fleet.clients second).generatedIds
  seen : ∀ index, ∃ system, Seen configs dedupPath logs fleet index system

/-- The messages of one id are those of one client, and their ids grow. -/
theorem Shared.increasing (h : Shared configs dedupPath logs fleet) (clientId : Bytes) :
    (fleet.server.outputs.filter fun message => message.clientId = clientId).Pairwise
      fun first second => first.id < second.id := by
  by_cases hOwned : ∃ index, clientId ∈ (fleet.clients index).generatedIds
  · obtain ⟨index, hMem⟩ := hOwned
    obtain ⟨system, ⟨actions, hRun⟩, hNarrows⟩ := h.seen index
    obtain ⟨hJoint, _⟩ := System.joint_run hRun
    have hOutputs : (fleet.server.outputs.filter fun message => message.clientId = clientId) =
        system.server.outputs.filter fun message => message.clientId = clientId := by
      rw [hNarrows.outputs, List.filter_filter]
      refine List.filter_congr ?_
      intro message _
      by_cases hClient : message.clientId = clientId
      · simp [hClient, part, hMem]
      · simp [hClient]
    rw [hOutputs]
    have hOrder := (hJoint.consistent.history.sublist hJoint.delivered.outputs.sublist).filter
      fun message => message.clientId = clientId
    refine List.Pairwise.imp_of_mem ?_ hOrder
    intro first second hFirst hSecond hLt
    exact hLt ((of_decide_eq_true (List.mem_filter.mp hFirst).2).trans
      (of_decide_eq_true (List.mem_filter.mp hSecond).2).symm)
  · have hNone : (fleet.server.outputs.filter fun message => message.clientId = clientId) = [] := by
      rw [List.filter_eq_nil_iff]
      intro message hMem hClient
      obtain ⟨index, hOwner⟩ := h.owned message hMem
      exact hOwned ⟨index, of_decide_eq_true hClient ▸ hOwner⟩
    rw [hNone]
    exact List.Pairwise.nil

/-- The ids of the clients stay apart. -/
theorem Shared.apart_step {index : ι} {action : SystemAction} {system : System}
    (h : Shared configs dedupPath logs fleet) (hFresh : Fresh fleet (index, action))
    (hStep : (fleet.part index).step (configs index) dedupPath action = some system) :
    (∀ clientId ∈ (fleet.clients index).generatedIds, clientId ∈ system.client.generatedIds) ∧
      ∀ other, other ≠ index → ∀ clientId ∈ system.client.generatedIds,
        clientId ∉ (fleet.clients other).generatedIds := by
  have hIds : system.client.generatedIds = (fleet.clients index).generatedIds ∨
      ∃ generated, (∀ other, other ≠ index → generated ∉ (fleet.clients other).generatedIds) ∧
        system.client.generatedIds = (fleet.clients index).generatedIds ++ [generated] := by
    rcases System.client_of_step hStep with hSame | ⟨clientAction, hClient, hStart⟩
    · exact Or.inl (congrArg Client.generatedIds hSame)
    · refine (Client.generatedIds_step hClient).imp_right ?_
      rintro ⟨generated, walOutcome, stateOutcome, rfl, _, hMore⟩
      rw [hStart generated walOutcome stateOutcome rfl] at hFresh
      exact ⟨generated, hFresh, hMore⟩
  rcases hIds with hSame | ⟨generated, hOthers, hMore⟩
  · rw [hSame]
    exact ⟨fun _ hMem => hMem, fun other hOther => h.apart index other hOther.symm⟩
  · rw [hMore]
    refine ⟨fun _ hMem => List.mem_append_left _ hMem, ?_⟩
    intro other hOther clientId hMem
    rcases List.mem_append.mp hMem with hOld | hNew
    · exact h.apart index other hOther.symm clientId hOld
    · rw [List.mem_singleton.mp hNew]
      exact hOthers other hOther

/-! Steps. -/

section Steps
variable [DecidableEq ι]

@[simp] theorem put_part_self (fleet : Fleet ι) (index : ι) (system : System) :
    (fleet.put index system).part index = system := by
  simp [put, part]

theorem put_part_of_ne {index other : ι} (h : other ≠ index) (system : System) :
    (fleet.put index system).part other = { fleet.part other with server := system.server } := by
  simp [put, part, h]

theorem put_clients_generatedIds {index other : ι} {system : System} (h : other ≠ index) :
    ((fleet.put index system).clients other).generatedIds = (fleet.clients other).generatedIds := by
  simp [put, h]

theorem Shared.step {action : ι × SystemAction} (h : Shared configs dedupPath logs fleet)
    (hFresh : Fresh fleet action) (hStep : step configs dedupPath fleet action = some next) :
    Shared configs dedupPath logs next := by
  obtain ⟨index, action⟩ := action
  obtain ⟨system, hSystem, rfl⟩ := Option.map_eq_some_iff.mp hStep
  obtain ⟨own, ⟨past, hPast⟩, hNarrows⟩ := h.seen index
  obtain ⟨hGrown, hApart⟩ := h.apart_step hFresh hSystem
  have hNew : ∀ generated walOutcome stateOutcome,
      action = .client (.start generated walOutcome stateOutcome) →
        generated ∉ (fleet.clients index).generatedIds →
          ∀ message ∈ fleet.server.outputs, message.clientId ≠ generated := by
    rintro generated _ _ rfl hUnused message hMem rfl
    obtain ⟨owner, hOwner⟩ := h.owned message hMem
    by_cases hSame : owner = index
    · exact hUnused (hSame ▸ hOwner)
    · exact hFresh owner hSame hOwner
  obtain ⟨⟨hKept, added, hOutputs, hAdded⟩, after, hAfter, hNext⟩ :=
    hNarrows.step h.kept (System.joint_run hPast).1 hNew hSystem
  constructor
  · exact hKept
  · intro message hMem
    change message ∈ system.server.outputs at hMem
    rw [hOutputs, List.mem_append] at hMem
    rcases hMem with hOld | hAdd
    · obtain ⟨owner, hOwner⟩ := h.owned message hOld
      refine ⟨owner, ?_⟩
      by_cases hSame : owner = index
      · subst hSame
        simpa [put] using hGrown _ hOwner
      · rwa [put_clients_generatedIds hSame]
    · exact ⟨index, by simpa [put] using hGrown _ (hAdded message hAdd)⟩
  · intro first second hNe clientId hMem
    by_cases hFirst : first = index
    · subst hFirst
      rw [put_clients_generatedIds hNe.symm]
      exact hApart second hNe.symm clientId (by simpa [put] using hMem)
    · rw [put_clients_generatedIds hFirst] at hMem
      by_cases hSecond : second = index
      · subst hSecond
        intro hBoth
        exact hApart first hFirst clientId (by simpa [put] using hBoth) hMem
      · rw [put_clients_generatedIds hSecond]
        exact h.apart first second hNe clientId hMem
  · intro other
    by_cases hSame : other = index
    · subst hSame
      refine ⟨after, ⟨past ++ [action], ?_⟩, ?_⟩
      · exact Runs.run_trans hPast (Runs.run_singleton hAfter)
      · rw [put_part_self]
        exact hNext
    · -- the messages of the step are of another client
      obtain ⟨own, hRun, hOther⟩ := h.seen other
      refine ⟨own, hRun, ?_⟩
      rw [put_part_of_ne hSame]
      refine ⟨hOther.client, hOther.batches, hOther.replies, hOther.outputs.trans ?_⟩
      dsimp only
      rw [hOutputs, List.filter_append]
      refine (List.append_right_eq_self.mpr ?_).symm
      rw [List.filter_eq_nil_iff]
      intro message hMem hTheirs
      exact h.apart index other (Ne.symm hSame) _ (hAdded message hMem) (of_decide_eq_true hTheirs)

end Steps

/-! Two clients: one has started, and the other sends a line. -/

def otherState : ClientState := { Client.sampleState with clientId := List.replicate 32 49 }

def sampleActions : List (Bool × SystemAction) :=
  (true, .client (.start otherState.clientId .saved .saved)) ::
    System.sampleActions.map fun action => (false, action)

end Fleet
end LogBridge
