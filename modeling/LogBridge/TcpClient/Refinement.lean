import LogBridge.Client.Failures
import LogBridge.TcpClient.Retry
import Mathlib.Logic.Relation

/-! The retry loop does what the actions of the consumer say: attempts that fail,
compactions that throw, and at last a batch that is sent and confirmed. -/
namespace LogBridge.TcpClient

open Scripted Checked Protocol Storage WriteAheadLog

variable {α : Type} {config : ClientConfig} {client next : Client} {session : Session}
  {messages : List LogMessage} {world after : Delivery} {last : LogMessage} {frame : Bytes}

/-! What leaves the log alone. -/

/-- The log in memory and on disk. -/
def log (world : Delivery) : WriteAheadLog × Option Bytes := (world.wal, world.walFile)

theorem keeps_observe {value : Reply → α} :
    Keeps log (call fun world reply => (value reply, world) : Sending α) :=
  Keeps.call fun _ _ => rfl

theorem keeps_socket : Keeps log socket := by
  apply Keeps.call
  intro world reply
  cases reply.value with
  | none => rfl
  | some fd =>
      dsimp only
      split_ifs
      · rfl
      · rfl

theorem keeps_close (fd : Nat) : Keeps log (close fd) := Keeps.call fun _ _ => rfl

theorem keeps_connectAddresses (addresses : Nat) : Keeps log (connectAddresses addresses) := by
  induction addresses with
  | zero => exact Keeps.pure
  | succ addresses ih =>
      apply Keeps.bind keeps_socket
      intro opened
      cases opened with
      | none => exact ih
      | some fd =>
          apply Keeps.bind (Keeps.loop fun _ _ _ => rfl)
          intro connected
          cases connected with
          | true => exact Keeps.pure
          | false => exact Keeps.bind (keeps_close fd) fun _ => ih

theorem keeps_connectToServer : Keeps log connectToServer := by
  apply Keeps.bind keeps_observe
  intro resolved
  cases resolved with
  | none => exact Keeps.throwing
  | some addresses =>
      apply Keeps.bind (keeps_connectAddresses addresses)
      intro connected
      cases connected with
      | none => exact Keeps.throwing
      | some fd => exact Keeps.pure

theorem keeps_configureTimeout (timeout : Int) : Keeps log (configureTimeout timeout) := by
  unfold configureTimeout
  split_ifs
  · exact Keeps.throwing
  · apply Keeps.bind keeps_observe
    intro first
    cases first with
    | false => exact Keeps.throwing
    | true =>
        apply Keeps.bind keeps_observe
        intro second
        cases second with
        | false => exact Keeps.throwing
        | true => exact Keeps.pure

theorem keeps_construct : Keeps log construct := by
  apply Keeps.bind keeps_connectToServer
  intro fd
  apply Keeps.bind (Keeps.onThrow (keeps_configureTimeout _) (keeps_close fd))
  exact fun _ => Keeps.modifying fun _ => rfl

theorem reset_log {post : Post Delivery Exception Unit}
    (hStopped : ∀ after, log after = log world → post.stopped after)
    (hReturned : ∀ after, log after = log world → post.returned () after) :
    Meets world reset post := by
  apply Meets.reading
  cases world.client with
  | none => exact Meets.pure (hReturned _ rfl)
  | some fd =>
      apply Meets.bind
      apply Meets.call
      · exact hStopped _ rfl
      · exact fun _ => Meets.modifying (hReturned _ rfl)

theorem confirm_log {post : Post Delivery Exception Unit} {confirmedId : UInt64}
    (hStopped : post.stopped world)
    (hFailed : ∀ outcome error after,
      world.wal.confirm world.walFile confirmedId outcome = (.error error, log after) →
      post.threw error after)
    (hReturned : ∀ outcome after,
      world.wal.confirm world.walFile confirmedId outcome = (.ok (), log after) →
      post.returned () after) : Meets world (confirm confirmedId) post := by
  apply Meets.bind
  refine Meets.call ?_ fun reply => ?_
  · exact hStopped
  · rcases hCall : world.wal.confirm world.walFile confirmedId reply.save with
      ⟨error | value, wal, walFile⟩
    · exact Meets.throwing (hFailed reply.save error _ hCall)
    · exact Meets.pure (hReturned reply.save _ hCall)

/-- Only the compaction changes the log. -/
theorem deliver_log {post : Post Delivery Exception Unit} {batch : List LogMessage}
    (hStopped : ∀ after, log after = log world → post.stopped after)
    (hThrew : ∀ error after, log after = log world → post.threw error after)
    (hFailed : ∀ frame last outcome error after, serializeLogBatch batch = .ok frame →
      last ∈ batch.getLast? →
      world.wal.confirm world.walFile last.id outcome = (.error error, log after) →
      post.threw error after)
    (hReturned : ∀ frame last outcome after, serializeLogBatch batch = .ok frame →
      last ∈ batch.getLast? →
      world.wal.confirm world.walFile last.id outcome = (.ok (), log after) →
      post.returned () after) : Meets world (deliver batch) post := by
  have hOpens : Keeps log
      (reading fun world => if world.client = none then construct else pure () : Sending Unit) := by
    apply Keeps.reading
    intro world
    split_ifs
    · exact keeps_construct
    · exact Keeps.pure
  apply Meets.bind
  apply hOpens.meets
  · intro _ now hNow
    apply Meets.bind
    apply sendLogBatchAndWaitAck_meets
    · exact hStopped _ hNow
    · exact fun error => hThrew error _ hNow
    · intro frame last hFrame hLast
      apply Meets.bind
      obtain ⟨hWal, hFile⟩ := Prod.mk.inj hNow
      apply confirm_log
      · exact hStopped _ hNow
      · intro outcome error final hFinal
        rw [hWal, hFile] at hFinal
        exact hFailed frame last outcome error final hFrame hLast hFinal
      · intro outcome final hFinal
        rw [hWal, hFile] at hFinal
        exact Meets.modifying (hReturned frame last outcome _ hFrame hLast hFinal)
  · exact fun error now hNow => hThrew error now hNow
  · exact fun now hNow => hStopped now hNow

/-! The actions. -/

/-- The client delivers these messages, with the log of the world. -/
structure Matches (client : Client) (messages : List LogMessage) (world : Delivery) : Prop where
  session : ∃ session, client.session = some session ∧ session.running = true ∧
    session.consumer = .delivering messages ∧ session.wal = world.wal
  walFile : client.walFile = world.walFile

theorem Matches.congr (h : Matches client messages world) (hLog : log after = log world) :
    Matches client messages after := by
  obtain ⟨hWal, hFile⟩ := Prod.mk.inj hLog
  constructor
  · rw [hWal]
    exact h.session
  · rw [hFile]
    exact h.walFile

/-- An attempt that fails: it throws before its batch is confirmed, or the compaction
throws after that. -/
inductive Fails (config : ClientConfig) (client next : Client) : Prop
  | attempt (h : client.step config (.thread (.attempt .failed)) = some next) : Fails config client next
  | compaction {sent : Client} {session : Session} {frame : Bytes} {outcome : SaveOutcome}
      (hSent : client.step config (.thread (.attempt .sent)) = some sent)
      (hSession : sent.session = some session)
      (hFail : sent.failReply session frame outcome = some next) : Fails config client next

section Actions
variable (hSession : client.session = some session) (hRunning : session.running = true)
  (hDelivering : session.consumer = .delivering messages) (hMessages : messages ≠ [])
include hSession hRunning hDelivering hMessages

theorem attempt_failed : client.step config (.thread (.attempt .failed)) =
    some { client with session := some session, connection := client.connection + 1 } := by
  have hStep : session.threadStep config client.log (.attempt .failed) = some (session, true) := by
    simp [Session.threadStep, hDelivering, hMessages, hRunning]
  rw [Client.step, hSession]
  exact congrArg (fun moved => Option.bind moved _) hStep

theorem attempt_sent (hFrame : serializeLogBatch (messages.take sendBatchSize) = .ok frame) :
    client.step config (.thread (.attempt .sent)) =
      some { client with session := some { session with consumer := .awaiting messages } } := by
  have hStep : session.threadStep config client.log (.attempt .sent) =
      some ({ session with consumer := .awaiting messages }, false) := by
    simp [Session.threadStep, hDelivering, hMessages, hRunning, Session.batch, hFrame]
  rw [Client.step, hSession]
  exact congrArg (fun moved => Option.bind moved _) hStep

end Actions

theorem step_reply (hSession : client.session = some session)
    (hReply : client.reply session frame = some next) :
    client.step config (.reply frame) = some next :=
  Option.bind_eq_some_iff.mpr ⟨session, hSession, hReply⟩

theorem confirmedBy_last (hLast : last ∈ (messages.take sendBatchSize).getLast?) :
    Client.confirmedBy messages (serializeAck last.id) = some last.id := by
  have hAck : deserializeAck (serializeAck last.id) = .ok ⟨last.id⟩ := deserializeAck_eq_ok_iff.mpr rfl
  have hBatch : (Session.batch messages).getLast? = some last := hLast
  rw [Client.confirmedBy, hAck, hBatch]
  exact if_pos rfl

/-- A compaction that returns is one that was saved. -/
theorem confirm_saved_of_ok {wal : WriteAheadLog} {file : Option Bytes} {confirmedId : UInt64}
    {outcome : SaveOutcome} {result : WriteAheadLog × Option Bytes}
    (h : wal.confirm file confirmedId outcome = (.ok (), result)) :
    wal.confirm file confirmedId .saved = (.ok (), result) := by
  unfold WriteAheadLog.confirm at h ⊢
  dsimp only at h ⊢
  split_ifs at h ⊢
  · exact h
  · unfold rewriteLocked at h ⊢
    cases hData : encodePending (wal.pending.filter fun message => ¬message.id ≤ confirmedId) with
    | error error =>
        rw [hData] at h
        cases h
    | ok data =>
        rw [hData] at h
        cases outcome with
        | saved => exact h
        | failedBeforeRename error => cases h
        | failedAfterRename error => cases h

theorem Matches.fails (config : ClientConfig) (h : Matches client messages world) (hMessages : messages ≠ [])
    (hLog : log after = log world) : ∃ next, Fails config client next ∧ Matches next messages after := by
  obtain ⟨session, hSession, hRunning, hDelivering, hWal⟩ := h.session
  let next : Client := { client with session := some session, connection := client.connection + 1 }
  have hFailed : client.step config (.thread (.attempt .failed)) = some next :=
    attempt_failed hSession hRunning hDelivering hMessages
  have hNext : Matches next messages world := ⟨⟨session, rfl, hRunning, hDelivering, hWal⟩, h.walFile⟩
  exact ⟨next, .attempt hFailed, hNext.congr hLog⟩

theorem Matches.compactionFails (config : ClientConfig) {outcome : SaveOutcome} {error : Exception}
    (h : Matches client messages world) (hMessages : messages ≠ [])
    (hFrame : serializeLogBatch (messages.take sendBatchSize) = .ok frame)
    (hLast : last ∈ (messages.take sendBatchSize).getLast?)
    (hConfirm : world.wal.confirm world.walFile last.id outcome = (.error error, log after)) :
    ∃ next, Fails config client next ∧ Matches next messages after := by
  obtain ⟨session, hSession, hRunning, hDelivering, hWal⟩ := h.session
  let sent : Client := { client with session := some { session with consumer := .awaiting messages } }
  let next : Client := { client with
    walFile := after.walFile
    connection := client.connection + 1
    session := some { session with wal := after.wal, consumer := .delivering messages } }
  have hFail : sent.failReply { session with consumer := .awaiting messages } (serializeAck last.id)
      outcome = some next := by
    simp only [Client.failReply, sent, next, confirmedBy_last hLast, hWal, h.walFile, hConfirm, log]
  have hSent : client.step config (.thread (.attempt .sent)) = some sent :=
    attempt_sent hSession hRunning hDelivering hMessages hFrame
  have hSession : sent.session = some { session with consumer := .awaiting messages } := rfl
  exact ⟨next, .compaction hSent hSession hFail, ⟨_, rfl, hRunning, rfl, rfl⟩, rfl⟩

theorem Matches.confirmed (config : ClientConfig) {outcome : SaveOutcome}
    (h : Matches client messages world) (hMessages : messages ≠ [])
    (hFrame : serializeLogBatch (messages.take sendBatchSize) = .ok frame)
    (hLast : last ∈ (messages.take sendBatchSize).getLast?)
    (hConfirm : world.wal.confirm world.walFile last.id outcome = (.ok (), log after)) :
    ∃ sent next, client.step config (.thread (.attempt .sent)) = some sent ∧
      sent.step config (.reply (serializeAck last.id)) = some next ∧
      Matches next (messages.drop sendBatchSize) after := by
  obtain ⟨session, hSession, hRunning, hDelivering, hWal⟩ := h.session
  have hSaved := confirm_saved_of_ok hConfirm
  let sent : Client := { client with session := some { session with consumer := .awaiting messages } }
  let next : Client := { client with
    walFile := after.walFile
    session := some { session with
      wal := after.wal, consumer := .delivering (messages.drop sendBatchSize) } }
  have hReply : sent.reply { session with consumer := .awaiting messages } (serializeAck last.id) =
      some next := by
    simp only [Client.reply, sent, next, confirmedBy_last hLast, hWal, h.walFile, hSaved, log]
  have hSent : sent.session = some { session with consumer := .awaiting messages } := rfl
  exact ⟨sent, next, attempt_sent hSession hRunning hDelivering hMessages hFrame,
    step_reply hSent hReply, ⟨_, rfl, hRunning, rfl, rfl⟩, rfl⟩

/-! The loop. -/

/-- The client after attempts that have failed. -/
def Tried (config : ClientConfig) (client : Client) (messages : List LogMessage) (world : Delivery) : Prop :=
  ∃ tried, Relation.ReflTransGen (Fails config) client tried ∧ Matches tried messages world

/-- One more attempt, and its batch is sent and confirmed. -/
def Delivered (config : ClientConfig) (client : Client) (messages : List LogMessage)
    (world : Delivery) : Prop :=
  ∃ tried sent next frame, Relation.ReflTransGen (Fails config) client tried ∧
    tried.step config (.thread (.attempt .sent)) = some sent ∧
    sent.step config (.reply frame) = some next ∧
    Matches next (messages.drop sendBatchSize) world

theorem Tried.congr (h : Tried config client messages world) (hLog : log after = log world) :
    Tried config client messages after := by
  obtain ⟨tried, hTried, hMatches⟩ := h
  exact ⟨tried, hTried, hMatches.congr hLog⟩

/-- What the loop has done so far, or in the end. -/
def Done (config : ClientConfig) (client : Client) (messages : List LogMessage) :
    Bool → Delivery → Prop
  | true => Delivered config client messages
  | false => Tried config client messages

theorem handleFailure_tries {post : Post Delivery Exception (Nat ⊕ Bool)} {delay : Nat}
    (hStopped : ∀ after, Tried config client messages after → post.stopped after)
    (hAgain : ∀ delay after, Tried config client messages after → post.returned (.inl delay) after)
    (hEnd : ∀ after, Tried config client messages after → post.returned (.inr false) after)
    (h : Tried config client messages world) : Meets world (handleFailure delay) post := by
  apply Meets.bind
  apply reset_log
  · exact fun after hLog => hStopped _ (h.congr hLog)
  · intro after hLog
    apply Meets.bind
    apply Meets.modifying
    apply Meets.bind
    apply observe_meets
    · exact hStopped _ (h.congr hLog)
    · intro running
      cases running with
      | true => exact Meets.pure (hAgain _ _ (h.congr hLog))
      | false => exact Meets.pure (hEnd _ (h.congr hLog))

theorem deliverWithRetry_tries (hMessages : messages ≠ []) (h : Tried config client messages world) :
    Meets world (deliverWithRetry (messages.take sendBatchSize))
      ⟨Done config client messages, fun _ _ => False, Tried config client messages⟩ := by
  apply @Meets.repeating _ _ _ _ _ _ _ _ (fun _ after => Tried config client messages after) _ h
  · rintro delay now hNow
    apply Meets.bind
    apply observe_meets
    · exact hNow
    · intro running
      cases running with
      | false => exact Meets.pure hNow
      | true =>
          obtain ⟨tried, hTried, hMatches⟩ := hNow
          apply Meets.catching
          apply Meets.bind
          apply deliver_log
          · exact fun after hLog => ⟨tried, hTried, hMatches.congr hLog⟩
          · intro error after hLog
            obtain ⟨next, hFails, hNext⟩ := hMatches.fails config hMessages hLog
            exact handleFailure_tries (fun _ h => h) (fun _ _ h => h) (fun _ h => h)
              ⟨next, hTried.tail hFails, hNext⟩
          · intro frame last outcome error after hFrame hLast hConfirm
            obtain ⟨next, hFails, hNext⟩ :=
              hMatches.compactionFails config hMessages hFrame hLast hConfirm
            exact handleFailure_tries (fun _ h => h) (fun _ _ h => h) (fun _ h => h)
              ⟨next, hTried.tail hFails, hNext⟩
          · intro frame last outcome after hFrame hLast hConfirm
            obtain ⟨sent, next, hSent, hReply, hNext⟩ :=
              hMatches.confirmed config hMessages hFrame hLast hConfirm
            exact Meets.pure ⟨tried, sent, next, _, hTried, hSent, hReply, hNext⟩
  · exact fun _ _ hNow => hNow

/-- Whatever its calls return, the retry loop takes the client through actions that
end with the same log in memory and on disk: failed attempts, and when it returns
true, the sending of the batch and its confirmation. -/
theorem deliverWithRetry_refines (config : ClientConfig) (client : Client) (messages : List LogMessage)
    (world : Delivery) (replies : List Reply) (hMessages : messages ≠ [])
    (h : Matches client messages world) :
    match deliverWithRetry (messages.take sendBatchSize) world replies with
    | (.returned true, after, _) => Delivered config client messages after
    | (.returned false, after, _) => Tried config client messages after
    | (.threw _, _, _) => False
    | (.stopped, after, _) => Tried config client messages after := by
  have hTried : Tried config client messages world := ⟨client, .refl, h⟩
  have hRun := deliverWithRetry_tries hMessages hTried replies
  rcases hEnd : deliverWithRetry (messages.take sendBatchSize) world replies with
    ⟨ending, after, left⟩
  rw [hEnd] at hRun
  cases ending with
  | returned value =>
      cases value with
      | true => exact hRun
      | false => exact hRun
  | threw error => exact hRun
  | stopped => exact hRun

/-! The first address is refused, and the second attempt delivers the batch. -/

def sentMessage : LogMessage := { id := 1, clientId := [99], content := [97] }

def sendingClient : Client where
  log := Client.sampleLog
  session := some {
    wal := { pending := [sentMessage] }
    state := Client.sampleState
    consumer := .delivering [sentMessage] }

def sendingReplies : List Reply :=
  -- the socket of the first attempt is opened, refused and closed
  [{}, { value := some 1 }, { value := some 3 }, {}, {}, {},
    {}, { value := some 1 }, { value := some 3 }, { value := some 0 }, { value := some 0 },
    { value := some 0 }, {}, { received := .ok (some (serializeAck 1)) }, {}]

theorem deliverWithRetry_refines_sample : ∃ after left,
    deliverWithRetry [sentMessage] { wal := { pending := [sentMessage] } } sendingReplies =
      (.returned true, after, left) ∧
    after.delays = [500] ∧ after.wal.pending = [] ∧
    Delivered Client.sampleConfig sendingClient [sentMessage] after := by
  have hRefines := deliverWithRetry_refines Client.sampleConfig sendingClient [sentMessage]
    { wal := { pending := [sentMessage] } } sendingReplies (by decide) ⟨⟨_, rfl, rfl, rfl, rfl⟩, rfl⟩
  obtain ⟨after, left, hRun, hDelays, hPending⟩ : ∃ after left,
      deliverWithRetry [sentMessage] { wal := { pending := [sentMessage] } } sendingReplies =
        (.returned true, after, left) ∧ after.delays = [500] ∧ after.wal.pending = [] :=
    ⟨_, _, rfl, rfl, rfl⟩
  rw [show [sentMessage].take sendBatchSize = [sentMessage] from rfl, hRun] at hRefines
  exact ⟨after, left, hRun, hDelays, hPending, hRefines⟩

/-! All batches. -/

/-- One attempt: it fails, or its batch is sent and confirmed. -/
inductive Attempts (config : ClientConfig) (client next : Client) : Prop
  | failed (h : Fails config client next) : Attempts config client next
  | confirmed {sent : Client} {frame : Bytes}
      (hSent : client.step config (.thread (.attempt .sent)) = some sent)
      (hReply : sent.step config (.reply frame) = some next) : Attempts config client next

/-- Attempts lead to a client with these messages left. -/
def Reaches (config : ClientConfig) (client : Client) (messages : List LogMessage)
    (world : Delivery) : Prop :=
  ∃ now, Relation.ReflTransGen (Attempts config) client now ∧ Matches now messages world

/-- Some of the batches have been delivered. -/
def Partway (config : ClientConfig) (client : Client) (messages : List LogMessage)
    (world : Delivery) : Prop :=
  ∃ count, Reaches config client (messages.drop (sendBatchSize * count)) world

theorem Reaches.partway (h : Reaches config client messages world) :
    Partway config client messages world := by
  exists 0

theorem Partway.of_drop (h : Partway config client (messages.drop sendBatchSize) world) :
    Partway config client messages world := by
  obtain ⟨count, hReaches⟩ := h
  exists count + 1
  rw [List.drop_drop] at hReaches
  rw [Nat.mul_succ, Nat.add_comm]
  exact hReaches

theorem Reaches.tried {now : Client} (h : Relation.ReflTransGen (Attempts config) client now)
    (hTried : Tried config now messages world) : Reaches config client messages world := by
  obtain ⟨tried, hFails, hMatches⟩ := hTried
  exact ⟨tried, h.trans (hFails.lift id fun _ _ => .failed), hMatches⟩

theorem Reaches.delivered {now : Client} (h : Relation.ReflTransGen (Attempts config) client now)
    (hDelivered : Delivered config now messages world) :
    Reaches config client (messages.drop sendBatchSize) world := by
  obtain ⟨tried, sent, next, frame, hFails, hSent, hReply, hMatches⟩ := hDelivered
  have hTried := h.trans (hFails.lift id fun _ _ => .failed)
  exact ⟨next, hTried.tail (.confirmed hSent hReply), hMatches⟩

/-- What has been sent when the batches are through, or no more are tried. -/
def Sent (config : ClientConfig) (client : Client) (messages : List LogMessage) :
    Bool → Delivery → Prop
  | true => Reaches config client []
  | false => Partway config client messages

theorem sendMessages_tries (messages : List LogMessage) (h : Reaches config client messages world) :
    Meets world (sendMessages messages)
      ⟨Sent config client messages, fun _ _ => False, Partway config client messages⟩ := by
  induction messages using sendMessages.induct generalizing world with
  | case1 =>
      rw [sendMessages]
      exact Meets.pure h
  | case2 message rest ih =>
      obtain ⟨now, hNow, hMatches⟩ := h
      rw [sendMessages]
      apply Meets.bind
      apply (deliverWithRetry_tries (List.cons_ne_nil message rest) ⟨now, .refl, hMatches⟩).mono
      · intro delivered after hAfter
        cases delivered with
        | true =>
            apply (ih (Reaches.delivered hNow hAfter)).mono
            · intro through last hLast
              cases through with
              | true => exact hLast
              | false => exact Partway.of_drop hLast
            · exact fun _ _ hThrew => hThrew
            · exact fun _ hLast => hLast.of_drop
        | false => exact Meets.pure (Reaches.tried hNow hAfter).partway
      · exact fun _ _ hThrew => hThrew
      · exact fun _ hAfter => (Reaches.tried hNow hAfter).partway

/-- Whatever its calls return, sending takes the client through attempts of its own,
batch by batch, and when it returns true, to the end of the messages. -/
theorem sendMessages_refines (config : ClientConfig) (client : Client) (messages : List LogMessage)
    (world : Delivery) (replies : List Reply) (h : Matches client messages world) :
    match sendMessages messages world replies with
    | (.returned true, after, _) => Reaches config client [] after
    | (.returned false, after, _) => Partway config client messages after
    | (.threw _, _, _) => False
    | (.stopped, after, _) => Partway config client messages after := by
  have hReaches : Reaches config client messages world := ⟨client, .refl, h⟩
  have hRun := sendMessages_tries messages hReaches replies
  rcases hEnd : sendMessages messages world replies with ⟨ending, after, left⟩
  rw [hEnd] at hRun
  cases ending with
  | returned value =>
      cases value with
      | true => exact hRun
      | false => exact hRun
  | threw error => exact hRun
  | stopped => exact hRun

theorem sendMessages_refines_sample : ∃ after left,
    sendMessages [sentMessage] { wal := { pending := [sentMessage] } } sendingReplies =
      (.returned true, after, left) ∧ Reaches Client.sampleConfig sendingClient [] after := by
  have hRefines := sendMessages_refines Client.sampleConfig sendingClient [sentMessage]
    { wal := { pending := [sentMessage] } } sendingReplies ⟨⟨_, rfl, rfl, rfl, rfl⟩, rfl⟩
  have hNone : sendMessages ([sentMessage].drop sendBatchSize) = pure true := sendMessages.eq_1
  obtain ⟨after, left, hRun⟩ : ∃ after left,
      sendMessages [sentMessage] { wal := { pending := [sentMessage] } } sendingReplies =
        (.returned true, after, left) := by
    rw [sendMessages, hNone]
    exact ⟨_, _, rfl⟩
  rw [hRun] at hRefines
  exact ⟨after, left, hRun, hRefines⟩

end LogBridge.TcpClient
