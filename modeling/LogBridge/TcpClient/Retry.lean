import LogBridge.TcpClient.Model
import LogBridge.WriteAheadLog.Refinement

/-! What the consumer thread has done, wherever it ends or stops. It holds one socket
at most and closes each once; the delays of every batch double from the first one
up to the bound; and the counters are those of the batches that went through. -/
namespace LogBridge.TcpClient

open Scripted Protocol Storage WriteAheadLog

variable {delivered : List (List LogMessage)} {failures : List Nat} {others : List Nat}
  {client : Option Nat} {world : Delivery} {α : Type} {fd : Nat}

/-- The delays that are announced for a batch that fails so often. -/
def backoff (count : Nat) : List Nat :=
  (List.range count).map fun failure => min (initialRetryDelay * 2 ^ failure) maxRetryDelay

theorem backoff_succ (count : Nat) :
    backoff (count + 1) = backoff count ++ [min (initialRetryDelay * 2 ^ count) maxRetryDelay] := by
  rw [backoff, List.range_succ, List.map_append]
  rfl

theorem next_delay (count : Nat) :
    min (min (initialRetryDelay * 2 ^ count) maxRetryDelay * 2) maxRetryDelay =
      min (initialRetryDelay * 2 ^ (count + 1)) maxRetryDelay := by
  rw [pow_succ, initialRetryDelay, maxRetryDelay]
  omega

/-- The counters after these batches and delays. -/
def counters (delivered : List (List LogMessage)) (delays : List Nat) : ClientMetrics where
  confirmedMessages := UInt64.ofNat delivered.flatten.length
  confirmedBatches := UInt64.ofNat delivered.length
  retries := UInt64.ofNat delays.length

theorem counters_delivered (batch : List LogMessage) (delays : List Nat) :
    counters (delivered ++ [batch]) delays = { counters delivered delays with
      confirmedMessages := (counters delivered delays).confirmedMessages + UInt64.ofNat batch.length
      confirmedBatches := (counters delivered delays).confirmedBatches + 1 } := by
  simp [counters, UInt64.ofNat_add]

theorem counters_delayed (delays : List Nat) (delay : Nat) :
    counters delivered (delays ++ [delay]) = { counters delivered delays with
      retries := (counters delivered delays).retries + 1 } := by
  simp [counters, UInt64.ofNat_add]

/-- The batches that have gone through, how often each attempted batch has failed,
and the sockets held by the function at work and by the connection. -/
structure At (delivered : List (List LogMessage)) (failures others : List Nat) (client : Option Nat)
    (world : Delivery) : Prop where
  held : world.descriptors.Held (others ++ client.toList)
  single : (others ++ client.toList).length ≤ 1
  numbered : world.descriptors.opened = List.range world.descriptors.opened.length
  client_eq : world.client = client
  delays : world.delays = failures.flatMap backoff
  metrics : world.metrics = counters delivered world.delays
  gone : ∀ batch ∈ delivered, ∀ last ∈ batch.getLast?, ∀ message ∈ world.wal.pending,
    last.id < message.id

/-! The sockets. -/

theorem At.opened (h : At delivered failures [] none world) (hFree : world.descriptors.table fd = none) :
    At delivered failures [fd] none { world with
      descriptors := world.descriptors.openAt fd world.descriptors.opened.length } :=
  { h with
    held := h.held.openAt hFree _
    single := Nat.le_refl _
    numbered := by
      rw [Descriptors.openAt, List.length_append, List.length_singleton, List.range_succ,
        ← h.numbered] }

theorem count_singleton_eq (other : Nat) : [fd].count other = if other = fd then 1 else 0 := by
  split_ifs with hSame
  · rw [hSame, List.count_singleton_self]
  · exact List.count_eq_zero.mpr fun hMem => hSame (List.mem_singleton.mp hMem)

theorem At.closed (h : At delivered failures [fd] none world) :
    At delivered failures [] none { world with descriptors := world.descriptors.close fd } :=
  { h with
    held := h.held.close fun other => (count_singleton_eq other).trans (Nat.zero_add _).symm
    single := Nat.zero_le _ }

/-- The connection takes over the socket. -/
theorem At.connected (h : At delivered failures [fd] none world) :
    At delivered failures [] (some fd) { world with client := some fd } :=
  { h with
    held := h.held
    single := h.single
    client_eq := rfl }

theorem At.released (h : At delivered failures [] (some fd) world) :
    At delivered failures [] none { world with
      descriptors := world.descriptors.close fd, client := none } :=
  { h with
    held := h.held.close fun other => (count_singleton_eq other).trans (Nat.zero_add _).symm
    single := Nat.zero_le _
    client_eq := rfl }

/-! One contract for each function. -/

section Contracts
variable {post : Post Delivery Exception α}

/-- A call that changes nothing the program keeps. -/
theorem observe_meets {value : Reply → α} (hStopped : post.stopped world)
    (hValue : ∀ result, post.returned result world) :
    Meets world (call fun world reply => (value reply, world)) post :=
  Meets.call hStopped fun reply => hValue (value reply)

theorem socket_meets {post : Post Delivery Exception (Option Nat)}
    (h : At delivered failures [] none world) (hStopped : post.stopped world)
    (hFailed : post.returned none world)
    (hOpened : ∀ fd after, At delivered failures [fd] none after → post.returned (some fd) after) :
    Meets world socket post := by
  apply Meets.call hStopped
  intro reply
  cases reply.value with
  | none => exact hFailed
  | some fd =>
      dsimp only
      split_ifs with hFree
      · exact hOpened fd _ (h.opened hFree)
      · exact hFailed

theorem connect_meets {post : Post Delivery Exception Bool} (hStopped : post.stopped world)
    (hValue : ∀ result, post.returned result world) : Meets world connect post := by
  have hStart : world = world := rfl
  apply @Meets.loop _ _ _ _ _ _ _ _ _ (fun _ after => after = world) none hStart
  · rintro _ _ result rfl _
    exact hValue result
  · rintro _ _ reply rfl _
    rfl
  · rintro _ _ rfl
    exact hStopped

theorem connectAddresses_meets {post : Post Delivery Exception (Option Nat)}
    (hStopped : ∀ others after, At delivered failures others none after → post.stopped after)
    (hNone : ∀ after, At delivered failures [] none after → post.returned none after)
    (hFound : ∀ fd after, At delivered failures [fd] none after → post.returned (some fd) after)
    (addresses : Nat) (h : At delivered failures [] none world) :
    Meets world (connectAddresses addresses) post := by
  induction addresses generalizing world with
  | zero => exact Meets.pure (hNone _ h)
  | succ addresses ih =>
      apply Meets.bind
      apply socket_meets h
      · exact hStopped _ _ h
      · exact ih h
      · intro fd after hOpened
        apply Meets.bind
        apply connect_meets
        · exact hStopped _ _ hOpened
        · intro connected
          cases connected with
          | true => exact Meets.pure (hFound _ _ hOpened)
          | false =>
              apply Meets.bind
              apply Meets.call
              · exact hStopped _ _ hOpened
              · exact fun _ => ih hOpened.closed

theorem connectToServer_meets {post : Post Delivery Exception Nat}
    (hStopped : ∀ others after, At delivered failures others none after → post.stopped after)
    (hThrew : ∀ error after, At delivered failures [] none after → post.threw error after)
    (hFound : ∀ fd after, At delivered failures [fd] none after → post.returned fd after)
    (h : At delivered failures [] none world) : Meets world connectToServer post := by
  apply Meets.bind
  apply observe_meets
  · exact hStopped _ _ h
  · intro resolved
    cases resolved with
    | none => exact Meets.throwing (hThrew _ _ h)
    | some addresses =>
        apply Meets.bind
        refine connectAddresses_meets ?_ ?_ ?_ addresses h
        · exact hStopped
        · exact fun after hAfter => Meets.throwing (hThrew _ _ hAfter)
        · exact fun fd after hAfter => Meets.pure (hFound _ _ hAfter)

theorem configureTimeout_meets {post : Post Delivery Exception Unit} (timeout : Int)
    (hStopped : post.stopped world) (hThrew : ∀ error, post.threw error world)
    (hReturned : post.returned () world) : Meets world (configureTimeout timeout) post := by
  unfold configureTimeout
  split_ifs
  · exact Meets.throwing (hThrew _)
  · apply Meets.bind
    apply observe_meets
    · exact hStopped
    · intro first
      cases first with
      | false => exact Meets.throwing (hThrew _)
      | true =>
          apply Meets.require
          apply observe_meets
          · exact hStopped
          · intro second
            cases second with
            | false => exact hThrew _
            | true => exact hReturned

theorem construct_meets {post : Post Delivery Exception Unit}
    (hStopped : ∀ others after, At delivered failures others none after → post.stopped after)
    (hThrew : ∀ error after, At delivered failures [] none after → post.threw error after)
    (hReturned : ∀ fd after, At delivered failures [] (some fd) after → post.returned () after)
    (h : At delivered failures [] none world) : Meets world construct post := by
  apply Meets.bind
  refine connectToServer_meets ?_ ?_ ?_ h
  · exact hStopped
  · exact hThrew
  · intro fd after hOpened
    apply Meets.bind
    apply Meets.onThrow
    apply configureTimeout_meets
    · exact hStopped _ _ hOpened
    · intro error
      apply Meets.call
      · exact hStopped _ _ hOpened
      · exact fun _ => hThrew _ _ hOpened.closed
    · exact Meets.modifying (hReturned _ _ hOpened.connected)

theorem reset_meets {post : Post Delivery Exception Unit}
    (hStopped : ∀ client after, At delivered failures [] client after → post.stopped after)
    (hReturned : ∀ after, At delivered failures [] none after → post.returned () after)
    (h : At delivered failures [] client world) : Meets world reset post := by
  apply Meets.reading
  rw [h.client_eq]
  cases client with
  | none => exact Meets.pure (hReturned _ h)
  | some fd =>
      apply Meets.bind
      apply Meets.call
      · exact hStopped _ _ h
      · exact fun _ => Meets.modifying (hReturned _ h.released)

/-- A call that changes nothing the program keeps, and may throw. -/
theorem checked_meets {result : Reply → Except Exception α} (hStopped : post.stopped world)
    (hThrew : ∀ error, post.threw error world) (hReturned : ∀ value, post.returned value world) :
    Meets world (checked fun world reply => (result reply, world)) post := by
  apply Meets.bind
  apply observe_meets
  · exact hStopped
  · intro ending
    cases ending with
    | error error => exact Meets.throwing (hThrew error)
    | ok value => exact Meets.pure (hReturned value)

theorem receiveAck_meets {post : Post Delivery Exception UInt64} (hStopped : post.stopped world)
    (hThrew : ∀ error, post.threw error world) (hReturned : ∀ value, post.returned value world) :
    Meets world receiveAck post := by
  apply Meets.bind
  apply checked_meets
  · exact hStopped
  · exact hThrew
  · intro received
    cases received with
    | none => exact Meets.throwing (hThrew _)
    | some frame =>
        dsimp only
        cases deserializeAck frame with
        | error error => exact Meets.throwing (hThrew error)
        | ok ack => exact Meets.pure (hReturned _)

/-- Only the id of the last message is returned. -/
theorem sendLogBatchAndWaitAck_meets {post : Post Delivery Exception UInt64} {messages : List LogMessage}
    (hStopped : post.stopped world) (hThrew : ∀ error, post.threw error world)
    (hReturned : ∀ frame last, serializeLogBatch messages = .ok frame → last ∈ messages.getLast? →
      post.returned last.id world) :
    Meets world (sendLogBatchAndWaitAck messages) post := by
  unfold sendLogBatchAndWaitAck
  split
  · next frame last hFrame hLast =>
      apply Meets.bind
      apply checked_meets
      · exact hStopped
      · exact hThrew
      · intro _
        apply Meets.bind
        apply receiveAck_meets
        · exact hStopped
        · exact hThrew
        · intro confirmedId
          dsimp only
          split_ifs with hSame
          · exact Meets.throwing (hThrew _)
          · rw [not_not.mp hSame]
            exact Meets.pure (hReturned frame last hFrame hLast)
  · exact Meets.throwing (hThrew _)
  · exact Meets.throwing (hThrew _)

/-! The log and the counters. -/

theorem confirm_pending (wal : WriteAheadLog) (file : Option Bytes) (confirmedId : UInt64)
    (outcome : SaveOutcome) :
    (wal.confirm file confirmedId outcome).2.1.pending = keptAfter confirmedId wal.pending := by
  unfold WriteAheadLog.confirm keptAfter
  dsimp only
  split_ifs with hLength
  · exact (List.filter_sublist.eq_of_length hLength).symm
  · rfl

theorem At.confirmed {wal : WriteAheadLog} {confirmedId : UInt64} (h : At delivered failures others client world)
    (hPending : wal.pending = keptAfter confirmedId world.wal.pending) (walFile : Option Bytes) :
    At delivered failures others client { world with wal, walFile } :=
  { h with
    gone := fun batch hBatch last hLast message hMem =>
      h.gone batch hBatch last hLast message (List.mem_of_mem_filter (hPending ▸ hMem)) }

/-- A batch has gone through. -/
theorem At.counted {batch : List LogMessage} (h : At delivered failures others client world)
    (hGone : ∀ last ∈ batch.getLast?, ∀ message ∈ world.wal.pending, last.id < message.id) :
    At (delivered ++ [batch]) failures others client { world with
      metrics := { world.metrics with
        confirmedMessages := world.metrics.confirmedMessages + UInt64.ofNat batch.length
        confirmedBatches := world.metrics.confirmedBatches + 1 } } :=
  { h with
    metrics := by rw [counters_delivered, h.metrics]
    gone := fun other hOther => by
      rcases List.mem_append.mp hOther with hOld | hNew
      · exact h.gone other hOld
      · rw [List.mem_singleton.mp hNew]
        exact hGone }

/-- An attempt has failed. -/
theorem At.delayed {count : Nat} (h : At delivered (failures ++ [count]) others client world) :
    At delivered (failures ++ [count + 1]) others client { world with
      metrics := { world.metrics with retries := world.metrics.retries + 1 }
      delays := world.delays ++ [min (initialRetryDelay * 2 ^ count) maxRetryDelay] } :=
  { h with
    delays := by
      rw [h.delays, List.flatMap_append, List.flatMap_append, List.flatMap_singleton,
        List.flatMap_singleton, backoff_succ, List.append_assoc]
    metrics := by rw [counters_delayed, h.metrics] }

theorem At.attempted (h : At delivered failures others client world) :
    At delivered (failures ++ [0]) others client world :=
  { h with
    delays := by
      rw [h.delays, List.flatMap_append, List.flatMap_singleton]
      exact (List.append_nil _).symm }

theorem confirm_meets {post : Post Delivery Exception Unit} {confirmedId : UInt64}
    (hStopped : post.stopped world)
    (hThrew : ∀ error after, At delivered failures others client after → post.threw error after)
    (hReturned : ∀ after, At delivered failures others client after →
      (∀ message ∈ after.wal.pending, confirmedId < message.id) → post.returned () after)
    (h : At delivered failures others client world) : Meets world (confirm confirmedId) post := by
  apply Meets.bind
  refine Meets.call ?_ fun reply => ?_
  · exact hStopped
  have hPending := confirm_pending world.wal world.walFile confirmedId reply.save
  rcases hCall : world.wal.confirm world.walFile confirmedId reply.save with
    ⟨error | value, wal, walFile⟩
  · rw [hCall] at hPending
    exact Meets.throwing (hThrew _ _ (h.confirmed hPending walFile))
  · rw [hCall] at hPending
    refine Meets.pure (hReturned _ (h.confirmed hPending walFile) fun message hMem => ?_)
    have hKept : message ∈ keptAfter confirmedId world.wal.pending := hPending ▸ hMem
    exact UInt64.not_le.mp (of_decide_eq_true (List.mem_filter.mp hKept).2)

theorem deliver_meets {post : Post Delivery Exception Unit} {batch : List LogMessage}
    (hStopped : ∀ others client after, At delivered failures others client after → post.stopped after)
    (hThrew : ∀ error client after, At delivered failures [] client after → post.threw error after)
    (hReturned : ∀ client after, At (delivered ++ [batch]) failures [] client after →
      post.returned () after)
    (h : At delivered failures [] client world) : Meets world (deliver batch) post := by
  have hSend : ∀ client after, At delivered failures [] client after →
      Meets after (do
        let confirmedId ← sendLogBatchAndWaitAck batch
        confirm confirmedId
        modifying fun world => { world with
          metrics := { world.metrics with
            confirmedMessages := world.metrics.confirmedMessages + UInt64.ofNat batch.length
            confirmedBatches := world.metrics.confirmedBatches + 1 } } : Sending Unit) post := by
    intro client after hAfter
    apply Meets.bind
    apply sendLogBatchAndWaitAck_meets
    · exact hStopped _ _ _ hAfter
    · exact fun error => hThrew error _ _ hAfter
    · intro _ last _ hLast
      apply Meets.bind
      refine confirm_meets ?_ ?_ ?_ hAfter
      · exact hStopped _ _ _ hAfter
      · exact fun error final hFinal => hThrew error _ _ hFinal
      · intro final hFinal hGone
        refine Meets.modifying (hReturned _ _ (hFinal.counted fun other hOther => ?_))
        obtain rfl := Option.mem_unique hOther hLast
        exact hGone
  apply Meets.bind
  apply Meets.reading
  rw [h.client_eq]
  cases client with
  | none =>
      refine construct_meets ?_ ?_ ?_ h
      · exact fun others after hAfter => hStopped _ _ _ hAfter
      · exact fun error after hAfter => hThrew _ _ _ hAfter
      · exact fun fd after hAfter => hSend _ _ hAfter
  | some fd => exact Meets.pure (hSend _ _ h)

theorem handleFailure_meets {post : Post Delivery Exception (Nat ⊕ Bool)} {count : Nat}
    (hStopped : ∀ count client after, At delivered (failures ++ [count]) [] client after →
      post.stopped after)
    (hAgain : ∀ after, At delivered (failures ++ [count + 1]) [] none after →
      post.returned (.inl (min (initialRetryDelay * 2 ^ (count + 1)) maxRetryDelay)) after)
    (hEnd : ∀ after, At delivered (failures ++ [count + 1]) [] none after →
      post.returned (.inr false) after)
    (h : At delivered (failures ++ [count]) [] client world) :
    Meets world (handleFailure (min (initialRetryDelay * 2 ^ count) maxRetryDelay)) post := by
  apply Meets.bind
  refine reset_meets ?_ ?_ h
  · exact fun client after hAfter => hStopped _ _ _ hAfter
  · intro after hAfter
    apply Meets.bind
    apply Meets.modifying
    apply Meets.bind
    apply observe_meets
    · exact hStopped _ _ _ hAfter.delayed
    · intro running
      cases running with
      | false => exact Meets.pure (hEnd _ hAfter.delayed)
      | true =>
          refine Meets.pure ?_
          rw [next_delay]
          exact hAgain _ hAfter.delayed

/-- The loop invariant says which delay is next. -/
theorem deliverWithRetry_meets {post : Post Delivery Exception Bool} {batch : List LogMessage}
    (hStopped : ∀ count others client after, At delivered (failures ++ [count]) others client after →
      post.stopped after)
    (hDelivered : ∀ count client after, At (delivered ++ [batch]) (failures ++ [count]) [] client after →
      post.returned true after)
    (hEnd : ∀ count client after, At delivered (failures ++ [count]) [] client after →
      post.returned false after)
    (h : At delivered failures [] client world) : Meets world (deliverWithRetry batch) post := by
  refine @Meets.repeating _ _ _ _ _ _ post _ (fun delay after => ∃ count client,
    delay = min (initialRetryDelay * 2 ^ count) maxRetryDelay ∧
      At delivered (failures ++ [count]) [] client after) _ ⟨0, client, rfl, h.attempted⟩ ?_ ?_
  · rintro _ now ⟨count, held, rfl, hNow⟩
    apply Meets.bind
    apply observe_meets
    · exact hStopped _ _ _ _ hNow
    · intro running
      cases running with
      | false => exact Meets.pure (hEnd _ _ _ hNow)
      | true =>
          apply Meets.catching
          apply Meets.bind
          refine deliver_meets ?_ ?_ ?_ hNow
          · exact fun others client after hAfter => hStopped _ _ _ _ hAfter
          · intro error client after hAfter
            refine handleFailure_meets ?_ ?_ ?_ hAfter
            · exact fun count client final hFinal => hStopped _ _ _ _ hFinal
            · exact fun final hFinal => ⟨count + 1, none, rfl, hFinal⟩
            · exact fun final hFinal => hEnd _ _ _ hFinal
          · exact fun client after hAfter => Meets.pure (hDelivered _ _ _ hAfter)
  · rintro _ now ⟨count, held, _, hNow⟩
    exact hStopped _ _ _ _ hNow

/-! All batches. -/

/-- The batches that messages are sent in. -/
def splitBatches : List LogMessage → List (List LogMessage)
  | [] => []
  | message :: rest =>
      (message :: rest).take sendBatchSize :: splitBatches ((message :: rest).drop sendBatchSize)
termination_by messages => messages.length
decreasing_by
  rw [List.length_drop, sendBatchSize, List.length_cons]
  omega

/-- The first of these batches have gone through; the next one may have failed. -/
def Partly (whole : List (List LogMessage)) (others : List Nat) (client : Option Nat)
    (world : Delivery) : Prop :=
  ∃ sent failures, sent <+: whole ∧ sent.length ≤ failures.length ∧
    failures.length ≤ sent.length + 1 ∧ At sent failures others client world

theorem At.partly (h : At delivered failures others client world) (hLength : failures.length = delivered.length)
    (more : List (List LogMessage)) : Partly (delivered ++ more) others client world :=
  ⟨delivered, failures, List.prefix_append _ _, hLength.ge, hLength.le.trans (Nat.le_succ _), h⟩

theorem At.partlyFailed {count : Nat} (h : At delivered (failures ++ [count]) others client world)
    (hLength : failures.length = delivered.length) (more : List (List LogMessage)) :
    Partly (delivered ++ more) others client world := by
  refine ⟨delivered, failures ++ [count], List.prefix_append _ _, ?_, ?_, h⟩
  · rw [List.length_append, hLength]
    exact Nat.le_add_right _ _
  · rw [List.length_append, hLength]
    exact Nat.le_refl _

theorem sendMessages_meets {post : Post Delivery Exception Bool} (messages : List LogMessage)
    (hStopped : ∀ others client after, Partly (delivered ++ splitBatches messages) others client after →
      post.stopped after)
    (hDelivered : ∀ failures client after,
      At (delivered ++ splitBatches messages) failures [] client after →
      failures.length = (delivered ++ splitBatches messages).length → post.returned true after)
    (hEnd : ∀ client after, Partly (delivered ++ splitBatches messages) [] client after →
      post.returned false after)
    (h : At delivered failures [] client world) (hLength : failures.length = delivered.length) :
    Meets world (sendMessages messages) post := by
  induction messages using sendMessages.induct generalizing delivered failures client world with
  | case1 =>
      rw [splitBatches, List.append_nil] at hDelivered
      rw [sendMessages]
      exact Meets.pure (hDelivered _ _ _ h hLength)
  | case2 message rest ih =>
      rw [splitBatches] at hStopped hDelivered hEnd
      rw [sendMessages]
      apply Meets.bind
      refine deliverWithRetry_meets ?_ ?_ ?_ h
      · exact fun count others client after hAfter => hStopped _ _ _ (hAfter.partlyFailed hLength _)
      · intro count held after hAfter
        have hNext : (failures ++ [count]).length =
            (delivered ++ [(message :: rest).take sendBatchSize]).length := by
          rw [List.length_append, List.length_append, hLength]
          rfl
        rw [List.append_cons] at hStopped hDelivered hEnd
        exact ih hStopped hDelivered hEnd hAfter hNext
      · exact fun count client after hAfter => Meets.pure (hEnd _ _ (hAfter.partlyFailed hLength _))

theorem sendPopped_meets {post : Post Delivery Exception Unit} (popped : List (List LogMessage))
    (hStopped : ∀ others client after,
      Partly (delivered ++ popped.flatMap splitBatches) others client after → post.stopped after)
    (hReturned : ∀ client after, Partly (delivered ++ popped.flatMap splitBatches) [] client after →
      post.returned () after)
    (h : At delivered failures [] client world) (hLength : failures.length = delivered.length) :
    Meets world (sendPopped popped) post := by
  induction popped generalizing delivered failures client world with
  | nil => exact Meets.pure (hReturned _ _ (h.partly hLength _))
  | cons batch rest ih =>
      rw [List.flatMap_cons, ← List.append_assoc] at hStopped hReturned
      have hLonger : ∀ {others client after}, Partly (delivered ++ splitBatches batch) others client after →
          Partly (delivered ++ splitBatches batch ++ rest.flatMap splitBatches) others client after := by
        rintro others client after ⟨sent, failures, hPrefix, hRest⟩
        exact ⟨sent, failures, hPrefix.trans (List.prefix_append _ _), hRest⟩
      have hNow : Partly (delivered ++ splitBatches batch ++ rest.flatMap splitBatches) [] client world :=
        hLonger (h.partly hLength _)
      apply Meets.bind
      apply observe_meets
      · exact hStopped _ _ _ hNow
      · intro running
        cases running with
        | false => exact Meets.pure (hReturned _ _ hNow)
        | true =>
            dsimp only
            rw [if_pos rfl]
            split_ifs
            · exact Meets.pure (hReturned _ _ hNow)
            · apply Meets.bind
              refine sendMessages_meets batch ?_ ?_ ?_ h hLength
              · exact fun others client after hAfter => hStopped _ _ _ (hLonger hAfter)
              · exact fun failures client after hAfter hNext => ih hStopped hReturned hAfter hNext
              · exact fun client after hAfter => Meets.pure (hReturned _ _ (hLonger hAfter))

/-- The end of the thread closes the connection. -/
theorem consumer_meets (recovered : List LogMessage) (popped : List (List LogMessage))
    (h : At [] [] [] none world) :
    Meets world (consumer recovered popped)
      ⟨fun _ after => Partly ((recovered :: popped).flatMap splitBatches) [] none after,
        fun _ _ => False,
        fun after => ∃ others client,
          Partly ((recovered :: popped).flatMap splitBatches) others client after⟩ := by
  have hReset : ∀ {client after},
      Partly ((recovered :: popped).flatMap splitBatches) [] client after →
      Meets after reset
        ⟨fun _ after => Partly ((recovered :: popped).flatMap splitBatches) [] none after,
          fun _ _ => False,
          fun after => ∃ others client,
            Partly ((recovered :: popped).flatMap splitBatches) others client after⟩ := by
    rintro client after ⟨sent, failures, hPrefix, hLow, hHigh, hAt⟩
    refine reset_meets ?_ ?_ hAt
    · exact fun client final hFinal => ⟨[], client, sent, failures, hPrefix, hLow, hHigh, hFinal⟩
    · exact fun final hFinal => ⟨sent, failures, hPrefix, hLow, hHigh, hFinal⟩
  have hLonger : ∀ {others client after}, Partly ([] ++ splitBatches recovered) others client after →
      Partly ((recovered :: popped).flatMap splitBatches) others client after := by
    rintro others client after ⟨sent, failures, hPrefix, hRest⟩
    exact ⟨sent, failures, hPrefix.trans (List.prefix_append _ _), hRest⟩
  apply Meets.bind
  refine sendMessages_meets recovered ?_ ?_ ?_ h rfl
  · exact fun others client after hAfter => ⟨_, _, hLonger hAfter⟩
  · intro failures client after hAfter hLength
    apply Meets.bind
    refine sendPopped_meets popped ?_ ?_ hAfter hLength
    · exact fun others client final hFinal => ⟨_, _, hFinal⟩
    · exact fun client final hFinal => hReset hFinal
  · exact fun client after hAfter => Meets.bind (Meets.pure (hReset (hLonger hAfter)))

end Contracts

/-! What a run comes to. -/

theorem at_initial (wal : WriteAheadLog) (walFile : Option Bytes) :
    At [] [] [] none { wal, walFile } where
  held := Descriptors.held_empty
  single := Nat.zero_le _
  numbered := rfl
  client_eq := rfl
  delays := rfl
  metrics := rfl
  gone := fun _ hBatch => by cases hBatch

theorem At.closedOnce (h : At delivered failures others client world) :
    world.descriptors.closed.Nodup ∧ none ∉ world.descriptors.closed := by
  refine h.held.closed_once ?_
  rw [h.numbered]
  exact List.nodup_range

theorem At.oneOpen (h : At delivered failures others client world) {first second : Nat}
    (hFirst : (world.descriptors.table first).isSome = true)
    (hSecond : (world.descriptors.table second).isSome = true) : first = second := by
  have hMem : ∀ fd, (world.descriptors.table fd).isSome = true → fd ∈ others ++ client.toList := by
    intro fd hOpen
    refine List.count_pos_iff.mp ?_
    rw [h.held.count_eq, hOpen]
    exact Nat.one_pos
  have hAll := h.single
  have hOne := hMem first hFirst
  have hOther := hMem second hSecond
  generalize others ++ client.toList = holders at hAll hOne hOther
  match holders with
  | [] => cases hOne
  | [fd] => exact (List.mem_singleton.mp hOne).trans (List.mem_singleton.mp hOther).symm
  | _ :: _ :: _ => simp at hAll

theorem consumer_ends (recovered : List LogMessage) (popped : List (List LogMessage))
    (wal : WriteAheadLog) (walFile : Option Bytes) (replies : List Reply) :
    ∃ others client, Partly ((recovered :: popped).flatMap splitBatches) others client
        (consumer recovered popped { wal, walFile } replies).2.1 ∧
      match (consumer recovered popped { wal, walFile } replies).1 with
      | .returned _ => others ++ client.toList = []
      | .threw _ => False
      | .stopped => True := by
  have hRun := consumer_meets recovered popped (at_initial wal walFile) replies
  rcases hEnd : consumer recovered popped { wal, walFile } replies with ⟨_ | _ | _, after, left⟩
  · rw [hEnd] at hRun
    exact ⟨[], none, hRun, rfl⟩
  · rw [hEnd] at hRun
    exact hRun.elim
  · rw [hEnd] at hRun
    obtain ⟨others, client, hPartly⟩ := hRun
    exact ⟨others, client, hPartly, trivial⟩

/-- Whatever the calls return and wherever the process stops: no socket is closed
twice and two are never open at a time. The thread does not throw, and when it ends
every socket that was opened has been closed. -/
theorem sockets_released (recovered : List LogMessage) (popped : List (List LogMessage))
    (wal : WriteAheadLog) (walFile : Option Bytes) (replies : List Reply) :
    let (ending, world, _) := consumer recovered popped { wal, walFile } replies
    (world.descriptors.closed.Nodup ∧ none ∉ world.descriptors.closed) ∧
    (∀ first second, (world.descriptors.table first).isSome →
      (world.descriptors.table second).isSome → first = second) ∧
    match ending with
    | .returned _ => (∀ fd, world.descriptors.table fd = none) ∧
        world.descriptors.closed.Perm (world.descriptors.opened.map some)
    | .threw _ => False
    | .stopped => True := by
  have hEnds := consumer_ends recovered popped wal walFile replies
  rcases hRun : consumer recovered popped { wal, walFile } replies with ⟨ending, world, left⟩
  rw [hRun] at hEnds
  obtain ⟨others, client, ⟨sent, failures, _, _, _, hAt⟩, hEnding⟩ := hEnds
  refine ⟨hAt.closedOnce, fun first second hFirst hSecond => hAt.oneOpen hFirst hSecond, ?_⟩
  cases ending with
  | returned value =>
      have hHeld := hAt.held
      rw [show others ++ client.toList = [] from hEnding] at hHeld
      exact hHeld.all_closed
  | threw error => exact hEnding
  | stopped => trivial

example : backoff 6 = [500, 1000, 2000, 4000, 8000, 8000] := by decide

end LogBridge.TcpClient
