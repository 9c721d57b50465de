import LogBridge.Basic
import LogBridge.Library.BoundedFifo
import LogBridge.Library.Runs

/-! The bounded blocking queue under its mutex, and any number of threads that call
it. A thread takes the mutex, runs to its release or to a wait on a condition
variable, and makes its notifications after the release. Which thread goes next,
which waiter is notified and whether a wait ends without a notification is left to
the schedule. -/
namespace LogBridge

open Checked

/-- `capacity_`, `queue_` and `closed_`. -/
structure BoundedBlockingQueue (α : Type) where
  capacity : Nat
  queue : List α := []
  closed : Bool := false
  deriving DecidableEq, Repr

namespace BoundedBlockingQueue
variable {α : Type}

def construct (capacity : Nat) : Except Exception (BoundedBlockingQueue α) := do
  throwIf (capacity = 0)
    (.invalidArgument "BoundedBlockingQueue capacity must be greater than zero")
  return { capacity }

def size (queue : BoundedBlockingQueue α) : Nat := queue.queue.length

/-- The arguments of `popBatch` after its checks. -/
structure BatchSize where
  maxItems : Nat
  positive : 0 < maxItems
  deriving DecidableEq, Repr

def batchSize (maxItems : Nat) (maxWait : Int) : Except Exception BatchSize :=
  if h : maxItems = 0 then .error (.invalidArgument "batch size must be greater than zero")
  else if maxWait < 0 then .error (.invalidArgument "batch wait time cannot be negative")
  else .ok ⟨maxItems, Nat.pos_of_ne_zero h⟩

/-- A call of a member function. The wait of `popBatch` is in milliseconds. -/
inductive Request (α : Type) where
  | push (value : α)
  | pop
  | popBatch (maxItems : Nat) (maxWait : Int)
  | close
  deriving DecidableEq, Repr

/-- How a call ended. -/
inductive Result (α : Type) where
  | pushed (value : α) (success : Bool)
  | popped (value : Option α)
  | batch (maxItems : Nat) (items : List α)
  | closed
  | threw (error : Exception)
  deriving DecidableEq, Repr

/-- A wait that is asleep has released the mutex. Awake, the thread wants the mutex
to look at the queue again. -/
inductive Wait where
  | awake
  | asleep
  deriving DecidableEq, Repr

inductive ConditionVariable where
  | notFull
  | notEmpty
  deriving DecidableEq, Repr

/-- Where a thread stands outside the mutex. -/
inductive Phase (α : Type) where
  | idle
  | push (value : α) (wait : Wait)
  /-- The value is in the queue and the notification is still to be made. -/
  | pushed (value : α)
  | pop (wait : Wait)
  | popped (value : α)
  | popBatch (size : BatchSize) (wait : Wait)
  /-- In the timed wait, with the batch so far. -/
  | fill (size : BatchSize) (batch : List α) (wait : Wait)
  | filled (size : BatchSize) (batch : List α)
  | close
  /-- Closed, with this and maybe the next `notify_all` still to be made. -/
  | closing (next : ConditionVariable)
  deriving DecidableEq, Repr

/-- What a thread does to the queue, and what it returns to its caller. -/
inductive Note (α : Type) where
  | accepted (value : α)
  | removed (value : α)
  | closed
  | returned (result : Result α)
  deriving DecidableEq, Repr

/-- A call before its first use of the mutex. -/
def begin : Request α → Phase α × List (Note α)
  | .push value => (.push value .awake, [])
  | .pop => (.pop .awake, [])
  | .popBatch maxItems maxWait =>
      match batchSize maxItems maxWait with
      | .error error => (.idle, [.returned (.threw error)])
      | .ok size => (.popBatch size .awake, [])
  | .close => (.close, [])

/-- The loop of `popBatch`. An empty queue ends it, or sends the thread into the
timed wait when more may come. -/
def fillBatch (size : BatchSize) (closed : Bool) (batch : List α) :
    List α → List α × Phase α × List (Note α)
  | [] =>
      if batch.length < size.maxItems ∧ closed = false then ([], .fill size batch .asleep, [])
      else ([], .filled size batch, [])
  | value :: rest =>
      if batch.length < size.maxItems then
        let (queue, phase, notes) := fillBatch size closed (batch ++ [value]) rest
        (queue, phase, .removed value :: notes)
      else (value :: rest, .filled size batch, [])

/-- What a thread does from taking the mutex to releasing it. `timedOut` says whether
a timed wait that finds its predicate false is over. -/
def critical (queue : BoundedBlockingQueue α) (timedOut : Bool) :
    Phase α → Option (BoundedBlockingQueue α × Phase α × List (Note α))
  | .push value .awake =>
      if queue.size < queue.capacity ∨ queue.closed = true then
        if queue.closed then some (queue, .idle, [.returned (.pushed value false)])
        else some ({ queue with queue := queue.queue ++ [value] }, .pushed value, [.accepted value])
      else some (queue, .push value .asleep, [])
  | .pop .awake =>
      match queue.queue with
      | [] =>
          if queue.closed then some (queue, .idle, [.returned (.popped none)])
          else some (queue, .pop .asleep, [])
      | value :: rest => some ({ queue with queue := rest }, .popped value, [.removed value])
  | .popBatch size .awake =>
      match queue.queue with
      | [] =>
          if queue.closed then some (queue, .idle, [.returned (.batch size.maxItems [])])
          else some (queue, .popBatch size .asleep, [])
      | value :: rest =>
          let (items, phase, notes) := fillBatch size queue.closed [value] rest
          some ({ queue with queue := items }, phase, .removed value :: notes)
  | .fill size batch .awake =>
      -- the predicate of the timed wait: an element, or closed
      if queue.queue.isEmpty = false ∨ queue.closed = true then
        let (items, phase, notes) := fillBatch size queue.closed batch queue.queue
        some ({ queue with queue := items }, phase, notes)
      else if timedOut then some (queue, .filled size batch, [])
      else some (queue, .fill size batch .asleep, [])
  | .close =>
      if queue.closed then some (queue, .idle, [.returned .closed])
      else some ({ queue with closed := true }, .closing .notEmpty, [.closed])
  | _ => none

/-- Whether a notification is for one waiter or for all. -/
inductive Breadth where
  | one
  | all
  deriving DecidableEq, Repr

/-- The notification a thread has still to make, and what it does next. -/
def Phase.notification : Phase α → Option (ConditionVariable × Breadth × Phase α × List (Note α))
  | .pushed value => some (.notEmpty, .one, .idle, [.returned (.pushed value true)])
  | .popped value => some (.notFull, .one, .idle, [.returned (.popped (some value))])
  | .filled size batch => some (.notFull, .all, .idle, [.returned (.batch size.maxItems batch)])
  | .closing .notEmpty => some (.notEmpty, .all, .closing .notFull, [])
  | .closing .notFull => some (.notFull, .all, .idle, [.returned .closed])
  | _ => none

/-- The condition variable on which a thread is asleep. -/
def Phase.sleepsOn : Phase α → Option ConditionVariable
  | .push _ .asleep => some .notFull
  | .pop .asleep => some .notEmpty
  | .popBatch _ .asleep => some .notEmpty
  | .fill _ _ .asleep => some .notEmpty
  | _ => none

def Phase.wake : Phase α → Phase α
  | .push value _ => .push value .awake
  | .pop _ => .pop .awake
  | .popBatch size _ => .popBatch size .awake
  | .fill size batch _ => .fill size batch .awake
  | phase => phase

/-- The threads after a notification. `notify_one` wakes the target, which must be a
waiter where there is one. -/
def notify (condition : ConditionVariable) (target : Nat) (threads : List (Phase α)) :
    Breadth → Option (List (Phase α))
  | .all => some (threads.map fun phase => if phase.sleepsOn = some condition then phase.wake else phase)
  | .one =>
      if ∀ phase ∈ threads, phase.sleepsOn ≠ some condition then some threads
      else threads[target]?.bind fun phase =>
        if phase.sleepsOn = some condition then some (threads.set target phase.wake) else none

/-- A note of one of the threads. -/
structure Event (α : Type) where
  thread : Nat
  note : Note α
  deriving DecidableEq, Repr

/-- The queue, where each thread stands, and what has happened so far. -/
structure State (α : Type) where
  queue : BoundedBlockingQueue α
  threads : List (Phase α)
  history : List (Event α) := []
  deriving DecidableEq, Repr

def State.move (state : State α) (thread : Nat) (phase : Phase α) (notes : List (Note α)) : State α :=
  { state with
    threads := state.threads.set thread phase
    history := state.history ++ notes.map (Event.mk thread) }

inductive Action (α : Type) where
  | call (thread : Nat) (request : Request α)
  | run (thread : Nat) (timedOut : Bool)
  | notify (thread target : Nat)
  /-- A wait ends by itself: spuriously, or because its time is over. -/
  | wake (thread : Nat)
  deriving DecidableEq, Repr

def Action.thread : Action α → Nat
  | .call thread _ => thread
  | .run thread _ => thread
  | .notify thread _ => thread
  | .wake thread => thread

def step (state : State α) : Action α → Option (State α)
  | .call thread request =>
      match state.threads[thread]? with
      | some .idle => some (state.move thread (begin request).1 (begin request).2)
      | _ => none
  | .run thread timedOut => do
      let phase ← state.threads[thread]?
      let (queue, next, notes) ← state.queue.critical timedOut phase
      return { state.move thread next notes with queue }
  | .notify thread target => do
      let phase ← state.threads[thread]?
      let (condition, breadth, next, notes) ← phase.notification
      let threads ← notify condition target (state.threads.set thread next) breadth
      return { state.move thread next notes with threads }
  | .wake thread => do
      let phase ← state.threads[thread]?
      if phase.sleepsOn = none then none else return state.move thread phase.wake []

/-- A new queue with threads that have not called it yet. -/
def start (capacity threads : Nat) : Except Exception (State α) := do
  let queue ← construct capacity
  return { queue, threads := .replicate threads .idle }

end BoundedBlockingQueue
end LogBridge
