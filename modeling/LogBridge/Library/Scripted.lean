import Mathlib.Tactic.Common

/-! Programs that call into their environment. A script holds the replies of the
calls to come; a program whose script ends inside a call has stopped there, as a
crashed process does, so the runs of all scripts show every intermediate world.
A program meets a postcondition when all its runs do, and this is proved along
the structure of the program by the rules below. -/
namespace Scripted

/-- How a run ends. -/
inductive Ending (ε α : Type) where
  | returned (value : α)
  | threw (error : ε)
  | stopped
  deriving DecidableEq, Repr

/-- A program over worlds `σ`, replies `ρ` and exceptions `ε`. A run gives its
ending, the world then and the replies that are left. -/
def Program (σ ρ ε α : Type) : Type := σ → List ρ → Ending ε α × σ × List ρ

variable {σ ρ ε α β : Type}

instance : Monad (Program σ ρ ε) where
  pure value := fun world replies => (.returned value, world, replies)
  bind first next := fun world replies =>
    match first world replies with
    | (.returned value, world, replies) => next value world replies
    | (.threw error, world, replies) => (.threw error, world, replies)
    | (.stopped, world, replies) => (.stopped, world, replies)

def throwing (error : ε) : Program σ ρ ε α := fun world replies => (.threw error, world, replies)

/-- One call into the environment, with its effect for each reply. -/
def call (effect : σ → ρ → α × σ) : Program σ ρ ε α
  | world, [] => (.stopped, world, [])
  | world, reply :: replies => (.returned (effect world reply).1, (effect world reply).2, replies)

/-- Fail with `error` when the outcome of a call is negative. -/
def require (outcome : Program σ ρ ε Bool) (error : ε) : Program σ ρ ε Unit := do
  if ← outcome then pure () else throwing error

/-- Run `cleanup` when the program throws, and throw again. -/
def onThrow (program : Program σ ρ ε α) (cleanup : Program σ ρ ε Unit) : Program σ ρ ε α :=
  fun world replies =>
    match program world replies with
    | (.returned value, world, replies) => (.returned value, world, replies)
    | (.threw error, world, replies) => (do cleanup; throwing error : Program σ ρ ε α) world replies
    | (.stopped, world, replies) => (.stopped, world, replies)

/-- A loop around one call: while `finished` gives no result, the loop variable
and the world change with the next reply, or the loop is left by an exception. -/
def loop (finished : β → Option α) (effect : β → σ → ρ → Except ε β × σ) :
    β → Program σ ρ ε α
  | counter, world, [] =>
      match finished counter with
      | some value => (.returned value, world, [])
      | none => (.stopped, world, [])
  | counter, world, reply :: replies =>
      match finished counter with
      | some value => (.returned value, world, reply :: replies)
      | none =>
          match effect counter world reply with
          | (.ok counter, world) => loop finished effect counter world replies
          | (.error error, world) => (.threw error, world, replies)

/-- Run `handler` in place of the rest when the program throws. -/
def catching (program : Program σ ρ ε α) (handler : ε → Program σ ρ ε α) : Program σ ρ ε α :=
  fun world replies =>
    match program world replies with
    | (.returned value, world, replies) => (.returned value, world, replies)
    | (.threw error, world, replies) => handler error world replies
    | (.stopped, world, replies) => (.stopped, world, replies)

/-- A change of the world by the program itself. -/
def modifying (effect : σ → σ) : Program σ ρ ε Unit :=
  fun world replies => (.returned (), effect world, replies)

/-- A program that looks at the world. -/
def reading (program : σ → Program σ ρ ε α) : Program σ ρ ε α := fun world => program world world

/-- At most so many rounds of a loop around a program. A round goes on with a new
loop variable or gives the result. -/
def rounds (body : β → Program σ ρ ε (β ⊕ α)) : Nat → β → Program σ ρ ε α
  | 0, _ => fun world replies => (.stopped, world, replies)
  | limit + 1, counter => do
      match ← body counter with
      | .inl counter => rounds body limit counter
      | .inr value => pure value

/-- A loop whose rounds make a call each, so there are no more than replies and one
in which the program stops. -/
def repeating (body : β → Program σ ρ ε (β ⊕ α)) (counter : β) : Program σ ρ ε α :=
  fun world replies => rounds body (replies.length + 1) counter world replies

/-- What shall hold of the world for each ending. -/
structure Post (σ ε α : Type) where
  returned : α → σ → Prop
  threw : ε → σ → Prop
  stopped : σ → Prop

def Post.Holds (post : Post σ ε α) : Ending ε α × σ × List ρ → Prop
  | (.returned value, world, _) => post.returned value world
  | (.threw error, world, _) => post.threw error world
  | (.stopped, world, _) => post.stopped world

/-- Every run from this world ends as the postcondition says. -/
def Meets (world : σ) (program : Program σ ρ ε α) (post : Post σ ε α) : Prop :=
  ∀ replies, post.Holds (program world replies)

variable {world : σ} {program : Program σ ρ ε α} {post weaker : Post σ ε α}

theorem Meets.mono (h : Meets world program post)
    (hReturned : ∀ value after, post.returned value after → weaker.returned value after)
    (hThrew : ∀ error after, post.threw error after → weaker.threw error after)
    (hStopped : ∀ after, post.stopped after → weaker.stopped after) :
    Meets world program weaker := by
  intro replies
  have hRun := h replies
  rcases hEnd : program world replies with ⟨_ | _ | _, after, left⟩
  · rw [hEnd] at hRun
    exact hReturned _ _ hRun
  · rw [hEnd] at hRun
    exact hThrew _ _ hRun
  · rw [hEnd] at hRun
    exact hStopped _ hRun

theorem Meets.pure {value : α} (h : post.returned value world) :
    Meets world (pure value : Program σ ρ ε α) post := fun _ => h

theorem Meets.throwing {error : ε} (h : post.threw error world) :
    Meets world (throwing error : Program σ ρ ε α) post := fun _ => h

/-- A sequence: the rest of the program runs from the world in which the first
part returns. -/
theorem Meets.bind {next : α → Program σ ρ ε β} {post : Post σ ε β}
    (h : Meets world program
      ⟨fun value after => Meets after (next value) post, post.threw, post.stopped⟩) :
    Meets world (program >>= next) post := by
  intro replies
  have hRun := h replies
  change post.Holds (match program world replies with
    | (.returned value, world, replies) => next value world replies
    | (.threw error, world, replies) => (.threw error, world, replies)
    | (.stopped, world, replies) => (.stopped, world, replies))
  rcases hEnd : program world replies with ⟨_ | _ | _, after, left⟩
  · rw [hEnd] at hRun
    exact hRun left
  · rw [hEnd] at hRun
    exact hRun
  · rw [hEnd] at hRun
    exact hRun

theorem Meets.call {effect : σ → ρ → α × σ} (hStopped : post.stopped world)
    (h : ∀ reply, post.returned (effect world reply).1 (effect world reply).2) :
    Meets world (call effect : Program σ ρ ε α) post := by
  intro replies
  cases replies with
  | nil => exact hStopped
  | cons reply replies => exact h reply

theorem Meets.require {outcome : Program σ ρ ε Bool} {error : ε} {post : Post σ ε Unit}
    (h : Meets world outcome ⟨fun passed after =>
      if passed then post.returned () after else post.threw error after, post.threw, post.stopped⟩) :
    Meets world (require outcome error) post := by
  apply Meets.bind
  apply h.mono
  · intro passed after hAfter
    cases passed with
    | true => exact Meets.pure hAfter
    | false => exact Meets.throwing hAfter
  · exact fun _ _ hThrew => hThrew
  · exact fun _ hStopped => hStopped

theorem Meets.onThrow {cleanup : Program σ ρ ε Unit}
    (h : Meets world program ⟨post.returned, fun error after => Meets after cleanup
      ⟨fun _ => post.threw error, post.threw, post.stopped⟩, post.stopped⟩) :
    Meets world (onThrow program cleanup) post := by
  intro replies
  have hRun := h replies
  unfold Scripted.onThrow
  rcases hEnd : program world replies with ⟨_ | error | _, after, left⟩
  · rw [hEnd] at hRun
    exact hRun
  · rw [hEnd] at hRun
    exact (Meets.bind (Meets.mono hRun (fun _ _ hDone => Meets.throwing hDone)
      (fun _ _ hThrew => hThrew) (fun _ hStopped => hStopped))) left
  · rw [hEnd] at hRun
    exact hRun

/-- A loop meets a postcondition when an invariant of its variable and the world
holds at the start, is kept by every round that goes on, and gives the
postcondition wherever the loop can end. -/
theorem Meets.loop {finished : β → Option α} {effect : β → σ → ρ → Except ε β × σ}
    {invariant : β → σ → Prop} {counter : β} (hStart : invariant counter world)
    (hFinished : ∀ counter world value, invariant counter world → finished counter = some value →
      post.returned value world)
    (hRound : ∀ counter world reply, invariant counter world → finished counter = none →
      match effect counter world reply with
      | (.ok counter, world) => invariant counter world
      | (.error error, world) => post.threw error world)
    (hStopped : ∀ counter world, invariant counter world → post.stopped world) :
    Meets world (loop finished effect counter) post := by
  intro replies
  induction replies generalizing counter world with
  | nil =>
      rw [Scripted.loop]
      cases hDone : finished counter with
      | some value => exact hFinished counter world value hStart hDone
      | none => exact hStopped counter world hStart
  | cons reply replies ih =>
      rw [Scripted.loop]
      cases hDone : finished counter with
      | some value => exact hFinished counter world value hStart hDone
      | none =>
          have hNext := hRound counter world reply hStart hDone
          dsimp only
          rcases hEffect : effect counter world reply with ⟨error | next, after⟩
          · rw [hEffect] at hNext
            exact hNext
          · rw [hEffect] at hNext
            exact ih hNext

theorem Meets.catching {handler : ε → Program σ ρ ε α}
    (h : Meets world program
      ⟨post.returned, fun error after => Meets after (handler error) post, post.stopped⟩) :
    Meets world (catching program handler) post := by
  intro replies
  have hRun := h replies
  unfold Scripted.catching
  rcases hEnd : program world replies with ⟨_ | error | _, after, left⟩
  · rw [hEnd] at hRun
    exact hRun
  · rw [hEnd] at hRun
    exact hRun left
  · rw [hEnd] at hRun
    exact hRun

theorem Meets.modifying {effect : σ → σ} {post : Post σ ε Unit}
    (h : post.returned () (effect world)) :
    Meets world (modifying effect : Program σ ρ ε Unit) post := fun _ => h

theorem Meets.reading {program : σ → Program σ ρ ε α} (h : Meets world (program world) post) :
    Meets world (reading program) post := h

/-- As for a loop around one call, an invariant carries a loop around a program. -/
theorem Meets.repeating {body : β → Program σ ρ ε (β ⊕ α)} {invariant : β → σ → Prop} {counter : β}
    (hStart : invariant counter world)
    (hRound : ∀ counter world, invariant counter world → Meets world (body counter)
      ⟨fun result after => match result with
        | .inl counter => invariant counter after
        | .inr value => post.returned value after, post.threw, post.stopped⟩)
    (hStopped : ∀ counter world, invariant counter world → post.stopped world) :
    Meets world (repeating body counter) post := by
  have hRounds : ∀ limit counter world, invariant counter world →
      Meets world (rounds body limit counter) post := by
    intro limit
    induction limit with
    | zero => exact fun counter world hNow _ => hStopped counter world hNow
    | succ limit ih =>
        intro counter world hNow
        apply Meets.bind
        apply (hRound counter world hNow).mono
        · intro result after hAfter
          cases result with
          | inl next => exact ih next after hAfter
          | inr value => exact Meets.pure hAfter
        · exact fun _ _ hThrew => hThrew
        · exact fun _ hEnd => hEnd
  exact fun replies => hRounds (replies.length + 1) counter world hStart replies

/-! Parts of the world that a program does not change. -/

/-- However the program ends, this part of the world is as before. -/
def Keeps {τ : Type} (part : σ → τ) (program : Program σ ρ ε α) : Prop :=
  ∀ world replies, part (program world replies).2.1 = part world

section Keeps
variable {τ : Type} {part : σ → τ}

theorem Keeps.pure {value : α} : Keeps part (pure value : Program σ ρ ε α) := fun _ _ => rfl

theorem Keeps.throwing {error : ε} : Keeps part (throwing error : Program σ ρ ε α) := fun _ _ => rfl

theorem Keeps.modifying {effect : σ → σ} (h : ∀ world, part (effect world) = part world) :
    Keeps part (modifying effect : Program σ ρ ε Unit) := fun world _ => h world

theorem Keeps.reading {program : σ → Program σ ρ ε α} (h : ∀ world, Keeps part (program world)) :
    Keeps part (reading program) := fun world => h world world

theorem Keeps.call {effect : σ → ρ → α × σ} (h : ∀ world reply, part (effect world reply).2 = part world) :
    Keeps part (call effect : Program σ ρ ε α) := by
  intro world replies
  cases replies with
  | nil => rfl
  | cons reply replies => exact h world reply

theorem Keeps.bind {next : α → Program σ ρ ε β} (h : Keeps part program)
    (hNext : ∀ value, Keeps part (next value)) : Keeps part (program >>= next) := by
  intro world replies
  have hFirst := h world replies
  change part (match program world replies with
    | (.returned value, world, replies) => next value world replies
    | (.threw error, world, replies) => (.threw error, world, replies)
    | (.stopped, world, replies) => (.stopped, world, replies)).2.1 = part world
  rcases hEnd : program world replies with ⟨value | _ | _, after, left⟩
  · rw [hEnd] at hFirst
    exact (hNext value after left).trans hFirst
  · rw [hEnd] at hFirst
    exact hFirst
  · rw [hEnd] at hFirst
    exact hFirst

theorem Keeps.onThrow {cleanup : Program σ ρ ε Unit} (h : Keeps part program)
    (hCleanup : Keeps part cleanup) : Keeps part (onThrow program cleanup) := by
  intro world replies
  have hFirst := h world replies
  unfold Scripted.onThrow
  rcases hEnd : program world replies with ⟨_ | error | _, after, left⟩
  · rw [hEnd] at hFirst
    exact hFirst
  · rw [hEnd] at hFirst
    have hRethrown : Keeps part (do cleanup; Scripted.throwing error : Program σ ρ ε α) :=
      hCleanup.bind fun _ => Keeps.throwing
    exact (hRethrown after left).trans hFirst
  · rw [hEnd] at hFirst
    exact hFirst

theorem Keeps.loop {finished : β → Option α} {effect : β → σ → ρ → Except ε β × σ} {counter : β}
    (h : ∀ counter world reply, part (effect counter world reply).2 = part world) :
    Keeps part (loop finished effect counter) := by
  intro world replies
  induction replies generalizing counter world with
  | nil =>
      rw [Scripted.loop]
      cases finished counter with
      | some value => rfl
      | none => rfl
  | cons reply replies ih =>
      rw [Scripted.loop]
      cases finished counter with
      | some value => rfl
      | none =>
          have hRound := h counter world reply
          dsimp only
          rcases hEffect : effect counter world reply with ⟨error | next, after⟩
          · rw [hEffect] at hRound
            exact hRound
          · rw [hEffect] at hRound
            exact (ih after).trans hRound

/-- What a program keeps may be used in its contract. -/
theorem Keeps.meets (h : Keeps part program)
    (hReturned : ∀ value after, part after = part world → post.returned value after)
    (hThrew : ∀ error after, part after = part world → post.threw error after)
    (hStopped : ∀ after, part after = part world → post.stopped after) :
    Meets world program post := by
  intro replies
  have hRun := h world replies
  rcases hEnd : program world replies with ⟨value | error | _, after, left⟩
  · rw [hEnd] at hRun
    exact hReturned value after hRun
  · rw [hEnd] at hRun
    exact hThrew error after hRun
  · rw [hEnd] at hRun
    exact hStopped after hRun

end Keeps

end Scripted
