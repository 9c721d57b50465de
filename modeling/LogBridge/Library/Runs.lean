import Mathlib.Data.List.Induction

/-! Runs of a state machine given by a partial step function. An action that is
not enabled has no successor. Facts about runs are proved from one step by the
rules below. -/
namespace Runs
variable {State Action : Type}

/-- The state after a list of actions, where each of them is enabled in turn. -/
def run (step : State → Action → Option State) : State → List Action → Option State
  | state, [] => some state
  | state, action :: rest => (step state action).bind fun next => run step next rest

variable {step : State → Action → Option State} {start finish : State} {actions : List Action}

@[simp] theorem run_nil (state : State) : run step state [] = some state := rfl

theorem run_cons {state next : State} {action : Action} {rest : List Action}
    {result : Option State} (hStep : step state action = some next)
    (hRest : run step next rest = result) : run step state (action :: rest) = result := by
  rw [run, hStep, Option.bind_some, hRest]

theorem run_append (first second : List Action) :
    run step start (first ++ second) =
      (run step start first).bind fun middle => run step middle second := by
  induction first generalizing start with
  | nil => rfl
  | cons action rest ih =>
      cases h : step start action with
      | none => simp [run, h]
      | some next => simp [run, h, ih]

theorem run_concat_eq_some_iff (first : List Action) (last : Action) :
    run step start (first ++ [last]) = some finish ↔
      ∃ middle, run step start first = some middle ∧ step middle last = some finish := by
  rw [run_append, Option.bind_eq_some_iff]
  simp [run]

/-- Induction over a run from its start, with the actions taken so far. -/
theorem induct {motive : List Action → State → Prop} (hStart : motive [] start)
    (hStep : ∀ past middle action next, run step start past = some middle →
      motive past middle → step middle action = some next → motive (past ++ [action]) next)
    (hRun : run step start actions = some finish) : motive actions finish := by
  induction actions using List.reverseRecOn generalizing finish with
  | nil =>
      cases hRun
      exact hStart
  | append_singleton past action ih =>
      obtain ⟨middle, hPast, hLast⟩ := (run_concat_eq_some_iff past action).mp hRun
      exact hStep past middle action finish hPast (ih hPast) hLast

/-- Every action of the list satisfies `meets` in the state before it. -/
def Along (step : State → Action → Option State) (meets : State → Action → Prop) :
    State → List Action → Prop
  | _, [] => True
  | state, action :: rest =>
      meets state action ∧ ∀ next, step state action = some next → Along step meets next rest

theorem run_along_cons {meets : State → Action → Prop} {state next : State} {action : Action}
    {rest : List Action} {result : Option State} (hMeets : meets state action)
    (hStep : step state action = some next)
    (hRest : run step next rest = result ∧ Along step meets next rest) :
    run step state (action :: rest) = result ∧ Along step meets state (action :: rest) := by
  refine ⟨run_cons hStep hRest.1, hMeets, fun other hOther => ?_⟩
  rw [Option.some.inj (hOther.symm.trans hStep)]
  exact hRest.2

theorem along_of_forall {meets : State → Action → Prop} {allowed : Action → Prop}
    (h : ∀ state action, allowed action → meets state action)
    (hAllowed : ∀ action ∈ actions, allowed action) : Along step meets start actions := by
  induction actions generalizing start with
  | nil => trivial
  | cons action rest ih =>
      rw [List.forall_mem_cons] at hAllowed
      exact ⟨h start action hAllowed.1, fun next _ => ih hAllowed.2⟩

theorem Along.and {first second : State → Action → Prop} (hFirst : Along step first start actions)
    (hSecond : Along step second start actions) :
    Along step (fun state action => first state action ∧ second state action) start actions := by
  induction actions generalizing start with
  | nil => trivial
  | cons action rest ih =>
      exact ⟨⟨hFirst.1, hSecond.1⟩, fun next hNext => ih (hFirst.2 next hNext) (hSecond.2 next hNext)⟩

/-- Two conditions are met along the same runs when an invariant of the steps that
meet the second one makes them agree. -/
theorem along_congr {holds : State → Prop} {first second : State → Action → Prop} (hStart : holds start)
    (hAgree : ∀ state action, holds state → (first state action ↔ second state action))
    (hStep : ∀ state action next, second state action → holds state →
      step state action = some next → holds next) :
    Along step first start actions ↔ Along step second start actions := by
  induction actions generalizing start with
  | nil => exact Iff.rfl
  | cons action rest ih =>
      rw [Along, Along, hAgree start action hStart]
      refine and_congr_right fun hMeets => forall_congr' fun next => ?_
      exact imp_congr_right fun hNext => ih (hStep start action next hMeets hStart hNext)

/-- An invariant of the steps that meet a condition holds after every run along
which the condition is met. -/
theorem invariant_along {holds : State → Prop} {meets : State → Action → Prop} (hStart : holds start)
    (hStep : ∀ state action next, meets state action → holds state →
      step state action = some next → holds next)
    (hAlong : Along step meets start actions)
    (hRun : run step start actions = some finish) : holds finish := by
  induction actions generalizing start with
  | nil =>
      cases hRun
      exact hStart
  | cons action rest ih =>
      obtain ⟨hMeets, hRest⟩ := hAlong
      obtain ⟨next, hNext, hRun⟩ := Option.bind_eq_some_iff.mp hRun
      exact ih (hStep start action next hMeets hStart hNext) (hRest next hNext) hRun

/-- An invariant of the allowed steps holds after every run of allowed actions. -/
theorem invariant {holds : State → Prop} {allowed : Action → Prop} (hStart : holds start)
    (hStep : ∀ state action next, allowed action → holds state →
      step state action = some next → holds next)
    (hAllowed : ∀ action ∈ actions, allowed action)
    (hRun : run step start actions = some finish) : holds finish :=
  invariant_along hStart hStep (along_of_forall (fun _ _ h => h) hAllowed) hRun

end Runs
