import LogBridge.Library.Runs

/-! Progress by a rank. Where each counted step brings the rank down and no other
step brings it up, a run has room for so many counted steps only; where a step that
brings it down is always possible before the goal, the goal is reached. -/
namespace Runs
variable {State Action : Type} {step : State → Action → Option State}
  {holds : State → Prop} {rank : State → Nat} {start finish : State} {actions : List Action}

/-- The counted steps of a run are paid for by the rank and by what other steps add
to it. -/
theorem count_add_rank_le_of_feeding {allowed : Action → Prop} {counted feeding : Action → Bool}
    {bonus : Nat}
    (hStep : ∀ state action next, allowed action → holds state → step state action = some next →
      holds next ∧ rank next + (if counted action then 1 else 0) ≤
        rank state + (if feeding action then bonus else 0))
    (hStart : holds start) (hAllowed : ∀ action ∈ actions, allowed action)
    (hRun : run step start actions = some finish) :
    holds finish ∧ actions.countP counted + rank finish ≤
      rank start + bonus * actions.countP feeding := by
  induction actions generalizing start with
  | nil =>
      cases hRun
      exact ⟨hStart, by simp⟩
  | cons action rest ih =>
      rw [List.forall_mem_cons] at hAllowed
      obtain ⟨next, hNext, hRest⟩ := Option.bind_eq_some_iff.mp hRun
      obtain ⟨hHolds, hRank⟩ := hStep start action next hAllowed.1 hStart hNext
      obtain ⟨hFinish, hCount⟩ := ih hHolds hAllowed.2 hRest
      refine ⟨hFinish, ?_⟩
      rw [List.countP_cons, List.countP_cons, Nat.mul_add]
      split_ifs at hRank ⊢
      · omega
      · omega
      · omega
      · omega

/-- The case in which no step adds to the rank. -/
theorem count_add_rank_le {allowed : Action → Prop} {counted : Action → Bool}
    (hStep : ∀ state action next, allowed action → holds state → step state action = some next →
      holds next ∧ rank next + (if counted action then 1 else 0) ≤ rank state)
    (hStart : holds start) (hAllowed : ∀ action ∈ actions, allowed action)
    (hRun : run step start actions = some finish) :
    holds finish ∧ actions.countP counted + rank finish ≤ rank start := by
  have hFed : ∀ state action next, allowed action → holds state → step state action = some next →
      holds next ∧ rank next + (if counted action then 1 else 0) ≤
        rank state + (if (fun _ => false) action then 0 else 0) := by
    intro state action next hAct hHolds hNext
    obtain ⟨hKept, hRank⟩ := hStep state action next hAct hHolds hNext
    exact ⟨hKept, by simpa using hRank⟩
  obtain ⟨hFinish, hCount⟩ := count_add_rank_le_of_feeding hFed hStart hAllowed hRun
  exact ⟨hFinish, by simpa using hCount⟩

/-- The goal can be reached in as many steps as the rank says. -/
theorem reaches {allowed : Action → Prop} {goal : State → Prop}
    (hMove : ∀ state, holds state → ¬goal state → ∃ action next, allowed action ∧
      step state action = some next ∧ holds next ∧ rank next < rank state)
    (hStart : holds start) : ∃ actions finish, (∀ action ∈ actions, allowed action) ∧
      run step start actions = some finish ∧ holds finish ∧ goal finish ∧
      actions.length ≤ rank start := by
  induction hRank : rank start using Nat.strongRecOn generalizing start with
  | ind bound ih =>
      by_cases hGoal : goal start
      · exact ⟨[], start, by simp, rfl, hStart, hGoal, Nat.zero_le _⟩
      · obtain ⟨action, next, hAllowed, hNext, hHolds, hLess⟩ := hMove start hStart hGoal
        obtain ⟨rest, finish, hRest, hRun, hFinish, hEnd, hLength⟩ := ih _ (hRank ▸ hLess) hHolds rfl
        refine ⟨action :: rest, finish, ?_, run_cons hNext hRun, hFinish, hEnd, ?_⟩
        · rw [List.forall_mem_cons]
          exact ⟨hAllowed, hRest⟩
        · rw [List.length_cons]
          omega

end Runs
