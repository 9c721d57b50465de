import LogBridge.Library.Runs

/-! Forward simulation. A step of the concrete machine is matched by a run of the
abstract one, which may be empty or longer than one step. -/
namespace Runs
variable {State Action Abstract AbstractAction : Type}

theorem run_trans {step : State → Action → Option State} {start middle finish : State}
    {first second : List Action} (hFirst : run step start first = some middle)
    (hSecond : run step middle second = some finish) :
    run step start (first ++ second) = some finish := by
  rw [run_append, hFirst, Option.bind_some, hSecond]

theorem run_singleton {step : State → Action → Option State} {start finish : State} {action : Action}
    (hStep : step start action = some finish) : run step start [action] = some finish :=
  run_cons hStep (run_nil finish)

variable {step : State → Action → Option State}
  {abstractStep : Abstract → AbstractAction → Option Abstract}

/-- The abstract machine can answer a step that leads to the concrete state. -/
def Answers (abstractStep : Abstract → AbstractAction → Option Abstract)
    (related : State → Abstract → Prop) (abstract : Abstract) (next : State) : Prop :=
  ∃ actions abstractNext, run abstractStep abstract actions = some abstractNext ∧
    related next abstractNext

variable {related : State → Abstract → Prop} {abstract middle abstractNext : Abstract}
  {next : State}

/-- The empty answer. -/
theorem answers_of_related (h : related next abstract) : Answers abstractStep related abstract next :=
  ⟨[], abstract, run_nil abstract, h⟩

theorem answers_cons (action : AbstractAction) (hStep : abstractStep abstract action = some middle)
    (h : Answers abstractStep related middle next) : Answers abstractStep related abstract next := by
  obtain ⟨actions, abstractNext, hRun, hRelated⟩ := h
  exact ⟨action :: actions, abstractNext, run_cons hStep hRun, hRelated⟩

/-- The answer of one step. -/
theorem answers_of_step (action : AbstractAction)
    (hStep : abstractStep abstract action = some abstractNext) (h : related next abstractNext) :
    Answers abstractStep related abstract next :=
  answers_cons action hStep (answers_of_related h)

/-- If every step can be answered, so can every run. -/
theorem simulates {start finish : State} {abstractStart : Abstract} {actions : List Action}
    (hStart : related start abstractStart)
    (hStep : ∀ state abstract action next, related state abstract →
      step state action = some next → Answers abstractStep related abstract next)
    (hRun : run step start actions = some finish) :
    Answers abstractStep related abstractStart finish := by
  refine induct (motive := fun _ state => Answers abstractStep related abstractStart state)
    (answers_of_related hStart) ?_ hRun
  intro _ middle action next _ hPast hNext
  obtain ⟨past, abstract, hPastRun, hRelated⟩ := hPast
  obtain ⟨more, abstractNext, hMore, hNextRelated⟩ := hStep middle abstract action next hRelated hNext
  exact ⟨past ++ more, abstractNext, run_trans hPastRun hMore, hNextRelated⟩

end Runs
