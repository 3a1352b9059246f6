import ArstQuote.GuardedRuns

/-!
# Simulations and what can be observed

What a run shows is a list of observations, none or more for each step.  If
every step of one system is matched by a run of another that shows the same, so
is every run.
-/

namespace Simulations

open GuardedRuns

variable {State Action Observation : Type*}

/-- What the steps of a run show, as far as they can be taken. -/
def trace (step : State → Action → Option State)
    (observe : State → Action → List Observation) :
    State → List Action → List Observation
  | _, [] => []
  | state, action :: actions =>
      match step state action with
      | none => []
      | some next => observe state action ++ trace step observe next actions

variable {step : State → Action → Option State}
  {observe : State → Action → List Observation}

theorem trace_cons {state next : State} {action : Action}
    (stepTo : step state action = some next) (actions : List Action) :
    trace step observe state (action :: actions) =
      observe state action ++ trace step observe next actions := by
  rw [trace, stepTo]

theorem trace_single {state next : State} {action : Action}
    (stepTo : step state action = some next) :
    trace step observe state [action] = observe state action := by
  rw [trace_cons stepTo, trace, List.append_nil]

theorem trace_append {first middle : State} {actions : List Action}
    (executed : execute step first actions = some middle)
    (more : List Action) :
    trace step observe first (actions ++ more) =
      trace step observe first actions ++ trace step observe middle more := by
  induction actions generalizing first with
  | nil =>
      obtain rfl := Option.some.inj executed
      rfl
  | cons action actions ih =>
      obtain ⟨next, stepTo, rest⟩ := Option.bind_eq_some_iff.mp executed
      rw [List.cons_append, trace_cons stepTo, trace_cons stepTo, ih rest,
        List.append_assoc]

/-- A run from one state to another that shows these observations. -/
def Shows (step : State → Action → Option State)
    (observe : State → Action → List Observation) (first : State)
    (observations : List Observation) (last : State) : Prop :=
  ∃ actions, execute step first actions = some last ∧
    trace step observe first actions = observations

theorem Shows.refl (state : State) : Shows step observe state [] state :=
  ⟨[], rfl, rfl⟩

theorem shows_of_step {state next : State} {action : Action}
    (stepTo : step state action = some next) :
    Shows step observe state (observe state action) next :=
  ⟨[action], by simp [execute, stepTo], trace_single stepTo⟩

theorem Shows.trans {first middle last : State}
    {early late : List Observation}
    (toMiddle : Shows step observe first early middle)
    (toLast : Shows step observe middle late last) :
    Shows step observe first (early ++ late) last := by
  obtain ⟨actions, executed, rfl⟩ := toMiddle
  obtain ⟨more, executedMore, rfl⟩ := toLast
  refine ⟨actions ++ more, ?_, trace_append executed more⟩
  rw [execute_append, executed]
  exact executedMore

section Simulation

variable {Abstract AbstractAction : Type*}
  {abstractStep : Abstract → AbstractAction → Option Abstract}
  {abstractObserve : Abstract → AbstractAction → List Observation}
  {meets : State → Action → Prop} {simulates : State → Abstract → Prop}

/-- A run is simulated if each of its steps is. -/
theorem shows_of_simulates
    (each : ∀ before abstract action after, simulates before abstract →
      meets before action → step before action = some after →
        ∃ abstractAfter, Shows abstractStep abstractObserve abstract
          (observe before action) abstractAfter ∧
            simulates after abstractAfter)
    {first last : State} {abstract : Abstract} {actions : List Action}
    (initially : simulates first abstract)
    (met : MeetsAlong step meets first actions)
    (executed : execute step first actions = some last) :
    ∃ abstractLast, Shows abstractStep abstractObserve abstract
      (trace step observe first actions) abstractLast ∧
        simulates last abstractLast := by
  induction actions generalizing first abstract with
  | nil =>
      obtain rfl := Option.some.inj executed
      exact ⟨abstract, .refl abstract, initially⟩
  | cons action actions ih =>
      obtain ⟨next, stepTo, rest⟩ := Option.bind_eq_some_iff.mp executed
      obtain ⟨metNow, metLater⟩ := met next stepTo
      obtain ⟨middle, shown, simulated⟩ :=
        each first abstract action next initially metNow stepTo
      obtain ⟨abstractLast, shownRest, simulatedLast⟩ :=
        ih simulated metLater rest
      rw [trace_cons stepTo]
      exact ⟨abstractLast, shown.trans shownRest, simulatedLast⟩

end Simulation

end Simulations
