import Mathlib.Data.List.Forall2
import Mathlib.Logic.Function.Basic
import Mathlib.Logic.Relation

/-!
# Guarded runs of a step function

A system is a partial function `step : State → Action → Option State`, and a
run of it is a list of actions.  Besides the states that some run reaches, this
file treats runs all of whose steps meet a side condition on the state they are
taken in, and compares such a condition with a property of the states passed.
A condition on the actions alone is a second step function that reads them, a
monitor.  Where the parties of a system are threads, a table holds what each of
them is doing.
-/

namespace GuardedRuns

open Relation

variable {State Action : Type*}

/-- One step whose action meets the side condition in the state before it. -/
def GuardedStep (step : State → Action → Option State)
    (meets : State → Action → Prop) (before after : State) : Prop :=
  ∃ action, meets before action ∧ step before action = some after

/-- `last` is reached from `first` by steps that all meet the condition. -/
def ReachesWhen (step : State → Action → Option State)
    (meets : State → Action → Prop) : State → State → Prop :=
  ReflTransGen (GuardedStep step meets)

/-- `last` is reached from `first` by any steps. -/
def Reaches (step : State → Action → Option State) : State → State → Prop :=
  ReachesWhen step fun _ _ => True

/-- The state at the end of a list of actions, if every one of them can be
taken. -/
def execute (step : State → Action → Option State) :
    State → List Action → Option State
  | state, [] => some state
  | state, action :: actions =>
      (step state action).bind fun next => execute step next actions

/-- The condition holds at every step of the run. -/
def MeetsAlong (step : State → Action → Option State)
    (meets : State → Action → Prop) : State → List Action → Prop
  | _, [] => True
  | state, action :: actions =>
      ∀ next, step state action = some next →
        meets state action ∧ MeetsAlong step meets next actions

/-- The property holds of every state the run passes, the first included. -/
def HoldsAlong (step : State → Action → Option State)
    (holds : State → Prop) : State → List Action → Prop
  | state, [] => holds state
  | state, action :: actions =>
      holds state ∧ ∀ next, step state action = some next →
        HoldsAlong step holds next actions

variable {step : State → Action → Option State}
  {meets : State → Action → Prop}

instance decidableMeetsAlong
    [∀ state action, Decidable (meets state action)] :
    ∀ state actions, Decidable (MeetsAlong step meets state actions)
  | _, [] => isTrue trivial
  | state, action :: actions =>
      match stepTo : step state action with
      | none => isTrue fun _ other => by simp [stepTo] at other
      | some next =>
          have : Decidable (MeetsAlong step meets next actions) :=
            decidableMeetsAlong next actions
          decidable_of_iff
            (meets state action ∧ MeetsAlong step meets next actions)
            (by simp [MeetsAlong, stepTo])

instance decidableHoldsAlong {holds : State → Prop} [DecidablePred holds] :
    ∀ state actions, Decidable (HoldsAlong step holds state actions)
  | state, [] => inferInstanceAs (Decidable (holds state))
  | state, action :: actions =>
      match stepTo : step state action with
      | none => decidable_of_iff (holds state) (by simp [HoldsAlong, stepTo])
      | some next =>
          have : Decidable (HoldsAlong step holds next actions) :=
            decidableHoldsAlong next actions
          decidable_of_iff
            (holds state ∧ HoldsAlong step holds next actions)
            (by simp [HoldsAlong, stepTo])

theorem reachesWhen_single {before after : State} {action : Action}
    (met : meets before action) (stepTo : step before action = some after) :
    ReachesWhen step meets before after :=
  ReflTransGen.single ⟨action, met, stepTo⟩

theorem ReachesWhen.trans {first middle last : State}
    (toMiddle : ReachesWhen step meets first middle)
    (toLast : ReachesWhen step meets middle last) :
    ReachesWhen step meets first last :=
  ReflTransGen.trans toMiddle toLast

theorem ReachesWhen.mono {stronger weaker : State → Action → Prop}
    (implies : ∀ state action, stronger state action → weaker state action)
    {first last : State} (reaches : ReachesWhen step stronger first last) :
    ReachesWhen step weaker first last := by
  refine ReflTransGen.mono ?_ first last reaches
  rintro before after ⟨action, met, stepTo⟩
  exact ⟨action, implies before action met, stepTo⟩

/-- An invariant that every step meeting the condition preserves holds of
every state reached by such steps. -/
theorem invariant_of_reachesWhen {invariant : State → Prop}
    {first last : State} (initially : invariant first)
    (preserved : ∀ before action after, invariant before →
      meets before action → step before action = some after →
        invariant after)
    (reaches : ReachesWhen step meets first last) : invariant last := by
  induction reaches with
  | refl => exact initially
  | tail _ edge ih =>
      obtain ⟨action, met, stepTo⟩ := edge
      exact preserved _ action _ ih met stepTo

/-- An invariant that every step preserves holds of every reachable state. -/
theorem invariant_of_reaches {invariant : State → Prop}
    {first last : State} (initially : invariant first)
    (preserved : ∀ before action after, invariant before →
      step before action = some after → invariant after)
    (reaches : Reaches step first last) : invariant last :=
  invariant_of_reachesWhen initially
    (fun before action after held _ => preserved before action after held)
    reaches

/-- A goal can be reached when every state short of it has a step that meets
the condition, keeps the invariant and decreases the rank. -/
theorem exists_reachesWhen_of_rank {invariant goal : State → Prop}
    (rank : State → Nat)
    (each : ∀ before, invariant before → goal before ∨
      ∃ action after, meets before action ∧ step before action = some after ∧
        invariant after ∧ rank after < rank before)
    {first : State} (initially : invariant first) :
    ∃ last, ReachesWhen step meets first last ∧ invariant last ∧
      goal last := by
  induction bound : rank first using Nat.strongRecOn
    generalizing first with
  | ind least ih =>
      rcases each first initially with
        there | ⟨action, next, met, stepTo, kept, less⟩
      · exact ⟨first, ReflTransGen.refl, initially, there⟩
      · obtain ⟨last, reaches, lastKept, there⟩ :=
          ih (rank next) (bound ▸ less) kept rfl
        exact ⟨last, (reachesWhen_single met stepTo).trans reaches,
          lastKept, there⟩

/-- Steps that meet the condition cannot go on forever if each of them lowers a
rank. -/
theorem not_forever {Rank : Type*} {lower : Rank → Rank → Prop}
    (wellFounded : WellFounded lower) (rank : State → Rank)
    {invariant : State → Prop}
    (each : ∀ before after, invariant before →
      GuardedStep step meets before after →
        invariant after ∧ lower (rank after) (rank before))
    {states : Nat → State} (initially : invariant (states 0)) :
    ¬ ∀ n, GuardedStep step meets (states n) (states (n + 1)) := by
  induction bound : rank (states 0) using wellFounded.induction
    generalizing states with
  | h least ih =>
      intro forever
      obtain ⟨kept, lowered⟩ := each _ _ initially (forever 0)
      have later : ∀ n, GuardedStep step meets
          ((fun n => states (n + 1)) n) ((fun n => states (n + 1)) (n + 1)) :=
        fun n => forever (n + 1)
      exact ih _ (bound ▸ lowered) kept rfl later

theorem reaches_of_execute {first last : State} {actions : List Action}
    (executed : execute step first actions = some last) :
    Reaches step first last := by
  induction actions generalizing first with
  | nil =>
      simp only [execute, Option.some.injEq] at executed
      exact executed ▸ ReflTransGen.refl
  | cons action actions ih =>
      obtain ⟨next, stepTo, rest⟩ := Option.bind_eq_some_iff.mp executed
      exact ReflTransGen.head ⟨action, trivial, stepTo⟩ (ih rest)

/-- An invariant that every step preserves survives a whole run. -/
theorem invariant_of_execute {invariant : State → Prop}
    {first last : State} {actions : List Action} (initially : invariant first)
    (preserved : ∀ before action after, invariant before →
      step before action = some after → invariant after)
    (executed : execute step first actions = some last) : invariant last :=
  invariant_of_reaches initially preserved (reaches_of_execute executed)

theorem execute_append (first : State) (actions more : List Action) :
    execute step first (actions ++ more) =
      (execute step first actions).bind fun middle =>
        execute step middle more := by
  induction actions generalizing first with
  | nil => rfl
  | cons action actions ih =>
      simp only [List.cons_append, execute, Option.bind_assoc]
      exact congrArg _ (funext ih)

theorem execute_snoc (first : State) (actions : List Action)
    (action : Action) :
    execute step first (actions ++ [action]) =
      (execute step first actions).bind fun before => step before action := by
  rw [execute_append]
  congr 1
  funext before
  simp only [execute, Option.bind_fun_some]

/-- A run of allowed actions that all lower a rank takes no more steps than the
rank falls by. -/
theorem length_add_rank_le {invariant : State → Prop}
    {allowed : Action → Prop} {rank : State → Nat}
    (each : ∀ before action after, invariant before → allowed action →
      step before action = some after →
        invariant after ∧ rank after < rank before)
    {first last : State} {actions : List Action} (initially : invariant first)
    (allows : ∀ action ∈ actions, allowed action)
    (executed : execute step first actions = some last) :
    actions.length + rank last ≤ rank first := by
  induction actions generalizing first with
  | nil =>
      obtain rfl := Option.some.inj executed
      simp
  | cons action actions ih =>
      obtain ⟨next, stepTo, rest⟩ := Option.bind_eq_some_iff.mp executed
      obtain ⟨kept, lower⟩ :=
        each first action next initially (allows action (by simp)) stepTo
      have tail := ih kept
        (fun other member => allows other (by simp [member])) rest
      simp only [List.length_cons]
      omega

/-- After one thread's entry was replaced, an entry is the new one or an old one
of another thread. -/
theorem eq_some_of_update {Thread Entry : Type*} [DecidableEq Thread]
    {table : Thread → Option Entry} {thread other : Thread}
    {replaced : Option Entry} {entry : Entry}
    (found : Function.update table thread replaced other = some entry) :
    (other = thread ∧ replaced = some entry) ∨
      (other ≠ thread ∧ table other = some entry) := by
  by_cases same : other = thread
  · subst same
    rw [Function.update_self] at found
    exact Or.inl ⟨rfl, found⟩
  · rw [Function.update_of_ne same] at found
    exact Or.inr ⟨same, found⟩

/-- After one thread's entry was removed, every entry is an old one of another
thread. -/
theorem eq_some_of_update_none {Thread Entry : Type*} [DecidableEq Thread]
    {table : Thread → Option Entry} {thread other : Thread} {entry : Entry}
    (found : Function.update table thread none other = some entry) :
    other ≠ thread ∧ table other = some entry := by
  rcases eq_some_of_update found with ⟨-, removed⟩ | before
  · cases removed
  · exact before

/-- Runs whose actions agree pairwise keep related states related. -/
theorem related_of_execute {related : State → State → Prop}
    {agree : Action → Action → Prop}
    (each : ∀ first second firstAction secondAction firstNext secondNext,
      related first second → agree firstAction secondAction →
      step first firstAction = some firstNext →
      step second secondAction = some secondNext →
        related firstNext secondNext)
    {actions others : List Action} (agrees : List.Forall₂ agree actions others)
    {first second firstLast secondLast : State} (start : related first second)
    (executed : execute step first actions = some firstLast)
    (otherExecuted : execute step second others = some secondLast) :
    related firstLast secondLast := by
  induction agrees generalizing first second with
  | nil =>
      simp only [execute, Option.some.injEq] at executed otherExecuted
      exact executed ▸ otherExecuted ▸ start
  | cons agreeing _ ih =>
      obtain ⟨firstNext, stepTo, rest⟩ := Option.bind_eq_some_iff.mp executed
      obtain ⟨secondNext, otherStepTo, otherRest⟩ :=
        Option.bind_eq_some_iff.mp otherExecuted
      apply ih ?_ rest otherRest
      exact each _ _ _ _ _ _ start agreeing stepTo otherStepTo

theorem holds_of_execute {holds : State → Prop} {first last : State}
    {actions : List Action} (along : HoldsAlong step holds first actions)
    (executed : execute step first actions = some last) : holds last := by
  induction actions generalizing first with
  | nil =>
      simp only [execute, Option.some.injEq] at executed
      exact executed ▸ along
  | cons action actions ih =>
      obtain ⟨next, stepTo, rest⟩ := Option.bind_eq_some_iff.mp executed
      exact ih (along.2 next stepTo) rest

/-- The condition holds along a run exactly when it holds of every action of it
that can be taken, in the state that the actions before it lead to. -/
theorem meetsAlong_iff {first : State} {actions : List Action} :
    MeetsAlong step meets first actions ↔
      ∀ earlier action later, actions = earlier ++ action :: later →
        ∀ before after, execute step first earlier = some before →
          step before action = some after → meets before action := by
  induction actions generalizing first with
  | nil => simp [MeetsAlong]
  | cons head rest ih =>
      simp only [MeetsAlong, ih]
      constructor
      · intro along earlier action later split before after reached stepTo
        cases earlier with
        | nil =>
            obtain ⟨rfl, -⟩ := List.cons.inj split
            obtain rfl := Option.some.inj reached
            exact (along after stepTo).1
        | cons other earlier =>
            obtain ⟨rfl, splitRest⟩ := List.cons.inj split
            obtain ⟨next, stepNext, reachedRest⟩ :=
              Option.bind_eq_some_iff.mp reached
            exact (along next stepNext).2 earlier action later splitRest
              before after reachedRest stepTo
      · intro each next stepTo
        refine ⟨each [] head rest rfl first next rfl stepTo, ?_⟩
        intro earlier action later split before after reached
        apply each (head :: earlier) action later (by rw [split]; rfl) before
        rw [execute, stepTo]
        exact reached

/-- A condition that an invariant implies at the actions of a run holds at
every step of it. -/
theorem meetsAlong_of_invariant {invariant : State → Prop}
    {actions : List Action}
    (each : ∀ before, ∀ action ∈ actions, ∀ after, invariant before →
      step before action = some after →
        meets before action ∧ invariant after)
    {first : State} (initially : invariant first) :
    MeetsAlong step meets first actions := by
  induction actions generalizing first with
  | nil => trivial
  | cons action actions ih =>
      intro next stepTo
      obtain ⟨met, kept⟩ := each first action (by simp) next initially stepTo
      refine ⟨met, ih ?_ kept⟩
      intro before other member
      exact each before other (List.mem_cons_of_mem _ member)

/-- If a step that misses the condition leads to a doomed state, and a doomed
state stays doomed, then a run that does not end in one meets the condition at
every step. -/
theorem meetsAlong_of_not_doomed {invariant doomed : State → Prop}
    (each : ∀ before action after, invariant before →
      step before action = some after →
        (meets before action ∧ invariant after) ∨ doomed after)
    (stays : ∀ before action after, doomed before →
      step before action = some after → doomed after)
    {first last : State} {actions : List Action} (initially : invariant first)
    (executed : execute step first actions = some last)
    (spared : ¬ doomed last) : MeetsAlong step meets first actions := by
  induction actions generalizing first with
  | nil => trivial
  | cons action actions ih =>
      obtain ⟨next, stepTo, rest⟩ := Option.bind_eq_some_iff.mp executed
      intro after stepAfter
      obtain rfl := Option.some.inj (stepTo.symm.trans stepAfter)
      rcases each first action next initially stepTo with
        ⟨met, kept⟩ | doomedNext
      · exact ⟨met, ih kept rest⟩
      · exact absurd (invariant_of_execute doomedNext stays rest) spared

/-- An invariant kept by the steps that meet the condition holds along every run
whose steps all meet it. -/
theorem holdsAlong_of_meetsAlong {invariant holds : State → Prop}
    (implies : ∀ state, invariant state → holds state)
    (preserved : ∀ before action after, invariant before →
      meets before action → step before action = some after →
        invariant after)
    {first : State} (initially : invariant first) {actions : List Action}
    (met : MeetsAlong step meets first actions) :
    HoldsAlong step holds first actions := by
  induction actions generalizing first with
  | nil => exact implies first initially
  | cons action actions ih =>
      refine ⟨implies first initially, ?_⟩
      intro next stepTo
      obtain ⟨metNow, metLater⟩ := met next stepTo
      exact ih (preserved first action next initially metNow stepTo) metLater

/-- An invariant that every step preserves holds along every run. -/
theorem holdsAlong_of_invariant {invariant holds : State → Prop}
    (implies : ∀ state, invariant state → holds state)
    (preserved : ∀ before action after, invariant before →
      step before action = some after → invariant after)
    {first : State} (initially : invariant first) (actions : List Action) :
    HoldsAlong step holds first actions := by
  induction actions generalizing first with
  | nil => exact implies first initially
  | cons action actions ih =>
      refine ⟨implies first initially, ?_⟩
      intro next stepTo
      exact ih (preserved first action next initially stepTo)

section Monitors

variable {Monitor : Type*} {watch : Monitor → Action → Option Monitor}
  {related : Monitor → State → Prop}

/-- A property that follows from a relation with the monitor holds along every
run that the monitor, which sees only the actions, accepts. -/
theorem holdsAlong_of_accepted {holds : State → Prop}
    (implies : ∀ monitor state, related monitor state → holds state)
    (preserved : ∀ monitor before action next after, related monitor before →
      watch monitor action = some next → step before action = some after →
        related next after)
    {monitor : Monitor} {first : State} (initially : related monitor first)
    {actions : List Action}
    (accepted : (execute watch monitor actions).isSome) :
    HoldsAlong step holds first actions := by
  induction actions generalizing monitor first with
  | nil => exact implies monitor first initially
  | cons action actions ih =>
      refine ⟨implies monitor first initially, ?_⟩
      intro after stepTo
      obtain ⟨last, executed⟩ := Option.isSome_iff_exists.mp accepted
      obtain ⟨next, watched, rest⟩ := Option.bind_eq_some_iff.mp executed
      apply ih (preserved monitor first action next after initially watched
        stepTo)
      rw [rest]
      rfl

/-- If a step that the monitor rejects leads to a doomed state, and a doomed
state stays doomed, then the monitor accepts every run that does not end in
one. -/
theorem accepted_of_not_doomed {doomed : State → Prop}
    (preserved : ∀ monitor before action next after, related monitor before →
      watch monitor action = some next → step before action = some after →
        related next after)
    (rejected : ∀ monitor before action after, related monitor before →
      watch monitor action = none → step before action = some after →
        doomed after)
    (stays : ∀ before action after, doomed before →
      step before action = some after → doomed after)
    {monitor : Monitor} {first last : State} {actions : List Action}
    (initially : related monitor first)
    (executed : execute step first actions = some last)
    (spared : ¬ doomed last) : (execute watch monitor actions).isSome := by
  induction actions generalizing monitor first with
  | nil => rfl
  | cons action actions ih =>
      obtain ⟨after, stepTo, rest⟩ := Option.bind_eq_some_iff.mp executed
      cases watched : watch monitor action with
      | none =>
          have doomedAfter := rejected monitor first action after initially
            watched stepTo
          exact absurd (invariant_of_execute doomedAfter stays rest) spared
      | some next =>
          rw [execute, watched, Option.bind_some]
          exact ih (preserved monitor first action next after initially
            watched stepTo) rest

/-- Where a step that the monitor rejects dooms the run, and no doomed run ends
well, the property holds along the accepted runs, and along no other run that
comes to an end. -/
theorem accepted_decides {holds ended : State → Prop} (doomed : State → Prop)
    (implies : ∀ monitor state, related monitor state → holds state)
    (preserved : ∀ monitor before action next after, related monitor before →
      watch monitor action = some next → step before action = some after →
        related next after)
    (rejected : ∀ monitor before action after, related monitor before →
      watch monitor action = none → step before action = some after →
        doomed after)
    (stays : ∀ before action after, doomed before →
      step before action = some after → doomed after)
    (spoils : ∀ last, doomed last → ended last → ¬ holds last)
    {monitor : Monitor} {first : State} (initially : related monitor first)
    (actions : List Action) :
    ((execute watch monitor actions).isSome →
      HoldsAlong step holds first actions) ∧
    ∀ last, execute step first actions = some last → ended last →
      HoldsAlong step holds first actions →
        (execute watch monitor actions).isSome := by
  constructor
  · exact holdsAlong_of_accepted implies preserved initially
  · intro last executed isEnd along
    apply accepted_of_not_doomed preserved rejected stays initially executed
    intro spoiled
    exact spoils last spoiled isEnd (holds_of_execute along executed)

end Monitors

/-- If each step leads to a good state exactly when it meets the condition,
then a run stays good exactly when all its steps meet the condition. -/
theorem holdsAlong_iff_meetsAlong {invariant holds : State → Prop}
    (preserved : ∀ before action after, invariant before →
      step before action = some after → invariant after)
    (exact : ∀ before action after, invariant before → holds before →
      step before action = some after →
        (holds after ↔ meets before action))
    {first : State} (initially : invariant first) (good : holds first)
    (actions : List Action) :
    HoldsAlong step holds first actions ↔
      MeetsAlong step meets first actions := by
  induction actions generalizing first with
  | nil => simp [HoldsAlong, MeetsAlong, good]
  | cons action actions ih =>
      simp only [HoldsAlong, MeetsAlong, good, true_and]
      apply forall_congr'
      intro next
      apply forall_congr'
      intro stepTo
      have kept := preserved first action next initially stepTo
      have agrees := exact first action next initially good stepTo
      constructor
      · intro rest
        have goodNext : holds next := by
          cases actions with
          | nil => exact rest
          | cons => exact rest.1
        exact ⟨agrees.mp goodNext, (ih kept goodNext).mp rest⟩
      · rintro ⟨met, rest⟩
        exact (ih kept (agrees.mpr met)).mpr rest

end GuardedRuns
