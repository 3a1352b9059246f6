import ArstQuote.RequestLoop

/-!
# The request loop comes to rest

After the last trigger the loop and the calls of the library take finitely many
steps, whatever their order: every wait of the loop that ends has reset an
event.  When none of them has a step left to take, the loop has ended or no
trigger is pending.
-/

namespace ArstQuote

open Function GuardedRuns Neosmart

/-- The order in which the loop lists its events. -/
instance : LinearOrder RequestEvent where
  le first second := first.index ≤ second.index
  le_refl first := le_refl first.index
  le_trans _ _ _ := le_trans
  le_antisymm _ _ le ge := RequestEvent.index_injective (le_antisymm le ge)
  le_total first second := le_total first.index second.index
  toDecidableLE first second :=
    inferInstanceAs (Decidable (first.index ≤ second.index))
  toDecidableEq := inferInstance

theorem requestEvents_pairwise : requestEvents.Pairwise (· < ·) := by
  decide

/-- The steps of the loop and of the calls in progress, without new triggers and
wake-ups that nobody signalled. -/
def RequestAction.goesOn {Thread : Type*} : RequestAction Thread → Bool
  | .waitForMultipleEvents | .pass | .proceed _ _ | .notify _ _ => true
  | .triggerWakeUpEvent _ | .triggerTerminateEvent _ | .wake _ _ => false

namespace RequestLoop

variable {Thread : Type*}

/-- How many events are set. -/
def setEvents (loop : RequestLoop Thread) : Nat :=
  ∑ event, (loop.library.events event).state.toNat

/-- How far the loop is from waiting for something that has not happened. -/
def stage (runner : Thread) (loop : RequestLoop Thread) : Nat :=
  if loop.result?.isSome then 2
  else if loop.ended then 0
  else
    match (loop.library.calls runner).wait? with
    | none => 1
    | some wait =>
        if ∃ event : RequestEvent,
          0 < loop.library.wins ⟨wait.wfmo, event.index⟩ then 3 else 0

variable [DecidableEq Thread] [Fintype Thread]

/-- Nothing is left to be done without a new trigger. -/
def Rests (runner : Thread) (loop : RequestLoop Thread) : Prop :=
  ∀ action : RequestAction Thread, action.goesOn = true →
    requestLoopStep runner loop action = none

variable {runner : Thread} {loop : RequestLoop Thread}
  {next : Library Thread RequestEvent} {action : Action Thread RequestEvent}

theorem Valid.quiet (valid : loop.Valid runner) (rests : loop.Rests runner) :
    loop.library.Quiet := by
  have ordered : loop.library.Ordered := by
    intro thread wait waits
    rw [(valid.confined.isRequestWait waits).2.1]
    exact requestEvents_pairwise
  refine (valid.alert.valid.lively ordered).quiet ?_
  intro action goes
  cases action with
  | proceed thread busy =>
      have none := rests (.proceed thread busy) rfl
      simpa [requestLoopStep, RequestLoop.perform] using none
  | notify thread chosen =>
      have none := rests (.notify thread chosen) rfl
      simpa [requestLoopStep, RequestLoop.perform] using none
  | _ => simp [Action.goesOn] at goes

omit [DecidableEq Thread] in
/-- The wait of the loop was satisfied if it is done, and by nothing if not. -/
theorem Valid.won_iff_done (valid : loop.Valid runner)
    {wait : Wait RequestEvent} {wfmo : Wfmo Thread}
    (waits : (loop.library.calls runner).wait? = some wait)
    (found : loop.library.wfmos wait.wfmo = some wfmo) :
    (∃ event : RequestEvent,
      0 < loop.library.wins ⟨wait.wfmo, event.index⟩) ↔ wfmo.done = true := by
  obtain ⟨sound, settled, -, -⟩ := valid.alert.valid
  obtain ⟨-, events, any, -⟩ := valid.confined.isRequestWait waits
  have stands := settled.stands _ _ _ waits found
  have sameAll := sound.refers.waitAll _ _ _ waits found
  have wins := stands.accounts.any any
  simp only [Wfmo.done, sameAll, any, Bool.false_eq_true, if_false,
    decide_eq_true_eq]
  constructor
  · rintro ⟨event, won⟩ undone
    rw [wins, undone, if_neg (by omega)] at won
    exact lt_irrefl _ won
  · intro done
    rcases stands.accounts.named any with undone | index
    · exact absurd undone done
    · obtain ⟨i, same⟩ := Int.eq_ofNat_of_zero_le index
      have won : 0 < loop.library.wins ⟨wait.wfmo, i⟩ := by
        rw [wins, if_pos same]
        exact Nat.one_pos
      obtain ⟨acquisition, member, taken⟩ := Library.exists_acquisition won
      have named := (settled.won _ member _ taken).2 wait.events
        (.inl ⟨runner, wait, waits, rfl, rfl⟩)
      rw [events] at named
      exact ⟨acquisition.event, eq_index_of_getElem? named ▸ won⟩

/-- When nothing is left to be done, nothing is pending. -/
theorem Valid.handled_of_rests (valid : loop.Valid runner)
    (rests : loop.Rests runner) :
    loop.ended = true ∨ ∀ event, loop.pending event = false := by
  have quiet := valid.quiet rests
  have nobody (thread : Thread) {call : CallAt RequestEvent}
      (place : loop.library.calls thread = call) (runs : call.runs = true) :
      False := by
    rw [← place, quiet thread] at runs
    cases runs
  have none : loop.result? = none := by
    have pass := rests .pass rfl
    simpa [requestLoopStep] using pass
  by_cases ended : loop.ended = true
  case pos => exact .inl ended
  right
  cases place : loop.library.calls runner with
  | outside =>
      have wait := rests .waitForMultipleEvents rfl
      simp [requestLoopStep, none, ended, RequestLoop.perform, libraryStep,
        Library.waitForMultipleEvents, place] at wait
  | waiting wait =>
      have waits := congrArg CallAt.wait? place
      obtain ⟨wfmo, found, signalled, answered⟩ :=
        valid.alert.noneInVain.waiting runner wait place
      have undone : wfmo.done = false := by
        by_contra done
        obtain ⟨setter, event, signals⟩ := signalled (by simpa using done)
        exact nobody setter signals rfl
      have unwon (event : RequestEvent) :
          loop.library.wins ⟨wait.wfmo, event.index⟩ = 0 := by
        by_contra won
        have done := (valid.won_iff_done waits found).mp
          ⟨event, Nat.pos_of_ne_zero won⟩
        rw [undone] at done
        cases done
      intro event
      by_contra pending
      rcases valid.recorded event (by simpa using pending) with
        state | ⟨own, owned, won⟩ | ⟨returned, due, -⟩
      · have listed : wait.events[event.index]? = some event := by
          rw [(valid.confined.isRequestWait waits).2.1]
          cases event <;> rfl
        obtain ⟨setter, setting | ⟨waiter, signals, -⟩⟩ :=
          (answered undone event.index event listed (unwon event)).2 state
        · exact nobody setter setting rfl
        · exact nobody setter signals rfl
      · obtain rfl := Option.some.inj (waits.symm.trans owned)
        simp [unwon event] at won
      · rw [none] at due
        cases due
  | sleeping event milliseconds =>
      have placed := valid.confined.placed runner
      rw [place] at placed
      exact placed.elim
  | _ => exact (nobody runner place rfl).elim

omit [Fintype Thread] in
theorem setEvents_le (move : Move loop.library action next)
    (goes : action.goesOn = true) :
    (loop.after next).setEvents ≤ loop.setEvents := by
  apply Finset.sum_le_sum
  intro event _
  cases state : (next.events event).state with
  | false => simp [after, state]
  | true =>
      have before := Library.state_of_goesOn move goes state
      simp [after, state, before]

/-- The event that satisfies a wait is reset. -/
theorem Valid.setEvents_lt (valid : loop.Valid runner)
    (move : Move loop.library action next) (goes : action.goesOn = true)
    {event : RequestEvent} {info : Option WfmoInfo}
    (taken : next.acquired = ⟨event, info⟩ :: loop.library.acquired) :
    (loop.after next).setEvents < loop.setEvents := by
  obtain ⟨state, reset⟩ :=
    valid.alert.valid.sound.locks.state_of_taken move taken
  apply Finset.sum_lt_sum
  · intro other _
    cases stateAfter : (next.events other).state with
    | false => simp [after, stateAfter]
    | true =>
        have before := Library.state_of_goesOn move goes stateAfter
        simp [after, stateAfter, before]
  · refine ⟨event, Finset.mem_univ event, ?_⟩
    simp [after, state, reset (valid.confined.auto event)]

omit [Fintype Thread] in
/-- A step with which no wait is satisfied, ends or begins. -/
theorem stage_after (move : Move loop.library action next)
    (goes : action.goesOn = true)
    (acquired : next.acquired = loop.library.acquired)
    (returned : next.returned = loop.library.returned) :
    (loop.after next).stage runner = loop.stage runner := by
  have wins (info : WfmoInfo) : next.wins info = loop.library.wins info := by
    simp only [Library.wins, acquired]
  have waits : ((next.calls runner).wait?.map Wait.wfmo) =
      (loop.library.calls runner).wait?.map Wait.wfmo := by
    cases before : (loop.library.calls runner).wait? with
    | some wait =>
        rcases Library.wait_kept_of_move move before with
          ⟨further, waitsAfter, number⟩ | ⟨timedOut, wfmo, -, -, rfl⟩
        · simp [waitsAfter, number]
        · simp at returned
    | none =>
        cases now : (next.calls runner).wait? with
        | none => rfl
        | some wait =>
            rcases Library.wait_of_move move now with
              ⟨further, waited, -⟩ | ⟨rfl, -⟩
            · rw [before] at waited
              cases waited
            · simp [Action.goesOn] at goes
  simp only [stage, result?_after returned]
  cases before : (loop.library.calls runner).wait? <;>
    cases now : (next.calls runner).wait? <;>
    simp_all [after]

omit [DecidableEq Thread] in
/-- The wait of the loop was satisfied before it ends. -/
theorem stage_lt_of_returned (validAfter : (loop.after next).Valid runner)
    {returned : Returned RequestEvent}
    (acquired : next.acquired = loop.library.acquired)
    (waits : (loop.library.calls runner).wait? = some returned.wait)
    (none : loop.result? = none) (running : loop.ended = false)
    (due : (loop.after next).result? = some returned) :
    (loop.after next).stage runner < loop.stage runner := by
  obtain ⟨member, event, inTime, index⟩ := validAfter.result_names due
  have outcome := validAfter.alert.valid.settled.outcome member
  have any := (validAfter.confined.returned _ member).2.2.1
  have won := ((outcome.any any).1 event.index).mpr index
  have wonBefore : 0 < loop.library.wins
      ⟨returned.wait.wfmo, event.index⟩ := by
    have same : (loop.after next).library.wins
        ⟨returned.wait.wfmo, event.index⟩ =
          loop.library.wins ⟨returned.wait.wfmo, event.index⟩ := by
      simp only [Library.wins, after, acquired]
    omega
  have three : loop.stage runner = 3 := by
    simp only [stage, none, running, waits, Option.isSome_none,
      Bool.false_eq_true, if_false]
    rw [if_pos ⟨event, wonBefore⟩]
  have two : (loop.after next).stage runner = 2 := by
    simp [stage, due]
  rw [two, three]
  exact Nat.lt_succ_self 2

/-- The events that are set, then the stage of the loop, then the steps of the
calls. -/
def measure (runner : Thread) (loop : RequestLoop Thread) : Nat × Nat × Nat :=
  (loop.setEvents, loop.stage runner, loop.library.rank)

/-- The order in which the measure falls. -/
def Below : Nat × Nat × Nat → Nat × Nat × Nat → Prop :=
  Prod.Lex (· < ·) (Prod.Lex (· < ·) (· < ·))

theorem below_wellFounded : WellFounded Below :=
  wellFounded_lt.prod_lex (wellFounded_lt.prod_lex wellFounded_lt)

theorem below_of_stage {before after : Nat × Nat × Nat}
    (events : after.1 ≤ before.1) (stage : after.2.1 < before.2.1) :
    Below after before := by
  rw [Below, Prod.lex_def]
  rcases events.lt_or_eq with less | same
  · exact .inl less
  · exact .inr ⟨same, Prod.lex_def.mpr (.inl stage)⟩

/-- A step of a call lowers the measure. -/
theorem Valid.perform_below (valid : loop.Valid runner)
    (stepTo : libraryStep loop.library action = some next)
    (requested : Requested runner action) (goes : action.goesOn = true) :
    Below ((loop.after next).measure runner) (loop.measure runner) := by
  have move := Library.move_of_step stepTo
  have fewer := setEvents_le move goes
  rcases Library.acquired_eq_of_move move with
    acquired | ⟨⟨event, info⟩, taken⟩
  · rcases valid.returned_cases move with
      same | ⟨returned, wait, -, rfl, waits, -, none, running, due⟩
    · have stage : (loop.after next).stage runner = loop.stage runner :=
        stage_after move goes acquired same
      have rank := valid.alert.valid.rank_lt goes stepTo
      rw [Below, Prod.lex_def, Prod.lex_def]
      rcases fewer.lt_or_eq with less | sameEvents
      · exact .inl less
      · exact .inr ⟨sameEvents, .inr ⟨stage, rank⟩⟩
    · have validAfter : (loop.after next).Valid runner := by
        have begins : ∀ thread events waitAll milliseconds, action ≠
            .waitForMultipleEvents thread events waitAll milliseconds := by
          rintro thread events waitAll milliseconds rfl
          simp [Action.goesOn] at goes
        exact valid.perform stepTo requested (.inl begins) fun _ => .inl
      exact below_of_stage fewer
        (stage_lt_of_returned validAfter acquired waits none running due)
  · rw [Below, Prod.lex_def]
    exact .inl (valid.setEvents_lt move goes taken)

/-- A wait that begins has not been satisfied. -/
theorem Valid.begin_below (valid : loop.Valid runner)
    (none : loop.result? = none) (running : loop.ended = false)
    (stepTo : libraryStep loop.library
      (.waitForMultipleEvents runner requestEvents false infinite) =
        some next) :
    Below ((loop.after next).measure runner) (loop.measure runner) := by
  obtain ⟨outside, wait, waits, unwon, returned, events⟩ :
      loop.library.calls runner = .outside ∧ ∃ wait,
        (next.calls runner).wait? = some wait ∧
        (∀ i, next.wins ⟨wait.wfmo, i⟩ = 0) ∧
        next.returned = loop.library.returned ∧
        next.events = loop.library.events := by
    cases Library.move_of_step stepTo with
    | begin outside =>
        exact ⟨outside, _,
          congrArg CallAt.wait? (update_self runner _ loop.library.calls),
          valid.alert.valid.settled.wins_created, rfl, rfl⟩
  have one : loop.stage runner = 1 := by
    simp [stage, none, running, outside, CallAt.wait?]
  have nothing : (loop.after next).result? = Option.none :=
    (result?_after returned).trans none
  have zero : (loop.after next).stage runner = 0 := by
    simp only [stage, nothing]
    simp [after, running, waits, unwon]
  refine below_of_stage (le_of_eq ?_) ?_
  · simp [measure, setEvents, after, events]
  · change (loop.after next).stage runner < loop.stage runner
    omega

omit [DecidableEq Thread] [Fintype Thread] in
/-- The loop goes on to wait or ends. -/
theorem stage_le_one (outside : (loop.library.calls runner).wait? = none)
    (nothing : loop.result? = none) : loop.stage runner ≤ 1 := by
  simp only [stage, nothing, outside, Option.isSome_none,
    Bool.false_eq_true, if_false]
  split <;> omega

/-- Every step without a new trigger or wake-up lowers the measure. -/
theorem Valid.step_below (valid : loop.Valid runner)
    {action : RequestAction Thread} {further : RequestLoop Thread}
    (goes : action.goesOn = true)
    (stepTo : requestLoopStep runner loop action = some further) :
    Below (further.measure runner) (loop.measure runner) := by
  cases action with
  | triggerWakeUpEvent | triggerTerminateEvent | wake =>
      simp [RequestAction.goesOn] at goes
  | proceed | notify =>
      obtain ⟨next, stepNext, rfl⟩ := Option.map_eq_some_iff.mp stepTo
      exact valid.perform_below stepNext trivial rfl
  | pass =>
      obtain ⟨returned, due, rfl⟩ := Option.map_eq_some_iff.mp stepTo
      obtain ⟨-, taken, inTime, index⟩ := valid.result_names due
      obtain ⟨-, nothing⟩ := valid.handled_result? due taken
      have atMost : (loop.handled taken).stage runner ≤ 1 :=
        stage_le_one (valid.outside_of_due due) nothing
      have two : loop.stage runner = 2 := by simp [stage, due]
      rw [pass_eq inTime index]
      refine below_of_stage (le_refl loop.setEvents) ?_
      change (loop.handled taken).stage runner < loop.stage runner
      omega
  | waitForMultipleEvents =>
      simp only [requestLoopStep, Option.ite_none_left_eq_some,
        Bool.or_eq_true, not_or, Bool.not_eq_true,
        Option.isSome_eq_false_iff, Option.isNone_iff_eq_none] at stepTo
      obtain ⟨⟨running, none⟩, performed⟩ := stepTo
      obtain ⟨next, stepNext, rfl⟩ := Option.map_eq_some_iff.mp performed
      exact valid.begin_below none running stepNext

end RequestLoop

/-- The loop and the calls of the library come to rest whatever the order of
their steps, and then the loop has ended or has handled every trigger. -/
theorem requests_settle {Thread : Type*} [DecidableEq Thread]
    [Fintype Thread] (runner : Thread)
    (actions : List (RequestAction Thread)) :
    HoldsAlong (requestLoopStep runner)
      (fun loop =>
        (∀ loops : Nat → RequestLoop Thread, loops 0 = loop →
          ¬ ∀ n, GuardedStep (requestLoopStep runner)
            (fun _ action => action.goesOn = true) (loops n) (loops (n + 1))) ∧
        (loop.Rests runner →
          loop.ended = true ∨ ∀ event, loop.pending event = false))
      .start actions := by
  apply holdsAlong_of_invariant _ _ (RequestLoop.start_valid runner) actions
  · intro loop valid
    refine ⟨?_, valid.handled_of_rests⟩
    rintro loops rfl
    refine not_forever RequestLoop.below_wellFounded
      (RequestLoop.measure runner) ?_ valid
    rintro before after validBefore ⟨action, goes, stepTo⟩
    exact ⟨validBefore.step stepTo, validBefore.step_below goes stepTo⟩
  · exact fun before action after valid stepTo => valid.step stepTo

end ArstQuote
