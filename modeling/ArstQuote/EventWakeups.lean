import ArstQuote.EventOutcomes

/-!
# No wake-up of the event library is lost

A thread that waits for a condition relies on others to signal it.  It waits in
vain for no event: it stays registered with those that it still needs, where one
of them is set a call of `SetEvent` is going through the waiters, and where its
wait is done the signal is on its way.
-/

namespace Neosmart

open Function GuardedRuns SharedObjects

variable {Thread Event : Type*} [DecidableEq Event] [DecidableEq Thread]

namespace Library

/-- Waiters are registered only with events that are reset, or that a call of
`SetEvent` is about to look through; a waiter that is done is about to be
signalled; and so is a thread that sleeps on an event that is set, unless
another one is up to take it. -/
structure Wakes (library : Library Thread Event) : Prop where
  answered : ∀ event, (library.events event).state = true →
    (library.events event).registeredWaits = [] ∨
      ∃ setter, library.Sets setter event
  signalled : ∀ thread wait wfmo, library.calls thread = .waiting wait →
    library.wfmos wait.wfmo = some wfmo → wfmo.done = true →
      ∃ setter event, library.calls setter = .signalling event wait.wfmo
  risen : ∀ thread event milliseconds,
    library.calls thread = .sleeping event milliseconds →
      (library.events event).state = true →
        (∃ setter, library.Sets setter event ∨
          library.calls setter = .notifying event) ∨
        ((library.events event).autoReset = true ∧ ∃ other time,
          library.calls other = .risen event time false)

variable {library next : Library Thread Event} {action : Action Thread Event}

/-- Only `SetEvent` sets an event. -/
theorem state_of_move (move : Move library action next) {event : Event}
    (state : (next.events event).state = true) :
    (library.events event).state = true ∨
      ((∃ thread, action = .setEvent thread event) ∧
        next.Sets action.thread event) := by
  cases move with
  | @setEvent thread changed =>
      by_cases same : event = changed
      · subst same
        exact .inr ⟨⟨thread, rfl⟩, .inl (update_self _ _ _)⟩
      · exact .inl (by simpa [update_of_ne same] using state)
  | @resetEvent _ changed | @take _ changed | @endScan _ _ changed
  | @fire _ _ changed | @expire _ _ changed | @lock _ _ _ changed
  | @remove _ _ _ changed | @findAll _ _ _ changed | @findAny _ _ _ changed
  | @register _ _ _ changed | @riseTake _ _ changed =>
      left
      by_cases same : event = changed
      · subst same
        simp_all [fire]
      · simpa [fire, update_of_ne same] using state
  | @signal _ _ changed =>
      left
      cases auto : (library.events changed).autoReset with
      | true =>
          by_cases same : event = changed
          · subst same
            simpa [signal, auto] using state
          · simpa [signal, auto, update_of_ne same] using state
      | false => simpa [signal, auto] using state
  | _ => exact .inl state

/-- A call of `SetEvent` on an event that stays set goes on until no waiter is
left. -/
theorem Sets.after (locks : library.Locks) (move : Move library action next)
    {setter : Thread} {event : Event} (sets : library.Sets setter event)
    (state : (next.events event).state = true) :
    next.Sets setter event ∨
      ((next.events event).registeredWaits = [] ∧
        next.calls setter = .notifying event) := by
  have same := autoReset_of_move move event
  by_cases acts : setter = action.thread
  case neg =>
    have signalled := calls_of_move move acts
    left
    rcases sets with setting | ⟨waiter, signalling, manual⟩
    · rw [setting] at signalled
      exact .inl (signalled.eq_self (by simp) (by simp))
    · rw [signalling] at signalled
      exact .inr ⟨waiter, signalled.eq_self (by simp) (by simp),
        same.trans manual⟩
  subst acts
  cases move with
  | accessFreed => exact .inl sets
  | endScan call =>
      obtain rfl : _ = event := by
        simpa [Sets, Action.thread, call] using sets
      right
      simp [Action.thread]
  | keepMutex call empty auto reset =>
      simp [locks.sets _ _ (.inl call)] at reset
  | fire call =>
      obtain rfl : _ = event := by
        simpa [Sets, Action.thread, call] using sets
      simp [fire] at state
      left
      right
      exact ⟨_, update_self _ _ _, same.trans state.2⟩
  | expire call =>
      obtain rfl : _ = event := by
        simpa [Sets, Action.thread, call] using sets
      exact .inl (.inl call)
  | @signal _ _ changed _ call =>
      have manual : changed = event ∧
          (library.events event).autoReset = false := by
        simpa [Sets, Action.thread, call] using sets
      obtain ⟨rfl, manual⟩ := manual
      left
      left
      simp [signal, manual, Action.thread]
  | setEvent call | resetEvent call | stay call | take call | sleep call
  | begin call | notifyOne call | notifyNone call | notifyAll call | lock call
  | giveUp call | finish call | wait call | keep call | remove call
  | findAll call | findAny call | register call | wakeWaiter call
  | relock call | waitAgain call | leave call | wakeSleeper call
  | riseLate call | riseTake call | sleepAgain call =>
      simp [Sets, Action.thread, call] at sets

theorem Wakes.answered_step (wakes : library.Wakes) (locks : library.Locks)
    (move : Move library action next) (event : Event)
    (state : (next.events event).state = true) :
    (next.events event).registeredWaits = [] ∨
      ∃ setter, next.Sets setter event := by
  rcases state_of_move move state with before | ⟨-, sets⟩
  · rcases wakes.answered event before with empty | ⟨setter, sets⟩
    · left
      rw [List.eq_nil_iff_forall_not_mem]
      intro info member
      rcases listed_of_move move member with
        listed | ⟨wait, position, cleaning, new, reset⟩
      · simp [empty] at listed
      · simp [state] at reset
    · rcases sets.after locks move state with still | ⟨empty, -⟩
      · exact .inr ⟨setter, still⟩
      · exact .inl empty
  · exact .inr ⟨_, sets⟩

/-- A thread goes to wait for its waiter only as long as that is not done. -/
theorem undone_of_own_wait (move : Move library action next)
    {wait : Wait Event} {wfmo : Wfmo Thread}
    (waiting : next.calls action.thread = .waiting wait)
    (found : next.wfmos wait.wfmo = some wfmo) :
    wfmo.done = false ∨
      ∃ waiter, library.wfmos waiter = none ∧ library.RefersTo waiter := by
  cases move with
  | accessFreed gone refersTo => exact .inr ⟨_, gone, refersTo⟩
  | resetEvent call | stay call | take call | expire call | remove call =>
      cases call.symm.trans waiting
  | wait call last known undone =>
      simp only [Action.thread, goTo, putWfmo, update_self,
        CallAt.waiting.injEq] at waiting
      subst waiting
      obtain rfl := Option.some.inj (eq_of_putWfmo found)
      exact .inl undone
  | waitAgain call known undone =>
      simp only [Action.thread, goTo, update_self,
        CallAt.waiting.injEq] at waiting
      subst waiting
      obtain rfl := Option.some.inj (known.symm.trans found)
      exact .inl undone
  | @signal _ _ event =>
      cases auto : (library.events event).autoReset <;>
        simp [Action.thread, signal, auto] at waiting
  | notifyOne call auto sleeps =>
      simp only [goTo, Action.thread, update_apply] at waiting
      split_ifs at waiting
  | _ => simp [Action.thread, fire, CallAt.broadcast] at waiting

/-- A thread that is about to signal a waiter goes on to do so. -/
theorem signalling_of_move (move : Move library action next)
    {setter : Thread} {event : Event} {waiter : Nat}
    (signalling : library.calls setter = .signalling event waiter) :
    next.calls setter = .signalling event waiter ∨
      ∀ thread wait, wait.wfmo = waiter →
        next.calls thread ≠ .waiting wait := by
  by_cases acts : setter = action.thread
  case neg =>
    have signalled := calls_of_move move acts
    rw [signalling] at signalled
    exact .inl (signalled.eq_self (by simp) (by simp))
  subst acts
  cases move with
  | accessFreed => exact .inl signalling
  | @signal actor _ changed called call =>
      obtain ⟨rfl, rfl⟩ : changed = event ∧ called = waiter := by
        simpa [Action.thread, call] using signalling
      right
      intro thread wait number waiting
      have signalled : (library.calls thread).signalled called ≠
          .waiting wait := by
        cases before : library.calls thread with
        | waiting other =>
            simp only [CallAt.signalled]
            split_ifs with same
            · simp
            · rintro ⟨⟩
              exact same number
        | _ => simp [CallAt.signalled]
      cases auto : (library.events changed).autoReset <;>
        simp only [signal, auto, if_true, Bool.false_eq_true, if_false, goTo,
          putEvent, mapCalls, update_apply, comp_apply] at waiting <;>
        split_ifs at waiting <;>
        exact signalled waiting
  | setEvent call | resetEvent call | stay call | take call | sleep call
  | begin call | endScan call | keepMutex call | fire call | expire call
  | notifyOne call | notifyNone call | notifyAll call | lock call
  | giveUp call | finish call | wait call | keep call | remove call
  | findAll call | findAny call | register call | wakeWaiter call
  | relock call | waitAgain call | leave call | wakeSleeper call
  | riseLate call | riseTake call | sleepAgain call =>
      simp [Action.thread, call] at signalling

/-- A thread that is about to signal an event goes on to do so. -/
theorem notifying_of_move (move : Move library action next)
    {setter thread : Thread} {event : Event} {milliseconds : UInt64}
    (notifying : library.calls setter = .notifying event)
    (sleeps : library.calls thread = .sleeping event milliseconds)
    (sleepsOn : next.calls thread = .sleeping event milliseconds) :
    next.calls setter = .notifying event ∨
      ((library.events event).autoReset = true ∧ ∃ other time,
        next.calls other = .risen event time false) := by
  by_cases acts : setter = action.thread
  case neg =>
    have signalled := calls_of_move move acts
    rw [notifying] at signalled
    exact .inl (signalled.eq_self (by simp) (by simp))
  subst acts
  cases move with
  | accessFreed => exact .inl notifying
  | notifyOne call auto up =>
      obtain rfl : _ = event := by
        simpa [Action.thread, call] using notifying
      exact .inr ⟨auto, _, _, update_self _ _ _⟩
  | @notifyNone _ changed call auto nobody =>
      obtain rfl : changed = event := by
        simpa [Action.thread, call] using notifying
      have awake := nobody thread
      simp [sleeps, CallAt.sleepsOn] at awake
  | @notifyAll actor changed _ call =>
      obtain rfl : changed = event := by
        simpa [Action.thread, call] using notifying
      have other : thread ≠ actor := by
        rintro rfl
        simp [call] at sleeps
      simp [update_of_ne other, sleeps, CallAt.broadcast] at sleepsOn
  | setEvent call | resetEvent call | stay call | take call | sleep call
  | begin call | endScan call | keepMutex call | fire call | expire call
  | signal call | lock call | giveUp call | finish call | wait call
  | keep call | remove call | findAll call | findAny call | register call
  | wakeWaiter call | relock call | waitAgain call | leave call
  | wakeSleeper call | riseLate call | riseTake call | sleepAgain call =>
      simp [Action.thread, call] at notifying

/-- A thread that is up for an auto-reset event takes it if it is set. -/
theorem risen_of_move (move : Move library action next) {thread : Thread}
    {event : Event} {time : UInt64}
    (risen : library.calls thread = .risen event time false)
    (auto : (library.events event).autoReset = true)
    (state : (next.events event).state = true) :
    next.calls thread = .risen event time false := by
  by_cases acts : thread = action.thread
  case neg =>
    have signalled := calls_of_move move acts
    rw [risen] at signalled
    exact signalled.eq_self (by simp) (by simp)
  subst acts
  cases move with
  | accessFreed => exact risen
  | riseTake call =>
      obtain ⟨rfl, -⟩ : _ = event ∧ _ = time := by
        simpa [Action.thread, call] using risen
      simp [auto] at state
  | sleepAgain call free reset =>
      obtain ⟨rfl, -⟩ : _ = event ∧ _ = time := by
        simpa [Action.thread, call] using risen
      simp [reset] at state
  | setEvent call | resetEvent call | stay call | take call | sleep call
  | begin call | endScan call | keepMutex call | fire call | expire call
  | signal call | notifyOne call | notifyNone call | notifyAll call
  | lock call | giveUp call | finish call | wait call | keep call
  | remove call | findAll call | findAny call | register call
  | wakeWaiter call | relock call | waitAgain call | leave call
  | wakeSleeper call | riseLate call =>
      simp [Action.thread, call] at risen

/-- A thread goes to sleep only on an event that is reset. -/
theorem reset_of_own_sleep (move : Move library action next) {event : Event}
    {milliseconds : UInt64}
    (sleeping : next.calls action.thread = .sleeping event milliseconds) :
    (next.events event).state = false ∨
      library.calls action.thread = .sleeping event milliseconds := by
  cases move with
  | accessFreed => exact .inr sleeping
  | resetEvent call | stay call | take call | expire call | remove call =>
      exact .inr sleeping
  | sleep call free reset | sleepAgain call free reset =>
      simp only [Action.thread, goTo, update_self,
        CallAt.sleeping.injEq] at sleeping
      obtain ⟨rfl, rfl⟩ := sleeping
      exact .inl reset
  | @signal _ _ event =>
      cases auto : (library.events event).autoReset <;>
        simp [Action.thread, signal, auto] at sleeping
  | notifyOne call auto sleeps =>
      simp only [goTo, Action.thread, update_apply] at sleeping
      split_ifs at sleeping
  | _ => simp [Action.thread, fire, CallAt.broadcast] at sleeping

theorem Wakes.risen_step (wakes : library.Wakes) (locks : library.Locks)
    (move : Move library action next) (thread : Thread) (event : Event)
    (milliseconds : UInt64)
    (sleeps : next.calls thread = .sleeping event milliseconds)
    (state : (next.events event).state = true) :
    (∃ setter, next.Sets setter event ∨
      next.calls setter = .notifying event) ∨
    ((next.events event).autoReset = true ∧ ∃ other time,
      next.calls other = .risen event time false) := by
  have same := autoReset_of_move move event
  have sleepsBefore : library.calls thread =
      .sleeping event milliseconds := by
    by_cases acts : thread = action.thread
    · subst acts
      rcases reset_of_own_sleep move sleeps with reset | before
      · simp [state] at reset
      · exact before
    · have signalled := calls_of_move move acts
      rw [sleeps] at signalled
      exact signalled.eq_sleeping
  rcases state_of_move move state with stateBefore | ⟨-, sets⟩
  case inr => exact .inl ⟨_, .inl sets⟩
  rcases wakes.risen thread event milliseconds sleepsBefore stateBefore with
    ⟨setter, sets | notifying⟩ | ⟨auto, other, time, risen⟩
  · rcases sets.after locks move state with still | ⟨-, notifying⟩
    · exact .inl ⟨setter, .inl still⟩
    · exact .inl ⟨setter, .inr notifying⟩
  · rcases notifying_of_move move notifying sleepsBefore sleeps with
      still | ⟨auto, up⟩
    · exact .inl ⟨setter, .inr still⟩
    · exact .inr ⟨same.trans auto, up⟩
  · exact .inr ⟨same.trans auto, other, time,
      risen_of_move move risen auto state⟩

section Runs

variable [Fintype Thread] [Fintype Event]

theorem Wakes.signalled_step (wakes : library.Wakes) (sound : library.Sound)
    (move : Move library action next) (thread : Thread) (wait : Wait Event)
    (wfmo : Wfmo Thread) (waiting : next.calls thread = .waiting wait)
    (found : next.wfmos wait.wfmo = some wfmo) (done : wfmo.done = true) :
    ∃ setter event, next.calls setter = .signalling event wait.wfmo := by
  -- A signal for a waiter that was done before would have woken the thread.
  have stays : ∀ before, library.calls thread = .waiting wait →
      library.wfmos wait.wfmo = some before → before.done = true →
        ∃ setter event, next.calls setter = .signalling event wait.wfmo := by
    intro before waitingBefore foundBefore doneBefore
    obtain ⟨setter, event, signalling⟩ :=
      wakes.signalled thread wait before waitingBefore foundBefore doneBefore
    rcases signalling_of_move move signalling with still | woken
    · exact ⟨setter, event, still⟩
    · exact absurd waiting (woken thread wait rfl)
  by_cases acts : thread = action.thread
  · subst acts
    rcases undone_of_own_wait move waiting found with
      undone | ⟨waiter, gone, refersTo⟩
    · simp [done] at undone
    · obtain ⟨before, present⟩ := sound.refers.wfmo_of_refersTo refersTo
      simp [gone] at present
  · have signalled := calls_of_move move acts
    rw [waiting] at signalled
    have before := signalled.eq_waiting
    have waited := congrArg CallAt.wait? before
    have old := sound.refers.lt_created sound.locks waited
    have apart : ∀ own, (library.calls action.thread).wait? = some own →
        own.wfmo ≠ wait.wfmo := by
      intro own owned number
      exact acts (sound.refers.unique _ _ _ _ waited owned number.symm)
    cases foreign_of_move move apart (by omega) with
    | same kept =>
        exact stays wfmo before (kept.symm.trans found) done
    | fired listed known free still signals =>
        obtain ⟨setter, event, signalling⟩ := signals
        exact ⟨setter, event, signalling⟩
    | expired known ended released =>
        obtain rfl := released_eq_some (released.symm.trans found)
        exact stays _ before known done

theorem Wakes.step (wakes : library.Wakes) (sound : library.Sound)
    (move : Move library action next) : next.Wakes :=
  ⟨wakes.answered_step sound.locks move, wakes.signalled_step sound move,
    wakes.risen_step sound.locks move⟩

omit [DecidableEq Event] [DecidableEq Thread] [Fintype Thread]
  [Fintype Event] in
theorem start_wakes (manualReset initialState : Event → Bool) :
    (start manualReset initialState : Library Thread Event).Wakes := by
  constructor
  · exact fun event _ => .inl rfl
  · rintro thread wait wfmo ⟨⟩
  · rintro thread event milliseconds ⟨⟩

/-- No thread waits in vain.  One that waits in `WaitForMultipleEvents` is about
to be signalled when its wait is done; until then it is registered with every
event of its list that has not satisfied it, and while such an event is set some
`SetEvent` is going through the waiters of the event, where it may fire another
one first.  One that sleeps in `WaitForEvent` on an event that is set is about
to be woken, or another thread is up to take the event. -/
structure NoneInVain (library : Library Thread Event) : Prop where
  waiting : ∀ thread wait, library.calls thread = .waiting wait →
    ∃ wfmo, library.wfmos wait.wfmo = some wfmo ∧
      (wfmo.done = true →
        ∃ setter event, library.calls setter = .signalling event wait.wfmo) ∧
      (wfmo.done = false → ∀ i event, wait.events[i]? = some event →
        library.wins ⟨wait.wfmo, i⟩ = 0 →
          ⟨wait.wfmo, i⟩ ∈ (library.events event).registeredWaits ∧
            ((library.events event).state = true →
              ∃ setter, library.Sets setter event))
  sleeping : ∀ thread event milliseconds,
    library.calls thread = .sleeping event milliseconds →
      (library.events event).state = true →
        (∃ setter, library.Sets setter event ∨
          library.calls setter = .notifying event) ∨
        ((library.events event).autoReset = true ∧ ∃ other time,
          library.calls other = .risen event time false)

omit [DecidableEq Thread] in
/-- A waiter that is not done is registered for every index that has not
satisfied it. -/
theorem Settled.registered (settled : library.Settled)
    (sound : library.Sound) {thread : Thread} {wait : Wait Event}
    {wfmo : Wfmo Thread} (waiting : library.calls thread = .waiting wait)
    (found : library.wfmos wait.wfmo = some wfmo)
    (undone : wfmo.done = false) {i : Nat} {event : Event}
    (listed : wait.events[i]? = some event)
    (unwon : library.wins ⟨wait.wfmo, i⟩ = 0) :
    ⟨wait.wfmo, i⟩ ∈ (library.events event).registeredWaits := by
  have waited := congrArg CallAt.wait? waiting
  have stands := settled.stands _ _ _ waited found
  have waitAll := sound.refers.waitAll _ _ _ waited found
  rw [waiting] at stands
  have still : wfmo.stillWaiting = true := by
    by_contra ended
    obtain ⟨any, fired⟩ := stands.fired (by simpa using ended)
    simp [Wfmo.done, waitAll, any, fired] at undone
  have within := (List.getElem?_eq_some_iff.mp listed).1
  have counted := stands.registered rfl still i
  rw [unwon, stands.looked rfl, if_pos within] at counted
  have entered : library.entries ⟨wait.wfmo, i⟩ ≠ 0 := by omega
  obtain ⟨place, -, some⟩ := Finset.exists_ne_zero_of_sum_ne_zero entered
  have member := List.count_pos_iff.mp (Nat.pos_of_ne_zero some)
  have same := settled.listed place _ member wait.events
    (.inl ⟨thread, wait, waited, rfl, rfl⟩)
  simp only [listed, Option.some.injEq] at same
  rw [same]
  exact member

/-- A valid state in which no wake-up has been lost. -/
structure Alert (library : Library Thread Event) : Prop where
  valid : library.Valid
  wakes : library.Wakes

theorem Alert.noneInVain (alert : library.Alert) : library.NoneInVain := by
  obtain ⟨valid, wakes⟩ := alert
  refine ⟨?_, wakes.risen⟩
  intro thread wait waiting
  have waited := congrArg CallAt.wait? waiting
  obtain ⟨wfmo, found⟩ := valid.sound.refers.wfmo_of_wait waited
  refine ⟨wfmo, found, wakes.signalled thread wait wfmo waiting found, ?_⟩
  intro undone i event listed unwon
  have member := valid.settled.registered valid.sound waiting found undone
    listed unwon
  refine ⟨member, fun state => ?_⟩
  rcases wakes.answered event state with empty | sets
  · simp [empty] at member
  · exact sets

theorem Alert.step (alert : library.Alert)
    (stepTo : libraryStep library action = some next) : next.Alert :=
  ⟨alert.valid.step stepTo,
    alert.wakes.step alert.valid.sound (move_of_step stepTo)⟩

omit [DecidableEq Thread] in
theorem start_alert (manualReset initialState : Event → Bool) :
    (start manualReset initialState : Library Thread Event).Alert :=
  ⟨start_valid _ _, start_wakes _ _⟩

end Runs

end Library

/-- No wake-up is lost, whatever the order of the steps. -/
theorem none_in_vain [Fintype Thread] [Fintype Event]
    (manualReset initialState : Event → Bool)
    (actions : List (Action Thread Event)) :
    HoldsAlong libraryStep Library.NoneInVain
      (.start manualReset initialState) actions := by
  apply holdsAlong_of_invariant _ _
    (Library.start_alert manualReset initialState) actions
  · exact fun library alert => alert.noneInVain
  · exact fun before action after alert stepTo => alert.step stepTo

end Neosmart
