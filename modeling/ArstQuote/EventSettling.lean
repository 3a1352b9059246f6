import ArstQuote.EventDeadlock
import ArstQuote.EventWakeups

/-!
# The calls of the event library end

The steps of the calls in progress, without any new call and without wake-ups
that nobody signalled, come to an end whatever their order: there is a bound on
their number in every state.  When no further step is possible, every call has
returned or waits for a condition, if all calls list their events in one order.
-/

namespace Neosmart

open Function GuardedRuns SharedObjects

variable {Thread Event : Type*}

/-- The next step of a call in progress. -/
def Action.goesOn : Action Thread Event → Bool
  | .proceed _ _ | .notify _ _ => true
  | .setEvent _ _ | .resetEvent _ _ | .waitForEvent _ _ _
  | .waitForMultipleEvents _ _ _ _ | .wake _ _ => false

/-- The number of events that a call still has to look at. -/
def CallAt.todo : CallAt Event → Nat
  | .registering wait | .cleaning wait _ _ => wait.events.length - wait.i
  | .outside | .setting _ | .signalling _ _ | .notifying _ | .waiting _
  | .woken _ _ | .leaving _ _ | .sleeping _ _ | .risen _ _ _ => 0

/-- The events that are to be looked at, each of which makes one entry at most,
and the entries that are to be taken. -/
def Library.budget [Fintype Thread] [Fintype Event]
    (library : Library Thread Event) : Nat :=
  2 * ∑ thread, (library.calls thread).todo +
    ∑ event, (library.events event).registeredWaits.length

/-- The number of steps of a call, and of those that it signals, up to the next
one that lowers the budget. -/
def Library.delay [Fintype Thread] [Fintype Event]
    (library : Library Thread Event) : CallAt Event → Nat
  | .outside | .waiting _ | .sleeping _ _ => 0
  | .leaving _ _ | .risen _ _ _ => 1
  | .woken _ _ => 2
  | .notifying _ => Fintype.card Thread + 1
  | .setting _ => Fintype.card Thread + 2
  | .signalling _ _ => Fintype.card Thread + 5
  | .cleaning _ event position =>
      (library.events event).registeredWaits.length - position + 2
  | .registering _ => library.budget + 3

/-- A bound on the number of steps that the calls in progress can take. -/
def Library.rank [Fintype Thread] [Fintype Event]
    (library : Library Thread Event) : Nat :=
  library.budget *
      (Fintype.card Thread * (library.budget + Fintype.card Thread + 5) + 1) +
    ∑ thread, library.delay (library.calls thread)

/-- Every call has returned or waits for a condition. -/
def Library.Quiet (library : Library Thread Event) : Prop :=
  ∀ thread, (library.calls thread).runs = false

@[simp] theorem todo_signalled (waiter : Nat)
    (calls : Thread → CallAt Event) :
    CallAt.todo ∘ CallAt.signalled waiter ∘ calls = CallAt.todo ∘ calls :=
  comp_signalled (fun _ => rfl) waiter calls

@[simp] theorem todo_broadcast [DecidableEq Event] (event : Event)
    (calls : Thread → CallAt Event) :
    CallAt.todo ∘ CallAt.broadcast event ∘ calls = CallAt.todo ∘ calls :=
  comp_broadcast (fun _ _ => rfl) event calls

namespace Library

variable [Fintype Thread] [Fintype Event]
  {library next : Library Thread Event}

theorem length_le_budget (library : Library Thread Event) (event : Event) :
    (library.events event).registeredWaits.length ≤ library.budget := by
  have single := Finset.single_le_sum_of_canonicallyOrdered
    (f := fun event => (library.events event).registeredWaits.length)
    (Finset.mem_univ event)
  simp only [budget]
  omega

theorem delay_le (library : Library Thread Event) (call : CallAt Event) :
    library.delay call ≤ library.budget + Fintype.card Thread + 5 := by
  cases call with
  | cleaning wait event position =>
      have bound := library.length_le_budget event
      simp only [delay]
      omega
  | _ =>
      simp only [delay]
      omega

/-- The delays of all calls together count less than one unit of the budget. -/
theorem rank_lt_of_budget (less : next.budget < library.budget) :
    next.rank < library.rank := by
  have delays : ∑ thread, next.delay (next.calls thread) ≤
      Fintype.card Thread * (next.budget + Fintype.card Thread + 5) := by
    have each := Finset.sum_le_card_nsmul Finset.univ
      (fun thread => next.delay (next.calls thread))
      (next.budget + Fintype.card Thread + 5)
      fun thread _ => next.delay_le (next.calls thread)
    simpa using each
  have unit : Fintype.card Thread * (next.budget + Fintype.card Thread + 5) ≤
      Fintype.card Thread * (library.budget + Fintype.card Thread + 5) :=
    Nat.mul_le_mul_left _ (by omega)
  calc next.rank
      < (next.budget + 1) * (Fintype.card Thread *
          (next.budget + Fintype.card Thread + 5) + 1) := by
        rw [Nat.succ_mul, rank]
        omega
    _ ≤ library.budget * (Fintype.card Thread *
          (library.budget + Fintype.card Thread + 5) + 1) :=
        Nat.mul_le_mul less (Nat.succ_le_succ unit)
    _ ≤ library.rank := Nat.le_add_right _ _

theorem rank_lt_of_delay (same : next.budget = library.budget)
    (less : ∑ thread, next.delay (next.calls thread) <
      ∑ thread, library.delay (library.calls thread)) :
    next.rank < library.rank := by
  simp only [rank, same]
  omega

theorem delay_eq (same : next.budget = library.budget)
    (lengths : ∀ event, (next.events event).registeredWaits.length =
      (library.events event).registeredWaits.length) (call : CallAt Event) :
    next.delay call = library.delay call := by
  cases call <;> simp [delay, same, lengths]

/-- A call that pays for those that it signals. -/
theorem rank_lt_of_paid (thread : Thread) (gain : Thread → Nat) (paid : Nat)
    (lengths : ∀ event, (next.events event).registeredWaits.length =
      (library.events event).registeredWaits.length)
    (todo : ∀ other,
      (next.calls other).todo = (library.calls other).todo)
    (each : ∀ other, other ≠ thread →
      library.delay (next.calls other) ≤
        library.delay (library.calls other) + gain other)
    (here : library.delay (next.calls thread) + paid ≤
      library.delay (library.calls thread))
    (covers : ∑ other, gain other < paid) : next.rank < library.rank := by
  have same : next.budget = library.budget := by
    simp only [budget, todo, lengths]
  apply rank_lt_of_delay same
  simp only [delay_eq same lengths]
  exact sum_lt_of_paid each here covers

variable [DecidableEq Thread]

/-- A call that goes on, with as many events still to look at. -/
theorem rank_lt_of_call {thread : Thread} {call : CallAt Event}
    (calls : next.calls = update library.calls thread call)
    (lengths : ∀ event, (next.events event).registeredWaits.length =
      (library.events event).registeredWaits.length)
    (todo : call.todo = (library.calls thread).todo)
    (less : library.delay call < library.delay (library.calls thread)) :
    next.rank < library.rank := by
  refine rank_lt_of_paid thread (fun _ => 0) 1 lengths ?_ ?_ ?_ (by simp)
  · intro other
    by_cases same : other = thread
    · simp [calls, same, todo]
    · simp [calls, update_of_ne same]
  · intro other apart
    simp [calls, update_of_ne apart]
  · rw [calls, update_self]
    exact less

variable [DecidableEq Event]

/-- A call that goes on and changes one event, so that less is to be done. -/
theorem rank_lt_of_event {thread : Thread} {call : CallAt Event}
    {event : Event} {object : NeosmartEvent Thread}
    (calls : next.calls = update library.calls thread call)
    (events : next.events = update library.events event object)
    (less : 2 * call.todo + object.registeredWaits.length <
      2 * (library.calls thread).todo +
        (library.events event).registeredWaits.length) :
    next.rank < library.rank := by
  apply rank_lt_of_budget
  have todo := sum_update_add CallAt.todo library.calls thread call
  have entries := sum_update_add
    (fun object : NeosmartEvent Thread => object.registeredWaits.length)
    library.events event object
  simp only [budget, calls, events]
  omega

omit [Fintype Thread] [Fintype Event] [DecidableEq Thread] in
/-- An event that is replaced by one with as many entries. -/
theorem lengths_of_update {event : Event} {object : NeosmartEvent Thread}
    (events : next.events = update library.events event object)
    (same : object.registeredWaits.length =
      (library.events event).registeredWaits.length) (other : Event) :
    (next.events other).registeredWaits.length =
      (library.events other).registeredWaits.length := by
  rw [events]
  by_cases here : other = event
  · subst here
    simp [same]
  · simp [update_of_ne here]

variable {action : Action Thread Event}

omit [Fintype Thread] [Fintype Event] in
theorem calls_broadcast (thread : Thread) (event : Event) (other : Thread)
    (apart : other ≠ thread) :
    ((library.goTo thread .outside).mapCalls (.broadcast event)).calls other =
      (library.calls other).broadcast event := by
  simp [update_of_ne apart]

/-- At most the call that made the waiter is woken. -/
theorem Valid.rank_lt_of_signal (valid : library.Valid) {thread : Thread}
    {event : Event} {waiter : Nat}
    (call : library.calls thread = .signalling event waiter) :
    (library.signal thread event waiter).rank < library.rank := by
  classical
  let woken : Thread → Prop := fun other =>
    ∃ wait, library.calls other = .waiting wait ∧ wait.wfmo = waiter
  have lone : ∑ other, (if woken other then 2 else 0) ≤ 2 := by
    have atMost : (Finset.univ.filter woken).card ≤ 1 := by
      rw [Finset.card_le_one]
      intro one mem other otherMem
      obtain ⟨wait, waiting, number⟩ := (Finset.mem_filter.mp mem).2
      obtain ⟨own, owning, same⟩ := (Finset.mem_filter.mp otherMem).2
      exact valid.sound.refers.unique _ _ _ _ (congrArg CallAt.wait? waiting)
        (congrArg CallAt.wait? owning) (number.trans same.symm)
    rw [← Finset.sum_filter, Finset.sum_const]
    exact Nat.mul_le_mul_right 2 atMost
  have signalled (other : Thread) (apart : other ≠ thread) :
      (library.signal thread event waiter).calls other =
        (library.calls other).signalled waiter := by
    cases auto : (library.events event).autoReset <;>
      simp [signal, auto, update_of_ne apart]
  refine rank_lt_of_paid thread (fun other => if woken other then 2 else 0) 3
    ?_ ?_ ?_ ?_ (by omega)
  · intro other
    cases auto : (library.events event).autoReset with
    | false => simp [signal, auto]
    | true =>
        by_cases here : other = event
        · subst here
          simp [signal, auto]
        · simp [signal, auto, update_of_ne here]
  · intro other
    by_cases same : other = thread
    · subst same
      cases auto : (library.events event).autoReset <;>
        simp [signal, auto, call, CallAt.todo]
    · rw [signalled other same]
      exact congrFun (todo_signalled waiter library.calls) other
  · intro other apart
    rw [signalled other apart]
    cases place : library.calls other with
    | waiting wait =>
        by_cases number : wait.wfmo = waiter
        · have wakes : woken other := ⟨wait, place, number⟩
          simp [CallAt.signalled, number, wakes, delay]
        · simp [CallAt.signalled, number]
    | _ => simp [CallAt.signalled]
  · cases auto : (library.events event).autoReset <;>
      simp [signal, auto, call, delay]

/-- An event that a call looks at is one of its list. -/
theorem Valid.lt_of_cleaning (valid : library.Valid) {thread : Thread}
    {wait : Wait Event} {event : Event} {position : Nat}
    (call : library.calls thread = .cleaning wait event position) :
    wait.i < wait.events.length := by
  have waits := congrArg CallAt.wait? call
  obtain ⟨wfmo, found⟩ := valid.sound.refers.wfmo_of_wait waits
  have stands := valid.settled.stands _ _ _ waits found
  exact (List.getElem?_eq_some_iff.mp (stands.looks event position call)).1

/-- Every step of a call in progress leaves fewer to be taken. -/
theorem Valid.rank_lt (valid : library.Valid) (goes : action.goesOn = true)
    (stepTo : libraryStep library action = some next) :
    next.rank < library.rank := by
  cases move_of_step stepTo with
  | setEvent | resetEvent | stay | take | sleep | begin | wakeWaiter
  | wakeSleeper => simp [Action.goesOn] at goes
  | accessFreed gone refers =>
      obtain ⟨wfmo, found⟩ := valid.sound.refers.wfmo_of_refersTo refers
      rw [gone] at found
      cases found
  | keepMutex call | notifyNone call | relock call | waitAgain call
  | leave call | riseLate call | sleepAgain call =>
      refine rank_lt_of_call rfl (fun _ => rfl) ?_ ?_
      · simp [call, CallAt.todo]
      · simp [call, delay]
  | giveUp call last | finish call last | wait call last =>
      refine rank_lt_of_call rfl (fun _ => rfl) ?_ ?_
      · simp only [call, CallAt.todo]
        omega
      · simp [call, delay]
  | riseTake call =>
      refine rank_lt_of_call rfl (lengths_of_update rfl rfl) ?_ ?_
      · simp [call, CallAt.todo]
      · simp [call, delay]
  | endScan call empty =>
      refine rank_lt_of_call rfl (lengths_of_update rfl ?_) ?_ ?_
      · simp [empty]
      · simp [call, CallAt.todo]
      · simp [call, delay]
  | @lock thread _ wait event call =>
      have bound := library.length_le_budget event
      refine rank_lt_of_call rfl (lengths_of_update rfl rfl) ?_ ?_
      · simp [call, CallAt.todo]
      · simp only [call, delay]
        omega
  | keep call entry =>
      have within := (List.getElem?_eq_some_iff.mp entry).1
      refine rank_lt_of_call rfl (fun _ => rfl) ?_ ?_
      · simp [call, CallAt.todo]
      · simp only [call, delay]
        omega
  | fire call front =>
      refine rank_lt_of_event rfl rfl ?_
      simp [call, front, CallAt.todo]
  | @expire thread _ event info rest wfmo call front =>
      refine rank_lt_of_event (update_eq_self thread library.calls).symm rfl ?_
      simp [front]
  | @remove thread _ wait event position info wfmo call entry =>
      have within := (List.getElem?_eq_some_iff.mp entry).1
      refine rank_lt_of_event (update_eq_self thread library.calls).symm rfl ?_
      simp only [List.length_eraseIdx, if_pos within]
      omega
  | findAll call | findAny call =>
      have within := valid.lt_of_cleaning call
      refine rank_lt_of_event rfl rfl ?_
      simp only [call, CallAt.todo, NeosmartEvent.taken]
      omega
  | register call =>
      have within := valid.lt_of_cleaning call
      refine rank_lt_of_event rfl rfl ?_
      simp only [call, CallAt.todo, List.length_append, List.length_cons,
        List.length_nil]
      omega
  | signal call => exact valid.rank_lt_of_signal call
  | @notifyOne thread event sleeper milliseconds call auto sleeps =>
      have apart : sleeper ≠ thread := by
        rintro rfl
        simp [call] at sleeps
      refine rank_lt_of_paid thread (fun _ => 1) (Fintype.card Thread + 1)
        (fun _ => rfl) ?_ ?_ ?_ (by simp)
      · intro other
        by_cases same : other = sleeper
        · simp [same, sleeps, CallAt.todo]
        · by_cases actor : other = thread
          · simp [actor, apart.symm, call, CallAt.todo]
          · simp [update_of_ne same, update_of_ne actor]
      · intro other actor
        by_cases same : other = sleeper
        · simp [same, sleeps, delay]
        · simp [update_of_ne same, update_of_ne actor]
      · simp [apart.symm, call, delay]
  | @notifyAll thread event chosen call =>
      refine rank_lt_of_paid thread (fun _ => 1) (Fintype.card Thread + 1)
        (fun _ => rfl) ?_ ?_ ?_ (by simp)
      · intro other
        by_cases actor : other = thread
        · simp [actor, call, CallAt.broadcast, CallAt.todo]
        · rw [calls_broadcast thread event other actor]
          exact congrFun (todo_broadcast event library.calls) other
      · intro other actor
        rw [calls_broadcast thread event other actor]
        cases library.calls other with
        | sleeping slept milliseconds =>
            by_cases here : slept = event <;>
              simp [CallAt.broadcast, here, delay]
        | _ => simp [CallAt.broadcast]
      · simp [call, CallAt.broadcast, delay]

theorem Valid.rank_of_execute (valid : library.Valid)
    {more : List (Action Thread Event)}
    (goOn : ∀ action ∈ more, action.goesOn = true) {last : Library Thread Event}
    (executed : execute libraryStep library more = some last) :
    more.length + last.rank ≤ library.rank := by
  apply length_add_rank_le _ valid goOn executed
  intro before action after valid goes stepTo
  exact ⟨valid.step stepTo, valid.rank_lt goes stepTo⟩

omit [Fintype Thread] [Fintype Event] in
/-- An event satisfies a wait when it is set, and an auto-reset one is reset by
that. -/
theorem Locks.state_of_taken (locks : library.Locks)
    (move : Move library action next) {event : Event}
    {info : Option WfmoInfo}
    (taken : next.acquired = ⟨event, info⟩ :: library.acquired) :
    (library.events event).state = true ∧
      ((library.events event).autoReset = true →
        (next.events event).state = false) := by
  cases move with
  | take outside free state | findAll call last found state
  | findAny call last found state | riseTake call free state =>
      obtain ⟨rfl, rfl⟩ := Acquisition.mk.inj (List.cons.inj taken).1
      exact ⟨state, fun auto => by simp [auto]⟩
  | fire call =>
      obtain ⟨rfl, rfl⟩ := Acquisition.mk.inj (List.cons.inj taken).1
      exact ⟨locks.sets _ _ (.inl call), fun auto => by simp [fire, auto]⟩
  | @signal _ _ changed =>
      cases auto : (library.events changed).autoReset <;>
        simp [signal, auto] at taken
  | _ => simp at taken

omit [Fintype Thread] [Fintype Event] in
/-- A call that goes on sets no event. -/
theorem state_of_goesOn (move : Move library action next)
    (goes : action.goesOn = true) {event : Event}
    (state : (next.events event).state = true) :
    (library.events event).state = true := by
  rcases state_of_move move state with before | ⟨⟨thread, rfl⟩, -⟩
  · exact before
  · simp [Action.goesOn] at goes

end Library

/-- If no call in progress can go on, each has returned or waits. -/
theorem Library.Lively.quiet [LinearOrder Event] [DecidableEq Thread]
    [Fintype Thread] {library : Library Thread Event}
    (lively : library.Lively)
    (stuck : ∀ action, action.goesOn = true →
      libraryStep library action = none) : library.Quiet := by
  intro thread
  by_contra runs
  obtain ⟨other, runs, action, rfl, -, steps⟩ :=
    lively thread (by simpa using runs)
  by_cases goes : action.goesOn = true
  case pos => simp [stuck action goes] at steps
  cases action with
  | proceed | notify => simp [Action.goesOn] at goes
  | setEvent | resetEvent | waitForEvent | waitForMultipleEvents =>
      obtain ⟨next, stepTo⟩ := Option.isSome_iff_exists.mp steps
      cases Library.move_of_step stepTo with
      | _ outside => simp [Action.thread, outside, CallAt.runs] at runs
  | wake =>
      obtain ⟨next, stepTo⟩ := Option.isSome_iff_exists.mp steps
      cases Library.move_of_step stepTo with
      | _ call => simp [Action.thread, call, CallAt.runs] at runs

variable [Fintype Thread] [Fintype Event] [DecidableEq Event]
  [DecidableEq Thread]

/-- The calls in progress take no more steps than the rank tells, whatever their
order. -/
theorem calls_settle (manualReset initialState : Event → Bool)
    (actions : List (Action Thread Event)) :
    HoldsAlong libraryStep
      (fun library => ∀ more last,
        (∀ action ∈ more, action.goesOn = true) →
          execute libraryStep library more = some last →
            more.length ≤ library.rank)
      (.start manualReset initialState) actions := by
  apply holdsAlong_of_invariant _ _
    (Library.start_valid manualReset initialState) actions
  · intro library valid more last goOn executed
    have spent := valid.rank_of_execute goOn executed
    omega
  · exact fun before action after valid stepTo => valid.step stepTo

end Neosmart
