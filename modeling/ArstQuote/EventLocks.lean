import ArstQuote.EventMoves

/-!
# The mutexes of the event library

Who has the mutex of an event or of a waiter.  A call locks its waiter first
and then one event at a time, whereas `SetEvent` locks an event and then its
waiters, so that threads can wait for each other; but not if every call of
`WaitForMultipleEvents` lists its events in one order.
-/

namespace Neosmart

open Function SharedObjects

variable {Thread Event : Type*}

/-- The event whose mutex the thread has. -/
@[simp] def CallAt.eventHeld : CallAt Event → Option Event
  | .setting event | .signalling event _ | .cleaning _ event _ => some event
  | .outside | .notifying _ | .registering _ | .waiting _ | .woken _ _
  | .leaving _ _ | .sleeping _ _ | .risen _ _ _ => none

/-- The waiter whose mutex the thread has. -/
@[simp] def CallAt.wfmoHeld : CallAt Event → Option Nat
  | .registering wait | .cleaning wait _ _ | .leaving wait _ => some wait.wfmo
  | .outside | .setting _ | .signalling _ _ | .notifying _ | .waiting _
  | .woken _ _ | .sleeping _ _ | .risen _ _ _ => none

/-- The mutex of a waiter, which a deleted one has no more. -/
def wfmoMutex (wfmo : Option (Wfmo Thread)) : Option Thread :=
  wfmo.bind Wfmo.mutex

@[simp] theorem wfmoMutex_some (wfmo : Wfmo Thread) :
    wfmoMutex (some wfmo) = wfmo.mutex := rfl

/-- What does not tell a waiting thread from a woken one is not changed by a
signal. -/
theorem comp_signalled {Seen : Type*} {view : CallAt Event → Seen}
    (alike : ∀ wait, view (.woken wait false) = view (.waiting wait))
    (waiter : Nat) (calls : Thread → CallAt Event) :
    view ∘ CallAt.signalled waiter ∘ calls = view ∘ calls := by
  funext thread
  simp only [comp_apply]
  cases calls thread with
  | waiting wait =>
      simp only [CallAt.signalled]
      split
      · exact alike wait
      · rfl
  | _ => rfl

@[simp] theorem eventHeld_signalled (waiter : Nat)
    (calls : Thread → CallAt Event) :
    CallAt.eventHeld ∘ CallAt.signalled waiter ∘ calls =
      CallAt.eventHeld ∘ calls :=
  comp_signalled (fun _ => rfl) waiter calls

@[simp] theorem wfmoHeld_signalled (waiter : Nat)
    (calls : Thread → CallAt Event) :
    CallAt.wfmoHeld ∘ CallAt.signalled waiter ∘ calls =
      CallAt.wfmoHeld ∘ calls :=
  comp_signalled (fun _ => rfl) waiter calls

@[simp] theorem wfmoMutex_released (wfmo : Wfmo Thread) :
    wfmoMutex wfmo.released = none := by
  unfold Wfmo.released
  split <;> rfl

@[simp] theorem mutex_fired (wfmo : Wfmo Thread) (waitIndex : Nat) :
    (wfmo.fired waitIndex).mutex = wfmo.mutex := by
  unfold Wfmo.fired
  split <;> rfl

@[simp] theorem mutex_found (wfmo : Wfmo Thread) (i : Nat) :
    (wfmo.found i).mutex = wfmo.mutex := by
  unfold Wfmo.found
  split <;> rfl

variable [DecidableEq Event]

theorem comp_broadcast {Seen : Type*} {view : CallAt Event → Seen}
    (alike : ∀ event milliseconds, view (.risen event milliseconds false) =
      view (.sleeping event milliseconds))
    (event : Event) (calls : Thread → CallAt Event) :
    view ∘ CallAt.broadcast event ∘ calls = view ∘ calls := by
  funext thread
  simp only [comp_apply]
  cases calls thread with
  | sleeping slept milliseconds =>
      simp only [CallAt.broadcast]
      split
      · exact alike slept milliseconds
      · rfl
  | _ => rfl

@[simp] theorem eventHeld_broadcast (event : Event)
    (calls : Thread → CallAt Event) :
    CallAt.eventHeld ∘ CallAt.broadcast event ∘ calls =
      CallAt.eventHeld ∘ calls :=
  comp_broadcast (fun _ _ => rfl) event calls

@[simp] theorem wfmoHeld_broadcast (event : Event)
    (calls : Thread → CallAt Event) :
    CallAt.wfmoHeld ∘ CallAt.broadcast event ∘ calls =
      CallAt.wfmoHeld ∘ calls :=
  comp_broadcast (fun _ _ => rfl) event calls

variable [DecidableEq Thread]

/-- The thread is in a call of `SetEvent` that leaves the event set. -/
def Library.Sets (library : Library Thread Event) (thread : Thread)
    (event : Event) : Prop :=
  library.calls thread = .setting event ∨
    ∃ waiter, library.calls thread = .signalling event waiter ∧
      (library.events event).autoReset = false

/-- Every mutex is noted where it is had, the numbers of waiters are new, and an
event is set while `SetEvent` looks at its waiters. -/
structure Library.Locks (library : Library Thread Event) : Prop where
  events : Exact (NeosmartEvent.mutex ∘ library.events)
    (CallAt.eventHeld ∘ library.calls)
  wfmos : Exact (wfmoMutex ∘ library.wfmos) (CallAt.wfmoHeld ∘ library.calls)
  fresh : ∀ waiter, library.created ≤ waiter → library.wfmos waiter = none
  sets : ∀ thread event, library.Sets thread event →
    (library.events event).state = true

namespace Library

variable {library next : Library Thread Event}
  {action : Action Thread Event}

theorem Locks.events_step (locks : library.Locks)
    (move : Move library action next) :
    Exact (NeosmartEvent.mutex ∘ next.events)
      (CallAt.eventHeld ∘ next.calls) := by
  have exact := locks.events
  cases move with
  | stay | accessFreed => exact exact
  | setEvent outside free =>
      simpa [comp_update] using
        exact.lock free (congrArg CallAt.eventHeld outside)
  | lock call listed free =>
      simpa [comp_update] using
        exact.lock free (congrArg CallAt.eventHeld call)
  | endScan call | findAll call | findAny call | register call =>
      simpa [comp_update] using
        exact.unlock (congrArg CallAt.eventHeld call)
  | resetEvent | take =>
      simpa [comp_update] using exact.keepHolder rfl
  | expire | remove =>
      simpa [comp_update] using exact.keepHolder rfl
  | sleep call | begin call | keep call | giveUp call | finish call
  | wait call | wakeWaiter call | relock call | waitAgain call
  | wakeSleeper call | riseLate call | sleepAgain call | notifyNone call =>
      simpa [comp_update] using
        exact.keepHeld (congrArg CallAt.eventHeld call)
  | leave call =>
      simpa [comp_update] using
        exact.keepHeld (congrArg CallAt.eventHeld call)
  | keepMutex call empty auto reset =>
      simp [locks.sets _ _ (.inl call)] at reset
  | fire call =>
      simpa [comp_update, fire] using
        (exact.keepHolder rfl).keepHeld (congrArg CallAt.eventHeld call)
  | riseTake call =>
      simpa [comp_update] using
        (exact.keepHolder rfl).keepHeld (congrArg CallAt.eventHeld call)
  | @signal _ _ event _ call =>
      cases auto : (library.events event).autoReset with
      | true =>
          simpa [comp_update, signal, auto] using
            exact.unlock (congrArg CallAt.eventHeld call)
      | false =>
          simpa [comp_update, signal, auto] using
            exact.keepHeld (congrArg CallAt.eventHeld call)
  | @notifyOne thread event sleeper _ call auto sleeps =>
      have left : Exact (NeosmartEvent.mutex ∘ library.events)
          (update (CallAt.eventHeld ∘ library.calls) thread none) :=
        exact.keepHeld (congrArg CallAt.eventHeld call)
      have without : update (CallAt.eventHeld ∘ library.calls) thread none
          sleeper = none := by
        simp [update_apply, sleeps]
      simpa [comp_update] using left.keepHeld without
  | notifyAll call =>
      simpa [comp_update, CallAt.broadcast] using
        exact.keepHeld (congrArg CallAt.eventHeld call)

theorem Locks.wfmos_step (locks : library.Locks)
    (move : Move library action next) :
    Exact (wfmoMutex ∘ next.wfmos) (CallAt.wfmoHeld ∘ next.calls) := by
  have exact := locks.wfmos
  cases move with
  | stay | accessFreed | resetEvent | take => exact exact
  | begin call =>
      have free : wfmoMutex (library.wfmos library.created) = none := by
        simp [locks.fresh _ (le_refl library.created), wfmoMutex]
      simpa [comp_update] using
        exact.lock free (congrArg CallAt.wfmoHeld call)
  | relock call found free =>
      have unlocked := (congrArg wfmoMutex found).trans free
      simpa [comp_update] using
        exact.lock unlocked (congrArg CallAt.wfmoHeld call)
  | wait call | leave call =>
      simpa [comp_update] using
        exact.unlock (congrArg CallAt.wfmoHeld call)
  | expire call front found free | remove call entry found free =>
      have unlocked := (congrArg wfmoMutex found).trans free
      simpa [comp_update] using exact.keepHolder unlocked
  | fire call front found | findAll call last found
  | findAny call last found | register call last found =>
      have same := exact.keepHolder (congrArg wfmoMutex found)
      simpa [comp_update, fire] using
        same.keepHeld (congrArg CallAt.wfmoHeld call)
  | setEvent call | lock call | endScan call | sleep call | keep call
  | giveUp call | finish call | wakeWaiter call | waitAgain call
  | wakeSleeper call | riseLate call | sleepAgain call | notifyNone call
  | keepMutex call | riseTake call =>
      simpa [comp_update] using
        exact.keepHeld (congrArg CallAt.wfmoHeld call)
  | @signal _ _ event _ call =>
      have same := exact.keepHeld (congrArg CallAt.wfmoHeld call)
      cases auto : (library.events event).autoReset <;>
        simpa [comp_update, signal, auto] using same
  | @notifyOne thread event sleeper _ call auto sleeps =>
      have left : Exact (wfmoMutex ∘ library.wfmos)
          (update (CallAt.wfmoHeld ∘ library.calls) thread none) :=
        exact.keepHeld (congrArg CallAt.wfmoHeld call)
      have without : update (CallAt.wfmoHeld ∘ library.calls) thread none
          sleeper = none := by
        simp [update_apply, sleeps]
      simpa [comp_update] using left.keepHeld without
  | notifyAll call =>
      simpa [comp_update, CallAt.broadcast] using
        exact.keepHeld (congrArg CallAt.wfmoHeld call)

omit [DecidableEq Event] [DecidableEq Thread] in
theorem ne_of_gone {waiter other : Nat} {wfmo : Wfmo Thread}
    (gone : library.wfmos waiter = none)
    (found : library.wfmos other = some wfmo) : waiter ≠ other := by
  intro same
  rw [same, found] at gone
  cases gone

/-- A waiter is changed only where there is one, or it is the next to be
made. -/
theorem Locks.fresh_step (locks : library.Locks)
    (move : Move library action next) (waiter : Nat)
    (fresh : next.created ≤ waiter) : next.wfmos waiter = none := by
  have before := locks.fresh waiter
  cases move with
  | begin =>
      simp only [putWfmo, goTo, countCreated] at fresh ⊢
      rw [update_of_ne (by omega)]
      exact before (by omega)
  | fire call front found | expire call front found | remove call entry found
  | findAll call last found | findAny call last found
  | register call last found | wait call last found | relock call found
  | leave call found =>
      have gone := before (by simpa [fire] using fresh)
      simpa [fire, update_of_ne (ne_of_gone gone found)] using gone
  | @signal _ _ event =>
      cases auto : (library.events event).autoReset <;>
        simpa [signal, auto] using before (by simpa [signal, auto] using fresh)
  | _ => exact before fresh

omit [DecidableEq Event] [DecidableEq Thread] in
theorem Locks.ne_of_free (locks : library.Locks) {thread : Thread}
    {event changed : Event}
    (has : (library.calls thread).eventHeld = some event)
    (free : (library.events changed).mutex = none) : event ≠ changed := by
  rintro rfl
  have noted := (locks.events event thread).mpr has
  simp [free] at noted

omit [DecidableEq Event] [DecidableEq Thread] in
theorem Locks.ne_of_held (locks : library.Locks) {thread actor : Thread}
    {event changed : Event}
    (has : (library.calls thread).eventHeld = some event)
    (hasOther : (library.calls actor).eventHeld = some changed)
    (other : thread ≠ actor) : event ≠ changed := by
  rintro rfl
  exact other (locks.events.unique has hasOther)

/-- Only the thread that has the mutex of an event changes the event. -/
theorem Locks.untouched (locks : library.Locks)
    (move : Move library action next) {thread : Thread} {event : Event}
    (has : (library.calls thread).eventHeld = some event)
    (other : thread ≠ action.thread) :
    next.events event = library.events event := by
  cases move with
  | setEvent outside free | resetEvent outside free | take outside free
  | lock call listed free | riseTake call free =>
      simp [update_of_ne (locks.ne_of_free has free)]
  | endScan call | fire call | expire call | remove call | findAll call
  | findAny call | register call =>
      have apart := locks.ne_of_held has (congrArg CallAt.eventHeld call) other
      simp [fire, update_of_ne apart]
  | @signal _ _ changed _ call =>
      have apart := locks.ne_of_held has (congrArg CallAt.eventHeld call) other
      cases auto : (library.events changed).autoReset <;>
        simp [signal, auto, update_of_ne apart]
  | _ => rfl

/-- Another thread is in such a call of `SetEvent` since before the step. -/
theorem Sets.before (move : Move library action next) {thread : Thread}
    {event : Event} (other : thread ≠ action.thread)
    (sets : next.Sets thread event) : library.Sets thread event := by
  have signalled := calls_of_move move other
  rcases sets with setting | ⟨waiter, signalling, manual⟩
  · left
    rw [setting] at signalled
    exact signalled.eq_setting
  · right
    rw [autoReset_of_move move] at manual
    rw [signalling] at signalled
    exact ⟨waiter, signalled.eq_signalling, manual⟩

omit [DecidableEq Event] [DecidableEq Thread] in
theorem Sets.eventHeld_eq {thread : Thread} {event : Event}
    (sets : library.Sets thread event) :
    (library.calls thread).eventHeld = some event := by
  rcases sets with setting | ⟨waiter, signalling, -⟩
  · rw [setting]
    rfl
  · rw [signalling]
    rfl

/-- The thread that takes the step is in such a call of `SetEvent` after it:
with a manual-reset event the call goes on. -/
theorem Locks.sets_actor (locks : library.Locks)
    (move : Move library action next) {event : Event}
    (sets : next.Sets action.thread event) :
    (next.events event).state = true := by
  have same := autoReset_of_move move event
  cases move with
  | accessFreed => exact locks.sets _ _ sets
  | setEvent =>
      obtain rfl : _ = event := by simpa [Sets, Action.thread] using sets
      simp
  | expire call =>
      obtain rfl : _ = event := by simpa [Sets, Action.thread, call] using sets
      simpa using locks.sets _ _ (.inl call)
  | fire call =>
      simp only [Sets, same] at sets
      simp [fire, Action.thread] at sets
      obtain ⟨⟨waiter, rfl, rfl⟩, manual⟩ := sets
      simpa [fire, manual] using locks.sets _ _ (.inl call)
  | @signal _ _ changed waiter call =>
      cases auto : (library.events changed).autoReset with
      | true => simp [Sets, signal, auto, Action.thread] at sets
      | false =>
          obtain rfl : changed = event := by
            simpa [Sets, signal, auto, Action.thread] using sets
          simpa [signal, auto] using
            locks.sets _ _ (.inr ⟨waiter, call, auto⟩)
  | notifyOne call auto sleeps =>
      simp [Sets, Action.thread, update_apply] at sets
      split_ifs at sets <;> simp at sets
  | resetEvent call | take call | remove call | stay call =>
      simp [Sets, Action.thread, call] at sets
  | _ => simp [Sets, Action.thread, CallAt.broadcast] at sets

theorem Locks.sets_step (locks : library.Locks)
    (move : Move library action next) (thread : Thread) (event : Event)
    (sets : next.Sets thread event) : (next.events event).state = true := by
  by_cases acts : thread = action.thread
  · subst acts
    exact locks.sets_actor move sets
  · have before := sets.before move acts
    rw [locks.untouched move before.eventHeld_eq acts]
    exact locks.sets thread event before

theorem Locks.step (locks : library.Locks)
    (move : Move library action next) : next.Locks :=
  ⟨locks.events_step move, locks.wfmos_step move, locks.fresh_step move,
    locks.sets_step move⟩

omit [DecidableEq Event] [DecidableEq Thread] in
theorem start_locks (manualReset initialState : Event → Bool) :
    (start manualReset initialState : Library Thread Event).Locks := by
  constructor
  · intro event thread
    simp [start]
  · intro waiter thread
    simp [start, wfmoMutex]
  · intro waiter _
    rfl
  · intro thread event sets
    simp [Sets, start] at sets

end Library

end Neosmart
