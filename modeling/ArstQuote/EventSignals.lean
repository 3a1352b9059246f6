import ArstQuote.EventWaits

/-!
# The signals after the mutex

`SetEvent` signals a waiter after it has unlocked it, so the call that waits
could be back by then and the waiter deleted.  That is so after a timeout, and
for a wait for all events.  A wait for any event that only a signal ends stays
where it is until the one signal that it is waiting for.
-/

namespace Neosmart

open Function GuardedRuns

variable {Thread Event : Type*}

/-- The call waits for the condition of its waiter. -/
def CallAt.inWait : CallAt Event → Bool
  | .waiting _ => true
  | _ => false

namespace Library

/-- A call of `WaitForMultipleEvents` is for any of its events, and no wait of
one ends without a signal. -/
def EndsBySignal (library : Library Thread Event) :
    Action Thread Event → Prop
  | .waitForMultipleEvents _ _ waitAll _ => waitAll = false
  | .wake thread _ => (library.calls thread).inWait = false
  | _ => True

instance (library : Library Thread Event) :
    DecidablePred library.EndsBySignal := by
  intro action
  cases action <;> unfold EndsBySignal <;> infer_instance

/-- The waiter, as long as it exists, has stopped waiting. -/
def Over (library : Library Thread Event) (waiter : Nat) : Prop :=
  ∀ wfmo, library.wfmos waiter = some wfmo → wfmo.stillWaiting = false

/-- Where a thread is about to signal a waiter, the call that made it waits for
this signal and no other, and a call that is back from its wait has had one. -/
structure Prompt (library : Library Thread Event) : Prop where
  any : ∀ thread wait, (library.calls thread).wait? = some wait →
    wait.waitAll = false
  awaited : ∀ setter event waiter,
    library.calls setter = .signalling event waiter →
      library.Over waiter ∧ ∃ thread wait,
        library.calls thread = .waiting wait ∧ wait.wfmo = waiter
  single : ∀ setter other event otherEvent waiter,
    library.calls setter = .signalling event waiter →
      library.calls other = .signalling otherEvent waiter → setter = other
  back : ∀ thread wait timedOut,
    library.calls thread = .woken wait timedOut → library.Over wait.wfmo

variable [DecidableEq Event] [DecidableEq Thread]
  {library next : Library Thread Event} {action : Action Thread Event}

/-- A thread is about to signal the waiter that it has just found waiting, or it
was so before. -/
theorem signalling_before (move : Move library action next)
    {setter : Thread} {event : Event} {waiter : Nat}
    (signalling : next.calls setter = .signalling event waiter) :
    library.calls setter = .signalling event waiter ∨
      setter = action.thread ∧ library.calls setter = .setting event ∧
        ∃ info rest wfmo, info.waiter = waiter ∧
          library.wfmos waiter = some wfmo ∧ wfmo.mutex = none ∧
          wfmo.stillWaiting = true ∧
          next = library.fire setter event info rest wfmo := by
  by_cases acts : setter = action.thread
  case neg =>
    have signalled := calls_of_move move acts
    rw [signalling] at signalled
    exact .inl signalled.eq_signalling
  subst acts
  cases move with
  | @fire actor _ changed info rest wfmo call front found free still =>
      obtain ⟨rfl, rfl⟩ : changed = event ∧ info.waiter = waiter := by
        simpa [Action.thread, fire] using signalling
      exact .inr ⟨rfl, call, info, rest, wfmo, rfl, found, free, still, rfl⟩
  | accessFreed | resetEvent | stay | take | expire | remove =>
      exact .inl signalling
  | @signal _ _ changed =>
      cases auto : (library.events changed).autoReset <;>
        simp [Action.thread, signal, auto] at signalling
  | notifyOne =>
      simp only [goTo, Action.thread, update_apply] at signalling
      split_ifs at signalling
  | _ => simp [Action.thread, CallAt.broadcast] at signalling

/-- A call stays in its wait until it is woken or signalled. -/
theorem waiting_of_move (move : Move library action next) {thread : Thread}
    {wait : Wait Event} (waiting : library.calls thread = .waiting wait) :
    next.calls thread = .waiting wait ∨
      (∃ timedOut, action = .wake thread timedOut) ∨
      ∃ event, library.calls action.thread = .signalling event wait.wfmo ∧
        next = library.signal action.thread event wait.wfmo := by
  by_cases acts : thread = action.thread
  case pos =>
    subst acts
    cases move with
    | accessFreed => exact .inl waiting
    | wakeWaiter => exact .inr (.inl ⟨_, rfl⟩)
    | setEvent call | resetEvent call | stay call | take call | sleep call
    | begin call | endScan call | keepMutex call | fire call | expire call
    | signal call | notifyOne call | notifyNone call | notifyAll call
    | lock call | giveUp call | finish call | wait call | keep call
    | remove call | findAll call | findAny call | register call | relock call
    | waitAgain call | leave call | wakeSleeper call | riseLate call
    | riseTake call | sleepAgain call =>
        simp [Action.thread, call] at waiting
  cases move with
  | @signal actor _ event waiter call =>
      by_cases same : wait.wfmo = waiter
      · subst same
        exact .inr (.inr ⟨event, call, rfl⟩)
      · have stays : update ((CallAt.signalled waiter) ∘ library.calls) actor
            .outside thread = .waiting wait ∧
          update ((CallAt.signalled waiter) ∘ library.calls) actor
            (.setting event) thread = .waiting wait := by
          simp [update_of_ne (show thread ≠ actor from acts), waiting,
            CallAt.signalled, same]
        left
        cases auto : (library.events event).autoReset <;>
          simp [Library.signal, auto, stays]
  | @notifyOne actor event sleeper milliseconds call auto sleeps =>
      left
      have awake : thread ≠ sleeper := by
        rintro rfl
        simp [waiting] at sleeps
      simpa [update_of_ne awake,
        update_of_ne (show thread ≠ actor from acts)] using waiting
  | @notifyAll actor event =>
      left
      simp [update_of_ne (show thread ≠ actor from acts), waiting,
        CallAt.broadcast]
  | stay | accessFreed | resetEvent | take | expire | remove =>
      exact .inl waiting
  | @setEvent actor | @sleep actor | @begin actor | @endScan actor
  | @keepMutex actor | @fire actor | @notifyNone actor | @lock actor
  | @giveUp actor | @finish actor | @wait actor | @keep actor
  | @findAll actor | @findAny actor | @register actor | @wakeWaiter actor
  | @relock actor | @waitAgain actor | @leave actor | @wakeSleeper actor
  | @riseLate actor | @riseTake actor | @sleepAgain actor =>
      left
      simpa [fire, update_of_ne (show thread ≠ actor from acts)] using waiting

/-- A call is back from its wait as before, or it has just been woken or
signalled. -/
theorem woken_before (move : Move library action next) {thread : Thread}
    {wait : Wait Event} {timedOut : Bool}
    (woken : next.calls thread = .woken wait timedOut) :
    library.calls thread = .woken wait timedOut ∨
      library.calls thread = .waiting wait ∧
        ((∃ timedOut, action = .wake thread timedOut) ∨
          ∃ event, library.calls action.thread =
            .signalling event wait.wfmo) := by
  by_cases acts : thread = action.thread
  case neg =>
    have signalled := calls_of_move move acts
    rw [woken] at signalled
    generalize before : library.calls thread = call at signalled
    cases signalled with
    | same => exact .inl rfl
    | woken =>
        rcases waiting_of_move move before with
          stays | woke | ⟨event, call, -⟩
        · rw [woken] at stays
          cases stays
        · exact .inr ⟨rfl, .inl woke⟩
        · exact .inr ⟨rfl, .inr ⟨event, call⟩⟩
  subst acts
  cases move with
  | @wakeWaiter actor _ other call =>
      simp only [Action.thread, goTo, update_self] at woken
      cases woken
      exact .inr ⟨call, .inl ⟨_, rfl⟩⟩
  | accessFreed | resetEvent | stay | take | expire | remove =>
      exact .inl woken
  | @signal _ _ changed =>
      cases auto : (library.events changed).autoReset <;>
        simp [Action.thread, Library.signal, auto] at woken
  | notifyOne =>
      simp only [goTo, Action.thread, update_apply] at woken
      split_ifs at woken
  | _ => simp [Action.thread, fire, CallAt.broadcast] at woken

/-- Only the signal to a deleted waiter is one. -/
theorem signalledFreed_of_move (move : Move library action next)
    (before : library.signalledFreed = false) :
    next.signalledFreed = false ∨
      ∃ event waiter,
        library.calls action.thread = .signalling event waiter ∧
          library.wfmos waiter = none := by
  cases move with
  | @signal actor _ event waiter call =>
      cases found : library.wfmos waiter with
      | none => exact .inr ⟨event, waiter, call, found⟩
      | some wfmo =>
          left
          cases auto : (library.events event).autoReset <;>
            simp [Library.signal, auto, before, found]
  | _ => exact .inl before

/-- A waiter that has stopped waiting does not start again. -/
theorem Over.step {waiter : Nat} (stopped : library.Over waiter)
    (move : Move library action next) (old : waiter < library.created) :
    next.Over waiter := by
  intro wfmo found
  rcases wfmo_of_move move found with
    ⟨before, known, -, keeps⟩ | ⟨rfl, -⟩
  · by_contra still
    have stillBefore := keeps (by simpa using still)
    rw [stopped before known] at stillBefore
    cases stillBefore
  · exact absurd old (lt_irrefl _)

variable [Fintype Thread] [Fintype Event]

/-- The wait that a thread is about to signal is still there when it does. -/
theorem Prompt.exists_wfmo (prompt : library.Prompt) (sound : library.Sound)
    {setter : Thread} {event : Event} {waiter : Nat}
    (signalling : library.calls setter = .signalling event waiter) :
    ∃ wfmo, library.wfmos waiter = some wfmo := by
  obtain ⟨-, thread, wait, waiting, rfl⟩ :=
    prompt.awaited setter event waiter signalling
  exact sound.refers.wfmo_of_wait (congrArg CallAt.wait? waiting)

omit [Fintype Thread] [Fintype Event] in
theorem Prompt.any_step (prompt : library.Prompt)
    (ends : library.EndsBySignal action) (move : Move library action next)
    (thread : Thread) (wait : Wait Event)
    (waits : (next.calls thread).wait? = some wait) :
    wait.waitAll = false := by
  rcases wait_of_move move waits with
    ⟨before, waited, -, rest⟩ | ⟨rfl, -, -, -⟩
  · rw [rest]
    exact prompt.any thread before waited
  · exact ends

omit [DecidableEq Event] [DecidableEq Thread] in
/-- A waiter that is found waiting belongs to a call that waits for its
condition. -/
theorem Prompt.maker (prompt : library.Prompt) (sound : library.Sound)
    {waiter : Nat} {wfmo : Wfmo Thread}
    (found : library.wfmos waiter = some wfmo) (free : wfmo.mutex = none)
    (still : wfmo.stillWaiting = true) :
    ∃ thread wait, library.calls thread = .waiting wait ∧
      wait.wfmo = waiter ∧ wfmo.waitAll = false := by
  obtain ⟨thread, wait, waits, rfl⟩ := sound.refers.waited _ _ found still
  have unlocked := sound.unlocked waits found free
  have any := sound.refers.waitAll thread wait wfmo waits found
  rw [prompt.any thread wait waits] at any
  have waiting : library.calls thread = .waiting wait := by
    cases call : library.calls thread with
    | waiting other =>
        rw [call] at waits
        exact congrArg _ (Option.some.inj waits)
    | woken other timedOut =>
        rw [call] at waits
        obtain rfl := Option.some.inj waits
        have stopped := prompt.back thread other timedOut call wfmo found
        rw [still] at stopped
        cases stopped
    | _ => simp_all [CallAt.wait?]
  exact ⟨thread, wait, waiting, rfl, any⟩

theorem Prompt.awaited_step (prompt : library.Prompt) (sound : library.Sound)
    (ends : library.EndsBySignal action) (move : Move library action next)
    {setter : Thread} {event : Event} {waiter : Nat}
    (signalling : next.calls setter = .signalling event waiter) :
    next.Over waiter ∧ ∃ thread wait,
      next.calls thread = .waiting wait ∧ wait.wfmo = waiter := by
  rcases signalling_before move signalling with
    before | ⟨-, call, info, rest, wfmo, rfl, found, free, still, rfl⟩
  · obtain ⟨stopped, thread, wait, waiting, rfl⟩ :=
      prompt.awaited setter event _ before
    have old := sound.refers.lt_created sound.locks
      (congrArg CallAt.wait? waiting)
    refine ⟨stopped.step move old, thread, wait, ?_, rfl⟩
    rcases waiting_of_move move waiting with
      stays | ⟨timedOut, rfl⟩ | ⟨signalled, actor, rfl⟩
    · exact stays
    · simp [EndsBySignal, waiting, CallAt.inWait] at ends
    · -- The only thread that signals this wait would be done with it.
      obtain rfl := prompt.single _ _ _ _ _ before actor
      cases auto : (library.events signalled).autoReset <;>
        simp [Library.signal, auto] at signalling
  · obtain ⟨thread, wait, waiting, number, any⟩ :=
      prompt.maker sound found free still
    have other : thread ≠ setter := by
      rintro rfl
      simp [waiting] at call
    refine ⟨?_, thread, wait, ?_, number⟩
    · intro fired after
      rcases eq_some_of_update after with ⟨-, new⟩ | ⟨differs, -⟩
      · obtain rfl := Option.some.inj new
        simp [Wfmo.fired, any]
      · exact absurd rfl differs
    · simpa [fire, update_of_ne other] using waiting

omit [Fintype Thread] [Fintype Event] in
theorem Prompt.single_step (prompt : library.Prompt)
    (move : Move library action next) {setter other : Thread}
    {event otherEvent : Event} {waiter : Nat}
    (signalling : next.calls setter = .signalling event waiter)
    (otherSignalling : next.calls other = .signalling otherEvent waiter) :
    setter = other := by
  rcases signalling_before move signalling with
    before | ⟨rfl, -, -, -, wfmo, -, found, -, still, -⟩ <;>
  rcases signalling_before move otherSignalling with
    otherBefore | ⟨rfl, -, -, -, otherWfmo, -, otherFound, -, otherStill, -⟩
  · exact prompt.single _ _ _ _ _ before otherBefore
  · have stopped := (prompt.awaited _ _ _ before).1 otherWfmo otherFound
    rw [otherStill] at stopped
    cases stopped
  · have stopped := (prompt.awaited _ _ _ otherBefore).1 wfmo found
    rw [still] at stopped
    cases stopped
  · rfl

theorem Prompt.back_step (prompt : library.Prompt) (sound : library.Sound)
    (ends : library.EndsBySignal action) (move : Move library action next)
    {thread : Thread} {wait : Wait Event} {timedOut : Bool}
    (woken : next.calls thread = .woken wait timedOut) :
    next.Over wait.wfmo := by
  rcases woken_before move woken with
    before | ⟨waiting, ⟨byTime, rfl⟩ | ⟨event, signalling⟩⟩
  · have old := sound.refers.lt_created sound.locks
      (congrArg CallAt.wait? before)
    exact (prompt.back thread wait timedOut before).step move old
  · simp [EndsBySignal, waiting, CallAt.inWait] at ends
  · have old := sound.refers.lt_created sound.locks
      (congrArg CallAt.wait? waiting)
    exact (prompt.awaited _ _ _ signalling).1.step move old

theorem Prompt.step (prompt : library.Prompt) (sound : library.Sound)
    (ends : library.EndsBySignal action) (move : Move library action next) :
    next.Prompt where
  any := prompt.any_step ends move
  awaited _ _ _ signalling := prompt.awaited_step sound ends move signalling
  single _ _ _ _ _ signalling otherSignalling :=
    prompt.single_step move signalling otherSignalling
  back _ _ _ woken := prompt.back_step sound ends move woken

/-- The signals so far were for waiters that are there, and so are those to
come. -/
structure Signals (library : Library Thread Event) : Prop where
  sound : library.Sound
  prompt : library.Prompt
  unused : library.signalledFreed = false

theorem Signals.step (signals : library.Signals)
    (ends : library.EndsBySignal action)
    (stepTo : libraryStep library action = some next) : next.Signals := by
  have move := move_of_step stepTo
  refine ⟨signals.sound.step stepTo,
    signals.prompt.step signals.sound ends move, ?_⟩
  rcases signalledFreed_of_move move signals.unused with
    unused | ⟨event, waiter, signalling, gone⟩
  · exact unused
  · obtain ⟨wfmo, found⟩ :=
      signals.prompt.exists_wfmo signals.sound signalling
    rw [gone] at found
    cases found

omit [DecidableEq Event] [DecidableEq Thread] in
theorem start_signals (manualReset initialState : Event → Bool) :
    (start manualReset initialState : Library Thread Event).Signals :=
  ⟨start_sound _ _, ⟨by simp [start, CallAt.wait?], by simp [start],
    by simp [start], by simp [start]⟩, rfl⟩

end Library

/-- If every call of `WaitForMultipleEvents` is for any of its events and waits
until it is signalled, then `SetEvent` signals no waiter that was deleted. -/
theorem signals_safe [DecidableEq Event] [DecidableEq Thread]
    [Fintype Thread] [Fintype Event]
    (manualReset initialState : Event → Bool)
    (actions : List (Action Thread Event))
    (ends : MeetsAlong libraryStep Library.EndsBySignal
      (.start manualReset initialState) actions) :
    HoldsAlong libraryStep (fun library => library.signalledFreed = false)
      (.start manualReset initialState) actions := by
  apply holdsAlong_of_meetsAlong _ _
    (Library.start_signals manualReset initialState) ends
  · exact fun library signals => signals.unused
  · exact fun before action after signals ends stepTo =>
      signals.step ends stepTo

/-- One thread waits without end for one of two events until another sets the
second of them. -/
theorem signals_safe_of_wait :
    HoldsAlong libraryStep
      (fun library : Library Bool Bool => library.signalledFreed = false)
      (.start (fun _ => false) fun _ => false)
      [.waitForMultipleEvents false [false, true] false infinite,
        .proceed false false, .proceed false false, .proceed false false,
        .proceed false false, .proceed false false, .setEvent true true,
        .proceed true false, .proceed true false, .proceed false false,
        .proceed false false] :=
  signals_safe _ _ _ (by decide)

/-- With a time the wait can be over between the mutex and the signal. -/
example : (execute libraryStep
    (.start (fun _ => false) fun _ => false : Library Bool Unit)
    [.waitForMultipleEvents false [()] false 5, .proceed false false,
      .proceed false false, .proceed false false, .setEvent true (),
      .proceed true false, .wake false true, .proceed false false,
      .proceed false false, .proceed true false]).map
        Library.signalledFreed = some true := by
  decide

/-- So can a wait for all events, which a second signal ends before the
first. -/
example : (execute libraryStep
    (.start (fun _ => false) fun _ => false : Library (Fin 3) Bool)
    [.waitForMultipleEvents 0 [false, true] true infinite, .proceed 0 false,
      .proceed 0 false, .proceed 0 false, .proceed 0 false, .proceed 0 false,
      .setEvent 1 false, .proceed 1 false, .setEvent 2 true,
      .proceed 2 false, .proceed 2 false, .proceed 0 false, .proceed 0 false,
      .proceed 1 false]).map Library.signalledFreed = some true := by
  decide

end Neosmart
