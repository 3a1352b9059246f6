import ArstQuote.EventLibrary

/-!
# What the event library can do

Everything that one action can do to the events, the waiters and the calls.
Each invariant of the library is proved by cases on this.
-/

namespace Neosmart

open Function GuardedRuns

variable {Thread Event : Type*}

/-- The wait of a thread that has a waiter. -/
def CallAt.wait? : CallAt Event → Option (Wait Event)
  | .registering wait | .cleaning wait _ _ | .waiting wait | .woken wait _
  | .leaving wait _ => some wait
  | .outside | .setting _ | .signalling _ _ | .notifying _ | .sleeping _ _
  | .risen _ _ _ => none

/-- The thread refers to the waiter, or an event does where it is
registered. -/
def Library.RefersTo (library : Library Thread Event) (waiter : Nat) : Prop :=
  (∃ event, ∃ info ∈ (library.events event).registeredWaits,
    info.waiter = waiter) ∨
  ∃ thread wait, (library.calls thread).wait? = some wait ∧
    wait.wfmo = waiter

def Action.thread : Action Thread Event → Thread
  | .setEvent thread _ | .resetEvent thread _ | .waitForEvent thread _ _
  | .waitForMultipleEvents thread _ _ _ | .proceed thread _
  | .notify thread _ | .wake thread _ => thread

/-- What can happen to a call while another thread takes a step. -/
inductive CallAt.Signalled : CallAt Event → CallAt Event → Prop
  | same {call} : Signalled call call
  | woken {wait} : Signalled (.waiting wait) (.woken wait false)
  | risen {event milliseconds} :
      Signalled (.sleeping event milliseconds)
        (.risen event milliseconds false)

theorem CallAt.Signalled.wait?_eq {before after : CallAt Event}
    (signalled : before.Signalled after) : after.wait? = before.wait? := by
  cases signalled <;> rfl

theorem CallAt.Signalled.eq_setting {before : CallAt Event} {event : Event}
    (signalled : before.Signalled (.setting event)) :
    before = .setting event := by
  cases signalled
  rfl

theorem CallAt.Signalled.eq_signalling {before : CallAt Event} {event : Event}
    {waiter : Nat} (signalled : before.Signalled (.signalling event waiter)) :
    before = .signalling event waiter := by
  cases signalled
  rfl

theorem CallAt.Signalled.eq_waiting {before : CallAt Event}
    {wait : Wait Event} (signalled : before.Signalled (.waiting wait)) :
    before = .waiting wait := by
  cases signalled
  rfl

theorem CallAt.Signalled.eq_sleeping {before : CallAt Event} {event : Event}
    {milliseconds : UInt64}
    (signalled : before.Signalled (.sleeping event milliseconds)) :
    before = .sleeping event milliseconds := by
  cases signalled
  rfl

/-- Only waits for a condition can be signalled. -/
theorem CallAt.Signalled.eq_self {before after : CallAt Event}
    (signalled : before.Signalled after)
    (awake : ∀ wait, before ≠ .waiting wait)
    (up : ∀ event milliseconds, before ≠ .sleeping event milliseconds) :
    after = before := by
  cases signalled with
  | same => rfl
  | woken => exact absurd rfl (awake _)
  | risen => exact absurd rfl (up _ _)

variable [DecidableEq Event] [DecidableEq Thread]

/-- The steps by what they do.  Any access to a deleted waiter is one of them,
whichever step makes it. -/
inductive Move (library : Library Thread Event) :
    Action Thread Event → Library Thread Event → Prop
  | setEvent {thread event}
      (outside : library.calls thread = .outside)
      (free : (library.events event).mutex = none) :
      Move library (.setEvent thread event)
        (((library.putEvent event { library.events event with
          mutex := some thread
          state := true }).goTo thread (.setting event)).countSet event)
  | resetEvent {thread event}
      (outside : library.calls thread = .outside)
      (free : (library.events event).mutex = none) :
      Move library (.resetEvent thread event)
        (library.putEvent event { library.events event with state := false })
  | stay {thread event milliseconds}
      (outside : library.calls thread = .outside) :
      Move library (.waitForEvent thread event milliseconds) library
  | take {thread event milliseconds}
      (outside : library.calls thread = .outside)
      (free : (library.events event).mutex = none)
      (state : (library.events event).state = true) :
      Move library (.waitForEvent thread event milliseconds)
        ((library.putEvent event (library.events event).taken).acquire event
          none)
  | sleep {thread event milliseconds}
      (outside : library.calls thread = .outside)
      (free : (library.events event).mutex = none)
      (reset : (library.events event).state = false) :
      Move library (.waitForEvent thread event milliseconds)
        (library.goTo thread (.sleeping event milliseconds))
  | begin {thread events waitAll milliseconds}
      (outside : library.calls thread = .outside) :
      Move library (.waitForMultipleEvents thread events waitAll milliseconds)
        (((library.putWfmo library.created (some {
          mutex := some thread
          refCount := 1
          status := if waitAll then events.length else -1
          waitAll := waitAll
          stillWaiting := true })).goTo thread (.registering
            ⟨library.created, events, waitAll, milliseconds, 0⟩)).countCreated)
  | accessFreed {thread busy waiter}
      (gone : library.wfmos waiter = none)
      (refers : library.RefersTo waiter) :
      Move library (.proceed thread busy) library.accessFreed
  | endScan {thread busy event}
      (call : library.calls thread = .setting event)
      (empty : (library.events event).registeredWaits = [])
      (state : (library.events event).autoReset = true →
        (library.events event).state = true) :
      Move library (.proceed thread busy)
        ((library.putEvent event { library.events event with
          mutex := none
          registeredWaits := [] }).goTo thread (.notifying event))
  | keepMutex {thread busy event}
      (call : library.calls thread = .setting event)
      (empty : (library.events event).registeredWaits = [])
      (auto : (library.events event).autoReset = true)
      (reset : (library.events event).state = false) :
      Move library (.proceed thread busy) (library.goTo thread .outside)
  | fire {thread busy event info rest wfmo}
      (call : library.calls thread = .setting event)
      (front : (library.events event).registeredWaits = info :: rest)
      (found : library.wfmos info.waiter = some wfmo)
      (free : wfmo.mutex = none) (still : wfmo.stillWaiting = true) :
      Move library (.proceed thread busy)
        (library.fire thread event info rest wfmo)
  | expire {thread busy event info rest wfmo}
      (call : library.calls thread = .setting event)
      (front : (library.events event).registeredWaits = info :: rest)
      (found : library.wfmos info.waiter = some wfmo)
      (free : wfmo.mutex = none) (expired : wfmo.stillWaiting = false) :
      Move library (.proceed thread busy)
        ((library.putEvent event { library.events event with
          registeredWaits := rest }).drop info.waiter wfmo)
  | signal {thread busy event waiter}
      (call : library.calls thread = .signalling event waiter) :
      Move library (.proceed thread busy)
        (library.signal thread event waiter)
  | notifyOne {thread event sleeper milliseconds}
      (call : library.calls thread = .notifying event)
      (auto : (library.events event).autoReset = true)
      (sleeps : library.calls sleeper = .sleeping event milliseconds) :
      Move library (.notify thread (some sleeper))
        ((library.goTo thread .outside).goTo sleeper
          (.risen event milliseconds false))
  | notifyNone {thread event}
      (call : library.calls thread = .notifying event)
      (auto : (library.events event).autoReset = true)
      (nobody : ∀ other, (library.calls other).sleepsOn event = false) :
      Move library (.notify thread none) (library.goTo thread .outside)
  | notifyAll {thread event chosen}
      (call : library.calls thread = .notifying event)
      (manual : (library.events event).autoReset = false) :
      Move library (.notify thread chosen)
        ((library.goTo thread .outside).mapCalls (.broadcast event))
  | lock {thread busy wait event}
      (call : library.calls thread = .registering wait)
      (next : wait.events[wait.i]? = some event)
      (free : (library.events event).mutex = none) :
      Move library (.proceed thread busy)
        ((library.putEvent event { library.events event with
          mutex := some thread }).goTo thread (.cleaning wait event 0))
  | giveUp {thread busy wait}
      (call : library.calls thread = .registering wait)
      (last : wait.events.length ≤ wait.i)
      (now : wait.milliseconds = 0) :
      Move library (.proceed thread busy)
        (library.goTo thread (.leaving wait true))
  | finish {thread busy wait wfmo}
      (call : library.calls thread = .registering wait)
      (last : wait.events.length ≤ wait.i)
      (found : library.wfmos wait.wfmo = some wfmo)
      (done : wfmo.done = true) :
      Move library (.proceed thread busy)
        (library.goTo thread (.leaving wait false))
  | wait {thread busy wait wfmo}
      (call : library.calls thread = .registering wait)
      (last : wait.events.length ≤ wait.i)
      (found : library.wfmos wait.wfmo = some wfmo)
      (undone : wfmo.done = false) :
      Move library (.proceed thread busy)
        ((library.putWfmo wait.wfmo (some { wfmo with
          mutex := none })).goTo thread (.waiting wait))
  | keep {thread busy wait event position info wfmo}
      (call : library.calls thread = .cleaning wait event position)
      (entry : (library.events event).registeredWaits[position]? = some info)
      (found : library.wfmos info.waiter = some wfmo)
      (kept : busy = true ∨ wfmo.mutex = none ∧ wfmo.stillWaiting = true) :
      Move library (.proceed thread busy)
        (library.goTo thread (.cleaning wait event (position + 1)))
  | remove {thread busy wait event position info wfmo}
      (call : library.calls thread = .cleaning wait event position)
      (entry : (library.events event).registeredWaits[position]? = some info)
      (found : library.wfmos info.waiter = some wfmo)
      (free : wfmo.mutex = none) (expired : wfmo.stillWaiting = false) :
      Move library (.proceed thread busy)
        ((library.putEvent event { library.events event with
          registeredWaits :=
            (library.events event).registeredWaits.eraseIdx position }).drop
          info.waiter wfmo)
  | findAll {thread busy wait event position wfmo}
      (call : library.calls thread = .cleaning wait event position)
      (last : (library.events event).registeredWaits.length ≤ position)
      (found : library.wfmos wait.wfmo = some wfmo)
      (state : (library.events event).state = true)
      (all : wait.waitAll = true) :
      Move library (.proceed thread busy)
        (((((library.putEvent event { (library.events event).taken with
          mutex := none }).putWfmo wait.wfmo
            (some (wfmo.found wait.i))).goTo thread
              (.registering { wait with i := wait.i + 1 })).acquire event
                (some ⟨wait.wfmo, wait.i⟩)).assert
          (wfmo.found wait.i).countsDown)
  | findAny {thread busy wait event position wfmo}
      (call : library.calls thread = .cleaning wait event position)
      (last : (library.events event).registeredWaits.length ≤ position)
      (found : library.wfmos wait.wfmo = some wfmo)
      (state : (library.events event).state = true)
      (any : wait.waitAll = false) :
      Move library (.proceed thread busy)
        (((((library.putEvent event { (library.events event).taken with
          mutex := none }).putWfmo wait.wfmo
            (some (wfmo.found wait.i))).goTo thread
              (.leaving wait false)).acquire event
                (some ⟨wait.wfmo, wait.i⟩)).assert
          (wfmo.found wait.i).countsDown)
  | register {thread busy wait event position wfmo}
      (call : library.calls thread = .cleaning wait event position)
      (last : (library.events event).registeredWaits.length ≤ position)
      (found : library.wfmos wait.wfmo = some wfmo)
      (reset : (library.events event).state = false) :
      Move library (.proceed thread busy)
        (((library.putEvent event { library.events event with
          mutex := none
          registeredWaits := (library.events event).registeredWaits ++
            [⟨wait.wfmo, wait.i⟩] }).putWfmo wait.wfmo (some { wfmo with
              refCount := wfmo.refCount + 1 })).goTo thread
                (.registering { wait with i := wait.i + 1 }))
  | wakeWaiter {thread timedOut wait}
      (call : library.calls thread = .waiting wait)
      (ends : timedOut = true → wait.milliseconds ≠ infinite) :
      Move library (.wake thread timedOut)
        (library.goTo thread (.woken wait timedOut))
  | relock {thread busy wait timedOut wfmo}
      (call : library.calls thread = .woken wait timedOut)
      (found : library.wfmos wait.wfmo = some wfmo)
      (free : wfmo.mutex = none)
      (due : timedOut = true ∨ wfmo.done = true) :
      Move library (.proceed thread busy)
        ((library.putWfmo wait.wfmo (some { wfmo with
          mutex := some thread })).goTo thread (.leaving wait timedOut))
  | waitAgain {thread busy wait wfmo}
      (call : library.calls thread = .woken wait false)
      (found : library.wfmos wait.wfmo = some wfmo)
      (undone : wfmo.done = false) :
      Move library (.proceed thread busy)
        (library.goTo thread (.waiting wait))
  | leave {thread busy wait timedOut wfmo}
      (call : library.calls thread = .leaving wait timedOut)
      (found : library.wfmos wait.wfmo = some wfmo) :
      Move library (.proceed thread busy)
        (((library.drop wait.wfmo { wfmo with
          stillWaiting := false }).goTo thread .outside).giveBack
            ⟨wait, timedOut, wfmo.status⟩)
  | wakeSleeper {thread timedOut event milliseconds}
      (call : library.calls thread = .sleeping event milliseconds) :
      Move library (.wake thread timedOut)
        (library.goTo thread (.risen event milliseconds timedOut))
  | riseLate {thread busy event milliseconds}
      (call : library.calls thread = .risen event milliseconds true)
      (free : (library.events event).mutex = none) :
      Move library (.proceed thread busy) (library.goTo thread .outside)
  | riseTake {thread busy event milliseconds}
      (call : library.calls thread = .risen event milliseconds false)
      (free : (library.events event).mutex = none)
      (state : (library.events event).state = true) :
      Move library (.proceed thread busy)
        (((library.putEvent event (library.events event).taken).goTo thread
          .outside).acquire event none)
  | sleepAgain {thread busy event milliseconds}
      (call : library.calls thread = .risen event milliseconds false)
      (free : (library.events event).mutex = none)
      (reset : (library.events event).state = false) :
      Move library (.proceed thread busy)
        (library.goTo thread (.sleeping event milliseconds))

omit [DecidableEq Event] [DecidableEq Thread] in
theorem CallAt.signalled_signalled (waiter : Nat) (call : CallAt Event) :
    call.Signalled (call.signalled waiter) := by
  cases call with
  | waiting wait =>
      simp only [CallAt.signalled]
      split
      · exact .woken
      · exact .same
  | _ => exact .same

omit [DecidableEq Thread] in
theorem CallAt.signalled_broadcast (event : Event) (call : CallAt Event) :
    call.Signalled (call.broadcast event) := by
  cases call with
  | sleeping slept milliseconds =>
      simp only [CallAt.broadcast]
      split
      · exact .risen
      · exact .same
  | _ => exact .same

namespace Library

variable {library next : Library Thread Event} {thread : Thread}
  {busy : Bool}

omit [DecidableEq Thread] in
theorem sleepsOn_iff {call : CallAt Event} {event : Event} :
    call.sleepsOn event = true ↔
      ∃ milliseconds, call = .sleeping event milliseconds := by
  cases call <;> simp [CallAt.sleepsOn]

omit [DecidableEq Event] [DecidableEq Thread] in
/-- What is done with a waiter is done to one that is there, or a deleted one is
accessed. -/
theorem onWfmo_cases {waiter : Nat}
    {use : Wfmo Thread → Option (Library Thread Event)}
    (stepTo : library.onWfmo waiter use = some next) :
    (library.wfmos waiter = none ∧ next = library.accessFreed) ∨
      ∃ wfmo, library.wfmos waiter = some wfmo ∧ use wfmo = some next := by
  cases found : library.wfmos waiter with
  | none =>
      simp only [onWfmo, found, Option.some.injEq] at stepTo
      exact .inl ⟨rfl, stepTo.symm⟩
  | some wfmo =>
      simp only [onWfmo, found] at stepTo
      exact .inr ⟨wfmo, rfl, stepTo⟩

omit [DecidableEq Event] [DecidableEq Thread] in
theorem refersTo_of_wait {wait : Wait Event}
    (call : (library.calls thread).wait? = some wait) :
    library.RefersTo wait.wfmo :=
  .inr ⟨thread, wait, call, rfl⟩

omit [DecidableEq Event] [DecidableEq Thread] in
theorem refersTo_of_mem {event : Event} {info : WfmoInfo}
    (member : info ∈ (library.events event).registeredWaits) :
    library.RefersTo info.waiter :=
  .inl ⟨event, info, member, rfl⟩

theorem move_of_scan {event : Event}
    (call : library.calls thread = .setting event)
    (stepTo : library.scan thread event = some next) :
    Move library (.proceed thread busy) next := by
  cases entries : (library.events event).registeredWaits with
  | nil =>
      simp only [scan, entries] at stepTo
      split_ifs at stepTo with stuck
      · obtain rfl := Option.some.inj stepTo
        simp only [Bool.and_eq_true, Bool.not_eq_true'] at stuck
        exact .keepMutex call entries stuck.1 stuck.2
      · obtain rfl := Option.some.inj stepTo
        apply Move.endScan call entries
        intro auto
        simpa [auto] using stuck
  | cons info rest =>
      simp only [scan, entries] at stepTo
      have member : info ∈ (library.events event).registeredWaits := by
        simp [entries]
      rcases onWfmo_cases stepTo with ⟨gone, rfl⟩ | ⟨wfmo, found, use⟩
      · exact .accessFreed gone (refersTo_of_mem member)
      · split_ifs at use with locked still
        · obtain rfl := Option.some.inj use
          exact .fire call entries found (by simpa using locked) still
        · obtain rfl := Option.some.inj use
          exact .expire call entries found (by simpa using locked)
            (by simpa using still)

theorem move_of_lockNext {wait : Wait Event}
    (call : library.calls thread = .registering wait)
    (stepTo : library.lockNext thread wait = some next) :
    Move library (.proceed thread busy) next := by
  cases entry : wait.events[wait.i]? with
  | some event =>
      simp only [lockNext, entry] at stepTo
      split_ifs at stepTo with locked
      obtain rfl := Option.some.inj stepTo
      exact .lock call entry (by simpa using locked)
  | none =>
      have last := List.getElem?_eq_none_iff.mp entry
      simp only [lockNext, entry] at stepTo
      split_ifs at stepTo with now
      · obtain rfl := Option.some.inj stepTo
        exact .giveUp call last now
      · rcases onWfmo_cases stepTo with ⟨gone, rfl⟩ | ⟨wfmo, found, use⟩
        · exact .accessFreed gone (refersTo_of_wait (by rw [call]; rfl))
        · split_ifs at use with done
          · obtain rfl := Option.some.inj use
            exact .finish call last found done
          · obtain rfl := Option.some.inj use
            exact .wait call last found (by simpa using done)

theorem move_of_look {wait : Wait Event} {event : Event} {position : Nat}
    (call : library.calls thread = .cleaning wait event position)
    (last : (library.events event).registeredWaits.length ≤ position)
    (stepTo : library.look thread wait event = some next) :
    Move library (.proceed thread busy) next := by
  rcases onWfmo_cases stepTo with ⟨gone, rfl⟩ | ⟨wfmo, found, use⟩
  · exact .accessFreed gone (refersTo_of_wait (by rw [call]; rfl))
  · split_ifs at use with state all
    · obtain rfl := Option.some.inj use
      exact .findAll call last found state all
    · obtain rfl := Option.some.inj use
      exact .findAny call last found state (by simpa using all)
    · obtain rfl := Option.some.inj use
      exact .register call last found (by simpa using state)

theorem move_of_clean {wait : Wait Event} {event : Event} {position : Nat}
    (call : library.calls thread = .cleaning wait event position)
    (stepTo : library.clean thread wait event position busy = some next) :
    Move library (.proceed thread busy) next := by
  cases entry : (library.events event).registeredWaits[position]? with
  | none =>
      simp only [clean, entry] at stepTo
      exact move_of_look call (List.getElem?_eq_none_iff.mp entry) stepTo
  | some info =>
      simp only [clean, entry] at stepTo
      rcases onWfmo_cases stepTo with ⟨gone, rfl⟩ | ⟨wfmo, found, use⟩
      · exact .accessFreed gone
          (refersTo_of_mem (List.mem_of_getElem? entry))
      · split_ifs at use with isBusy locked still
        · obtain rfl := Option.some.inj use
          exact .keep call entry found (.inl isBusy)
        · obtain rfl := Option.some.inj use
          exact .keep call entry found (.inr ⟨by simpa using locked, still⟩)
        · obtain rfl := Option.some.inj use
          exact .remove call entry found (by simpa using locked)
            (by simpa using still)

theorem move_of_relock {wait : Wait Event} {timedOut : Bool}
    (call : library.calls thread = .woken wait timedOut)
    (stepTo : library.relock thread wait timedOut = some next) :
    Move library (.proceed thread busy) next := by
  rcases onWfmo_cases stepTo with ⟨gone, rfl⟩ | ⟨wfmo, found, use⟩
  · exact .accessFreed gone (refersTo_of_wait (by rw [call]; rfl))
  · split_ifs at use with locked due
    · obtain rfl := Option.some.inj use
      exact .relock call found (by simpa using locked) (by simpa using due)
    · obtain rfl := Option.some.inj use
      simp only [Bool.or_eq_true, not_or, Bool.not_eq_true] at due
      obtain ⟨rfl, undone⟩ := due
      exact .waitAgain call found undone

theorem move_of_leave {wait : Wait Event} {timedOut : Bool}
    (call : library.calls thread = .leaving wait timedOut)
    (stepTo : library.leave thread wait timedOut = some next) :
    Move library (.proceed thread busy) next := by
  rcases onWfmo_cases stepTo with ⟨gone, rfl⟩ | ⟨wfmo, found, use⟩
  · exact .accessFreed gone (refersTo_of_wait (by rw [call]; rfl))
  · obtain rfl := Option.some.inj use
    exact .leave call found

theorem move_of_rise {event : Event} {milliseconds : UInt64}
    {timedOut : Bool}
    (call : library.calls thread = .risen event milliseconds timedOut)
    (stepTo : library.rise thread event milliseconds timedOut = some next) :
    Move library (.proceed thread busy) next := by
  simp only [rise] at stepTo
  split_ifs at stepTo with locked late state
  · obtain rfl := Option.some.inj stepTo
    exact .riseLate (late ▸ call) (by simpa using locked)
  · obtain rfl := Option.some.inj stepTo
    obtain rfl : timedOut = false := by simpa using late
    exact .riseTake call (by simpa using locked) state
  · obtain rfl := Option.some.inj stepTo
    obtain rfl : timedOut = false := by simpa using late
    exact .sleepAgain call (by simpa using locked) (by simpa using state)

theorem move_of_proceed
    (stepTo : library.proceed thread busy = some next) :
    Move library (.proceed thread busy) next := by
  unfold proceed at stepTo
  split at stepTo
  case h_1 event call => exact move_of_scan call stepTo
  case h_2 event waiter call =>
    obtain rfl := Option.some.inj stepTo
    exact .signal call
  case h_3 wait call => exact move_of_lockNext call stepTo
  case h_4 wait event position call => exact move_of_clean call stepTo
  case h_5 wait timedOut call => exact move_of_relock call stepTo
  case h_6 wait timedOut call => exact move_of_leave call stepTo
  case h_7 event milliseconds timedOut call => exact move_of_rise call stepTo
  all_goals cases stepTo

theorem move_of_wake {timedOut : Bool}
    (stepTo : library.wake thread timedOut = some next) :
    Move library (.wake thread timedOut) next := by
  unfold wake at stepTo
  split at stepTo
  case h_1 wait call =>
    split_ifs at stepTo with endless
    obtain rfl := Option.some.inj stepTo
    apply Move.wakeWaiter call
    intro late
    simpa [late] using endless
  case h_2 event milliseconds call =>
    split_ifs at stepTo
    obtain rfl := Option.some.inj stepTo
    exact .wakeSleeper call
  case h_3 => cases stepTo

theorem move_of_notify [Fintype Thread] {chosen : Option Thread}
    (stepTo : library.notify thread chosen = some next) :
    Move library (.notify thread chosen) next := by
  unfold notify at stepTo
  split at stepTo
  case h_1 event call =>
    simp only at stepTo
    cases auto : (library.events event).autoReset with
    | true =>
        rw [if_pos auto] at stepTo
        cases chosen with
        | some sleeper =>
            simp only [Option.ite_none_right_eq_some] at stepTo
            obtain ⟨sleeps, stepTo⟩ := stepTo
            obtain ⟨milliseconds, sleeping⟩ := sleepsOn_iff.mp sleeps
            obtain rfl := Option.some.inj stepTo
            simp only [sleeping, CallAt.broadcast, if_true]
            exact .notifyOne call auto sleeping
        | none =>
            simp only [Option.ite_none_right_eq_some] at stepTo
            obtain ⟨nobody, stepTo⟩ := stepTo
            obtain rfl := Option.some.inj stepTo
            exact .notifyNone call auto nobody
    | false =>
        rw [if_neg (by simp [auto])] at stepTo
        obtain rfl := Option.some.inj stepTo
        exact .notifyAll call auto
  case h_2 => cases stepTo

theorem move_of_waitForEvent {event : Event} {milliseconds : UInt64}
    (stepTo : library.waitForEvent thread event milliseconds = some next) :
    Move library (.waitForEvent thread event milliseconds) next := by
  simp only [waitForEvent] at stepTo
  split_ifs at stepTo with outside locked now state now
  · obtain rfl := Option.some.inj stepTo
    exact .stay outside
  · obtain rfl := Option.some.inj stepTo
    exact .take outside (by simpa using locked) state
  · obtain rfl := Option.some.inj stepTo
    exact .stay outside
  · obtain rfl := Option.some.inj stepTo
    exact .sleep outside (by simpa using locked) (by simpa using state)

/-- Every step is one of the moves. -/
theorem move_of_step [Fintype Thread] {action : Action Thread Event}
    (stepTo : libraryStep library action = some next) :
    Move library action next := by
  cases action with
  | setEvent thread event =>
      simp only [libraryStep, setEvent, Option.ite_none_right_eq_some] at stepTo
      obtain ⟨⟨outside, free⟩, rest⟩ := stepTo
      obtain rfl := Option.some.inj rest
      exact .setEvent outside free
  | resetEvent thread event =>
      simp only [libraryStep, resetEvent,
        Option.ite_none_right_eq_some] at stepTo
      obtain ⟨⟨outside, free⟩, rest⟩ := stepTo
      obtain rfl := Option.some.inj rest
      exact .resetEvent outside free
  | waitForEvent thread event milliseconds =>
      exact move_of_waitForEvent stepTo
  | waitForMultipleEvents thread events waitAll milliseconds =>
      simp only [libraryStep, waitForMultipleEvents,
        Option.ite_none_right_eq_some] at stepTo
      obtain ⟨outside, rest⟩ := stepTo
      obtain rfl := Option.some.inj rest
      exact .begin outside
  | proceed thread busy => exact move_of_proceed stepTo
  | notify thread chosen => exact move_of_notify stepTo
  | wake thread timedOut => exact move_of_wake stepTo

/-- A step of one thread can end the waits of others for a condition. -/
theorem calls_of_move {action : Action Thread Event}
    (move : Move library action next) (other : thread ≠ action.thread) :
    (library.calls thread).Signalled (next.calls thread) := by
  cases move with
  | @signal actor _ event waiter =>
      have signalled :=
        CallAt.signalled_signalled waiter (library.calls thread)
      cases auto : (library.events event).autoReset <;>
        simpa [signal, auto, update_of_ne (show thread ≠ actor from other)]
          using signalled
  | @notifyOne actor event sleeper milliseconds call auto sleeps =>
      by_cases same : thread = sleeper
      · subst same
        simpa [sleeps] using CallAt.Signalled.risen
      · simpa [update_of_ne same,
          update_of_ne (show thread ≠ actor from other)] using .same
  | @notifyAll actor event =>
      simpa [update_of_ne (show thread ≠ actor from other)] using
        CallAt.signalled_broadcast event (library.calls thread)
  | stay | accessFreed | resetEvent | take | expire | remove => exact .same
  | @setEvent actor | @sleep actor | @begin actor | @endScan actor
  | @keepMutex actor | @fire actor | @notifyNone actor | @lock actor
  | @giveUp actor | @finish actor | @wait actor | @keep actor
  | @findAll actor | @findAny actor | @register actor | @wakeWaiter actor
  | @relock actor | @waitAgain actor | @leave actor | @wakeSleeper actor
  | @riseLate actor | @riseTake actor | @sleepAgain actor =>
      simpa [fire, update_of_ne (show thread ≠ actor from other)] using .same

/-- No step turns an auto-reset event into a manual-reset one. -/
theorem autoReset_of_move {action : Action Thread Event}
    (move : Move library action next) (event : Event) :
    (next.events event).autoReset = (library.events event).autoReset := by
  cases move with
  | @setEvent _ changed | @resetEvent _ changed | @take _ changed
  | @endScan _ _ changed | @fire _ _ changed | @expire _ _ changed
  | @lock _ _ _ changed | @remove _ _ _ changed | @findAll _ _ _ changed
  | @findAny _ _ _ changed | @register _ _ _ changed
  | @riseTake _ _ changed =>
      by_cases same : event = changed
      · subst same
        simp [fire]
      · simp [fire, update_of_ne same]
  | @signal _ _ changed =>
      cases auto : (library.events changed).autoReset with
      | true =>
          by_cases same : event = changed
          · subst same
            simp [signal, auto]
          · simp [signal, auto, update_of_ne same]
      | false => simp [signal, auto]
  | _ => rfl

/-- A wait after a step is one from before the step, which may have come
further, or it has just begun. -/
theorem wait_of_move {action : Action Thread Event} {wait : Wait Event}
    (move : Move library action next)
    (waits : (next.calls thread).wait? = some wait) :
    (∃ before, (library.calls thread).wait? = some before ∧
      before.i ≤ wait.i ∧ wait = { before with i := wait.i }) ∨
    (action = .waitForMultipleEvents thread wait.events wait.waitAll
        wait.milliseconds ∧
      library.calls thread = .outside ∧
      wait.wfmo = library.created ∧ wait.i = 0) := by
  by_cases acts : thread = action.thread
  case neg =>
    rw [(calls_of_move move acts).wait?_eq] at waits
    exact .inl ⟨wait, waits, le_refl wait.i, rfl⟩
  subst acts
  cases move with
  | begin outside =>
      right
      simp only [Action.thread, putWfmo, goTo, countCreated, update_self,
        CallAt.wait?, Option.some.injEq] at waits
      subst waits
      exact ⟨rfl, outside, rfl, rfl⟩
  | accessFreed => exact .inl ⟨wait, waits, le_refl wait.i, rfl⟩
  | expire call | remove call =>
      exact .inl ⟨wait, waits, le_refl wait.i, rfl⟩
  | resetEvent outside | stay outside | take outside =>
      simp [Action.thread, outside, CallAt.wait?] at waits
  | @signal _ _ event =>
      cases auto : (library.events event).autoReset <;>
        simp [Action.thread, signal, auto, CallAt.wait?] at waits
  | notifyOne call auto sleeps =>
      simp only [goTo, Action.thread, update_apply] at waits
      split_ifs at waits <;> simp [CallAt.wait?] at waits
  | findAll call | register call =>
      simp only [Action.thread, putEvent, putWfmo, goTo, acquire, assert,
        update_self, CallAt.wait?, Option.some.injEq] at waits
      subst waits
      exact .inl ⟨_, congrArg CallAt.wait? call, Nat.le_succ _, rfl⟩
  | lock call | giveUp call | finish call | wait call | keep call
  | findAny call | wakeWaiter call | relock call | waitAgain call =>
      simp only [Action.thread, putEvent, putWfmo, goTo, acquire, assert,
        update_self, CallAt.wait?, Option.some.injEq] at waits
      subst waits
      exact .inl ⟨_, congrArg CallAt.wait? call, le_refl _, rfl⟩
  | _ => simp [Action.thread, fire, CallAt.broadcast, CallAt.wait?] at waits

/-- A wait goes on until its call leaves. -/
theorem wait_kept_of_move {action : Action Thread Event} {wait : Wait Event}
    (move : Move library action next)
    (waits : (library.calls thread).wait? = some wait) :
    (∃ after, (next.calls thread).wait? = some after ∧
      after.wfmo = wait.wfmo) ∨
    ∃ timedOut wfmo, library.calls thread = .leaving wait timedOut ∧
      library.wfmos wait.wfmo = some wfmo ∧
      next = ((library.drop wait.wfmo { wfmo with
        stillWaiting := false }).goTo thread .outside).giveBack
          ⟨wait, timedOut, wfmo.status⟩ := by
  by_cases acts : thread = action.thread
  case neg =>
    rw [← (calls_of_move move acts).wait?_eq] at waits
    exact .inl ⟨wait, waits, rfl⟩
  subst acts
  cases move with
  | accessFreed => exact .inl ⟨wait, waits, rfl⟩
  | leave call found =>
      simp only [Action.thread, call, CallAt.wait?, Option.some.injEq] at waits
      subst waits
      exact .inr ⟨_, _, call, found, rfl⟩
  | findAll call | register call | lock call | giveUp call | finish call
  | wait call | keep call | remove call | findAny call | wakeWaiter call
  | relock call | waitAgain call =>
      simp only [Action.thread, call, CallAt.wait?, Option.some.injEq] at waits
      subst waits
      simp [Action.thread, call, CallAt.wait?]
  | setEvent call | resetEvent call | stay call | take call | sleep call
  | begin call | endScan call | keepMutex call | fire call | expire call
  | signal call | notifyOne call | notifyNone call | notifyAll call
  | wakeSleeper call | riseLate call | riseTake call | sleepAgain call =>
      simp [Action.thread, call, CallAt.wait?] at waits

omit [DecidableEq Event] [DecidableEq Thread] in
theorem released_eq_some {wfmo left : Wfmo Thread}
    (released : wfmo.released = some left) :
    left = { wfmo.dropped with mutex := none } := by
  simp only [Wfmo.released, Option.ite_none_left_eq_some] at released
  exact (Option.some.inj released.2).symm

omit [DecidableEq Event] [DecidableEq Thread] in
theorem fired_facts (wfmo : Wfmo Thread) (waitIndex : Nat) :
    (wfmo.fired waitIndex).waitAll = wfmo.waitAll ∧
      ((wfmo.fired waitIndex).stillWaiting = true →
        wfmo.stillWaiting = true) := by
  unfold Wfmo.fired
  split <;> simp

omit [DecidableEq Event] [DecidableEq Thread] in
theorem found_facts (wfmo : Wfmo Thread) (i : Nat) :
    (wfmo.found i).waitAll = wfmo.waitAll ∧
      (wfmo.found i).stillWaiting = wfmo.stillWaiting := by
  unfold Wfmo.found
  split <;> simp

/-- A waiter after a step is one from before the step, which stays or stops
waiting, or it has just been made. -/
theorem wfmo_of_move {action : Action Thread Event} {waiter : Nat}
    {wfmo : Wfmo Thread} (move : Move library action next)
    (found : next.wfmos waiter = some wfmo) :
    (∃ before, library.wfmos waiter = some before ∧
      wfmo.waitAll = before.waitAll ∧
      (wfmo.stillWaiting = true → before.stillWaiting = true)) ∨
    (waiter = library.created ∧ ∃ thread events milliseconds,
      action = .waitForMultipleEvents thread events wfmo.waitAll
        milliseconds) := by
  cases move with
  | begin outside =>
      rcases eq_some_of_update found with ⟨made, new⟩ | ⟨-, before⟩
      · obtain rfl := Option.some.inj new
        exact .inr ⟨made, _, _, _, rfl⟩
      · exact .inl ⟨wfmo, before, rfl, id⟩
  | fire call front known =>
      rcases eq_some_of_update found with ⟨rfl, new⟩ | ⟨-, before⟩
      · obtain rfl := Option.some.inj new
        exact .inl ⟨_, known, fired_facts _ _⟩
      · exact .inl ⟨wfmo, before, rfl, id⟩
  | findAll call last known | findAny call last known =>
      rcases eq_some_of_update found with ⟨rfl, new⟩ | ⟨-, before⟩
      · obtain rfl := Option.some.inj new
        obtain ⟨sameAll, sameStill⟩ := found_facts _ _
        exact .inl ⟨_, known, sameAll, fun still => sameStill ▸ still⟩
      · exact .inl ⟨wfmo, before, rfl, id⟩
  | expire call front known | remove call entry known | leave call known =>
      rcases eq_some_of_update found with ⟨rfl, new⟩ | ⟨-, before⟩
      · obtain rfl := released_eq_some new
        exact .inl ⟨_, known, rfl, by simp_all⟩
      · exact .inl ⟨wfmo, before, rfl, id⟩
  | register call last known | wait call last known | relock call known =>
      rcases eq_some_of_update found with ⟨rfl, new⟩ | ⟨-, before⟩
      · obtain rfl := Option.some.inj new
        exact .inl ⟨_, known, rfl, id⟩
      · exact .inl ⟨wfmo, before, rfl, id⟩
  | @signal _ _ event =>
      left
      cases auto : (library.events event).autoReset <;>
        exact ⟨wfmo, by simpa [signal, auto] using found, rfl, id⟩
  | _ => exact .inl ⟨wfmo, found, rfl, id⟩

theorem created_of_move {action : Action Thread Event}
    (move : Move library action next) : library.created ≤ next.created := by
  cases move with
  | begin => exact Nat.le_succ _
  | @signal _ _ event =>
      cases auto : (library.events event).autoReset <;> simp [signal, auto]
  | _ => exact le_refl _

/-- Only a call that leaves its wait returns. -/
theorem returned_eq_of_move {action : Action Thread Event}
    (move : Move library action next) :
    next.returned = library.returned ∨
    ∃ wait timedOut wfmo,
      library.calls action.thread = .leaving wait timedOut ∧
      library.wfmos wait.wfmo = some wfmo ∧
      next = ((library.drop wait.wfmo { wfmo with
        stillWaiting := false }).goTo action.thread .outside).giveBack
          ⟨wait, timedOut, wfmo.status⟩ := by
  cases move with
  | leave call found => exact .inr ⟨_, _, _, call, found, rfl⟩
  | @signal _ _ event =>
      left
      cases auto : (library.events event).autoReset <;> simp [signal, auto]
  | _ => exact .inl rfl

theorem returned_of_move {action : Action Thread Event}
    {returned : Returned Event} (move : Move library action next)
    (member : returned ∈ next.returned) :
    returned ∈ library.returned ∨
    ∃ wait timedOut wfmo,
      library.calls action.thread = .leaving wait timedOut ∧
      library.wfmos wait.wfmo = some wfmo ∧
      returned = ⟨wait, timedOut, wfmo.status⟩ ∧
      next = ((library.drop wait.wfmo { wfmo with
        stillWaiting := false }).goTo action.thread .outside).giveBack
          ⟨wait, timedOut, wfmo.status⟩ := by
  rcases returned_eq_of_move move with
    same | ⟨wait, timedOut, wfmo, leaving, found, rfl⟩
  · exact .inl (same ▸ member)
  · rcases List.mem_cons.mp member with rfl | before
    · exact .inr ⟨wait, timedOut, wfmo, leaving, found, rfl, rfl⟩
    · exact .inl before

/-- What satisfied a wait stays on record. -/
theorem acquired_eq_of_move {action : Action Thread Event}
    (move : Move library action next) :
    next.acquired = library.acquired ∨
      ∃ acquisition, next.acquired = acquisition :: library.acquired := by
  cases move with
  | take | fire | findAll | findAny | riseTake => exact .inr ⟨_, rfl⟩
  | @signal _ _ event =>
      left
      cases auto : (library.events event).autoReset <;> simp [signal, auto]
  | _ => exact .inl rfl

/-- An event that is set stays so until it satisfies a wait or is reset. -/
theorem kept_of_move {action : Action Thread Event} {event : Event}
    (move : Move library action next)
    (state : (library.events event).state = true) :
    (next.events event).state = true ∨
      (∃ thread, action = .resetEvent thread event) ∨
      ∃ info, next.acquired = ⟨event, info⟩ :: library.acquired := by
  cases move with
  | @resetEvent thread changed =>
      by_cases same : event = changed
      · exact .inr (.inl ⟨thread, by rw [same]⟩)
      · exact .inl (by simpa [update_of_ne same] using state)
  | @take _ changed | @fire _ _ changed | @findAll _ _ _ changed
  | @findAny _ _ _ changed | @riseTake _ _ changed =>
      by_cases same : event = changed
      · subst same
        exact .inr (.inr ⟨_, rfl⟩)
      · exact .inl (by simpa [fire, update_of_ne same] using state)
  | @setEvent _ changed | @endScan _ _ changed | @expire _ _ changed
  | @lock _ _ _ changed | @remove _ _ _ changed | @register _ _ _ changed =>
      left
      by_cases same : event = changed
      · subst same
        simp [state]
      · simpa [update_of_ne same] using state
  | @signal _ _ changed =>
      left
      cases auto : (library.events changed).autoReset with
      | true =>
          by_cases same : event = changed
          · subst same
            simpa [signal, auto] using state
          · simpa [signal, auto, update_of_ne same] using state
      | false => simpa [signal, auto] using state
  | _ => exact .inl state

/-- An event satisfies a waiter where it is registered, or where its call looks
at the event. -/
theorem acquired_of_move {action : Action Thread Event}
    {acquisition : Acquisition Event} {info : WfmoInfo}
    (move : Move library action next)
    (member : acquisition ∈ next.acquired)
    (taken : acquisition.info = some info) :
    acquisition ∈ library.acquired ∨
    info ∈ (library.events acquisition.event).registeredWaits ∨
    ∃ wait position, library.calls action.thread =
        .cleaning wait acquisition.event position ∧
      info = ⟨wait.wfmo, wait.i⟩ := by
  cases move with
  | take | riseTake =>
      rcases List.mem_cons.mp member with rfl | before
      · cases taken
      · exact .inl before
  | fire call front =>
      rcases List.mem_cons.mp member with rfl | before
      · obtain rfl := Option.some.inj taken
        exact .inr (.inl (by simp [front]))
      · exact .inl before
  | findAll call | findAny call =>
      rcases List.mem_cons.mp member with rfl | before
      · obtain rfl := Option.some.inj taken
        exact .inr (.inr ⟨_, _, call, rfl⟩)
      · exact .inl before
  | @signal _ _ event =>
      left
      cases auto : (library.events event).autoReset <;>
        simpa [signal, auto] using member
  | _ => exact .inl member

/-- A waiter is registered only by its call, which looks at the event. -/
theorem listed_of_move {action : Action Thread Event} {event : Event}
    {info : WfmoInfo} (move : Move library action next)
    (member : info ∈ (next.events event).registeredWaits) :
    info ∈ (library.events event).registeredWaits ∨
    ∃ wait position,
      library.calls action.thread = .cleaning wait event position ∧
      info = ⟨wait.wfmo, wait.i⟩ ∧
      (next.events event).state = false := by
  cases move with
  | @setEvent _ changed | @resetEvent _ changed | @take _ changed
  | @lock _ _ _ changed | @findAll _ _ _ changed | @findAny _ _ _ changed
  | @riseTake _ _ changed =>
      left
      by_cases same : event = changed
      · subst same
        simpa using member
      · simpa [update_of_ne same] using member
  | @endScan _ _ changed =>
      left
      by_cases same : event = changed
      · subst same
        simp at member
      · simpa [update_of_ne same] using member
  | @fire _ _ changed _ _ _ call front | @expire _ _ changed _ _ _ call front =>
      left
      by_cases same : event = changed
      · subst same
        rw [front]
        exact List.mem_cons_of_mem _ (by simpa [fire] using member)
      · simpa [fire, update_of_ne same] using member
  | @remove _ _ _ changed position =>
      left
      by_cases same : event = changed
      · subst same
        exact List.mem_of_mem_eraseIdx (by simpa using member)
      · simpa [update_of_ne same] using member
  | @register _ _ wait changed position _ call last found reset =>
      by_cases same : event = changed
      · subst same
        simp only [goTo, putWfmo, putEvent, update_self, List.mem_append,
          List.mem_singleton] at member
        rcases member with before | new
        · exact .inl before
        · exact .inr ⟨wait, position, call, new, by simpa using reset⟩
      · exact .inl (by simpa [update_of_ne same] using member)
  | @signal _ _ changed =>
      left
      cases auto : (library.events changed).autoReset with
      | true =>
          by_cases same : event = changed
          · subst same
            simpa [signal, auto] using member
          · simpa [signal, auto, update_of_ne same] using member
      | false => simpa [signal, auto] using member
  | _ => exact .inl member

end Library

end Neosmart
