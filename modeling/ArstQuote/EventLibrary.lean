import ArstQuote.GuardedRuns
import ArstQuote.SharedObjects
import Mathlib.Data.Fintype.Sum

/-!
# The event library

`SetEvent`, `ResetEvent`, `WaitForEvent` and `WaitForMultipleEvents` of the
namespace `neosmart`, called by any number of threads on any number of events.
The events are there from the start and stay: `DestroyEvent`, which deletes an
event with the registrations that its clean-up keeps, is left out.  A call of
`WaitForMultipleEvents` makes a waiter, which the events that it registers with
refer to until they are set or clean up.  An action is one call, or one step of
a call up to the next mutex or condition that another thread can hold or
signal.
-/

namespace Neosmart

open Function GuardedRuns SharedObjects

/-- `neosmart_wfmo_info_t_`, with the waiter by its number. -/
structure WfmoInfo where
  waiter : Nat
  waitIndex : Nat
  deriving DecidableEq

/-- `neosmart_wfmo_t_`.  Its `Status` is `EventsLeft` if the waiter waits for
all of its events, and `FiredEvent` otherwise. -/
structure Wfmo (Thread : Type*) where
  mutex : Option Thread
  refCount : Int
  status : Int
  waitAll : Bool
  stillWaiting : Bool
  deriving DecidableEq

/-- `neosmart_event_t_`.  An entry is taken from `RegisteredWaits` together with
its reference, and not only at the end of `SetEvent`, which has the mutex until
then. -/
structure NeosmartEvent (Thread : Type*) where
  mutex : Option Thread
  autoReset : Bool
  state : Bool
  registeredWaits : List WfmoInfo
  deriving DecidableEq

/-- The arguments and the variables of a call of `WaitForMultipleEvents`. -/
structure Wait (Event : Type*) where
  wfmo : Nat
  events : List Event
  waitAll : Bool
  milliseconds : UInt64
  i : Nat
  deriving DecidableEq

/-- `(uint64_t) -1`, the time of a wait without end. -/
def infinite : UInt64 := -1

/-- Where the call of a thread is: at the loop of `SetEvent`, about to signal a
waiter or the event itself; about to lock the next event of a wait, cleaning up
in that event, waiting for the condition of the waiter, back from it, or about
to return; or in `WaitForEvent`, waiting for the condition of the event, or back
from it. -/
inductive CallAt (Event : Type*)
  | outside
  | setting (event : Event)
  | signalling (event : Event) (waiter : Nat)
  | notifying (event : Event)
  | registering (wait : Wait Event)
  | cleaning (wait : Wait Event) (event : Event) (position : Nat)
  | waiting (wait : Wait Event)
  | woken (wait : Wait Event) (timedOut : Bool)
  | leaving (wait : Wait Event) (timedOut : Bool)
  | sleeping (event : Event) (milliseconds : UInt64)
  | risen (event : Event) (milliseconds : UInt64) (timedOut : Bool)
  deriving DecidableEq

/-- An event that satisfied a waiter, or a call of `WaitForEvent`. -/
structure Acquisition (Event : Type*) where
  event : Event
  info : Option WfmoInfo
  deriving DecidableEq

/-- A call of `WaitForMultipleEvents` that has returned. -/
structure Returned (Event : Type*) where
  wait : Wait Event
  timedOut : Bool
  waitIndex : Int
  deriving DecidableEq

/-- The events, the waiters that are not deleted, and the calls, with what has
gone wrong so far: a failed assertion, or the use of a deleted waiter.  How
often each event was set, whom it satisfied and which waits have returned is
kept as well. -/
structure Library (Thread Event : Type*) where
  events : Event → NeosmartEvent Thread
  wfmos : Nat → Option (Wfmo Thread)
  calls : Thread → CallAt Event
  created : Nat
  assertsHold : Bool
  accessedFreed : Bool
  signalledFreed : Bool
  sets : Event → Nat
  acquired : List (Acquisition Event)
  returned : List (Returned Event)

inductive Action (Thread Event : Type*)
  | setEvent (thread : Thread) (event : Event)
  | resetEvent (thread : Thread) (event : Event)
  | waitForEvent (thread : Thread) (event : Event) (milliseconds : UInt64)
  | waitForMultipleEvents (thread : Thread) (events : List Event)
      (waitAll : Bool) (milliseconds : UInt64)
  | proceed (thread : Thread) (busy : Bool)
  | notify (thread : Thread) (chosen : Option Thread)
  | wake (thread : Thread) (timedOut : Bool)
  deriving DecidableEq

section Steps

variable {Thread Event : Type*}

/-- `--RefCount`. -/
@[simp] def Wfmo.dropped (wfmo : Wfmo Thread) : Wfmo Thread :=
  { wfmo with refCount := wfmo.refCount - 1 }

/-- A waiter whose mutex is locked, after a reference to it was given back: the
last one deletes it, any other unlocks the mutex. -/
def Wfmo.released (wfmo : Wfmo Thread) : Option (Wfmo Thread) :=
  if wfmo.dropped.refCount = 0 then none
  else some { wfmo.dropped with mutex := none }

/-- What `SetEvent` does to a waiter that is still waiting. -/
def Wfmo.fired (wfmo : Wfmo Thread) (waitIndex : Nat) : Wfmo Thread :=
  if wfmo.waitAll then { wfmo.dropped with status := wfmo.status - 1 }
  else { wfmo.dropped with status := waitIndex, stillWaiting := false }

/-- What `WaitForMultipleEvents` does to its waiter for an event that it finds
set. -/
def Wfmo.found (wfmo : Wfmo Thread) (i : Nat) : Wfmo Thread :=
  if wfmo.waitAll then { wfmo with status := wfmo.status - 1 }
  else { wfmo with status := i }

/-- `EventsLeft` is asserted not to be negative. -/
def Wfmo.countsDown (wfmo : Wfmo Thread) : Bool :=
  !wfmo.waitAll || decide (0 ≤ wfmo.status)

/-- `done` as the last loop of `WaitForMultipleEvents` computes it. -/
def Wfmo.done (wfmo : Wfmo Thread) : Bool :=
  if wfmo.waitAll then wfmo.status = 0 else wfmo.status ≠ -1

/-- The event after `UnlockedWaitForEvent` was satisfied by it. -/
@[simp] def NeosmartEvent.taken (object : NeosmartEvent Thread) :
    NeosmartEvent Thread :=
  { object with state := object.state && !object.autoReset }

/-- `pthread_cond_signal` on the condition of a waiter, for which at most the
thread that made it waits. -/
def CallAt.signalled (waiter : Nat) : CallAt Event → CallAt Event
  | .waiting wait =>
      if wait.wfmo = waiter then .woken wait false else .waiting wait
  | other => other

variable [DecidableEq Event]

/-- `pthread_cond_broadcast` on the condition of an event. -/
def CallAt.broadcast (event : Event) : CallAt Event → CallAt Event
  | .sleeping slept milliseconds =>
      if slept = event then .risen slept milliseconds false
      else .sleeping slept milliseconds
  | other => other

def CallAt.sleepsOn (event : Event) : CallAt Event → Bool
  | .sleeping slept _ => slept = event
  | _ => false

variable [DecidableEq Thread]

namespace Library

/-- The events as `CreateEvent` leaves them, before any other call: it sets one
on which no thread waits yet. -/
def start (manualReset initialState : Event → Bool) :
    Library Thread Event where
  events event := ⟨none, !manualReset event, initialState event, []⟩
  wfmos _ := none
  calls _ := .outside
  created := 0
  assertsHold := true
  accessedFreed := false
  signalledFreed := false
  sets event := if initialState event then 1 else 0
  acquired := []
  returned := []

/-- The call of a thread goes on elsewhere. -/
@[simp] def goTo (library : Library Thread Event) (thread : Thread)
    (call : CallAt Event) : Library Thread Event :=
  { library with calls := update library.calls thread call }

@[simp] def putEvent (library : Library Thread Event) (event : Event)
    (object : NeosmartEvent Thread) : Library Thread Event :=
  { library with events := update library.events event object }

@[simp] def putWfmo (library : Library Thread Event) (waiter : Nat)
    (wfmo : Option (Wfmo Thread)) : Library Thread Event :=
  { library with wfmos := update library.wfmos waiter wfmo }

@[simp] def acquire (library : Library Thread Event) (event : Event)
    (info : Option WfmoInfo) : Library Thread Event :=
  { library with acquired := ⟨event, info⟩ :: library.acquired }

@[simp] def assert (library : Library Thread Event) (condition : Bool) :
    Library Thread Event :=
  { library with assertsHold := library.assertsHold && condition }

@[simp] def countSet (library : Library Thread Event) (event : Event) :
    Library Thread Event :=
  { library with sets := update library.sets event (library.sets event + 1) }

@[simp] def countCreated (library : Library Thread Event) :
    Library Thread Event :=
  { library with created := library.created + 1 }

@[simp] def giveBack (library : Library Thread Event)
    (returned : Returned Event) : Library Thread Event :=
  { library with returned := returned :: library.returned }

@[simp] def mapCalls (library : Library Thread Event)
    (change : CallAt Event → CallAt Event) : Library Thread Event :=
  { library with calls := change ∘ library.calls }

@[simp] def accessFreed (library : Library Thread Event) :
    Library Thread Event :=
  { library with accessedFreed := true }

/-- The accesses to a waiter, which must not have been deleted. -/
def onWfmo (library : Library Thread Event) (waiter : Nat)
    (use : Wfmo Thread → Option (Library Thread Event)) :
    Option (Library Thread Event) :=
  match library.wfmos waiter with
  | none => some library.accessFreed
  | some wfmo => use wfmo

@[simp] def drop (library : Library Thread Event) (waiter : Nat)
    (wfmo : Wfmo Thread) : Library Thread Event :=
  (library.putWfmo waiter wfmo.released).assert (0 ≤ wfmo.dropped.refCount)

def setEvent (library : Library Thread Event) (thread : Thread)
    (event : Event) : Option (Library Thread Event) :=
  let object := library.events event
  if library.calls thread = .outside ∧ object.mutex = none then
    some (((library.putEvent event { object with
      mutex := some thread
      state := true }).goTo thread (.setting event)).countSet event)
  else none

/-- The waiter in the front of `RegisteredWaits` is still waiting. -/
def fire (library : Library Thread Event) (thread : Thread) (event : Event)
    (info : WfmoInfo) (rest : List WfmoInfo) (wfmo : Wfmo Thread) :
    Library Thread Event :=
  ((((library.putEvent event { (library.events event).taken with
      registeredWaits := rest }).putWfmo info.waiter
        (some (wfmo.fired info.waitIndex))).goTo thread
          (.signalling event info.waiter)).acquire event (some info)).assert
    (0 ≤ wfmo.dropped.refCount && (wfmo.fired info.waitIndex).countsDown)

/-- One iteration of the loop in `SetEvent`, up to the signal, or the end of the
loop.  A call that finds its auto-reset event reset there returns with the
mutex locked. -/
def scan (library : Library Thread Event) (thread : Thread) (event : Event) :
    Option (Library Thread Event) :=
  let object := library.events event
  match object.registeredWaits with
  | [] =>
      if object.autoReset && !object.state then
        some (library.goTo thread .outside)
      else some ((library.putEvent event { object with
        mutex := none }).goTo thread (.notifying event))
  | info :: rest => library.onWfmo info.waiter fun wfmo =>
      if wfmo.mutex.isSome then none
      else if wfmo.stillWaiting then
        some (library.fire thread event info rest wfmo)
      else some ((library.putEvent event { object with
        registeredWaits := rest }).drop info.waiter wfmo)

/-- `SetEvent` signals the waiter, whose mutex it has unlocked before.  An
auto-reset event satisfies only one. -/
def signal (library : Library Thread Event) (thread : Thread) (event : Event)
    (waiter : Nat) : Library Thread Event :=
  let object := library.events event
  let signalled := { library.mapCalls (.signalled waiter) with
    signalledFreed :=
      library.signalledFreed || (library.wfmos waiter).isNone }
  if object.autoReset then
    (signalled.putEvent event { object with
      mutex := none }).goTo thread .outside
  else signalled.goTo thread (.setting event)

/-- `SetEvent` signals the event: one thread that sleeps on an auto-reset event,
or all that sleep on a manual-reset one. -/
def notify [Fintype Thread] (library : Library Thread Event) (thread : Thread)
    (chosen : Option Thread) : Option (Library Thread Event) :=
  match library.calls thread with
  | .notifying event =>
      let left := library.goTo thread .outside
      if (library.events event).autoReset then
        match chosen with
        | some sleeper =>
            if (library.calls sleeper).sleepsOn event then
              some (left.goTo sleeper
                ((library.calls sleeper).broadcast event))
            else none
        | none =>
            if ∀ other, (library.calls other).sleepsOn event = false then
              some left
            else none
      else some (left.mapCalls (.broadcast event))
  | _ => none

def resetEvent (library : Library Thread Event) (thread : Thread)
    (event : Event) : Option (Library Thread Event) :=
  let object := library.events event
  if library.calls thread = .outside ∧ object.mutex = none then
    some (library.putEvent event { object with state := false })
  else none

/-- `WaitForEvent` up to its condition: without any time to wait it does not
wait for the mutex either. -/
def waitForEvent (library : Library Thread Event) (thread : Thread)
    (event : Event) (milliseconds : UInt64) :
    Option (Library Thread Event) :=
  let object := library.events event
  if library.calls thread = .outside then
    if object.mutex.isSome then
      if milliseconds = 0 then some library else none
    else if object.state then
      some ((library.putEvent event object.taken).acquire event none)
    else if milliseconds = 0 then some library
    else some (library.goTo thread (.sleeping event milliseconds))
  else none

/-- `WaitForEvent` has the mutex of the event again. -/
def rise (library : Library Thread Event) (thread : Thread) (event : Event)
    (milliseconds : UInt64) (timedOut : Bool) :
    Option (Library Thread Event) :=
  let object := library.events event
  if object.mutex.isSome then none
  else if timedOut then some (library.goTo thread .outside)
  else if object.state then
    some (((library.putEvent event object.taken).goTo thread
      .outside).acquire event none)
  else some (library.goTo thread (.sleeping event milliseconds))

/-- `WaitForMultipleEvents` makes its waiter and locks it. -/
def waitForMultipleEvents (library : Library Thread Event) (thread : Thread)
    (events : List Event) (waitAll : Bool) (milliseconds : UInt64) :
    Option (Library Thread Event) :=
  if library.calls thread = .outside then
    some (((library.putWfmo library.created (some {
      mutex := some thread
      refCount := 1
      status := if waitAll then events.length else -1
      waitAll := waitAll
      stillWaiting := true })).goTo thread (.registering
        ⟨library.created, events, waitAll, milliseconds, 0⟩)).countCreated)
  else none

/-- The head of the loop over the events, and after its end the test whether
the wait is done. -/
def lockNext (library : Library Thread Event) (thread : Thread)
    (wait : Wait Event) : Option (Library Thread Event) :=
  match wait.events[wait.i]? with
  | some event =>
      let object := library.events event
      if object.mutex.isSome then none
      else some ((library.putEvent event { object with
        mutex := some thread }).goTo thread (.cleaning wait event 0))
  | none =>
      if wait.milliseconds = 0 then
        some (library.goTo thread (.leaving wait true))
      else library.onWfmo wait.wfmo fun wfmo =>
        if wfmo.done then some (library.goTo thread (.leaving wait false))
        else some ((library.putWfmo wait.wfmo (some { wfmo with
          mutex := none })).goTo thread (.waiting wait))

/-- `WaitForMultipleEvents` takes an event that it finds set, or registers with
it. -/
def look (library : Library Thread Event) (thread : Thread)
    (wait : Wait Event) (event : Event) : Option (Library Thread Event) :=
  let object := library.events event
  let next : CallAt Event := .registering { wait with i := wait.i + 1 }
  library.onWfmo wait.wfmo fun wfmo =>
    if object.state then
      some (((((library.putEvent event { object.taken with
          mutex := none }).putWfmo wait.wfmo
            (some (wfmo.found wait.i))).goTo thread
              (if wait.waitAll then next else .leaving wait false)).acquire
                event (some ⟨wait.wfmo, wait.i⟩)).assert
        (wfmo.found wait.i).countsDown)
    else
      some (((library.putEvent event { object with
        mutex := none
        registeredWaits := object.registeredWaits ++
          [⟨wait.wfmo, wait.i⟩] }).putWfmo wait.wfmo (some { wfmo with
            refCount := wfmo.refCount + 1 })).goTo thread next)

/-- `RemoveExpiredWaitHelper` on the next entry of `RegisteredWaits`, whose
waiter may be busy, and after the last one the look at the event. -/
def clean (library : Library Thread Event) (thread : Thread)
    (wait : Wait Event) (event : Event) (position : Nat) (busy : Bool) :
    Option (Library Thread Event) :=
  let object := library.events event
  match object.registeredWaits[position]? with
  | none => library.look thread wait event
  | some info => library.onWfmo info.waiter fun wfmo =>
      if busy then
        some (library.goTo thread (.cleaning wait event (position + 1)))
      else if wfmo.mutex.isSome then none
      else if wfmo.stillWaiting then
        some (library.goTo thread (.cleaning wait event (position + 1)))
      else some ((library.putEvent event { object with
        registeredWaits := object.registeredWaits.eraseIdx position }).drop
          info.waiter wfmo)

/-- `WaitForMultipleEvents` has the mutex of its waiter again. -/
def relock (library : Library Thread Event) (thread : Thread)
    (wait : Wait Event) (timedOut : Bool) : Option (Library Thread Event) :=
  library.onWfmo wait.wfmo fun wfmo =>
    if wfmo.mutex.isSome then none
    else if timedOut || wfmo.done then
      some ((library.putWfmo wait.wfmo (some { wfmo with
        mutex := some thread })).goTo thread (.leaving wait timedOut))
    else some (library.goTo thread (.waiting wait))

/-- `WaitForMultipleEvents` stops waiting and returns. -/
def leave (library : Library Thread Event) (thread : Thread)
    (wait : Wait Event) (timedOut : Bool) : Option (Library Thread Event) :=
  library.onWfmo wait.wfmo fun wfmo =>
    some (((library.drop wait.wfmo { wfmo with
      stillWaiting := false }).goTo thread .outside).giveBack
        ⟨wait, timedOut, wfmo.status⟩)

/-- The next step of a thread in a call. -/
def proceed (library : Library Thread Event) (thread : Thread) (busy : Bool) :
    Option (Library Thread Event) :=
  match library.calls thread with
  | .setting event => library.scan thread event
  | .signalling event waiter => some (library.signal thread event waiter)
  | .registering wait => library.lockNext thread wait
  | .cleaning wait event position =>
      library.clean thread wait event position busy
  | .woken wait timedOut => library.relock thread wait timedOut
  | .leaving wait timedOut => library.leave thread wait timedOut
  | .risen event milliseconds timedOut =>
      library.rise thread event milliseconds timedOut
  | .outside | .notifying _ | .waiting _ | .sleeping _ _ => none

/-- A wait for a condition ends without a signal, unless it has no end after its
time. -/
def wake (library : Library Thread Event) (thread : Thread)
    (timedOut : Bool) : Option (Library Thread Event) :=
  match library.calls thread with
  | .waiting wait =>
      if timedOut && wait.milliseconds = infinite then none
      else some (library.goTo thread (.woken wait timedOut))
  | .sleeping event milliseconds =>
      if timedOut && milliseconds = infinite then none
      else some (library.goTo thread (.risen event milliseconds timedOut))
  | _ => none

end Library

def libraryStep [Fintype Thread] (library : Library Thread Event) :
    Action Thread Event → Option (Library Thread Event)
  | .setEvent thread event => library.setEvent thread event
  | .resetEvent thread event => library.resetEvent thread event
  | .waitForEvent thread event milliseconds =>
      library.waitForEvent thread event milliseconds
  | .waitForMultipleEvents thread events waitAll milliseconds =>
      library.waitForMultipleEvents thread events waitAll milliseconds
  | .proceed thread busy => library.proceed thread busy
  | .notify thread chosen => library.notify thread chosen
  | .wake thread timedOut => library.wake thread timedOut

end Steps

end Neosmart
