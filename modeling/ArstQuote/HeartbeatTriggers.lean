import ArstQuote.Heartbeat
import ArstQuote.PosixEvents

/-!
# The triggers of the heartbeat loop

Other threads trigger the two events that `ARSTHeartbeat::Run` waits for.  A
trigger is lost where the loop's waiter was fired but its wait reports a
timeout: the event is reset by then, and the loop passes over the index.
-/

namespace ArstQuote

open GuardedRuns PosixEvents

/-- `m_PEvent[0]` and `m_PEvent[1]`. -/
inductive HeartbeatEvent
  | reply
  | terminate
  deriving DecidableEq

def HeartbeatEvent.nIndex : HeartbeatEvent → Int
  | .reply => 0
  | .terminate => 1

/-- The callback of a loop that has handled the terminate event. -/
def HeartbeatCallback.terminated : HeartbeatCallback :=
  .onHeartbeatError 0 "HEARTBEAT_TERMINATE"

/-- The loop with the events it waits for, the callback it ended with, and
whether it was ever asked to terminate. -/
structure HeartbeatLoop where
  heartbeat : Heartbeat
  waits : Waits HeartbeatEvent
  ended : Option HeartbeatCallback
  requested : Bool

/-- The steps of the threads that trigger an event, of the wait in the loop, and
of the loop once a wait has returned. -/
inductive HeartbeatLoopAction
  | triggerGetReplyEvent
  | triggerTerminateEvent
  | scan (event : HeartbeatEvent)
  | leave (event : HeartbeatEvent)
  | waitForMultipleEvents
  | register (kept : Nat → Bool)
  | wake (timedOut : Bool)
  | finish
  | pass

/-- What the action does to the events. -/
def HeartbeatLoopAction.waitsAction :
    HeartbeatLoopAction → WaitsAction HeartbeatEvent
  | .triggerGetReplyEvent => .setEvent .reply
  | .triggerTerminateEvent => .setEvent .terminate
  | .scan event => .scan event
  | .leave event => .leave event
  | .waitForMultipleEvents => .waitFor .reply [.terminate]
  | .register kept => .register kept
  | .wake timedOut => .wake timedOut
  | .finish => .finish
  | .pass => .take

namespace HeartbeatLoop

def start (nTimeInterval : Int) : HeartbeatLoop :=
  ⟨.create nTimeInterval, .start, none, false⟩

/-- `nResult` and `nIndex` after the wait. -/
def result (loop : HeartbeatLoop) : WaitResult :=
  if loop.waits.waitAt = .returned false then
    .triggered ((loop.waits.firedEvent.map HeartbeatEvent.nIndex).getD (-1))
  else .timeout

/-- One pass of the loop over the result of its wait. -/
def pass (loop : HeartbeatLoop) : HeartbeatLoop :=
  match loop.heartbeat.pass loop.result with
  | .waits heartbeat _ => { loop with heartbeat := heartbeat }
  | .ends callback => { loop with ended := some callback }

/-- What the action does besides its effect on the events. -/
def perform (loop : HeartbeatLoop) : HeartbeatLoopAction → HeartbeatLoop
  | .triggerTerminateEvent => { loop with requested := true }
  | .pass => loop.pass
  | .triggerGetReplyEvent | .scan _ | .leave _ | .waitForMultipleEvents
  | .register _ | .wake _ | .finish => loop

/-- A loop that has ended does not wait again. -/
def mayTake (loop : HeartbeatLoop) : HeartbeatLoopAction → Bool
  | .waitForMultipleEvents => loop.ended.isNone
  | .triggerGetReplyEvent | .triggerTerminateEvent | .scan _ | .leave _
  | .register _ | .wake _ | .finish | .pass => true

end HeartbeatLoop

def heartbeatLoopStep (loop : HeartbeatLoop) (action : HeartbeatLoopAction) :
    Option HeartbeatLoop :=
  if loop.mayTake action then
    (waitsStep loop.waits action.waitsAction).map fun waits =>
      { loop.perform action with waits := waits }
  else none

namespace HeartbeatLoop

/-- Every trigger that was not handled yet is recorded, and a request to
terminate is recorded until the loop ends with it. -/
structure KeepsTriggers (loop : HeartbeatLoop) : Prop where
  pending : loop.waits.KeepsPending
  terminates : loop.requested = true →
    loop.waits.Recorded .terminate ∨ loop.ended = some .terminated

/-- A wait does not report its timeout when it was fired, unless for an event
that is set again by then. -/
def HeedsTriggers (loop : HeartbeatLoop) (action : HeartbeatLoopAction) :
    Prop :=
  Heeded loop.waits action.waitsAction

/-- A loop that has ended waits no more, and a request to terminate is pending
until the loop ends with it. -/
structure Valid (loop : HeartbeatLoop) : Prop where
  waits : loop.waits.Valid
  stopped : loop.ended.isSome = true → loop.waits.waitAt = .outside
  requested : loop.requested = true →
    loop.waits.pending .terminate = true ∨ loop.ended = some .terminated

variable {loop next : HeartbeatLoop} {action : HeartbeatLoopAction}

theorem step_eq (stepTo : heartbeatLoopStep loop action = some next) :
    loop.mayTake action = true ∧
      waitsStep loop.waits action.waitsAction = some next.waits ∧
      next.ended = (loop.perform action).ended ∧
      next.requested = (loop.perform action).requested := by
  simp only [heartbeatLoopStep, Option.ite_none_right_eq_some,
    Option.map_eq_some_iff] at stepTo
  obtain ⟨may, waits, stepWaits, rfl⟩ := stepTo
  exact ⟨may, stepWaits, rfl, rfl⟩

theorem pass_requested (loop : HeartbeatLoop) :
    loop.pass.requested = loop.requested := by
  unfold pass
  split <;> rfl

/-- A loop that takes the terminate event ends with it. -/
theorem pass_ended_of_taken (taken : loop.waits.taken = some .terminate) :
    loop.pass.ended = some .terminated := by
  simp only [Waits.taken, Option.ite_none_right_eq_some] at taken
  obtain ⟨returned, fired⟩ := taken
  have result : loop.result = .triggered 1 := by
    simp [HeartbeatLoop.result, returned, fired, HeartbeatEvent.nIndex]
  simp [pass, result, Heartbeat.pass, HeartbeatCallback.terminated]

/-- Only a pass of the loop ends it. -/
theorem perform_ended_of_ne_pass (other : action ≠ .pass) :
    (loop.perform action).ended = loop.ended := by
  cases action with
  | pass => exact absurd rfl other
  | _ => rfl

theorem perform_requested_of_ne (other : action ≠ .triggerTerminateEvent) :
    (loop.perform action).requested = loop.requested := by
  cases action with
  | triggerTerminateEvent => exact absurd rfl other
  | pass => exact loop.pass_requested
  | _ => rfl

theorem waitsAction_eq_take (taking : action.waitsAction = .take) :
    action = .pass := by
  cases action with
  | pass => rfl
  | _ => cases taking

theorem waitsAction_eq_waitFor {event : HeartbeatEvent}
    {later : List HeartbeatEvent}
    (waiting : action.waitsAction = .waitFor event later) :
    action = .waitForMultipleEvents := by
  cases action with
  | waitForMultipleEvents => rfl
  | _ => cases waiting

/-- After a pass the loop is outside of `WaitForMultipleEvents`, and goes back
to it only if it has not ended. -/
theorem Valid.stopped_step (valid : loop.Valid)
    (stepTo : heartbeatLoopStep loop action = some next)
    (ended : next.ended.isSome = true) : next.waits.waitAt = .outside := by
  obtain ⟨may, stepWaits, endedEq, -⟩ := step_eq stepTo
  by_cases passing : action = .pass
  · subst passing
    obtain ⟨timedOut, -, taken⟩ := Waits.take_cases stepWaits
    exact congrArg Waits.waitAt taken
  · have before : loop.ended.isSome = true := by
      rw [← perform_ended_of_ne_pass passing, ← endedEq]
      exact ended
    rcases Waits.outside_of_step (valid.stopped before) stepWaits with
      outside | ⟨event, later, waiting⟩
    · exact outside
    · have notEnded : loop.ended.isNone = true := by
        rwa [waitsAction_eq_waitFor waiting] at may
      simp [Option.isNone_iff_eq_none.mp notEnded] at before

/-- The terminate event stops being pending only in the pass that ends the
loop. -/
theorem Valid.requested_step (valid : loop.Valid)
    (stepTo : heartbeatLoopStep loop action = some next)
    (requested : next.requested = true) :
    next.waits.pending .terminate = true ∨ next.ended = some .terminated := by
  obtain ⟨-, stepWaits, endedEq, requestedEq⟩ := step_eq stepTo
  by_cases triggers : action = .triggerTerminateEvent
  · subst triggers
    exact .inl (Waits.pending_setEvent stepWaits)
  · have before : loop.requested = true := by
      rw [← perform_requested_of_ne triggers, ← requestedEq]
      exact requested
    rcases valid.requested before with pending | ended
    · rcases Waits.pending_of_step pending stepWaits with
        still | ⟨taking, taken⟩
      · exact .inl still
      · right
        rw [endedEq, waitsAction_eq_take taking]
        exact pass_ended_of_taken taken
    · right
      by_cases passing : action = .pass
      · subst passing
        have outside := valid.stopped (by simp [ended])
        obtain ⟨timedOut, returned, -⟩ := Waits.take_cases stepWaits
        simp [outside] at returned
      · rw [endedEq, perform_ended_of_ne_pass passing]
        exact ended

theorem Valid.step (valid : loop.Valid)
    (stepTo : heartbeatLoopStep loop action = some next) : next.Valid := by
  obtain ⟨-, stepWaits, -, -⟩ := step_eq stepTo
  exact ⟨valid.waits.step stepWaits, valid.stopped_step stepTo,
    valid.requested_step stepTo⟩

/-- A step loses a trigger exactly when a timeout passes over it. -/
theorem keepsTriggers_step_iff (valid : loop.Valid)
    (keeps : loop.KeepsTriggers)
    (stepTo : heartbeatLoopStep loop action = some next) :
    next.KeepsTriggers ↔ loop.HeedsTriggers action := by
  obtain ⟨-, stepWaits, -, -⟩ := step_eq stepTo
  have pendingIff := Waits.keepsPending_step_iff valid.waits keeps.pending
    stepWaits
  constructor
  · exact fun kept => pendingIff.mp kept.pending
  · intro heeds
    have kept := pendingIff.mpr heeds
    refine ⟨kept, ?_⟩
    intro requested
    rcases (valid.step stepTo).requested requested with pending | ended
    · exact .inl (kept .terminate pending)
    · exact .inr ended

theorem start_valid (nTimeInterval : Int) : (start nTimeInterval).Valid :=
  ⟨Waits.start_valid, by simp [start], by simp [start]⟩

theorem start_keepsTriggers (nTimeInterval : Int) :
    (start nTimeInterval).KeepsTriggers :=
  ⟨Waits.start_keepsPending, by simp [start]⟩

end HeartbeatLoop

/-- The loop loses no trigger in the runs in which no timeout passes over
one. -/
theorem heartbeat_keepsTriggers_iff (nTimeInterval : Int)
    (actions : List HeartbeatLoopAction) :
    HoldsAlong heartbeatLoopStep HeartbeatLoop.KeepsTriggers
        (.start nTimeInterval) actions ↔
      MeetsAlong heartbeatLoopStep HeartbeatLoop.HeedsTriggers
        (.start nTimeInterval) actions := by
  apply holdsAlong_iff_meetsAlong
  · intro before action after valid stepTo
    exact HeartbeatLoop.Valid.step valid stepTo
  · intro before action after valid keeps stepTo
    exact HeartbeatLoop.keepsTriggers_step_iff valid keeps stepTo
  · exact HeartbeatLoop.start_valid nTimeInterval
  · exact HeartbeatLoop.start_keepsTriggers nTimeInterval

/-- A terminate request that fires the waiter as its wait expires: the loop goes
on as after five silent seconds. -/
theorem heartbeat_loses_trigger :
    ¬ HoldsAlong heartbeatLoopStep HeartbeatLoop.KeepsTriggers (.start 10)
        [.waitForMultipleEvents, .register (fun _ => false),
          .register (fun _ => false), .triggerTerminateEvent,
          .scan .terminate, .leave .terminate, .wake true, .pass] := by
  intro along
  have kept := holds_of_execute along rfl
  rcases kept.terminates rfl with recorded | ended
  · rcases recorded with state | ⟨-, heeds⟩
    · cases state
    · cases heeds
  · cases ended

end ArstQuote
