import ArstQuote.GuardedRuns
import ArstQuote.Heartbeat

/-!
# Tearing down a worker thread

`ARSTHeartbeat` and `ARSTRequest` are threads that wait for two events of their
own in a loop and call their owner back.  Their destructors destroy the events
first and ask the thread to end last, and nothing waits for it to do so.  A
worker comes to no harm only if it is past its waits by then, and the owner
only if it is past its callbacks.
-/

namespace ArstQuote

open GuardedRuns

/-- How one pass of a worker's loop ends: with the next wait, after a callback
if there is one, or with a last callback. -/
inductive WorkerPass (Loop Callback : Type)
  | waits (loop : Loop) (callback : Option Callback)
  | ends (callback : Callback)
  deriving DecidableEq

/-- The `Run` of a worker: what a pass does with the result of the wait, and
which results need the terminate event. -/
structure Worker (Loop Result Callback : Type) where
  pass : Loop → Result → WorkerPass Loop Callback
  terminated : Result → Bool

/-- `ARSTHeartbeat::Run`. -/
def heartbeatWorker : Worker Heartbeat WaitResult HeartbeatCallback where
  pass heartbeat result :=
    match heartbeat.pass result with
    | .waits next callback => .waits next callback
    | .ends callback => .ends callback
  terminated result := result = .triggered 1

/-- What `WaitForMultipleEvents` returns to `ARSTRequest::Run`, which passes an
error on. -/
inductive RequestWait
  | error (nResult : Int)
  | timeout
  | triggered (nIndex : Int)
  deriving DecidableEq

/-- The calls an `ARSTRequestCallback` receives. -/
inductive RequestCallback
  | onRequest
  | onRequestError (nData : Int) (pErrorMessage : String)
  deriving DecidableEq

/-- `ARSTRequest::Run`, which has no variables that live longer than a pass. -/
def requestWorker : Worker Unit RequestWait RequestCallback where
  pass _ result :=
    match result with
    | .timeout =>
        .waits () (some (.onRequestError 0 "REQUEST_WAIT_TIMEOUT_ERROR"))
    | .error nResult =>
        .waits () (some (.onRequestError nResult "REQUEST_ERROR_IN_WAIT"))
    | .triggered nIndex =>
        if nIndex = 0 then .waits () (some .onRequest)
        else if nIndex = 1 then .ends (.onRequestError 0 "TERMINATE_REQUEST")
        else .waits () (some
          (.onRequestError nIndex "REQUEST_UNEXPECTED_INDEX_ERROR"))
  terminated result := result = .triggered 1

/-- Where the worker thread is: never started, about to start a wait, in it,
about to call its owner back and then to go on or to return, or past `Run`. -/
inductive WorkerAt (Loop Callback : Type)
  | absent
  | test (loop : Loop)
  | waiting (loop : Loop)
  | calling (callback : Callback) (loop : Option Loop)
  | returned
  deriving DecidableEq

/-- What the owner does while it destroys the worker. -/
inductive DestructorStep
  | triggerTerminate
  | destroyEvent (index : Nat)
  | threadDestructor
  | ownerReturns
  deriving DecidableEq

/-- `~ARSTHeartbeat`, `~ARSTThread` and the end of the owner's destructor. -/
def heartbeatDestructor : List DestructorStep :=
  [.triggerTerminate, .destroyEvent 0, .destroyEvent 1, .threadDestructor,
    .ownerReturns]

/-- `~ARSTRequest`, `~ARSTThread` and the end of the owner's destructor. -/
def requestDestructor : List DestructorStep :=
  [.destroyEvent 0, .destroyEvent 1, .threadDestructor, .ownerReturns]

/-- The owner's destructor does not return before an event is destroyed. -/
def destroysFirst : List DestructorStep → Bool
  | [] | .destroyEvent _ :: _ => true
  | .ownerReturns :: _ => false
  | .triggerTerminate :: rest | .threadDestructor :: rest =>
      destroysFirst rest

/-- A worker and the rest of its destruction, with the events destroyed so far,
whether the terminate event is set, a cancellation is requested and the owner's
destructor has returned, and the callbacks made after that. -/
structure Teardown (Loop Callback : Type) where
  worker : WorkerAt Loop Callback
  destructor : List DestructorStep
  destroyed : List Nat
  terminateEvent : Bool
  cancelled : Bool
  ownerGone : Bool
  lateCalls : List Callback
  deriving DecidableEq

/-- A step of the owner or of the worker, which ends at a cancellation point if
it is asked to. -/
inductive TeardownAction (Result : Type)
  | destroy
  | startWait
  | wake (result : Result)
  | call
  | cancel
  deriving DecidableEq

section Workers

variable {Loop Result Callback : Type}

namespace Teardown

/-- The worker before its destruction, with its thread about to enter `Run` if
`pthread_create` has succeeded. -/
def start (destructor : List DestructorStep) (started : Bool) (loop : Loop) :
    Teardown Loop Callback where
  worker := if started then .test loop else .absent
  destructor := destructor
  destroyed := []
  terminateEvent := false
  cancelled := false
  ownerGone := false
  lateCalls := []

/-- A step of the owner.  `~ARSTThread` cancels the thread if there was one. -/
def destroy (teardown : Teardown Loop Callback) :
    Option (Teardown Loop Callback) :=
  match teardown.destructor with
  | [] => none
  | .triggerTerminate :: rest =>
      some { teardown with destructor := rest, terminateEvent := true }
  | .destroyEvent index :: rest =>
      some { teardown with
        destructor := rest
        destroyed := teardown.destroyed ++ [index] }
  | .threadDestructor :: rest =>
      some { teardown with
        destructor := rest
        cancelled := match teardown.worker with
          | .absent => false
          | _ => true }
  | .ownerReturns :: rest =>
      some { teardown with destructor := rest, ownerGone := true }

/-- The worker once the wait has come back. -/
def wake (worker : Worker Loop Result Callback)
    (teardown : Teardown Loop Callback) (loop : Loop) (result : Result) :
    Option (Teardown Loop Callback) :=
  if worker.terminated result ∧ teardown.terminateEvent = false then none
  else some { teardown with
    terminateEvent := teardown.terminateEvent && !worker.terminated result
    worker := match worker.pass loop result with
      | .waits next none => .test next
      | .waits next (some callback) => .calling callback (some next)
      | .ends callback => .calling callback none }

/-- The worker calls its owner back and goes on with its loop, if at all. -/
def call (teardown : Teardown Loop Callback) (callback : Callback)
    (loop : Option Loop) : Teardown Loop Callback :=
  { teardown with
    lateCalls := teardown.lateCalls ++
      if teardown.ownerGone then [callback] else []
    worker := match loop with
      | some next => .test next
      | none => .returned }

end Teardown

def teardownStep (worker : Worker Loop Result Callback)
    (teardown : Teardown Loop Callback) (action : TeardownAction Result) :
    Option (Teardown Loop Callback) :=
  match action, teardown.worker with
  | .destroy, _ => teardown.destroy
  | .startWait, .test loop => some { teardown with worker := .waiting loop }
  | .wake result, .waiting loop => teardown.wake worker loop result
  | .call, .calling callback loop => some (teardown.call callback loop)
  | .cancel, .waiting _ | .cancel, .calling _ _ =>
      if teardown.cancelled then some { teardown with worker := .returned }
      else none
  | _, _ => none

/-- The worker will not wait again. -/
def WorkerAt.DoneWaiting : WorkerAt Loop Callback → Prop
  | .absent | .calling _ none | .returned => True
  | .test _ | .waiting _ | .calling _ (some _) => False

/-- The worker will make no callback, nor wait. -/
def WorkerAt.Done : WorkerAt Loop Callback → Prop
  | .absent | .returned => True
  | .test _ | .waiting _ | .calling _ _ => False

instance (place : WorkerAt Loop Callback) : Decidable place.DoneWaiting :=
  match place with
  | .absent | .calling _ none | .returned => isTrue trivial
  | .test _ | .waiting _ | .calling _ (some _) => isFalse id

instance (place : WorkerAt Loop Callback) : Decidable place.Done :=
  match place with
  | .absent | .returned => isTrue trivial
  | .test _ | .waiting _ | .calling _ _ => isFalse id

namespace Teardown

/-- The worker is not in a wait for a destroyed event, and no callback came
after the owner's destructor had returned. -/
def Harmless (teardown : Teardown Loop Callback) : Prop :=
  (teardown.destroyed ≠ [] → ∀ loop, teardown.worker ≠ .waiting loop) ∧
    teardown.lateCalls = []

/-- An event is destroyed when the worker will not wait again, and the owner's
destructor returns when the worker will not call again. -/
def LetsFinish (teardown : Teardown Loop Callback) :
    TeardownAction Result → Prop
  | .destroy =>
      match teardown.destructor with
      | .destroyEvent _ :: _ => teardown.worker.DoneWaiting
      | .ownerReturns :: _ => teardown.worker.Done
      | _ => True
  | _ => True

instance (teardown : Teardown Loop Callback) :
    DecidablePred (@LetsFinish Loop Result Callback teardown)
  | .destroy => by
      dsimp only [LetsFinish]
      split <;> infer_instance
  | .startWait | .wake _ | .call | .cancel => isTrue trivial

/-- The invariant of the runs that let the worker finish. -/
structure Orderly (teardown : Teardown Loop Callback) : Prop where
  waits : teardown.destroyed ≠ [] → teardown.worker.DoneWaiting
  calls : teardown.ownerGone = true → teardown.worker.Done
  late : teardown.lateCalls = []
  events : teardown.destroyed = [] → destroysFirst teardown.destructor

theorem start_orderly {destructor : List DestructorStep}
    (first : destroysFirst destructor) (started : Bool) (loop : Loop) :
    (start destructor started loop : Teardown Loop Callback).Orderly := by
  constructor <;> simp [start, first]

theorem Orderly.harmless {teardown : Teardown Loop Callback}
    (orderly : teardown.Orderly) : teardown.Harmless := by
  refine ⟨?_, orderly.late⟩
  intro destroyed loop waiting
  have done := orderly.waits destroyed
  rw [waiting] at done
  exact done

section Steps

variable {worker : Worker Loop Result Callback}
  {teardown next : Teardown Loop Callback}

theorem Orderly.destroy (orderly : teardown.Orderly)
    (lets : teardown.LetsFinish (.destroy : TeardownAction Result))
    (stepTo : teardown.destroy = some next) : next.Orderly := by
  have events := orderly.events
  unfold Teardown.destroy at stepTo
  unfold LetsFinish at lets
  split at stepTo
  case h_1 => cases stepTo
  case h_2 statement =>
    obtain rfl := Option.some.inj stepTo
    rw [statement] at events
    exact ⟨orderly.waits, orderly.calls, orderly.late, events⟩
  case h_3 statement =>
    obtain rfl := Option.some.inj stepTo
    rw [statement] at lets
    exact ⟨fun _ => lets, orderly.calls, orderly.late, by simp⟩
  case h_4 statement =>
    obtain rfl := Option.some.inj stepTo
    rw [statement] at events
    exact ⟨orderly.waits, orderly.calls, orderly.late, events⟩
  case h_5 statement =>
    obtain rfl := Option.some.inj stepTo
    rw [statement] at lets events
    refine ⟨orderly.waits, fun _ => lets, orderly.late, ?_⟩
    intro none
    cases events none

/-- A worker that is in its loop has its events and its owner. -/
theorem Orderly.untouched (orderly : teardown.Orderly)
    (looping : ¬ teardown.worker.DoneWaiting) :
    teardown.destroyed = [] ∧ teardown.ownerGone = false := by
  constructor
  · by_contra destroyed
    exact looping (orderly.waits destroyed)
  · rw [Bool.eq_false_iff]
    intro gone
    apply looping
    have done := orderly.calls gone
    cases place : teardown.worker <;> rw [place] at done <;> trivial

/-- The worker moves inside its loop, whatever comes of the wait. -/
theorem Orderly.loops (orderly : teardown.Orderly)
    (looping : ¬ teardown.worker.DoneWaiting)
    (place : WorkerAt Loop Callback) (terminateEvent : Bool) :
    Orderly { teardown with
      worker := place, terminateEvent := terminateEvent } := by
  obtain ⟨undestroyed, present⟩ := orderly.untouched looping
  constructor
  · intro destroyed
    exact absurd undestroyed destroyed
  · intro gone
    cases present.symm.trans gone
  · exact orderly.late
  · exact orderly.events

theorem Orderly.wake {loop : Loop} {result : Result}
    (orderly : teardown.Orderly) (waiting : teardown.worker = .waiting loop)
    (stepTo : teardown.wake worker loop result = some next) :
    next.Orderly := by
  simp only [Teardown.wake, Option.ite_none_left_eq_some,
    Option.some.injEq] at stepTo
  obtain ⟨-, rfl⟩ := stepTo
  apply orderly.loops
  rw [waiting]
  exact id

/-- A callback is made while the owner is there, and if it is not the last,
while the events are. -/
theorem Orderly.call {callback : Callback} {loop : Option Loop}
    (orderly : teardown.Orderly)
    (calling : teardown.worker = .calling callback loop) :
    (teardown.call callback loop).Orderly := by
  have present : teardown.ownerGone = false := by
    rw [Bool.eq_false_iff]
    intro gone
    have done := orderly.calls gone
    rw [calling] at done
    exact done
  constructor
  · intro destroyed
    have done := orderly.waits destroyed
    rw [calling] at done
    cases loop with
    | none => trivial
    | some next => exact absurd done id
  · intro gone
    cases present.symm.trans gone
  · simp [Teardown.call, present, orderly.late]
  · exact orderly.events

theorem Orderly.step {action : TeardownAction Result}
    (orderly : teardown.Orderly) (lets : teardown.LetsFinish action)
    (stepTo : teardownStep worker teardown action = some next) :
    next.Orderly := by
  unfold teardownStep at stepTo
  split at stepTo
  case h_1 => exact orderly.destroy lets stepTo
  case h_2 loop testing =>
    obtain rfl := Option.some.inj stepTo
    apply orderly.loops
    rw [testing]
    exact id
  case h_3 result loop waiting => exact orderly.wake waiting stepTo
  case h_4 callback loop calling =>
    obtain rfl := Option.some.inj stepTo
    exact orderly.call calling
  case h_5 =>
    simp only [Option.ite_none_right_eq_some, Option.some.injEq] at stepTo
    obtain ⟨-, rfl⟩ := stepTo
    exact ⟨fun _ => trivial, fun _ => trivial, orderly.late, orderly.events⟩
  case h_6 =>
    simp only [Option.ite_none_right_eq_some, Option.some.injEq] at stepTo
    obtain ⟨-, rfl⟩ := stepTo
    exact ⟨fun _ => trivial, fun _ => trivial, orderly.late, orderly.events⟩
  case h_7 => cases stepTo

/-- From a wait to come for an event that is destroyed, the worker gets into
that wait. -/
theorem exists_harm_of_looping (destroyed : teardown.destroyed ≠ [])
    (looping : ¬ teardown.worker.DoneWaiting) :
    ∃ last, Reaches (teardownStep worker) teardown last ∧
      ¬ last.Harmless := by
  cases place : teardown.worker with
  | absent => simp [place, WorkerAt.DoneWaiting] at looping
  | returned => simp [place, WorkerAt.DoneWaiting] at looping
  | waiting loop =>
      refine ⟨teardown, Relation.ReflTransGen.refl, ?_⟩
      intro harmless
      exact harmless.1 destroyed loop place
  | test loop =>
      have waits : teardownStep worker teardown .startWait =
          some { teardown with worker := .waiting loop } := by
        simp [teardownStep, place]
      refine ⟨_, reachesWhen_single trivial waits, ?_⟩
      intro harmless
      exact harmless.1 destroyed loop rfl
  | calling callback loop =>
      cases loop with
      | none => simp [place, WorkerAt.DoneWaiting] at looping
      | some next =>
          have calls : teardownStep worker teardown .call =
              some (teardown.call callback (some next)) := by
            simp [teardownStep, place]
          have waits : teardownStep worker
              (teardown.call callback (some next)) .startWait =
                some { teardown.call callback (some next) with
                  worker := .waiting next } :=
            rfl
          refine ⟨_, (reachesWhen_single trivial calls).trans
            (reachesWhen_single trivial waits), ?_⟩
          intro harmless
          exact harmless.1 destroyed next rfl

/-- A worker about to call an owner that is gone does so. -/
theorem exists_harm_of_calling {callback : Callback} {loop : Option Loop}
    (gone : teardown.ownerGone = true)
    (calling : teardown.worker = .calling callback loop) :
    ∃ last, Reaches (teardownStep worker) teardown last ∧
      ¬ last.Harmless := by
  have calls : teardownStep worker teardown .call =
      some (teardown.call callback loop) := by
    simp [teardownStep, calling]
  refine ⟨_, reachesWhen_single trivial calls, ?_⟩
  intro harmless
  have late := harmless.2
  simp [call, gone] at late

/-- A destructor that does not let the worker finish leaves it on the way to
one of the two. -/
theorem Orderly.exists_harm (orderly : teardown.Orderly)
    (misses : ¬ teardown.LetsFinish (.destroy : TeardownAction Result))
    (stepTo : teardown.destroy = some next) :
    ∃ last, Reaches (teardownStep worker) next last ∧ ¬ last.Harmless := by
  have events := orderly.events
  unfold Teardown.destroy at stepTo
  unfold LetsFinish at misses
  split at stepTo
  case h_1 => cases stepTo
  case h_2 statement => simp [statement] at misses
  case h_3 statement =>
    obtain rfl := Option.some.inj stepTo
    rw [statement] at misses
    exact exists_harm_of_looping (by simp) misses
  case h_4 statement => simp [statement] at misses
  case h_5 statement =>
    obtain rfl := Option.some.inj stepTo
    rw [statement] at misses events
    have destroyed : teardown.destroyed ≠ [] := by
      intro none
      cases events none
    have done := orderly.waits destroyed
    cases place : teardown.worker with
    | absent => simp [place, WorkerAt.Done] at misses
    | returned => simp [place, WorkerAt.Done] at misses
    | test loop => simp [place, WorkerAt.DoneWaiting] at done
    | waiting loop => simp [place, WorkerAt.DoneWaiting] at done
    | calling callback loop =>
        -- The worker is about to make its last callback.
        cases loop with
        | some loop => simp [place, WorkerAt.DoneWaiting] at done
        | none => exact exists_harm_of_calling rfl rfl

end Steps

end Teardown

/-- A worker whose destruction always lets it finish comes to no harm and does
none. -/
theorem Teardown.harmless_of_letsFinish
    (worker : Worker Loop Result Callback)
    {destructor : List DestructorStep} (first : destroysFirst destructor)
    {started : Bool} {loop : Loop} {actions : List (TeardownAction Result)}
    (lets : MeetsAlong (teardownStep worker) Teardown.LetsFinish
      (.start destructor started loop) actions) :
    HoldsAlong (teardownStep worker) Teardown.Harmless
      (.start destructor started loop) actions := by
  apply holdsAlong_of_meetsAlong _ _
    (Teardown.start_orderly first started loop) lets
  · intro teardown orderly
    exact orderly.harmless
  · intro teardown action next orderly met stepTo
    exact orderly.step met stepTo

end Workers

end ArstQuote
