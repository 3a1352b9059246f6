import ArstQuote.GuardedRuns

/-!
# Events with several waiting places

The events that one thread waits for with `WaitForMultipleEvents`, while any
number of others set them.  A call of `SetEvent` on an auto-reset event
consumes the event on behalf of the waiter it finds registered, and tells the
waiter so in `FiredEvent`; but the waiter also hears from its own timeout.
-/

namespace PosixEvents

open Function

variable {Index : Type*} [DecidableEq Index]

/-- Where the call of `SetEvent` is that has the mutex of an event. -/
inductive SetEventAt
  | nowhere
  | scanning
  | leaving
  deriving DecidableEq

/-- An event: its `State`, the waiters in its `RegisteredWaits` by their
numbers, and who has its mutex. -/
structure PosixEvent where
  state : Bool
  registeredWaits : List Nat
  setEventAt : SetEventAt
  deriving DecidableEq

/-- Where the waiting thread is: outside of `WaitForMultipleEvents`, about to
take the mutex of an event with those after it still to come, waiting for its
condition, about to return for an event that it found set, or returned. -/
inductive WaitAt (Index : Type*)
  | outside
  | registering (event : Index) (later : List Index)
  | waiting
  | finishing
  | returned (timedOut : Bool)
  deriving DecidableEq

/-- The waiting thread holds the mutex of its waiter. -/
def WaitAt.locked : WaitAt Index → Bool
  | .registering _ _ | .finishing => true
  | .outside | .waiting | .returned _ => false

/-- The wait is not over, or it is over and `FiredEvent` counts. -/
def WaitAt.heeds : WaitAt Index → Bool
  | .waiting | .finishing | .returned false => true
  | .outside | .registering _ _ | .returned true => false

/-- The events with the waiting thread and its latest waiter, whose number,
`StillWaiting` and `FiredEvent` are kept; every earlier waiter has stopped
waiting.  An event is pending when it was set after the thread last took it. -/
structure Waits (Index : Type*) where
  events : Index → PosixEvent
  waitAt : WaitAt Index
  waiter : Nat
  stillWaiting : Bool
  firedEvent : Option Index
  pending : Index → Bool

inductive WaitsAction (Index : Type*)
  | setEvent (event : Index)
  | scan (event : Index)
  | leave (event : Index)
  | waitFor (event : Index) (later : List Index)
  | register (kept : Nat → Bool)
  | wake (timedOut : Bool)
  | finish
  | take

namespace Waits

/-- Two auto-reset events after `CreateEvent`, before the first wait. -/
def start : Waits Index where
  events _ := ⟨false, [], .nowhere⟩
  waitAt := .outside
  waiter := 0
  stillWaiting := false
  firedEvent := none
  pending _ := false

def withEvent (waits : Waits Index) (event : Index) (posixEvent : PosixEvent) :
    Waits Index :=
  { waits with events := update waits.events event posixEvent }

/-- `SetEvent` gets the mutex of the event. -/
def setEvent (waits : Waits Index) (event : Index) : Option (Waits Index) :=
  if (waits.events event).setEventAt = .nowhere then
    some { waits.withEvent event { waits.events event with
        state := true
        setEventAt := .scanning } with
      pending := update waits.pending event true }
  else none

/-- One iteration of the loop in `SetEvent`, which needs the mutex of the waiter
it looks at. -/
def scan (waits : Waits Index) (event : Index) : Option (Waits Index) :=
  let posixEvent := waits.events event
  if posixEvent.setEventAt = .scanning then
    match posixEvent.registeredWaits with
    | [] =>
        some (waits.withEvent event { posixEvent with setEventAt := .leaving })
    | waiter :: rest =>
        if waiter = waits.waiter then
          if waits.waitAt.locked then none
          else if waits.stillWaiting then
            some { waits.withEvent event ⟨false, rest, .leaving⟩ with
              stillWaiting := false
              firedEvent := some event }
          else some (waits.withEvent event
            { posixEvent with registeredWaits := rest })
        else some (waits.withEvent event
          { posixEvent with registeredWaits := rest })
  else none

/-- `SetEvent` unlocks the mutex of the event. -/
def leave (waits : Waits Index) (event : Index) : Option (Waits Index) :=
  if (waits.events event).setEventAt = .leaving then
    some (waits.withEvent event
      { waits.events event with setEventAt := .nowhere })
  else none

/-- `WaitForMultipleEvents` makes a new waiter and locks its mutex. -/
def waitFor (waits : Waits Index) (event : Index) (later : List Index) :
    Option (Waits Index) :=
  if waits.waitAt = .outside then
    some { waits with
      waitAt := .registering event later
      waiter := waits.waiter + 1
      stillWaiting := true
      firedEvent := none }
  else none

/-- `RegisteredWaits` without the expired waiters, except those that another
thread has locked at the moment. -/
def cleaned (waits : Waits Index) (event : Index) (kept : Nat → Bool) :
    List Nat :=
  (waits.events event).registeredWaits.filter fun waiter =>
    waiter = waits.waiter ∨ kept waiter

/-- One iteration of the loop that looks at the events and registers the
waiter. -/
def register (waits : Waits Index) (kept : Nat → Bool) :
    Option (Waits Index) :=
  match waits.waitAt with
  | .registering event later =>
      let posixEvent := waits.events event
      if posixEvent.setEventAt = .nowhere then
        if posixEvent.state then
          some { waits.withEvent event { posixEvent with
              state := false
              registeredWaits := waits.cleaned event kept } with
            firedEvent := some event
            waitAt := .finishing }
        else
          some { waits.withEvent event { posixEvent with
              registeredWaits := waits.cleaned event kept ++ [waits.waiter] }
            with
            waitAt :=
              match later with
              | [] => .waiting
              | next :: later => .registering next later }
      else none
  | .outside | .waiting | .finishing | .returned _ => none

/-- `pthread_cond_timedwait` returns.  Unless it reports a timeout, the thread
goes on waiting as long as `FiredEvent` is not set. -/
def wake (waits : Waits Index) (timedOut : Bool) : Option (Waits Index) :=
  if waits.waitAt = .waiting then
    if timedOut then
      some { waits with
        waitAt := .returned true
        stillWaiting := false }
    else if waits.firedEvent.isSome then
      some { waits with
        waitAt := .returned false
        stillWaiting := false }
    else some waits
  else none

/-- `WaitForMultipleEvents` returns for an event that it found set. -/
def finish (waits : Waits Index) : Option (Waits Index) :=
  if waits.waitAt = .finishing then
    some { waits with
      waitAt := .returned false
      stillWaiting := false }
  else none

/-- The event that the thread takes from its wait. -/
def taken (waits : Waits Index) : Option Index :=
  if waits.waitAt = .returned false then waits.firedEvent else none

/-- The thread takes the result of its wait. -/
def take (waits : Waits Index) : Option (Waits Index) :=
  match waits.waitAt with
  | .returned _ =>
      some { waits with
        waitAt := .outside
        pending := fun event =>
          waits.pending event && waits.taken ≠ some event }
  | .outside | .registering _ _ | .waiting | .finishing => none

end Waits

def waitsStep (waits : Waits Index) : WaitsAction Index → Option (Waits Index)
  | .setEvent event => waits.setEvent event
  | .scan event => waits.scan event
  | .leave event => waits.leave event
  | .waitFor event later => waits.waitFor event later
  | .register kept => waits.register kept
  | .wake timedOut => waits.wake timedOut
  | .finish => waits.finish
  | .take => waits.take

/-- The event is set, or `FiredEvent` names it and counts. -/
def Waits.Recorded (waits : Waits Index) (event : Index) : Prop :=
  (waits.events event).state = true ∨
    (waits.firedEvent = some event ∧ waits.waitAt.heeds = true)

/-- Every pending event is recorded. -/
def Waits.KeepsPending (waits : Waits Index) : Prop :=
  ∀ event, waits.pending event = true → waits.Recorded event

/-- A wait that times out has not been fired, or the event it was fired for is
set again. -/
def Heeded (waits : Waits Index) : WaitsAction Index → Prop
  | .wake true => ∀ event, waits.firedEvent = some event →
      (waits.events event).state = true
  | .wake false | .setEvent _ | .scan _ | .leave _ | .waitFor _ _
  | .register _ | .finish | .take => True

/-- Which waits can be fired, and for which events. -/
structure Waits.Valid (waits : Waits Index) : Prop where
  scanning : ∀ event, (waits.events event).setEventAt = .scanning →
    (waits.events event).state = true
  numbered : ∀ event, ∀ waiter ∈ (waits.events event).registeredWaits,
    waiter ≤ waits.waiter
  ended : (waits.waitAt = .outside ∨ ∃ timedOut,
    waits.waitAt = .returned timedOut) → waits.stillWaiting = false
  registering : ∀ event later, waits.waitAt = .registering event later →
    waits.firedEvent = none
  unfired : waits.waitAt = .waiting → waits.stillWaiting = true →
    waits.firedEvent = none
  fired : waits.waitAt = .waiting → ∀ event, waits.firedEvent = some event →
    waits.pending event = true
  scanned : ∀ event, (waits.events event).setEventAt = .scanning →
    waits.stillWaiting = true →
    waits.waiter ∈ (waits.events event).registeredWaits →
    waits.pending event = true

namespace Waits

variable {waits next : Waits Index} {event : Index}

@[simp] theorem withEvent_waitAt (posixEvent : PosixEvent) :
    (waits.withEvent event posixEvent).waitAt = waits.waitAt := rfl

@[simp] theorem withEvent_waiter (posixEvent : PosixEvent) :
    (waits.withEvent event posixEvent).waiter = waits.waiter := rfl

@[simp] theorem withEvent_stillWaiting (posixEvent : PosixEvent) :
    (waits.withEvent event posixEvent).stillWaiting = waits.stillWaiting := rfl

@[simp] theorem withEvent_firedEvent (posixEvent : PosixEvent) :
    (waits.withEvent event posixEvent).firedEvent = waits.firedEvent := rfl

@[simp] theorem withEvent_pending (posixEvent : PosixEvent) :
    (waits.withEvent event posixEvent).pending = waits.pending := rfl

theorem events_withEvent (posixEvent : PosixEvent) (other : Index) :
    (waits.withEvent event posixEvent).events other =
      if other = event then posixEvent else waits.events other := by
  simp [withEvent, update_apply]

/-- `SetEvent` sets the event and starts to look at its waiters. -/
theorem setEvent_cases (stepTo : waits.setEvent event = some next) :
    (waits.events event).setEventAt = .nowhere ∧
      next = { waits.withEvent event { waits.events event with
          state := true
          setEventAt := .scanning } with
        pending := update waits.pending event true } := by
  simp only [setEvent, Option.ite_none_right_eq_some,
    Option.some.injEq] at stepTo
  exact ⟨stepTo.1, stepTo.2.symm⟩

theorem leave_cases (stepTo : waits.leave event = some next) :
    (waits.events event).setEventAt = .leaving ∧
      next = waits.withEvent event
        { waits.events event with setEventAt := .nowhere } := by
  simp only [leave, Option.ite_none_right_eq_some,
    Option.some.injEq] at stepTo
  exact ⟨stepTo.1, stepTo.2.symm⟩

theorem waitFor_cases {later : List Index}
    (stepTo : waits.waitFor event later = some next) :
    waits.waitAt = .outside ∧
      next = { waits with
        waitAt := .registering event later
        waiter := waits.waiter + 1
        stillWaiting := true
        firedEvent := none } := by
  simp only [waitFor, Option.ite_none_right_eq_some,
    Option.some.injEq] at stepTo
  exact ⟨stepTo.1, stepTo.2.symm⟩

/-- Everything the end of a timed wait can do: report the timeout, whatever
`FiredEvent` says, return for the event fired for, or wait again. -/
theorem wake_cases {timedOut : Bool}
    (stepTo : waits.wake timedOut = some next) :
    waits.waitAt = .waiting ∧
      ((next = { waits with
          waitAt := .returned timedOut
          stillWaiting := false }) ∨
        (timedOut = false ∧ next = waits)) := by
  simp only [wake, Option.ite_none_right_eq_some] at stepTo
  obtain ⟨waiting, stepTo⟩ := stepTo
  refine ⟨waiting, ?_⟩
  cases timedOut with
  | true => exact .inl (Option.some.inj stepTo).symm
  | false =>
      simp only [Bool.false_eq_true, if_false] at stepTo
      split_ifs at stepTo
      · exact .inl (Option.some.inj stepTo).symm
      · exact .inr ⟨rfl, (Option.some.inj stepTo).symm⟩

theorem finish_cases (stepTo : waits.finish = some next) :
    waits.waitAt = .finishing ∧
      next = { waits with
        waitAt := .returned false
        stillWaiting := false } := by
  simp only [finish, Option.ite_none_right_eq_some,
    Option.some.injEq] at stepTo
  exact ⟨stepTo.1, stepTo.2.symm⟩

/-- The thread takes its result only once its wait has returned. -/
theorem take_cases (stepTo : waits.take = some next) :
    ∃ timedOut, waits.waitAt = .returned timedOut ∧
      next = { waits with
        waitAt := .outside
        pending := fun event =>
          waits.pending event && waits.taken ≠ some event } := by
  cases waitAt : waits.waitAt with
  | returned timedOut =>
      simp only [take, waitAt, Option.some.injEq] at stepTo
      exact ⟨timedOut, rfl, stepTo.symm⟩
  | outside | registering | waiting | finishing => simp [take, waitAt] at stepTo

/-- Everything an iteration of `SetEvent` can do: find no waiter, fire the
waiter, or pass over one that has expired. -/
theorem scan_cases (stepTo : waits.scan event = some next) :
    (waits.events event).setEventAt = .scanning ∧
      (((waits.events event).registeredWaits = [] ∧
          next = waits.withEvent event
            { waits.events event with setEventAt := .leaving }) ∨
        (∃ rest, (waits.events event).registeredWaits =
            waits.waiter :: rest ∧ waits.waitAt.locked = false ∧
          waits.stillWaiting = true ∧
          next = { waits.withEvent event ⟨false, rest, .leaving⟩ with
            stillWaiting := false
            firedEvent := some event }) ∨
        ∃ waiter rest, (waits.events event).registeredWaits =
            waiter :: rest ∧
          (waiter = waits.waiter → waits.stillWaiting = false) ∧
          next = waits.withEvent event
            { waits.events event with registeredWaits := rest }) := by
  simp only [scan, Option.ite_none_right_eq_some] at stepTo
  obtain ⟨scanning, stepTo⟩ := stepTo
  refine ⟨scanning, ?_⟩
  cases registered : (waits.events event).registeredWaits with
  | nil =>
      left
      simpa [registered, eq_comm] using stepTo
  | cons waiter rest =>
      right
      simp only [registered] at stepTo
      split at stepTo
      case isTrue current =>
        simp only [Option.ite_none_left_eq_some, Bool.not_eq_true] at stepTo
        obtain ⟨unlocked, stepTo⟩ := stepTo
        cases still : waits.stillWaiting with
        | true =>
            left
            simp only [still, if_true, Option.some.injEq] at stepTo
            exact ⟨rest, by rw [current], unlocked, rfl, stepTo.symm⟩
        | false =>
            right
            simp only [still, Bool.false_eq_true, if_false,
              Option.some.injEq] at stepTo
            exact ⟨waiter, rest, rfl, fun _ => rfl, stepTo.symm⟩
      case isFalse other =>
        right
        simp only [Option.some.injEq] at stepTo
        exact ⟨waiter, rest, rfl, fun same => absurd same other, stepTo.symm⟩

/-- Everything an iteration of the registering loop can do: take the event, or
register the waiter with it. -/
theorem register_cases {kept : Nat → Bool}
    (stepTo : waits.register kept = some next) :
    ∃ event later, waits.waitAt = .registering event later ∧
      (waits.events event).setEventAt = .nowhere ∧
      (((waits.events event).state = true ∧
          next = { waits.withEvent event { waits.events event with
              state := false
              registeredWaits := waits.cleaned event kept } with
            firedEvent := some event
            waitAt := .finishing }) ∨
        ((waits.events event).state = false ∧ ∃ waitAt,
          (waitAt = .waiting ∨
            ∃ next later, waitAt = .registering next later) ∧
          next = { waits.withEvent event { waits.events event with
              registeredWaits := waits.cleaned event kept ++ [waits.waiter] }
            with
            waitAt := waitAt })) := by
  cases waitAt : waits.waitAt with
  | registering event later =>
      simp only [register, waitAt, Option.ite_none_right_eq_some] at stepTo
      obtain ⟨free, stepTo⟩ := stepTo
      refine ⟨event, later, rfl, free, ?_⟩
      split at stepTo
      case isTrue state =>
        left
        exact ⟨state, (Option.some.inj stepTo).symm⟩
      case isFalse state =>
        right
        refine ⟨by simpa using state, _, ?_, (Option.some.inj stepTo).symm⟩
        cases later <;> simp
  | outside | waiting | finishing | returned => simp [register, waitAt] at stepTo

omit [DecidableEq Index] in
theorem start_valid : (start : Waits Index).Valid := by
  constructor <;> simp [start]

/-- What has to hold of an event that is replaced. -/
theorem Valid.withEvent (valid : waits.Valid) {posixEvent : PosixEvent}
    (scanning : posixEvent.setEventAt = .scanning → posixEvent.state = true)
    (numbered : ∀ waiter ∈ posixEvent.registeredWaits,
      waiter ≤ waits.waiter)
    (scanned : posixEvent.setEventAt = .scanning →
      waits.stillWaiting = true →
      waits.waiter ∈ posixEvent.registeredWaits →
      waits.pending event = true) :
    (waits.withEvent event posixEvent).Valid := by
  refine ⟨?_, ?_, valid.ended, valid.registering, valid.unfired, valid.fired,
    ?_⟩
  all_goals
    intro other
    rw [events_withEvent]
    by_cases same : other = event
  · simpa only [same, if_true] using scanning
  · simpa only [same, if_false] using valid.scanning other
  · simpa only [same, if_true, withEvent_waiter] using numbered
  · simpa only [same, if_false, withEvent_waiter] using valid.numbered other
  · simpa only [same, if_true, withEvent_waiter, withEvent_stillWaiting,
      withEvent_pending] using scanned
  · simpa only [same, if_false, withEvent_waiter, withEvent_stillWaiting,
      withEvent_pending] using valid.scanned other

/-- A pending event more does no harm. -/
theorem Valid.setPending (valid : waits.Valid) :
    Valid { waits with pending := update waits.pending event true } := by
  have more (other : Index) (before : waits.pending other = true) :
      update waits.pending event true other = true := by
    by_cases same : other = event
    · simp [same]
    · simpa [same] using before
  refine ⟨valid.scanning, valid.numbered, valid.ended, valid.registering,
    valid.unfired, ?_, ?_⟩
  · intro waiting other fired
    exact more other (valid.fired waiting other fired)
  · intro other scanning still registered
    exact more other (valid.scanned other scanning still registered)

theorem Valid.setEvent (valid : waits.Valid)
    (stepTo : waits.setEvent event = some next) : next.Valid := by
  obtain ⟨-, rfl⟩ := setEvent_cases stepTo
  apply valid.setPending.withEvent
  · exact fun _ => rfl
  · exact valid.numbered event
  · intro _ _ _
    exact update_self event true waits.pending

theorem Valid.scan (valid : waits.Valid)
    (stepTo : waits.scan event = some next) : next.Valid := by
  obtain ⟨scanning, outcome⟩ := scan_cases stepTo
  have numbered := valid.numbered event
  have scanned := valid.scanned event scanning
  rcases outcome with ⟨empty, rfl⟩ | ⟨rest, found, unlocked, still, rfl⟩ |
      ⟨waiter, rest, found, expired, rfl⟩
  · apply valid.withEvent
    · simp
    · simp [empty]
    · simp
  · have pending : waits.pending event = true := scanned still (by simp [found])
    have passed : (waits.withEvent event ⟨false, rest, .leaving⟩).Valid := by
      apply valid.withEvent
      · simp
      · intro other member
        exact numbered other (by simp [found, member])
      · simp
    refine ⟨passed.scanning, passed.numbered, fun _ => rfl, ?_, by simp, ?_,
      by simp⟩
    · intro first later registering
      have locked : waits.waitAt.locked = true := by
        rw [show waits.waitAt = _ from registering]
        rfl
      simp [unlocked] at locked
    · intro _ other fired
      obtain rfl := Option.some.inj fired
      exact pending
  · apply valid.withEvent
    · intro _
      exact valid.scanning event scanning
    · intro other member
      exact numbered other (by simp [found, member])
    · intro _ still member
      exact scanned still (by simp [found, member])

theorem Valid.leave (valid : waits.Valid)
    (stepTo : waits.leave event = some next) : next.Valid := by
  obtain ⟨-, rfl⟩ := leave_cases stepTo
  apply valid.withEvent
  · simp
  · exact valid.numbered event
  · simp

/-- A new waiter is registered nowhere. -/
theorem Valid.waitFor {later : List Index} (valid : waits.Valid)
    (stepTo : waits.waitFor event later = some next) : next.Valid := by
  obtain ⟨-, rfl⟩ := waitFor_cases stepTo
  refine ⟨valid.scanning, ?_, by simp, by simp, by simp, by simp, ?_⟩
  · intro other waiter member
    exact Nat.le_succ_of_le (valid.numbered other waiter member)
  · intro other _ _ member
    have old := valid.numbered other _ member
    exact absurd old (Nat.not_succ_le_self waits.waiter)

theorem Valid.register {kept : Nat → Bool} (valid : waits.Valid)
    (stepTo : waits.register kept = some next) : next.Valid := by
  obtain ⟨event, later, registering, free, outcome⟩ := register_cases stepTo
  have unfired := valid.registering event later registering
  have remaining : ∀ waiter ∈ waits.cleaned event kept,
      waiter ≤ waits.waiter := by
    intro waiter member
    exact valid.numbered event waiter (List.mem_of_mem_filter member)
  rcases outcome with ⟨-, rfl⟩ | ⟨-, waitAt, place, rfl⟩
  · have cleaned : (waits.withEvent event { waits.events event with
        state := false
        registeredWaits := waits.cleaned event kept }).Valid := by
      apply valid.withEvent
      · simp [free]
      · exact remaining
      · simp [free]
    exact ⟨cleaned.scanning, cleaned.numbered, by simp, by simp, by simp,
      by simp, cleaned.scanned⟩
  · have registered : (waits.withEvent event { waits.events event with
        registeredWaits :=
          waits.cleaned event kept ++ [waits.waiter] }).Valid := by
      apply valid.withEvent
      · simp [free]
      · intro waiter member
        rcases List.mem_append.mp member with old | new
        · exact remaining waiter old
        · exact Nat.le_of_eq (List.mem_singleton.mp new)
      · simp [free]
    refine ⟨registered.scanning, registered.numbered, ?_, fun _ _ _ => unfired,
      fun _ _ => unfired, ?_, registered.scanned⟩
    · rintro (outside | ⟨timedOut, returned⟩)
      · rcases place with rfl | ⟨next, later, rfl⟩ <;> simp at outside
      · rcases place with rfl | ⟨next, later, rfl⟩ <;> simp at returned
    · intro _ other fired
      simp [unfired] at fired

omit [DecidableEq Index] in
/-- Once the wait is over, only the events themselves matter. -/
theorem Valid.over (valid : waits.Valid) (events : next.events = waits.events)
    (waiter : next.waiter = waits.waiter)
    (place : next.waitAt = .outside ∨ ∃ timedOut,
      next.waitAt = .returned timedOut)
    (still : next.stillWaiting = false) : next.Valid := by
  constructor
  · exact events ▸ valid.scanning
  · exact events ▸ waiter ▸ valid.numbered
  · exact fun _ => still
  · rcases place with outside | ⟨timedOut, returned⟩ <;> simp [*]
  · simp [still]
  · rcases place with outside | ⟨timedOut, returned⟩ <;> simp [*]
  · simp [still]

theorem Valid.wake {timedOut : Bool} (valid : waits.Valid)
    (stepTo : waits.wake timedOut = some next) : next.Valid := by
  obtain ⟨-, rfl | ⟨-, rfl⟩⟩ := wake_cases stepTo
  · exact valid.over rfl rfl (.inr ⟨timedOut, rfl⟩) rfl
  · exact valid

theorem Valid.finish (valid : waits.Valid)
    (stepTo : waits.finish = some next) : next.Valid := by
  obtain ⟨-, rfl⟩ := finish_cases stepTo
  exact valid.over rfl rfl (.inr ⟨false, rfl⟩) rfl

theorem Valid.take (valid : waits.Valid)
    (stepTo : waits.take = some next) : next.Valid := by
  obtain ⟨timedOut, returned, rfl⟩ := take_cases stepTo
  exact valid.over rfl rfl (.inl rfl) (valid.ended (.inr ⟨timedOut, returned⟩))

theorem Valid.step {action : WaitsAction Index} (valid : waits.Valid)
    (stepTo : waitsStep waits action = some next) : next.Valid := by
  cases action with
  | setEvent event => exact valid.setEvent stepTo
  | scan event => exact valid.scan stepTo
  | leave event => exact valid.leave stepTo
  | waitFor event later => exact valid.waitFor stepTo
  | register kept => exact valid.register stepTo
  | wake timedOut => exact valid.wake stepTo
  | finish => exact valid.finish stepTo
  | take => exact valid.take stepTo

omit [DecidableEq Index] in
/-- Pending events stay recorded when no `State` changes and a `FiredEvent`
that counted is kept and goes on counting. -/
theorem KeepsPending.of_same (keeps : waits.KeepsPending)
    (state : ∀ event, (next.events event).state = (waits.events event).state)
    (fired : next.firedEvent = waits.firedEvent)
    (heeds : next.waitAt.heeds = waits.waitAt.heeds)
    (pending : next.pending = waits.pending) : next.KeepsPending := by
  intro event set
  rw [Recorded, state, fired, heeds]
  exact keeps event (pending ▸ set)

/-- Replacing an event by one with the same `State` loses nothing. -/
theorem KeepsPending.withEvent (keeps : waits.KeepsPending)
    {posixEvent : PosixEvent}
    (state : posixEvent.state = (waits.events event).state) :
    (waits.withEvent event posixEvent).KeepsPending := by
  refine keeps.of_same ?_ rfl rfl rfl
  intro other
  rw [events_withEvent]
  split_ifs with same
  · rw [state, same]
  · rfl

omit [DecidableEq Index] in
/-- While no `FiredEvent` counts, a pending event has its `State`. -/
theorem KeepsPending.state_of_not_heeds (keeps : waits.KeepsPending)
    (unheeded : waits.waitAt.heeds = false)
    (pending : waits.pending event = true) :
    (waits.events event).state = true := by
  rcases keeps event pending with state | ⟨-, heeds⟩
  · exact state
  · simp [unheeded] at heeds

theorem KeepsPending.setEvent (keeps : waits.KeepsPending)
    (stepTo : waits.setEvent event = some next) : next.KeepsPending := by
  obtain ⟨-, rfl⟩ := setEvent_cases stepTo
  intro other pending
  by_cases same : other = event
  · left
    simp [events_withEvent, same]
  · have before : waits.pending other = true := by
      simpa [update_of_ne same] using pending
    rcases keeps other before with state | fired
    · left
      simpa [events_withEvent, same] using state
    · exact .inr fired

/-- A waiter that is fired waits, so its `FiredEvent` counts. -/
theorem KeepsPending.scan (valid : waits.Valid) (keeps : waits.KeepsPending)
    (stepTo : waits.scan event = some next) : next.KeepsPending := by
  obtain ⟨-, outcome⟩ := scan_cases stepTo
  rcases outcome with ⟨-, rfl⟩ | ⟨rest, -, unlocked, still, rfl⟩ |
      ⟨waiter, rest, -, -, rfl⟩
  · exact keeps.withEvent rfl
  · have waiting : waits.waitAt = .waiting := by
      cases place : waits.waitAt with
      | waiting => rfl
      | registering | finishing => simp [place, WaitAt.locked] at unlocked
      | outside => simp [valid.ended (.inl place)] at still
      | returned timedOut =>
          simp [valid.ended (.inr ⟨timedOut, place⟩)] at still
    have unfired := valid.unfired waiting still
    intro other pending
    by_cases same : other = event
    · right
      exact ⟨congrArg some same.symm, by simp [waiting, WaitAt.heeds]⟩
    · left
      rcases keeps other pending with state | ⟨fired, -⟩
      · simpa [events_withEvent, same] using state
      · simp [unfired] at fired
  · exact keeps.withEvent rfl

theorem KeepsPending.leave (keeps : waits.KeepsPending)
    (stepTo : waits.leave event = some next) : next.KeepsPending := by
  obtain ⟨-, rfl⟩ := leave_cases stepTo
  exact keeps.withEvent rfl

theorem KeepsPending.waitFor {later : List Index} (keeps : waits.KeepsPending)
    (stepTo : waits.waitFor event later = some next) : next.KeepsPending := by
  obtain ⟨outside, rfl⟩ := waitFor_cases stepTo
  intro other pending
  left
  exact keeps.state_of_not_heeds (by simp [outside, WaitAt.heeds]) pending

theorem KeepsPending.register {kept : Nat → Bool} (keeps : waits.KeepsPending)
    (stepTo : waits.register kept = some next) : next.KeepsPending := by
  obtain ⟨event, later, registering, -, outcome⟩ := register_cases stepTo
  have unheeded : waits.waitAt.heeds = false := by
    simp [registering, WaitAt.heeds]
  intro other pending
  rcases outcome with ⟨-, rfl⟩ | ⟨-, waitAt, -, rfl⟩
  · have state := keeps.state_of_not_heeds unheeded pending
    by_cases same : other = event
    · right
      exact ⟨congrArg some same.symm, rfl⟩
    · left
      simpa [events_withEvent, same] using state
  · left
    have state := keeps.state_of_not_heeds unheeded pending
    by_cases same : other = event
    · subst same
      simpa [events_withEvent] using state
    · simpa [events_withEvent, same] using state

/-- After a timeout only the `State` of an event counts. -/
theorem keepsPending_wake_iff {timedOut : Bool} (valid : waits.Valid)
    (keeps : waits.KeepsPending) (stepTo : waits.wake timedOut = some next) :
    next.KeepsPending ↔ Heeded waits (.wake timedOut) := by
  obtain ⟨waiting, rfl | ⟨rfl, rfl⟩⟩ := wake_cases stepTo
  · cases timedOut with
    | true =>
        constructor
        · intro kept event fired
          rcases kept event (valid.fired waiting event fired) with
            state | ⟨-, heeds⟩
          · exact state
          · simp [WaitAt.heeds] at heeds
        · intro heeded event pending
          left
          rcases keeps event pending with state | ⟨fired, -⟩
          · exact state
          · exact heeded event fired
    | false =>
        refine iff_of_true ?_ trivial
        exact keeps.of_same (fun _ => rfl) rfl
          (by simp [waiting, WaitAt.heeds]) rfl
  · exact iff_of_true keeps trivial

theorem KeepsPending.finish (keeps : waits.KeepsPending)
    (stepTo : waits.finish = some next) : next.KeepsPending := by
  obtain ⟨finishing, rfl⟩ := finish_cases stepTo
  exact keeps.of_same (fun _ => rfl) rfl
    (by simp [finishing, WaitAt.heeds]) rfl

/-- The event that the thread takes is the one that is not pending any more. -/
theorem KeepsPending.take (keeps : waits.KeepsPending)
    (stepTo : waits.take = some next) : next.KeepsPending := by
  obtain ⟨timedOut, returned, rfl⟩ := take_cases stepTo
  intro event pending
  simp only [Bool.and_eq_true, decide_eq_true_eq] at pending
  left
  rcases keeps event pending.1 with state | ⟨fired, heeds⟩
  · exact state
  · cases timedOut with
    | true => simp [returned, WaitAt.heeds] at heeds
    | false => exact absurd (by simp [taken, returned, fired]) pending.2

/-- The one step that can lose a pending event is a timeout. -/
theorem keepsPending_step_iff {action : WaitsAction Index}
    (valid : waits.Valid) (keeps : waits.KeepsPending)
    (stepTo : waitsStep waits action = some next) :
    next.KeepsPending ↔ Heeded waits action := by
  cases action with
  | setEvent event => exact iff_of_true (keeps.setEvent stepTo) trivial
  | scan event => exact iff_of_true (keeps.scan valid stepTo) trivial
  | leave event => exact iff_of_true (keeps.leave stepTo) trivial
  | waitFor event later => exact iff_of_true (keeps.waitFor stepTo) trivial
  | register kept => exact iff_of_true (keeps.register stepTo) trivial
  | wake timedOut => exact keepsPending_wake_iff valid keeps stepTo
  | finish => exact iff_of_true (keeps.finish stepTo) trivial
  | take => exact iff_of_true (keeps.take stepTo) trivial

omit [DecidableEq Index] in
theorem start_keepsPending : (start : Waits Index).KeepsPending := by
  intro event pending
  simp [start] at pending

/-- An event stays pending until the thread takes it. -/
theorem pending_of_step {action : WaitsAction Index}
    (pending : waits.pending event = true)
    (stepTo : waitsStep waits action = some next) :
    next.pending event = true ∨
      (action = .take ∧ waits.taken = some event) := by
  cases action with
  | setEvent set =>
      obtain ⟨-, rfl⟩ := setEvent_cases stepTo
      left
      by_cases same : event = set
      · simp [same]
      · simpa [update_of_ne same] using pending
  | scan scanned =>
      obtain ⟨-, ⟨-, rfl⟩ | ⟨rest, -, -, -, rfl⟩ | ⟨waiter, rest, -, -, rfl⟩⟩ :=
        scan_cases stepTo
      all_goals exact .inl pending
  | leave left =>
      obtain ⟨-, rfl⟩ := leave_cases stepTo
      exact .inl pending
  | waitFor first later =>
      obtain ⟨-, rfl⟩ := waitFor_cases stepTo
      exact .inl pending
  | register kept =>
      obtain ⟨first, later, -, -, ⟨-, rfl⟩ | ⟨-, waitAt, -, rfl⟩⟩ :=
        register_cases stepTo
      all_goals exact .inl pending
  | wake timedOut =>
      obtain ⟨-, rfl | ⟨-, rfl⟩⟩ := wake_cases stepTo
      all_goals exact .inl pending
  | finish =>
      obtain ⟨-, rfl⟩ := finish_cases stepTo
      exact .inl pending
  | take =>
      obtain ⟨timedOut, -, rfl⟩ := take_cases stepTo
      by_cases taken : waits.taken = some event
      · exact .inr ⟨rfl, taken⟩
      · left
        simp [pending, taken]

theorem pending_setEvent (stepTo : waits.setEvent event = some next) :
    next.pending event = true := by
  obtain ⟨-, rfl⟩ := setEvent_cases stepTo
  exact update_self event true waits.pending

/-- The thread comes back to `WaitForMultipleEvents` only by calling it. -/
theorem outside_of_step {action : WaitsAction Index}
    (outside : waits.waitAt = .outside)
    (stepTo : waitsStep waits action = some next) :
    next.waitAt = .outside ∨ ∃ event later, action = .waitFor event later := by
  cases action with
  | setEvent event =>
      obtain ⟨-, rfl⟩ := setEvent_cases stepTo
      exact .inl outside
  | scan event =>
      obtain ⟨-, ⟨-, rfl⟩ | ⟨rest, -, -, -, rfl⟩ | ⟨waiter, rest, -, -, rfl⟩⟩ :=
        scan_cases stepTo
      all_goals exact .inl outside
  | leave event =>
      obtain ⟨-, rfl⟩ := leave_cases stepTo
      exact .inl outside
  | waitFor event later => exact .inr ⟨event, later, rfl⟩
  | register kept => simp [waitsStep, register, outside] at stepTo
  | wake timedOut => simp [waitsStep, wake, outside] at stepTo
  | finish => simp [waitsStep, finish, outside] at stepTo
  | take => simp [waitsStep, take, outside] at stepTo

end Waits

end PosixEvents
