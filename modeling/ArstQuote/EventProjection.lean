import ArstQuote.EventOutcomes
import ArstQuote.PosixEvents
import ArstQuote.Simulations

/-!
# One waiting thread

What the only thread that waits, for any of several auto-reset events, sees of
the event library: where its own wait is, its latest waiter, and for each event
whether it is set, who is registered and where the call of `SetEvent` is that
has its mutex.
-/

namespace Neosmart

open Function GuardedRuns SharedObjects Simulations
open PosixEvents (PosixEvent SetEventAt WaitAt Waits WaitsAction waitsStep)

variable {Thread Event : Type*}

/-- What is seen of the events from outside: that one was set, or what a wait
has returned, an event or a timeout. -/
inductive Observation (Event : Type*)
  | set (event : Event)
  | result (taken : Option Event)
  deriving DecidableEq

/-- The event that the index which a wait returns stands for. -/
def Wait.taken (wait : Wait Event) (timedOut : Bool) (waitIndex : Int) :
    Option Event :=
  if timedOut then none else wait.events[waitIndex.toNat]?

def Library.observe (library : Library Thread Event) :
    Action Thread Event → List (Observation Event)
  | .setEvent _ event => [.set event]
  | .proceed thread _ =>
      match library.calls thread with
      | .leaving wait timedOut =>
          match library.wfmos wait.wfmo with
          | some wfmo => [.result (wait.taken timedOut wfmo.status)]
          | none => []
      | _ => []
  | _ => []

def observeWaits [DecidableEq Event] (waits : Waits Event) :
    WaitsAction Event → List (Observation Event)
  | .setEvent event => [.set event]
  | .take => [.result waits.taken]
  | _ => []

/-- Nobody but the thread waits, it waits for any of several events, and no
event is reset other than by a wait. -/
def Action.waitsAlone (main : Thread) : Action Thread Event → Prop
  | .waitForMultipleEvents thread events waitAll _ =>
      thread = main ∧ waitAll = false ∧ events ≠ [] ∧ events.Nodup
  | .resetEvent _ _ | .waitForEvent _ _ _ => False
  | _ => True

instance decidableWaitsAlone [DecidableEq Thread] [DecidableEq Event]
    (main : Thread) : DecidablePred
      (Action.waitsAlone main : Action Thread Event → Prop)
  | .waitForMultipleEvents thread events waitAll _ =>
      inferInstanceAs (Decidable
        (thread = main ∧ waitAll = false ∧ events ≠ [] ∧ events.Nodup))
  | .resetEvent _ _ => inferInstanceAs (Decidable False)
  | .waitForEvent _ _ _ => inferInstanceAs (Decidable False)
  | .setEvent _ _ => inferInstanceAs (Decidable True)
  | .proceed _ _ => inferInstanceAs (Decidable True)
  | .notify _ _ => inferInstanceAs (Decidable True)
  | .wake _ _ => inferInstanceAs (Decidable True)

/-- The thread waits for the condition of an event, or is back from it. -/
def CallAt.sleeps : CallAt Event → Bool
  | .sleeping _ _ | .risen _ _ _ => true
  | _ => false

/-- What `waitsAlone` makes of the library. -/
structure Library.Alone (main : Thread) (library : Library Thread Event) :
    Prop where
  waits : ∀ thread wait, (library.calls thread).wait? = some wait →
    thread = main ∧ wait.waitAll = false ∧ wait.events.Nodup ∧
      wait.wfmo + 1 = library.created
  awake : ∀ thread, (library.calls thread).sleeps = false
  auto : ∀ event, (library.events event).autoReset = true

/-- What the waits know of a call of `SetEvent` that has the mutex. -/
def CallAt.setEventAt : CallAt Event → SetEventAt
  | .setting _ => .scanning
  | .signalling _ _ => .leaving
  | _ => .nowhere

/-- The event in which the call cleans up. -/
def CallAt.cleans : CallAt Event → Option Event
  | .cleaning _ event _ => some event
  | _ => none

/-- Where the waits see the waiting thread.  Until a wait that has looked at all
of its events returns, they see it waiting. -/
def CallAt.waitAt : CallAt Event → WaitAt Event
  | .registering wait =>
      match wait.events.drop wait.i with
      | [] => .waiting
      | event :: later => .registering event later
  | .cleaning wait event _ =>
      .registering event (wait.events.drop (wait.i + 1))
  | .waiting _ | .woken _ _ => .waiting
  | .leaving wait timedOut =>
      if timedOut = false ∧ wait.i < wait.events.length then .finishing
      else .waiting
  | .outside | .setting _ | .signalling _ _ | .notifying _ | .sleeping _ _
  | .risen _ _ _ => .outside

/-- The event that `FiredEvent` stands for. -/
def Wait.firedEvent (wait : Wait Event) (status : Int) : Option Event :=
  if status = -1 then none else wait.events[status.toNat]?

/-- `RegisteredWaits` as the waits number the waiters, from one on. -/
def NeosmartEvent.numbers (object : NeosmartEvent Thread) : List Nat :=
  object.registeredWaits.map fun info => info.waiter + 1

def Library.setEventAt (library : Library Thread Event) (event : Event) :
    SetEventAt :=
  match (library.events event).mutex with
  | none => .nowhere
  | some thread => (library.calls thread).setEventAt

/-- The waits know an event.  While the waiting thread cleans up in it they have
all of the waiters that it held before. -/
structure EventShown (object : NeosmartEvent Thread) (cleaned : Prop)
    (place : SetEventAt) (latest : Nat) (posixEvent : PosixEvent) : Prop where
  state : posixEvent.state = object.state
  place : posixEvent.setEventAt = place
  nodup : posixEvent.registeredWaits.Nodup
  kept : object.numbers.Sublist posixEvent.registeredWaits
  same : ¬ cleaned → posixEvent.registeredWaits = object.numbers
  fresh : cleaned → latest ∉ posixEvent.registeredWaits

/-- Outside of a clean-up the waits have the waiters that the event has. -/
theorem EventShown.exact {object : NeosmartEvent Thread} {cleaned : Prop}
    {place : SetEventAt} {latest : Nat} {posixEvent : PosixEvent}
    (state : posixEvent.state = object.state)
    (placed : posixEvent.setEventAt = place)
    (nodup : posixEvent.registeredWaits.Nodup)
    (same : posixEvent.registeredWaits = object.numbers)
    (unclean : ¬ cleaned) :
    EventShown object cleaned place latest posixEvent :=
  ⟨state, placed, nodup, same ▸ List.Sublist.refl _, fun _ => same,
    fun cleaned => absurd cleaned unclean⟩

/-- The waits as the waiting thread sees the library. -/
structure Library.ShownBy (main : Thread) (library : Library Thread Event)
    (waits : Waits Event) : Prop where
  waiter : waits.waiter = library.created
  waitAt : waits.waitAt = (library.calls main).waitAt
  events : ∀ event, EventShown (library.events event)
    ((library.calls main).cleans = some event) (library.setEventAt event)
    waits.waiter (waits.events event)
  latest : ∀ wait wfmo, (library.calls main).wait? = some wait →
    library.wfmos wait.wfmo = some wfmo →
      waits.stillWaiting = wfmo.stillWaiting ∧
        waits.firedEvent = wait.firedEvent wfmo.status
  outside : (library.calls main).wait? = none → waits.stillWaiting = false

namespace Library

variable {library next : Library Thread Event} {action : Action Thread Event}
  {main : Thread}

section Alone

variable [DecidableEq Event] [DecidableEq Thread]

theorem created_eq_of_move (move : Move library action next) :
    next.created = library.created ∨
      ∃ thread events waitAll milliseconds,
        action = .waitForMultipleEvents thread events waitAll milliseconds ∧
          library.calls thread = .outside ∧
          next.created = library.created + 1 := by
  cases move with
  | begin outside => exact .inr ⟨_, _, _, _, rfl, outside, rfl⟩
  | @signal _ _ event =>
      left
      cases auto : (library.events event).autoReset <;> simp [signal, auto]
  | _ => exact .inl rfl

theorem Alone.waits_step (alone : library.Alone main)
    (waitsAlone : action.waitsAlone main) (move : Move library action next)
    (thread : Thread) (wait : Wait Event)
    (waits : (next.calls thread).wait? = some wait) :
    thread = main ∧ wait.waitAll = false ∧ wait.events.Nodup ∧
      wait.wfmo + 1 = next.created := by
  rcases wait_of_move move waits with
    ⟨before, waited, -, rest⟩ | ⟨rfl, outside, number, -⟩
  · obtain ⟨own, any, nodup, latest⟩ := alone.waits thread before waited
    rw [rest]
    refine ⟨own, any, nodup, ?_⟩
    rcases created_eq_of_move move with
      same | ⟨other, events, waitAll, milliseconds, rfl, outside, -⟩
    · rw [same]
      exact latest
    · obtain ⟨rfl, -⟩ := waitsAlone
      subst own
      rw [outside] at waited
      cases waited
  · obtain ⟨own, any, -, nodup⟩ := waitsAlone
    refine ⟨own, any, nodup, ?_⟩
    rcases created_eq_of_move move with
      same | ⟨other, events, waitAll, milliseconds, -, -, more⟩
    · cases move
      rw [number]
      rfl
    · rw [number, more]

theorem Alone.awake_step (alone : library.Alone main)
    (waitsAlone : action.waitsAlone main) (move : Move library action next)
    (thread : Thread) : (next.calls thread).sleeps = false := by
  have awake := alone.awake thread
  by_cases acts : thread = action.thread
  case neg =>
    have signalled := calls_of_move move acts
    generalize (library.calls thread) = before at awake signalled
    generalize (next.calls thread) = after at signalled
    cases signalled with
    | same => exact awake
    | woken => rfl
    | risen => cases awake
  subst acts
  cases move with
  | sleep => exact waitsAlone.elim
  | wakeSleeper call | riseLate call | riseTake call | sleepAgain call =>
      simp [Action.thread, call, CallAt.sleeps] at awake
  | @signal _ _ event =>
      cases auto : (library.events event).autoReset <;>
        simp [Action.thread, signal, auto, CallAt.sleeps]
  | @notifyOne actor event sleeper milliseconds call auto sleeps =>
      have sleeper := alone.awake sleeper
      simp [sleeps, CallAt.sleeps] at sleeper
  | accessFreed | resetEvent | stay | take | expire | remove => exact awake
  | _ => simp [Action.thread, fire, CallAt.broadcast, CallAt.sleeps]

theorem Alone.step (alone : library.Alone main)
    (waitsAlone : action.waitsAlone main) (move : Move library action next) :
    next.Alone main where
  waits := alone.waits_step waitsAlone move
  awake := alone.awake_step waitsAlone move
  auto event := by rw [autoReset_of_move move, alone.auto event]

end Alone

section Frames

variable [DecidableEq Event] [DecidableEq Thread] {waits : Waits Event}
  {event : Event}

omit [DecidableEq Event] [DecidableEq Thread] in
theorem Signalled.views_eq {before after : CallAt Event}
    (signalled : before.Signalled after) :
    after.setEventAt = before.setEventAt ∧ after.cleans = before.cleans ∧
      after.waitAt = before.waitAt := by
  cases signalled <;> exact ⟨rfl, rfl, rfl⟩

omit [DecidableEq Event] [DecidableEq Thread] in
theorem eventHeld_of_cleans {call : CallAt Event}
    (cleans : call.cleans = some event) : call.eventHeld = some event := by
  cases call <;> simp_all [CallAt.cleans]

/-- The waits see no change of an event whose mutex the thread that takes the
step does not have. -/
theorem setEventAt_frame (locks : library.Locks)
    (move : Move library action next)
    (unheld : (library.calls action.thread).eventHeld ≠ some event)
    (same : (next.events event).mutex = (library.events event).mutex) :
    next.setEventAt event = library.setEventAt event := by
  simp only [setEventAt, same]
  cases noted : (library.events event).mutex with
  | none => rfl
  | some thread =>
      have has : (library.calls thread).eventHeld = some event :=
        (locks.events event thread).mp noted
      have other : thread ≠ action.thread := by
        rintro rfl
        exact unheld has
      exact (Signalled.views_eq (calls_of_move move other)).1

theorem cleans_frame (move : Move library action next)
    (unheld : (library.calls action.thread).eventHeld ≠ some event)
    (unheldAfter : (next.calls action.thread).eventHeld ≠ some event) :
    (next.calls main).cleans = some event ↔
      (library.calls main).cleans = some event := by
  by_cases acts : main = action.thread
  · subst acts
    constructor
    · exact fun cleans => absurd (eventHeld_of_cleans cleans) unheldAfter
    · exact fun cleans => absurd (eventHeld_of_cleans cleans) unheld
  · rw [(Signalled.views_eq (calls_of_move move acts)).2.1]

theorem ShownBy.frame (shown : library.ShownBy main waits)
    (locks : library.Locks) (move : Move library action next)
    (unheld : (library.calls action.thread).eventHeld ≠ some event)
    (unheldAfter : (next.calls action.thread).eventHeld ≠ some event)
    (same : next.events event = library.events event) :
    EventShown (next.events event)
      ((next.calls main).cleans = some event) (next.setEventAt event)
      waits.waiter (waits.events event) := by
  have place := setEventAt_frame locks move unheld (by rw [same])
  have cleans : ((next.calls main).cleans = some event) =
      ((library.calls main).cleans = some event) :=
    propext (cleans_frame move unheld unheldAfter)
  rw [same, place, cleans]
  exact shown.events event

/-- A step changes one event, and the thread that takes it has no other. -/
theorem ShownBy.events_put (shown : library.ShownBy main waits)
    (locks : library.Locks) (move : Move library action next) (event : Event)
    {events : Event → PosixEvent}
    (before : ∀ other, (library.calls action.thread).eventHeld = some other →
      other = event)
    (after : ∀ other, (next.calls action.thread).eventHeld = some other →
      other = event)
    (others : ∀ other, other ≠ event →
      next.events other = library.events other ∧
        events other = waits.events other)
    (put : EventShown (next.events event)
      ((next.calls main).cleans = some event) (next.setEventAt event)
      waits.waiter (events event)) (other : Event) :
    EventShown (next.events other) ((next.calls main).cleans = some other)
      (next.setEventAt other) waits.waiter (events other) := by
  by_cases same : other = event
  · exact same ▸ put
  · obtain ⟨untouched, known⟩ := others other same
    rw [known]
    exact shown.frame locks move (fun held => same (before other held))
      (fun held => same (after other held)) untouched

/-- No waiter changes as far as the waits know. -/
def SameWaiters (library next : Library Thread Event) : Prop :=
  ∀ waiter wfmo, next.wfmos waiter = some wfmo →
    ∃ before, library.wfmos waiter = some before ∧
      wfmo.stillWaiting = before.stillWaiting ∧ wfmo.status = before.status

omit [DecidableEq Event] [DecidableEq Thread] in
theorem SameWaiters.of_eq (same : next.wfmos = library.wfmos) :
    library.SameWaiters next := by
  intro waiter wfmo found
  exact ⟨wfmo, same ▸ found, rfl, rfl⟩

/-- The call looks the same to the waits. -/
def Alike (before after : CallAt Event) : Prop :=
  after.waitAt = before.waitAt ∧ after.wait? = before.wait?

theorem alike_of_move (move : Move library action next)
    (alike : Alike (library.calls action.thread) (next.calls action.thread)) :
    Alike (library.calls main) (next.calls main) := by
  by_cases acts : main = action.thread
  · exact acts ▸ alike
  · have signalled := calls_of_move move acts
    exact ⟨(Signalled.views_eq signalled).2.2, signalled.wait?_eq⟩

/-- The waiting thread stays where it was. -/
theorem ShownBy.keep (shown : library.ShownBy main waits)
    (move : Move library action next) {waitsNext : Waits Event}
    (alike : Alike (library.calls action.thread) (next.calls action.thread))
    (wfmos : library.SameWaiters next)
    (created : next.created = library.created)
    (own : waitsNext.waiter = waits.waiter ∧
      waitsNext.waitAt = waits.waitAt ∧
      waitsNext.stillWaiting = waits.stillWaiting ∧
      waitsNext.firedEvent = waits.firedEvent)
    (events : ∀ event, EventShown (next.events event)
      ((next.calls main).cleans = some event) (next.setEventAt event)
      waits.waiter (waitsNext.events event)) :
    next.ShownBy main waitsNext := by
  obtain ⟨waiter, waitAt, stillWaiting, firedEvent⟩ := own
  have same : Alike (library.calls main) (next.calls main) :=
    alike_of_move move alike
  refine ⟨?_, ?_, ?_, ?_, ?_⟩
  · rw [waiter, created, shown.waiter]
  · rw [waitAt, same.1, shown.waitAt]
  · rw [waiter]
    exact events
  · intro wait wfmo waited found
    obtain ⟨before, known, still, status⟩ := wfmos _ _ found
    rw [stillWaiting, firedEvent, still, status]
    exact shown.latest wait before (same.2 ▸ waited) known
  · rw [stillWaiting, same.2]
    exact shown.outside

/-- A step within the calls, of which the waits see nothing. -/
theorem ShownBy.quiet (shown : library.ShownBy main waits)
    (locks : library.Locks) (move : Move library action next)
    (alike : Alike (library.calls action.thread) (next.calls action.thread))
    (wfmos : library.SameWaiters next)
    (created : next.created = library.created)
    (events : next.events = library.events)
    (held : (next.calls action.thread).eventHeld =
      (library.calls action.thread).eventHeld)
    (place : (next.calls action.thread).setEventAt =
      (library.calls action.thread).setEventAt)
    (cleans : (next.calls action.thread).cleans =
      (library.calls action.thread).cleans) :
    next.ShownBy main waits := by
  apply shown.keep move alike wfmos created ⟨rfl, rfl, rfl, rfl⟩
  intro event
  by_cases has : (library.calls action.thread).eventHeld = some event
  · have noted : (library.events event).mutex = some action.thread :=
      (locks.events event action.thread).mpr has
    have here : next.setEventAt event = library.setEventAt event := by
      simp only [setEventAt, events, noted, place]
    have cleaned : (next.calls main).cleans = (library.calls main).cleans := by
      by_cases acts : main = action.thread
      · exact acts ▸ cleans
      · exact (Signalled.views_eq (calls_of_move move acts)).2.1
    rw [events, here, cleaned]
    exact shown.events event
  · exact shown.frame locks move has (held ▸ has) (by rw [events])

end Frames

end Library

end Neosmart
