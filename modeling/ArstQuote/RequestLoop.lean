import ArstQuote.EventSettling
import ArstQuote.EventWakeups
import ArstQuote.WorkerTeardown

/-!
# The request loop

`ARSTRequest::Run` waits for one of its two events without an end, and any
thread triggers them.  No trigger is lost: once nobody is left with a step to
take, the loop has handled every one, or was told to terminate.
-/

namespace ArstQuote

open Function GuardedRuns Neosmart

/-- `m_PEvent[0]` and `m_PEvent[1]`. -/
inductive RequestEvent
  | wakeUp
  | terminate
  deriving DecidableEq

instance : Fintype RequestEvent where
  elems := {.wakeUp, .terminate}
  complete event := by cases event <;> simp

/-- The place of the event in `m_PEvent`. -/
def RequestEvent.index : RequestEvent → Nat
  | .wakeUp => 0
  | .terminate => 1

theorem RequestEvent.index_injective : Function.Injective index := by
  intro first second same
  cases first <;> cases second <;> first | rfl | cases same

/-- `m_PEvent`, as the loop waits for it. -/
def requestEvents : List RequestEvent := [.wakeUp, .terminate]

theorem eq_index_of_getElem? {i : Nat} {event : RequestEvent}
    (named : requestEvents[i]? = some event) : i = event.index := by
  match i with
  | 0 | 1 =>
      obtain rfl := Option.some.inj named
      rfl
  | i + 2 => simp [requestEvents] at named

/-- The callback of a loop that has handled the terminate event. -/
def RequestCallback.terminated : RequestCallback :=
  .onRequestError 0 "TERMINATE_REQUEST"

/-- `nResult` and `nIndex` after the wait. -/
def requestWait (returned : Returned RequestEvent) : RequestWait :=
  if returned.timedOut then .timeout else .triggered returned.waitIndex

/-- The loop with the events of its object and all threads that call it, the
callbacks so far, the latest first, and whether the loop has ended.  An event is
pending when it was triggered after the loop last handled it. -/
structure RequestLoop (Thread : Type*) where
  library : Library Thread RequestEvent
  callbacks : List RequestCallback
  ended : Bool
  pending : RequestEvent → Bool

/-- The triggers, the steps of the loop before and after its waits, and those of
the calls of the library. -/
inductive RequestAction (Thread : Type*)
  | triggerWakeUpEvent (thread : Thread)
  | triggerTerminateEvent (thread : Thread)
  | waitForMultipleEvents
  | pass
  | proceed (thread : Thread) (busy : Bool)
  | notify (thread : Thread) (chosen : Option Thread)
  | wake (thread : Thread) (timedOut : Bool)

namespace RequestLoop

variable {Thread : Type*}

/-- The object after its constructor. -/
def start : RequestLoop Thread where
  library := .start (fun _ => false) fun _ => false
  callbacks := []
  ended := false
  pending _ := false

/-- The result of a wait that the loop has not handled yet. -/
def result? (loop : RequestLoop Thread) : Option (Returned RequestEvent) :=
  if loop.callbacks.length < loop.library.returned.length then
    loop.library.returned.head?
  else none

/-- The loop handles the result of its wait. -/
def pass (loop : RequestLoop Thread) (returned : Returned RequestEvent) :
    RequestLoop Thread :=
  let handled := { loop with
    pending := fun event => loop.pending event &&
      (returned.timedOut || returned.waitIndex ≠ event.index) }
  match requestWorker.pass () (requestWait returned) with
  | .waits _ callback =>
      { handled with callbacks := callback.toList ++ loop.callbacks }
  | .ends callback =>
      { handled with
        callbacks := callback :: loop.callbacks
        ended := true }

variable [DecidableEq Thread] [Fintype Thread]

def perform (loop : RequestLoop Thread) (action : Action Thread RequestEvent) :
    Option (RequestLoop Thread) :=
  (libraryStep loop.library action).map fun library =>
    { loop with library := library }

/-- `TriggerWakeUpEvent` and `TriggerTerminateEvent`, which set an event. -/
def trigger (loop : RequestLoop Thread) (thread : Thread)
    (event : RequestEvent) : Option (RequestLoop Thread) :=
  (libraryStep loop.library (.setEvent thread event)).map fun library =>
    { loop with
      library := library
      pending := update loop.pending event true }

end RequestLoop

section Steps

variable {Thread : Type*} [DecidableEq Thread] [Fintype Thread]

def requestLoopStep (runner : Thread) (loop : RequestLoop Thread) :
    RequestAction Thread → Option (RequestLoop Thread)
  | .triggerWakeUpEvent thread => loop.trigger thread .wakeUp
  | .triggerTerminateEvent thread => loop.trigger thread .terminate
  | .waitForMultipleEvents =>
      if loop.ended || loop.result?.isSome then none
      else loop.perform
        (.waitForMultipleEvents runner requestEvents false infinite)
  | .pass => loop.result?.map loop.pass
  | .proceed thread busy => loop.perform (.proceed thread busy)
  | .notify thread chosen => loop.perform (.notify thread chosen)
  | .wake thread timedOut => loop.perform (.wake thread timedOut)

end Steps

section Confined

variable {Thread : Type*}

/-- What the loop and those that trigger it ask of the library. -/
def Requested (runner : Thread) : Action Thread RequestEvent → Prop
  | .waitForMultipleEvents thread events waitAll milliseconds =>
      thread = runner ∧ events = requestEvents ∧ waitAll = false ∧
        milliseconds = infinite
  | .setEvent _ _ | .proceed _ _ | .notify _ _ | .wake _ _ => True
  | .resetEvent _ _ | .waitForEvent _ _ _ => False

/-- The wait is one of the loop. -/
def IsRequestWait (wait : Wait RequestEvent) : Prop :=
  wait.events = requestEvents ∧ wait.waitAll = false ∧
    wait.milliseconds = infinite

/-- The call waits in no way but that of the loop, which has no end. -/
def PlacedWell (runner thread : Thread) : CallAt RequestEvent → Prop
  | .registering wait | .cleaning wait _ _ | .waiting wait
  | .woken wait false | .leaving wait false =>
      thread = runner ∧ IsRequestWait wait
  | .outside | .setting _ | .signalling _ _ | .notifying _ => True
  | .woken _ true | .leaving _ true | .sleeping _ _ | .risen _ _ _ => False

/-- The library as the loop uses it: only the loop waits, for both of its events
and without an end. -/
structure Confined (runner : Thread) (library : Library Thread RequestEvent) :
    Prop where
  auto : ∀ event, (library.events event).autoReset = true
  placed : ∀ thread, PlacedWell runner thread (library.calls thread)
  returned : ∀ returned ∈ library.returned,
    returned.timedOut = false ∧ IsRequestWait returned.wait

variable {runner : Thread} {library next : Library Thread RequestEvent}
  {action : Action Thread RequestEvent}

theorem PlacedWell.signalled {thread : Thread}
    {before after : CallAt RequestEvent}
    (placed : PlacedWell runner thread before)
    (signalled : before.Signalled after) :
    PlacedWell runner thread after := by
  cases signalled with
  | same => exact placed
  | woken => exact placed
  | risen => exact placed.elim

theorem start_confined (runner : Thread) :
    Confined runner (.start (fun _ => false) fun _ => false) :=
  ⟨fun _ => rfl, fun _ => trivial, by rintro returned ⟨⟩⟩

theorem Confined.isRequestWait (confined : Confined runner library)
    {thread : Thread} {wait : Wait RequestEvent}
    (waits : (library.calls thread).wait? = some wait) :
    thread = runner ∧ IsRequestWait wait := by
  have placed := confined.placed thread
  cases call : library.calls thread with
  | woken own timedOut | leaving own timedOut =>
      rw [call] at waits placed
      obtain rfl := Option.some.inj waits
      cases timedOut with
      | true => exact placed.elim
      | false => exact placed
  | registering | cleaning | waiting =>
      rw [call] at waits placed
      obtain rfl := Option.some.inj waits
      exact placed
  | _ => simp [call, CallAt.wait?] at waits

variable [DecidableEq Thread]

theorem Confined.placed_actor (confined : Confined runner library)
    (requested : Requested runner action)
    (move : Move library action next) :
    PlacedWell runner action.thread (next.calls action.thread) := by
  have placed := confined.placed action.thread
  cases move with
  | resetEvent | stay | take | sleep => exact requested.elim
  | accessFreed | expire | remove => exact placed
  | begin =>
      obtain ⟨rfl, rfl, rfl, rfl⟩ := requested
      simp [PlacedWell, IsRequestWait, Action.thread]
  | setEvent | endScan | keepMutex | fire | notifyNone | notifyAll | leave
  | riseLate | riseTake =>
      simp [Action.thread, Library.fire, CallAt.broadcast, PlacedWell]
  | @signal thread _ event =>
      cases auto : (library.events event).autoReset <;>
        simp [Action.thread, Library.signal, auto, PlacedWell]
  | @notifyOne thread _ sleeper _ call auto sleeps =>
      have slept := confined.placed sleeper
      rw [sleeps] at slept
      exact slept.elim
  | giveUp call last now =>
      have own : PlacedWell runner _ (.registering _) := call ▸ placed
      rw [own.2.2.2] at now
      cases now
  | wakeSleeper call | sleepAgain call =>
      rw [Action.thread, call] at placed
      exact placed.elim
  | @wakeWaiter thread timedOut wait call ends =>
      rw [Action.thread, call] at placed
      cases timedOut with
      | true => exact absurd placed.2.2.2 (ends rfl)
      | false => simpa [Action.thread, PlacedWell] using placed
  | @relock thread _ wait timedOut wfmo call =>
      rw [Action.thread, call] at placed
      cases timedOut with
      | true => exact placed.elim
      | false => simpa [Action.thread, PlacedWell] using placed
  | lock call | finish call | wait call | keep call | findAll call
  | findAny call | register call | waitAgain call =>
      rw [Action.thread, call] at placed
      simpa [Action.thread, PlacedWell, IsRequestWait] using placed

/-- The loop is the only one that waits, and its waits do not time out. -/
theorem Confined.step (confined : Confined runner library)
    (requested : Requested runner action)
    (move : Move library action next) : Confined runner next := by
  refine ⟨?_, ?_, ?_⟩
  · intro event
    rw [Library.autoReset_of_move move]
    exact confined.auto event
  · intro thread
    by_cases acts : thread = action.thread
    · rw [acts]
      exact confined.placed_actor requested move
    · exact (confined.placed thread).signalled
        (Library.calls_of_move move acts)
  · intro returned member
    rcases Library.returned_of_move move member with
      before | ⟨wait, timedOut, wfmo, leaving, found, rfl, -⟩
    · exact confined.returned returned before
    · have placed := confined.placed action.thread
      rw [leaving] at placed
      cases timedOut with
      | true => exact placed.elim
      | false => exact ⟨rfl, placed.2⟩

end Confined

namespace RequestLoop

variable {Thread : Type*}

/-- One if the wait that is to be handled returned with the index. -/
def due (loop : RequestLoop Thread) (i : Nat) : Nat :=
  if loop.result?.map Returned.waitIndex = some (i : Int) then 1 else 0

/-- The event is set, or has satisfied the wait of the loop, or the one that is
to be handled. -/
def Recorded (runner : Thread) (loop : RequestLoop Thread)
    (event : RequestEvent) : Prop :=
  (loop.library.events event).state = true ∨
  (∃ wait, (loop.library.calls runner).wait? = some wait ∧
    0 < loop.library.wins ⟨wait.wfmo, event.index⟩) ∨
  ∃ returned, loop.result? = some returned ∧
    0 < loop.library.wins ⟨returned.wait.wfmo, event.index⟩

variable [DecidableEq Thread] [Fintype Thread]

/-- The callbacks that were made, and those that are due, are the waits that
returned, and no trigger is lost. -/
structure Valid (runner : Thread) (loop : RequestLoop Thread) : Prop where
  alert : loop.library.Alert
  confined : Confined runner loop.library
  distinct : loop.library.Distinct
  handled : loop.callbacks.length ≤ loop.library.returned.length
  lag : loop.library.returned.length ≤ loop.callbacks.length + 1
  busy : (loop.library.calls runner).wait? ≠ none →
    loop.result? = none ∧ loop.ended = false
  stopped : loop.ended = true → loop.result? = none
  requests : loop.callbacks.count .onRequest + loop.due 0 =
    (loop.library.returnedAt 0).length
  terminations : loop.ended.toNat + loop.due 1 =
    (loop.library.returnedAt 1).length
  shape : loop.callbacks = (if loop.ended then [.terminated] else []) ++
    List.replicate (loop.callbacks.count .onRequest) .onRequest
  recorded : ∀ event, loop.pending event = true → loop.Recorded runner event

variable {runner : Thread} {loop : RequestLoop Thread}
  {next : Library Thread RequestEvent} {action : Action Thread RequestEvent}

omit [DecidableEq Thread] in
/-- A wait that is to be handled is the last one that returned. -/
theorem Valid.result_cases (valid : loop.Valid runner) :
    (loop.result? = none ∧
      loop.library.returned.length = loop.callbacks.length) ∨
    ∃ returned rest, loop.result? = some returned ∧
      loop.library.returned = returned :: rest ∧
      rest.length = loop.callbacks.length := by
  have handled := valid.handled
  have lag := valid.lag
  cases results : loop.library.returned with
  | nil =>
      rw [results] at handled
      have none : loop.callbacks = [] := by simpa using handled
      left
      simp [result?, results, none]
  | cons returned rest =>
      simp only [results, List.length_cons] at handled lag
      by_cases due : loop.callbacks.length < rest.length + 1
      · right
        refine ⟨returned, rest, ?_, rfl, by omega⟩
        simp [result?, results, due]
      · left
        simp only [result?, results, List.length_cons, if_neg due, true_and]
        omega

omit [DecidableEq Thread] in
theorem Valid.length_of_handled (valid : loop.Valid runner)
    (none : loop.result? = none) :
    loop.library.returned.length = loop.callbacks.length := by
  rcases valid.result_cases with ⟨-, same⟩ | ⟨returned, rest, some, -⟩
  · exact same
  · rw [none] at some
    cases some

/-- The loop after a step of the library. -/
def after (loop : RequestLoop Thread) (next : Library Thread RequestEvent) :
    RequestLoop Thread :=
  { loop with library := next }

omit [DecidableEq Thread] [Fintype Thread] in
theorem result?_after (same : next.returned = loop.library.returned) :
    (loop.after next).result? = loop.result? := by
  simp [result?, after, same]

/-- The loop that makes a wait return has handled the one before. -/
theorem Valid.returned_cases (valid : loop.Valid runner)
    (move : Move loop.library action next) :
    next.returned = loop.library.returned ∨
      ∃ returned wait, next.returned = returned :: loop.library.returned ∧
        returned.wait = wait ∧
        (loop.library.calls runner).wait? = some wait ∧
        (next.calls runner).wait? = none ∧
        loop.result? = none ∧ loop.ended = false ∧
        (loop.after next).result? = some returned := by
  rcases Library.returned_eq_of_move move with
    same | ⟨wait, timedOut, wfmo, leaving, found, rfl⟩
  · exact .inl same
  · obtain ⟨acts, -⟩ :=
      valid.confined.isRequestWait (congrArg CallAt.wait? leaving)
    have waits : (loop.library.calls runner).wait? = some wait := by
      rw [← acts, leaving]
      rfl
    obtain ⟨none, running⟩ := valid.busy (by simp [waits])
    have lengths := valid.length_of_handled none
    refine .inr ⟨_, wait, rfl, rfl, waits, ?_, none, running, ?_⟩
    · simp [acts, CallAt.wait?]
    · simp [after, result?, lengths]

/-- What has returned with an index and was handled or is due. -/
theorem Valid.due_after (valid : loop.Valid runner)
    (move : Move loop.library action next) (i : Nat) :
    (loop.after next).due i + (loop.library.returnedAt i).length =
      loop.due i + (next.returnedAt i).length := by
  rcases valid.returned_cases move with
    same | ⟨returned, wait, more, -, -, -, none, -, due⟩
  · simp only [RequestLoop.due, result?_after same, Library.returnedAt, same]
  · simp only [RequestLoop.due, none, due, Library.returnedAt, more,
      Option.map_some, Option.some.injEq, List.filter_cons]
    by_cases index : returned.waitIndex = (i : Int)
    · simp [index]
      omega
    · simp [index]

omit [DecidableEq Thread] [Fintype Thread] in
/-- An event that satisfied the wait of the loop did so at its own index. -/
theorem won_of_acquired (settled : next.Settled)
    (confined : Confined runner next) {thread : Thread}
    {wait : Wait RequestEvent} {event : RequestEvent} {i : Nat}
    (waits : (next.calls thread).wait? = some wait)
    (member : ⟨event, some ⟨wait.wfmo, i⟩⟩ ∈ next.acquired) :
    thread = runner ∧ 0 < next.wins ⟨wait.wfmo, event.index⟩ := by
  obtain ⟨acts, isWait⟩ := confined.isRequestWait waits
  have named := (settled.won _ member _ rfl).2 wait.events
    (.inl ⟨thread, wait, waits, rfl, rfl⟩)
  rw [isWait.1] at named
  refine ⟨acts, ?_⟩
  rw [← eq_index_of_getElem? named]
  exact List.count_pos_iff.mpr (List.mem_map_of_mem member)

/-- A trigger stays recorded until it is handled. -/
theorem Valid.recorded_after (valid : loop.Valid runner)
    (requested : Requested runner action)
    (stepTo : libraryStep loop.library action = some next)
    {event : RequestEvent} (recorded : loop.Recorded runner event) :
    (loop.after next).Recorded runner event := by
  have move := Library.move_of_step stepTo
  have sound := valid.alert.valid.sound
  have alertAfter := valid.alert.step stepTo
  have settled := alertAfter.valid.settled
  have confinedAfter := valid.confined.step requested move
  have grows := Library.wins_le_of_move move
  rcases recorded with state | ⟨wait, waits, won⟩ | ⟨returned, due, won⟩
  · rcases Library.kept_of_move move state with
      kept | ⟨thread, rfl⟩ | ⟨info, taken⟩
    · exact .inl kept
    · exact requested.elim
    · have member : ⟨event, info⟩ ∈ next.acquired := by simp [taken]
      rcases sound.taker_of_move move taken with
        ⟨thread, time, rfl⟩ | ⟨time, risen⟩ | ⟨thread, wait, i, waits, rfl⟩
      · exact requested.elim
      · have placed := valid.confined.placed action.thread
        rw [risen] at placed
        exact placed.elim
      · obtain ⟨rfl, won⟩ :=
          won_of_acquired settled confinedAfter waits member
        exact .inr (.inl ⟨wait, waits, won⟩)
  · rcases valid.returned_cases move with
      same | ⟨returned, own, -, rfl, owned, -, -, -, due⟩
    · rcases Library.wait_kept_of_move move waits with
        ⟨further, waitsAfter, number⟩ | ⟨timedOut, wfmo, -, -, rfl⟩
      · refine .inr (.inl ⟨further, waitsAfter, ?_⟩)
        rw [number]
        exact lt_of_lt_of_le won (grows _)
      · simp at same
    · refine .inr (.inr ⟨returned, due, ?_⟩)
      rw [owned] at waits
      obtain rfl := Option.some.inj waits
      exact lt_of_lt_of_le won (grows _)
  · rcases valid.returned_cases move with
      same | ⟨later, wait, -, -, -, -, none, -⟩
    · exact .inr (.inr ⟨returned, (result?_after same).trans due,
        lt_of_lt_of_le won (grows _)⟩)
    · rw [none] at due
      cases due

/-- A step of the library, after which more events may be pending. -/
theorem Valid.perform (valid : loop.Valid runner)
    (stepTo : libraryStep loop.library action = some next)
    (requested : Requested runner action)
    (begins : (∀ thread events waitAll milliseconds, action ≠
        .waitForMultipleEvents thread events waitAll milliseconds) ∨
      (loop.result? = none ∧ loop.ended = false))
    {pending : RequestEvent → Bool}
    (set : ∀ event, pending event = true →
      loop.pending event = true ∨ (next.events event).state = true) :
    Valid runner { loop.after next with pending := pending } := by
  have move := Library.move_of_step stepTo
  have cases := valid.returned_cases move
  have requests := valid.due_after move 0
  have terminations := valid.due_after move 1
  have requestsBefore := valid.requests
  have terminationsBefore := valid.terminations
  refine ⟨valid.alert.step stepTo, valid.confined.step requested move,
    valid.alert.valid.settled.distinct_step valid.distinct move, ?_, ?_, ?_,
    ?_, ?_, ?_, valid.shape, ?_⟩
  · rcases cases with same | ⟨returned, wait, more, -⟩
    · exact (congrArg List.length same) ▸ valid.handled
    · have handled := valid.handled
      simp only [after, more, List.length_cons]
      omega
  · rcases cases with same | ⟨returned, wait, more, -, -, -, none, -⟩
    · exact (congrArg List.length same) ▸ valid.lag
    · have lengths := valid.length_of_handled none
      simp only [after, more, List.length_cons]
      omega
  · intro waits
    have idle : loop.result? = none ∧ loop.ended = false := by
      cases now : (next.calls runner).wait? with
      | none => exact absurd now waits
      | some wait =>
          rcases Library.wait_of_move move now with
            ⟨before, waited, -⟩ | ⟨begun, -⟩
          · exact valid.busy (by simp [waited])
          · exact begins.resolve_left fun other => other _ _ _ _ begun
    rcases cases with same | ⟨returned, wait, -, -, -, outside, -⟩
    · exact ⟨(result?_after same).trans idle.1, idle.2⟩
    · exact absurd outside waits
  · intro ended
    rcases cases with same | ⟨returned, wait, -, -, -, -, -, running, -⟩
    · exact (result?_after same).trans (valid.stopped ended)
    · exact absurd (running.symm.trans ended) (by simp)
  · change loop.callbacks.count .onRequest + (loop.after next).due 0 =
      (next.returnedAt 0).length
    omega
  · change loop.ended.toNat + (loop.after next).due 1 =
      (next.returnedAt 1).length
    omega
  · intro event isPending
    rcases set event isPending with before | state
    · exact valid.recorded_after requested stepTo
        (valid.recorded event before)
    · exact .inl state

omit [DecidableEq Thread] in
/-- The loop hears of no timeout and of no index but its own. -/
theorem Valid.result_names (valid : loop.Valid runner)
    {returned : Returned RequestEvent}
    (due : loop.result? = some returned) :
    returned ∈ loop.library.returned ∧ ∃ event : RequestEvent,
      returned.timedOut = false ∧ returned.waitIndex = event.index := by
  rcases valid.result_cases with ⟨none, -⟩ | ⟨last, rest, result, results, -⟩
  · rw [none] at due
    cases due
  · obtain rfl := Option.some.inj (result.symm.trans due)
    have member : last ∈ loop.library.returned := by simp [results]
    refine ⟨member, ?_⟩
    obtain ⟨inTime, events, any, -⟩ := valid.confined.returned last member
    have outcome := valid.alert.valid.settled.outcome member
    obtain ⟨i, within, index⟩ := (outcome.any any).2 inTime
    rw [events] at within
    have named := List.getElem?_eq_getElem within
    exact ⟨_, inTime, (eq_index_of_getElem? named) ▸ index⟩

/-- What the loop makes of the event that its wait returned for. -/
def handled (loop : RequestLoop Thread) (taken : RequestEvent) :
    RequestLoop Thread :=
  { loop with
    callbacks := (match taken with
      | .wakeUp => .onRequest
      | .terminate => .terminated) :: loop.callbacks
    ended := loop.ended || taken = .terminate
    pending := fun event => loop.pending event && taken ≠ event }

omit [DecidableEq Thread] [Fintype Thread] in
theorem pass_eq {returned : Returned RequestEvent} {taken : RequestEvent}
    (inTime : returned.timedOut = false)
    (index : returned.waitIndex = taken.index) :
    loop.pass returned = loop.handled taken := by
  have pending : (fun event : RequestEvent => loop.pending event &&
      (returned.timedOut || returned.waitIndex ≠ event.index)) =
      fun event => loop.pending event && taken ≠ event := by
    funext event
    cases taken <;> cases event <;> simp [inTime, index, RequestEvent.index]
  have result : requestWait returned = .triggered taken.index := by
    simp [requestWait, inTime, index]
  simp only [pass, pending, result]
  cases taken <;>
    simp [handled, requestWorker, RequestEvent.index,
      RequestCallback.terminated]

omit [DecidableEq Thread] in
/-- The loop is not in a wait while it handles the one before. -/
theorem Valid.outside_of_due (valid : loop.Valid runner)
    {returned : Returned RequestEvent}
    (due : loop.result? = some returned) :
    (loop.library.calls runner).wait? = none := by
  by_contra waits
  rw [(valid.busy waits).1] at due
  cases due

omit [DecidableEq Thread] in
/-- Nothing is due after the loop has handled its wait. -/
theorem Valid.handled_result? (valid : loop.Valid runner)
    {returned : Returned RequestEvent}
    (due : loop.result? = some returned) (taken : RequestEvent) :
    loop.library.returned.length = (loop.handled taken).callbacks.length ∧
      (loop.handled taken).result? = none := by
  rcases valid.result_cases with ⟨none, -⟩ | ⟨last, rest, -, results, lengths⟩
  · rw [none] at due
    cases due
  · simp [result?, RequestLoop.handled, results, lengths]

omit [DecidableEq Thread] in
theorem Valid.handle (valid : loop.Valid runner)
    {returned : Returned RequestEvent}
    (due : loop.result? = some returned) :
    Valid runner (loop.pass returned) := by
  obtain ⟨member, taken, inTime, index⟩ := valid.result_names due
  rw [pass_eq inTime index]
  obtain ⟨lengths, nothing⟩ := valid.handled_result? due taken
  have outside := valid.outside_of_due due
  have running : loop.ended = false := by
    cases ended : loop.ended with
    | false => rfl
    | true =>
        rw [valid.stopped ended] at due
        cases due
  have wakeUps := valid.requests
  have terminations := valid.terminations
  have shape := valid.shape
  simp only [RequestLoop.due, due, Option.map_some, index,
    Option.some.injEq] at wakeUps terminations
  simp only [running, Bool.false_eq_true, if_false, List.nil_append,
    Bool.toNat_false] at shape terminations
  refine ⟨valid.alert, valid.confined, valid.distinct, ?_, ?_, ?_, ?_, ?_, ?_,
    ?_, ?_⟩
  · exact lengths.ge
  · exact lengths.le.trans (Nat.le_succ _)
  · exact fun waits => absurd outside waits
  · exact fun _ => nothing
  · simp only [RequestLoop.due, nothing]
    change _ = (loop.library.returnedAt 0).length
    rw [← wakeUps]
    cases taken <;>
      simp [RequestLoop.handled, RequestEvent.index,
        RequestCallback.terminated]
  · simp only [RequestLoop.due, nothing]
    change _ = (loop.library.returnedAt 1).length
    rw [← terminations]
    cases taken <;>
      simp [RequestLoop.handled, RequestEvent.index, running]
  · cases taken with
    | wakeUp =>
        have ended : (loop.handled .wakeUp).ended = false := by
          simp [RequestLoop.handled, running]
        simp only [ended, Bool.false_eq_true, if_false, List.nil_append]
        simp only [RequestLoop.handled, List.count_cons_self,
          List.replicate_succ]
        rw [← shape]
    | terminate =>
        have ended : (loop.handled .terminate).ended = true := by
          simp [RequestLoop.handled]
        simp only [ended, if_true, List.singleton_append]
        simp only [RequestLoop.handled]
        rw [List.count_cons_of_ne (by simp [RequestCallback.terminated]),
          ← shape]
  · intro event pending
    have pending : loop.pending event = true ∧ taken ≠ event := by
      simpa [RequestLoop.handled] using pending
    rcases valid.recorded event pending.1 with
      state | ⟨wait, waits, -⟩ | ⟨other, dueToo, won⟩
    · exact .inl state
    · rw [outside] at waits
      cases waits
    · obtain rfl := Option.some.inj (due.symm.trans dueToo)
      have outcome := valid.alert.valid.settled.outcome member
      have once := outcome.once event.index
      have any := (valid.confined.returned _ member).2.2.1
      have same := ((outcome.any any).1 event.index).mp (by omega)
      rw [index] at same
      exact absurd (RequestEvent.index_injective (by omega)) pending.2

theorem Valid.trigger (valid : loop.Valid runner) {thread : Thread}
    {event : RequestEvent} {triggered : RequestLoop Thread}
    (stepTo : loop.trigger thread event = some triggered) :
    triggered.Valid runner := by
  obtain ⟨next, stepNext, rfl⟩ := Option.map_eq_some_iff.mp stepTo
  refine valid.perform stepNext trivial (.inl (by simp)) ?_
  intro other isPending
  by_cases same : other = event
  · right
    subst same
    cases Library.move_of_step stepNext with
    | setEvent => simp
  · exact .inl (by simpa [update_of_ne same] using isPending)

theorem Valid.step (valid : loop.Valid runner)
    {action : RequestAction Thread} {after : RequestLoop Thread}
    (stepTo : requestLoopStep runner loop action = some after) :
    after.Valid runner := by
  cases action with
  | triggerWakeUpEvent thread => exact valid.trigger stepTo
  | triggerTerminateEvent thread => exact valid.trigger stepTo
  | waitForMultipleEvents =>
      simp only [requestLoopStep, Option.ite_none_left_eq_some,
        Bool.or_eq_true, not_or, Bool.not_eq_true,
        Option.isSome_eq_false_iff, Option.isNone_iff_eq_none] at stepTo
      obtain ⟨⟨running, none⟩, performed⟩ := stepTo
      obtain ⟨next, stepNext, rfl⟩ := Option.map_eq_some_iff.mp performed
      exact valid.perform stepNext ⟨rfl, rfl, rfl, rfl⟩
        (.inr ⟨none, running⟩) fun _ => .inl
  | pass =>
      obtain ⟨returned, due, rfl⟩ := Option.map_eq_some_iff.mp stepTo
      exact valid.handle due
  | proceed | notify | wake =>
      obtain ⟨next, stepNext, rfl⟩ := Option.map_eq_some_iff.mp stepTo
      exact valid.perform stepNext trivial (.inl (by simp)) fun _ => .inl

omit [DecidableEq Thread] in
theorem start_valid (runner : Thread) :
    (start : RequestLoop Thread).Valid runner := by
  refine ⟨Library.start_alert _ _, start_confined runner, List.nodup_nil,
    le_refl _, Nat.zero_le _, ?_, ?_, rfl, rfl, rfl, ?_⟩
  · exact fun waits => absurd rfl waits
  · exact fun _ => rfl
  · rintro event ⟨⟩

/-- The loop calls back with `OnRequest`, no more often than it was triggered,
until it is told to terminate; it never hears of an error, and every trigger
that it has not handled is recorded. -/
structure Heard (runner : Thread) (loop : RequestLoop Thread) : Prop where
  callbacks : ∃ requests ≤ loop.library.sets .wakeUp,
    loop.callbacks = (if loop.ended then [.terminated] else []) ++
      List.replicate requests .onRequest
  asked : loop.ended = true → 0 < loop.library.sets .terminate
  recorded : ∀ event, loop.pending event = true → loop.Recorded runner event

omit [DecidableEq Thread] in
/-- The waits that returned for an event have each used up one trigger. -/
theorem Valid.returnedAt_le_sets (valid : loop.Valid runner)
    (event : RequestEvent) :
    (loop.library.returnedAt event.index).length ≤
      loop.library.sets event := by
  have library := valid.alert.valid
  have names : ∀ returned ∈ loop.library.returned,
      returned.wait.waitAll = false ∧ (returned.waitIndex = event.index →
        returned.wait.events[event.index]? = some event) := by
    intro returned member
    obtain ⟨-, events, any, -⟩ := valid.confined.returned returned member
    refine ⟨any, fun _ => ?_⟩
    rw [events]
    cases event <;> rfl
  have satisfied := library.settled.returnedAt_le valid.distinct names
  have spent := library.spends event (valid.confined.auto event)
  omega

omit [DecidableEq Thread] in
theorem Valid.heard (valid : loop.Valid runner) : loop.Heard runner := by
  have requests := valid.requests
  have terminations := valid.terminations
  have wakeUps := valid.returnedAt_le_sets .wakeUp
  have terminates := valid.returnedAt_le_sets .terminate
  simp only [RequestEvent.index] at wakeUps terminates
  refine ⟨⟨_, ?_, valid.shape⟩, ?_, valid.recorded⟩
  · omega
  · intro ended
    simp only [ended, Bool.toNat_true] at terminations
    omega

end RequestLoop

/-- No trigger of the request loop is lost, and none is heard twice. -/
theorem requests_heard {Thread : Type*} [DecidableEq Thread]
    [Fintype Thread] (runner : Thread)
    (actions : List (RequestAction Thread)) :
    HoldsAlong (requestLoopStep runner) (RequestLoop.Heard runner) .start
      actions := by
  apply holdsAlong_of_invariant _ _ (RequestLoop.start_valid runner) actions
  · exact fun loop valid => valid.heard
  · exact fun before action after valid stepTo => valid.step stepTo

end ArstQuote
