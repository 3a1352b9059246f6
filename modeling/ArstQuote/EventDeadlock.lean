import ArstQuote.EventOutcomes

/-!
# No deadlock in the event library

A call of `WaitForMultipleEvents` keeps its waiter locked while it locks one
event after the other, and `SetEvent` keeps its event locked while it locks the
waiters that are registered there.  The calls can therefore wait for each other
in a circle, unless all calls list their events in one order: then a call that
another one waits for wants an event that comes later.
-/

namespace Neosmart

open Function GuardedRuns SharedObjects

variable {Thread Event : Type*}

/-- The thread is in a call and does not wait for a condition. -/
def CallAt.runs : CallAt Event → Bool
  | .outside | .waiting _ | .sleeping _ _ => false
  | .setting _ | .signalling _ _ | .notifying _ | .registering _
  | .cleaning _ _ _ | .woken _ _ | .leaving _ _ | .risen _ _ _ => true

/-- A call of `WaitForMultipleEvents` lists no event twice, and its events in
the order that all calls agree on. -/
def Action.Ordered [LT Event] : Action Thread Event → Prop
  | .waitForMultipleEvents _ events _ _ => events.Pairwise (· < ·)
  | _ => True

/-- The waits of all calls are ordered. -/
def Library.Ordered [LT Event] (library : Library Thread Event) : Prop :=
  ∀ thread wait, (library.calls thread).wait? = some wait →
    wait.events.Pairwise (· < ·)

/-- A mutex that is only tried is busy no more often than it is locked. -/
def Library.Tries (library : Library Thread Event) :
    Action Thread Event → Prop
  | .proceed thread true => ∃ wait event position info wfmo,
      library.calls thread = .cleaning wait event position ∧
        (library.events event).registeredWaits[position]? = some info ∧
        library.wfmos info.waiter = some wfmo ∧ wfmo.mutex.isSome = true
  | _ => True

variable [LinearOrder Event] [DecidableEq Thread] [Fintype Thread]

/-- The thread can take a step. -/
def Library.GoesOn (library : Library Thread Event) (thread : Thread) : Prop :=
  ∃ action, action.thread = thread ∧ library.Tries action ∧
    (libraryStep library action).isSome = true

/-- Whenever a thread runs, one that runs can take a step. -/
def Library.Lively (library : Library Thread Event) : Prop :=
  ∀ thread, (library.calls thread).runs = true →
    ∃ other, (library.calls other).runs = true ∧ library.GoesOn other

namespace Library

variable {library next : Library Thread Event} {action : Action Thread Event}
  {thread : Thread}

theorem goesOn_of_proceed
    (goes : (library.proceed thread false).isSome = true) :
    library.GoesOn thread :=
  ⟨.proceed thread false, rfl, trivial, goes⟩

theorem goesOn_of_notifying {event : Event}
    (call : library.calls thread = .notifying event) :
    library.GoesOn thread := by
  by_cases nobody : ∀ other, (library.calls other).sleepsOn event = false
  · refine ⟨.notify thread none, rfl, trivial, ?_⟩
    simp only [libraryStep, notify, call, if_pos nobody]
    split <;> rfl
  · simp only [not_forall, Bool.not_eq_false] at nobody
    obtain ⟨sleeper, sleeps⟩ := nobody
    refine ⟨.notify thread (some sleeper), rfl, trivial, ?_⟩
    simp only [libraryStep, notify, call, if_pos sleeps]
    split <;> rfl

section Valid

variable [Fintype Event]

/-- The look at an event needs no mutex that the call does not have. -/
theorem Valid.look_isSome (valid : library.Valid) {wait : Wait Event}
    (waits : (library.calls thread).wait? = some wait) (event : Event) :
    (library.look thread wait event).isSome = true := by
  obtain ⟨wfmo, found⟩ := valid.sound.refers.wfmo_of_wait waits
  simp only [look, onWfmo, found]
  split <;> rfl

theorem Valid.goesOn_of_cleaning (valid : library.Valid) {wait : Wait Event}
    {event : Event} {position : Nat}
    (call : library.calls thread = .cleaning wait event position) :
    library.GoesOn thread := by
  cases entry : (library.events event).registeredWaits[position]? with
  | none =>
      apply goesOn_of_proceed
      simp only [proceed, call, clean, entry]
      exact valid.look_isSome (congrArg CallAt.wait? call) event
  | some info =>
      obtain ⟨wfmo, found⟩ := valid.sound.refers.wfmo_of_refersTo
        (refersTo_of_mem (List.mem_of_getElem? entry))
      by_cases locked : wfmo.mutex.isSome = true
      · refine ⟨.proceed thread true, rfl,
          ⟨wait, event, position, info, wfmo, call, entry, found, locked⟩, ?_⟩
        simp only [libraryStep, proceed, call, clean, entry, onWfmo, found]
        rfl
      · apply goesOn_of_proceed
        simp only [proceed, call, clean, entry, onWfmo, found,
          if_neg locked]
        simp only [Bool.false_eq_true, if_false]
        split <;> rfl

/-- Only the call itself locks its waiter for more than one step. -/
theorem Valid.goesOn_of_woken (valid : library.Valid) {wait : Wait Event}
    {timedOut : Bool} (call : library.calls thread = .woken wait timedOut) :
    library.GoesOn thread := by
  have waits := congrArg CallAt.wait? call
  obtain ⟨wfmo, found⟩ := valid.sound.refers.wfmo_of_wait waits
  have free : ¬ wfmo.mutex.isSome = true := by
    intro locked
    have taken : ((wfmoMutex ∘ library.wfmos) wait.wfmo).isSome = true := by
      simpa [found] using locked
    obtain ⟨holder, holds⟩ :=
      valid.sound.locks.wfmos.exists_of_isSome taken
    have owns : ∃ own, (library.calls holder).wait? = some own ∧
        own.wfmo = wait.wfmo := by
      cases place : library.calls holder <;>
        simp_all [CallAt.wait?]
    obtain ⟨own, owned, number⟩ := owns
    obtain rfl :=
      valid.sound.refers.unique _ _ _ _ owned waits number
    simp [call] at holds
  apply goesOn_of_proceed
  simp only [proceed, call, relock, onWfmo, found, if_neg free]
  split <;> rfl

theorem Valid.goesOn_of_leaving (valid : library.Valid) {wait : Wait Event}
    {timedOut : Bool} (call : library.calls thread = .leaving wait timedOut) :
    library.GoesOn thread := by
  obtain ⟨wfmo, found⟩ :=
    valid.sound.refers.wfmo_of_wait (congrArg CallAt.wait? call)
  apply goesOn_of_proceed
  simp only [proceed, call, leave, onWfmo, found]
  rfl

/-- A call of `SetEvent` can only wait for a waiter. -/
theorem Valid.locked_of_setting (valid : library.Valid) {event : Event}
    (call : library.calls thread = .setting event)
    (stuck : ¬ library.GoesOn thread) :
    ∃ info rest wfmo,
      (library.events event).registeredWaits = info :: rest ∧
        library.wfmos info.waiter = some wfmo ∧
        wfmo.mutex.isSome = true := by
  cases entries : (library.events event).registeredWaits with
  | nil =>
      refine absurd (goesOn_of_proceed ?_) stuck
      simp only [proceed, call, scan, entries]
      split <;> rfl
  | cons info rest =>
      have member : info ∈ (library.events event).registeredWaits := by
        simp [entries]
      obtain ⟨wfmo, found⟩ :=
        valid.sound.refers.wfmo_of_refersTo (refersTo_of_mem member)
      refine ⟨info, rest, wfmo, rfl, found, ?_⟩
      by_contra free
      refine absurd (goesOn_of_proceed ?_) stuck
      simp only [proceed, call, scan, entries, onWfmo, found, if_neg free]
      split <;> rfl

/-- A call of `WaitForMultipleEvents` that has its waiter locked can only wait
for the next event of its list. -/
theorem Valid.locked_of_registering (valid : library.Valid)
    {wait : Wait Event} (call : library.calls thread = .registering wait)
    (stuck : ¬ library.GoesOn thread) :
    ∃ event, wait.events[wait.i]? = some event ∧
      (library.events event).mutex.isSome = true := by
  cases entry : wait.events[wait.i]? with
  | none =>
      obtain ⟨wfmo, found⟩ :=
        valid.sound.refers.wfmo_of_wait (congrArg CallAt.wait? call)
      refine absurd (goesOn_of_proceed ?_) stuck
      simp only [proceed, call, lockNext, entry, onWfmo, found]
      split_ifs <;> rfl
  | some event =>
      refine ⟨event, rfl, ?_⟩
      by_contra free
      refine absurd (goesOn_of_proceed ?_) stuck
      simp only [proceed, call, lockNext, entry, free]
      rfl

omit [Fintype Event] in
theorem locked_of_risen {event : Event} {milliseconds : UInt64}
    {timedOut : Bool}
    (call : library.calls thread = .risen event milliseconds timedOut)
    (stuck : ¬ library.GoesOn thread) :
    (library.events event).mutex.isSome = true := by
  by_contra free
  refine absurd (goesOn_of_proceed ?_) stuck
  simp only [proceed, call, rise, if_neg free]
  split_ifs <;> rfl

/-- No thread that runs can take a step. -/
def Deadlocked (library : Library Thread Event) : Prop :=
  ∀ thread, (library.calls thread).runs = true → ¬ library.GoesOn thread

/-- In a deadlock, who has the mutex of a waiter waits for the next event of its
list. -/
theorem Valid.registering_of_locked (valid : library.Valid)
    (deadlocked : library.Deadlocked) {waiter : Nat} {wfmo : Wfmo Thread}
    (found : library.wfmos waiter = some wfmo)
    (locked : wfmo.mutex.isSome = true) :
    ∃ holder wait event, library.calls holder = .registering wait ∧
      wait.wfmo = waiter ∧ wait.events[wait.i]? = some event ∧
      (library.events event).mutex.isSome = true := by
  have taken : ((wfmoMutex ∘ library.wfmos) waiter).isSome = true := by
    simpa [found] using locked
  obtain ⟨holder, holds⟩ := valid.sound.locks.wfmos.exists_of_isSome taken
  have stuck := deadlocked holder
  cases call : library.calls holder with
  | registering wait =>
      obtain ⟨event, next, held⟩ := valid.locked_of_registering call
        (stuck (by rw [call]; rfl))
      refine ⟨holder, wait, event, call, ?_, next, held⟩
      simpa [call] using holds
  | cleaning =>
      exact absurd (valid.goesOn_of_cleaning call) (stuck (by rw [call]; rfl))
  | leaving =>
      exact absurd (valid.goesOn_of_leaving call) (stuck (by rw [call]; rfl))
  | _ => simp [call] at holds

/-- A call that is registering has looked at the indices where it is
registered. -/
theorem Valid.waitIndex_lt (valid : library.Valid) {wait : Wait Event}
    (call : library.calls thread = .registering wait) {event : Event}
    {info : WfmoInfo} (number : wait.wfmo = info.waiter)
    (member : info ∈ (library.events event).registeredWaits) :
    info.waitIndex < wait.i := by
  have waits := congrArg CallAt.wait? call
  obtain ⟨wfmo, found⟩ := valid.sound.refers.wfmo_of_wait waits
  have stands := valid.settled.stands _ _ _ waits found
  rw [call] at stands
  have counted := stands.registered rfl (stands.unseen rfl) info.waitIndex
  rw [number] at counted
  have entered : 0 < library.entries info := by
    have here : 0 < (library.events event).registeredWaits.count info :=
      List.count_pos_iff.mpr member
    refine lt_of_lt_of_le here ?_
    exact Finset.single_le_sum_of_canonicallyOrdered
      (f := fun other => (library.events other).registeredWaits.count info)
      (Finset.mem_univ event)
  by_contra beyond
  rw [if_neg beyond] at counted
  have none : library.entries info = 0 := by
    have whole : (⟨info.waiter, info.waitIndex⟩ : WfmoInfo) = info := rfl
    rw [whole] at counted
    omega
  omega

/-- In a deadlock, the mutex of an event is had by a call that waits for a
later one. -/
theorem Valid.later_locked (valid : library.Valid)
    (ordered : library.Ordered) (deadlocked : library.Deadlocked)
    {event : Event} (locked : (library.events event).mutex.isSome = true) :
    ∃ later, event < later ∧
      (library.events later).mutex.isSome = true := by
  obtain ⟨holder, holds⟩ := valid.sound.locks.events.exists_of_isSome locked
  have stuck := deadlocked holder
  cases call : library.calls holder with
  | setting set =>
      obtain rfl : set = event := by simpa [call] using holds
      obtain ⟨info, rest, wfmo, front, found, taken⟩ :=
        valid.locked_of_setting call (stuck (by rw [call]; rfl))
      obtain ⟨other, wait, later, registering, number, next, held⟩ :=
        valid.registering_of_locked deadlocked found taken
      have member : info ∈ (library.events set).registeredWaits := by
        simp [front]
      have waits := congrArg CallAt.wait? registering
      have entry := valid.settled.listed set info member wait.events
        (.inl ⟨other, wait, waits, number, rfl⟩)
      have before := valid.waitIndex_lt registering number member
      refine ⟨later, ?_, held⟩
      obtain ⟨within, rfl⟩ := List.getElem?_eq_some_iff.mp entry
      obtain ⟨nextWithin, rfl⟩ := List.getElem?_eq_some_iff.mp next
      exact List.pairwise_iff_getElem.mp (ordered other wait waits) _ _
        within nextWithin before
  | cleaning =>
      exact absurd (valid.goesOn_of_cleaning call) (stuck (by rw [call]; rfl))
  | signalling =>
      refine absurd (goesOn_of_proceed ?_) (stuck (by rw [call]; rfl))
      simp only [proceed, call]
      rfl
  | _ => simp [call] at holds

theorem Valid.not_locked (valid : library.Valid) (ordered : library.Ordered)
    (deadlocked : library.Deadlocked) (event : Event) :
    ¬ (library.events event).mutex.isSome = true := by
  induction event using WellFoundedGT.induction with
  | _ event ih =>
      intro locked
      obtain ⟨later, after, held⟩ :=
        valid.later_locked ordered deadlocked locked
      exact ih later after held

theorem Valid.lively (valid : library.Valid) (ordered : library.Ordered) :
    library.Lively := by
  intro thread runs
  by_contra none
  have deadlocked : library.Deadlocked :=
    fun other otherRuns goesOn => none ⟨other, otherRuns, goesOn⟩
  have free := valid.not_locked ordered deadlocked
  have stuck := deadlocked thread runs
  cases call : library.calls thread with
  | outside | waiting | sleeping => simp [call, CallAt.runs] at runs
  | setting event =>
      obtain ⟨info, rest, wfmo, front, found, taken⟩ :=
        valid.locked_of_setting call stuck
      obtain ⟨other, wait, later, registering, number, next, held⟩ :=
        valid.registering_of_locked deadlocked found taken
      exact free later held
  | signalling =>
      apply stuck
      apply goesOn_of_proceed
      simp only [proceed, call]
      rfl
  | notifying event => exact stuck (goesOn_of_notifying call)
  | registering wait =>
      obtain ⟨event, next, held⟩ := valid.locked_of_registering call stuck
      exact free event held
  | cleaning => exact stuck (valid.goesOn_of_cleaning call)
  | woken => exact stuck (valid.goesOn_of_woken call)
  | leaving => exact stuck (valid.goesOn_of_leaving call)
  | risen event =>
      have held := locked_of_risen call stuck
      exact free event held

omit [Fintype Thread] [Fintype Event] in
theorem Ordered.step (ordered : library.Ordered)
    (move : Move library action next) (agrees : action.Ordered) :
    next.Ordered := by
  intro thread wait waits
  rcases wait_of_move move waits with
    ⟨before, waited, -, further⟩ | ⟨begun, -⟩
  · rw [further]
    exact ordered thread before waited
  · rw [begun] at agrees
    exact agrees

end Valid

end Library

variable [Fintype Event]

/-- If all calls of `WaitForMultipleEvents` list their events in one order, then
no run of the library ends in a deadlock. -/
theorem no_deadlock (manualReset initialState : Event → Bool)
    (actions : List (Action Thread Event))
    (ordered : ∀ action ∈ actions, action.Ordered) :
    HoldsAlong libraryStep Library.Lively (.start manualReset initialState)
      actions := by
  let Keeps : Library Thread Event → Prop :=
    fun library => library.Valid ∧ library.Ordered
  have initially : Keeps (.start manualReset initialState) := by
    refine ⟨Library.start_valid _ _, ?_⟩
    rintro thread wait ⟨⟩
  have agrees : MeetsAlong libraryStep
      (fun _ action => action.Ordered)
      (.start manualReset initialState) actions := by
    let always : Library Thread Event → Prop := fun _ => True
    have each : always (.start manualReset initialState) := trivial
    refine meetsAlong_of_invariant ?_ each
    exact fun before action member after _ _ => ⟨ordered action member, trivial⟩
  refine holdsAlong_of_meetsAlong ?_ ?_ initially agrees
  · exact fun library ⟨valid, ordered⟩ => valid.lively ordered
  · intro before action after ⟨valid, ordered⟩ agree stepTo
    exact ⟨valid.step stepTo,
      ordered.step (Library.move_of_step stepTo) agree⟩

/-- Two threads that wait for two events, and two that set them. -/
theorem no_deadlock_of_two_waits :
    HoldsAlong libraryStep Library.Lively
      (.start (fun _ => false) fun _ => false)
      ([.waitForMultipleEvents 0 [false, true] true infinite,
        .waitForMultipleEvents 1 [false, true] false infinite,
        .setEvent 2 true, .setEvent 3 false] :
          List (Action (Fin 4) Bool)) :=
  no_deadlock _ _ _ (by simp [Action.Ordered])

/-- A call that lists an event twice and one that sets it in between. -/
example :
    let stuck := execute libraryStep
      (.start (fun _ => false) (fun _ => false))
      ([.waitForMultipleEvents 0 [(), ()] true infinite, .proceed 0 false,
        .proceed 0 false, .setEvent 1 ()] : List (Action (Fin 2) Unit))
    stuck.isSome = true ∧ ∀ thread busy,
      (stuck.bind (·.proceed thread busy)).isNone = true := by decide

end Neosmart
