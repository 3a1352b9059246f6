import ArstQuote.EventLocks

/-!
# The references to the waiters of the event library

A waiter is referred to by the call that made it, until that returns, and by
every event where it is registered.  `RefCount` is the number of these
references, so that a waiter is deleted with the last of them: neither is one
deleted that a call or an event still refers to, nor is one left behind.
-/

namespace Neosmart

open Function GuardedRuns SharedObjects

variable {Thread Event : Type*}

/-- The waiters that an event refers to. -/
def NeosmartEvent.waiters (object : NeosmartEvent Thread) : List Nat :=
  object.registeredWaits.map WfmoInfo.waiter

/-- The waiter that a call made. -/
def CallAt.made (call : CallAt Event) : List Nat :=
  (call.wait?.map Wait.wfmo).toList

/-- The places of the references: the events, and the calls of the threads. -/
def Library.references (library : Library Thread Event) :
    Event ⊕ Thread → List Nat :=
  Sum.elim (NeosmartEvent.waiters ∘ library.events)
    (CallAt.made ∘ library.calls)

/-- `RefCount` of a waiter, if it is not deleted. -/
def refCount? (wfmo : Option (Wfmo Thread)) : Option Int :=
  wfmo.map Wfmo.refCount

def Library.counts (library : Library Thread Event) : Nat → Option Int :=
  refCount? ∘ library.wfmos

@[simp] theorem refCount?_some (wfmo : Wfmo Thread) :
    refCount? (some wfmo) = some wfmo.refCount := rfl

@[simp] theorem refCount?_released (wfmo : Wfmo Thread) :
    refCount? wfmo.released =
      if wfmo.refCount - 1 = 0 then none else some (wfmo.refCount - 1) := by
  by_cases last : wfmo.refCount - 1 = 0 <;>
    simp [Wfmo.released, refCount?, last]

@[simp] theorem refCount_fired (wfmo : Wfmo Thread) (waitIndex : Nat) :
    (wfmo.fired waitIndex).refCount = wfmo.refCount - 1 := by
  unfold Wfmo.fired
  split <;> rfl

@[simp] theorem refCount_found (wfmo : Wfmo Thread) (i : Nat) :
    (wfmo.found i).refCount = wfmo.refCount := by
  unfold Wfmo.found
  split <;> rfl

@[simp] theorem made_signalled (waiter : Nat)
    (calls : Thread → CallAt Event) :
    CallAt.made ∘ CallAt.signalled waiter ∘ calls = CallAt.made ∘ calls :=
  comp_signalled (fun _ => rfl) waiter calls

variable [DecidableEq Event]

@[simp] theorem made_broadcast (event : Event)
    (calls : Thread → CallAt Event) :
    CallAt.made ∘ CallAt.broadcast event ∘ calls = CallAt.made ∘ calls :=
  comp_broadcast (fun _ _ => rfl) event calls

variable [DecidableEq Thread]

/-- The counts are exact, every waiter was made by one call at most, which it
agrees with on whether it waits for all of its events, and a waiter that is
still waiting was made by a call that has not returned. -/
structure Library.Refers [Fintype Thread] [Fintype Event]
    (library : Library Thread Event) : Prop where
  counted : Counted library.counts library.references
  unique : ∀ thread other wait otherWait,
    (library.calls thread).wait? = some wait →
      (library.calls other).wait? = some otherWait →
        wait.wfmo = otherWait.wfmo → thread = other
  waitAll : ∀ thread wait wfmo, (library.calls thread).wait? = some wait →
    library.wfmos wait.wfmo = some wfmo → wfmo.waitAll = wait.waitAll
  waited : ∀ waiter wfmo, library.wfmos waiter = some wfmo →
    wfmo.stillWaiting = true → ∃ thread wait,
      (library.calls thread).wait? = some wait ∧ wait.wfmo = waiter

namespace Library

variable {library next : Library Thread Event} {action : Action Thread Event}

omit [DecidableEq Event] [DecidableEq Thread] in
theorem references_of_call {thread : Thread} {call : CallAt Event}
    (calls : library.calls thread = call) :
    library.references (.inr thread) = call.made := by
  rw [← calls]
  rfl

omit [DecidableEq Event] [DecidableEq Thread] in
theorem references_event (library : Library Thread Event) (event : Event) :
    library.references (.inl event) = (library.events event).waiters := rfl

theorem references_goTo (library : Library Thread Event)
    (thread : Thread) (call : CallAt Event) :
    (library.goTo thread call).references =
      update library.references (.inr thread) call.made := by
  simp only [references, goTo, comp_update, Sum.update_elim_inr]

theorem references_putEvent (library : Library Thread Event)
    (event : Event) (object : NeosmartEvent Thread) :
    (library.putEvent event object).references =
      update library.references (.inl event) object.waiters := by
  simp only [references, putEvent, comp_update, Sum.update_elim_inl]

omit [DecidableEq Event] [DecidableEq Thread] in
theorem counts_putWfmo (library : Library Thread Event)
    (waiter : Nat) (wfmo : Option (Wfmo Thread)) :
    (library.putWfmo waiter wfmo).counts =
      update library.counts waiter (refCount? wfmo) := by
  simp only [counts, putWfmo, comp_update]

omit [DecidableEq Event] [DecidableEq Thread] in
theorem references_signalled (library : Library Thread Event)
    (waiter : Nat) :
    (library.mapCalls (.signalled waiter)).references =
      library.references := by
  simp only [references, mapCalls, made_signalled]

omit [DecidableEq Thread] in
theorem references_broadcast (library : Library Thread Event)
    (event : Event) :
    (library.mapCalls (.broadcast event)).references =
      library.references := by
  simp only [references, mapCalls, made_broadcast]

omit [DecidableEq Event] [DecidableEq Thread] in
theorem waiters_perm_eraseIdx {object : NeosmartEvent Thread}
    {position : Nat} {info : WfmoInfo}
    (entry : object.registeredWaits[position]? = some info) :
    object.waiters.Perm (info.waiter :: NeosmartEvent.waiters { object with
      registeredWaits := object.registeredWaits.eraseIdx position }) := by
  obtain ⟨within, rfl⟩ := List.getElem?_eq_some_iff.mp entry
  have perm := List.getElem_cons_eraseIdx_perm within
  exact (perm.map WfmoInfo.waiter).symm

variable [Fintype Thread] [Fintype Event]

theorem Refers.counted_step (refers : library.Refers) (locks : library.Locks)
    (move : Move library action next) :
    Counted next.counts next.references := by
  have counted := refers.counted
  -- The counts change with the waiters, the references with events and calls.
  cases move with
  | stay | accessFreed => exact counted
  | resetEvent | take =>
      change Counted library.counts (library.putEvent _ _).references
      rw [references_putEvent]
      exact counted.keepPlace (references_event _ _)
  | setEvent call | lock call | riseTake call =>
      have same := references_of_call call
      change Counted library.counts ((library.putEvent _ _).goTo _ _).references
      rw [references_goTo, references_putEvent]
      exact (counted.keepPlace (references_event _ _)).keepPlace
        (same.trans rfl)
  | endScan call empty =>
      have same := references_of_call call
      have none := (references_event library _).trans
        (congrArg (List.map WfmoInfo.waiter) empty)
      change Counted library.counts ((library.putEvent _ _).goTo _ _).references
      rw [references_goTo, references_putEvent]
      exact (counted.keepPlace none).keepPlace (same.trans rfl)
  | sleep call | keep call | giveUp call | finish call | wakeWaiter call
  | waitAgain call | wakeSleeper call | riseLate call | sleepAgain call
  | notifyNone call | keepMutex call =>
      have same := references_of_call call
      rw [references_goTo]
      exact counted.keepPlace (same.trans rfl)
  | begin call =>
      have fresh : library.counts library.created = none := by
        simp [counts, refCount?, locks.fresh _ (le_refl library.created)]
      have none : library.references (.inr _) = [] := references_of_call call
      change Counted (library.putWfmo _ _).counts (library.goTo _ _).references
      rw [references_goTo, counts_putWfmo]
      apply counted.create fresh
      rw [none]
      exact List.Perm.refl _
  | wait call last found | relock call found =>
      have same := references_of_call call
      have count := congrArg refCount? found
      change Counted (library.putWfmo _ _).counts (library.goTo _ _).references
      rw [references_goTo, counts_putWfmo]
      exact (counted.keepCount count).keepPlace (same.trans rfl)
  | leave call found =>
      have same := references_of_call call
      have count := congrArg refCount? found
      change Counted (library.putWfmo _ _).counts (library.goTo _ _).references
      rw [references_goTo, counts_putWfmo, refCount?_released]
      apply counted.release count
      rw [same]
      exact List.Perm.refl _
  | expire call front found =>
      have count := congrArg refCount? found
      change Counted (library.putWfmo _ _).counts
        (library.putEvent _ _).references
      rw [references_putEvent, counts_putWfmo, refCount?_released]
      apply counted.release count
      rw [references_event, NeosmartEvent.waiters, front]
      exact List.Perm.refl _
  | remove call entry found =>
      have count := congrArg refCount? found
      change Counted (library.putWfmo _ _).counts
        (library.putEvent _ _).references
      rw [references_putEvent, counts_putWfmo, refCount?_released]
      apply counted.release count
      rw [references_event]
      exact waiters_perm_eraseIdx entry
  | @fire actor _ event info rest wfmo call front found free still =>
      have same := references_of_call call
      have count := congrArg refCount? found
      obtain ⟨owner, wait, waits, made⟩ := refers.waited _ _ found still
      have owned : info.waiter ∈ library.references (.inr owner) := by
        rw [references_of_call rfl, CallAt.made, waits, ← made]
        simp
      change Counted (library.putWfmo _ _).counts
        ((library.putEvent _ _).goTo _ _).references
      rw [references_goTo, references_putEvent, counts_putWfmo, refCount?_some,
        refCount_fired]
      apply Counted.keepPlace
      · apply counted.releaseShared count
        · rw [references_event, NeosmartEvent.waiters, front]
          exact List.Perm.refl _
        · have kept := owned
          rw [← update_of_ne (Sum.inr_ne_inl : .inr owner ≠ .inl event)
            (NeosmartEvent.waiters { (library.events event).taken with
              registeredWaits := rest }) library.references] at kept
          exact held_pos kept
      · exact same.trans rfl
  | findAll call last found | findAny call last found =>
      have same := references_of_call call
      have count := congrArg refCount? found
      change Counted (library.putWfmo _ _).counts
        ((library.putEvent _ _).goTo _ _).references
      rw [references_goTo, references_putEvent, counts_putWfmo]
      exact ((counted.keepCount (count.trans (by simp))).keepPlace
        (references_event _ _)).keepPlace (same.trans rfl)
  | register call last found =>
      have same := references_of_call call
      have count := congrArg refCount? found
      change Counted (library.putWfmo _ _).counts
        ((library.putEvent _ _).goTo _ _).references
      rw [references_goTo, references_putEvent, counts_putWfmo]
      apply Counted.keepPlace
      · apply counted.share count
        rw [references_event]
        simp [NeosmartEvent.waiters]
      · exact same.trans rfl
  | @signal _ _ event waiter call =>
      have same := references_of_call call
      cases auto : (library.events event).autoReset with
      | true =>
          simp only [signal, auto, if_true]
          change Counted library.counts
            (((library.mapCalls (.signalled waiter)).putEvent _ _).goTo _
              _).references
          rw [references_goTo, references_putEvent, references_signalled]
          exact (counted.keepPlace (references_event _ _)).keepPlace
            (same.trans rfl)
      | false =>
          simp only [signal, auto, Bool.false_eq_true, if_false]
          change Counted library.counts
            ((library.mapCalls (.signalled waiter)).goTo _ _).references
          rw [references_goTo, references_signalled]
          exact counted.keepPlace (same.trans rfl)
  | @notifyOne thread event sleeper milliseconds call auto sleeps =>
      have left := counted.keepPlace (references_of_call call)
      have without : update library.references (.inr thread)
          (CallAt.notifying event).made (.inr sleeper) =
            (CallAt.risen event milliseconds false).made := by
        rw [update_apply, references_of_call sleeps]
        split <;> rfl
      rw [references_goTo, references_goTo]
      exact left.keepPlace without
  | notifyAll call =>
      have same := references_of_call call
      rw [references_broadcast, references_goTo]
      exact counted.keepPlace (same.trans rfl)

omit [DecidableEq Event] [DecidableEq Thread] [Fintype Thread]
  [Fintype Event] in
theorem mem_references_of_wait {thread : Thread} {wait : Wait Event}
    (waits : (library.calls thread).wait? = some wait) :
    wait.wfmo ∈ library.references (.inr thread) := by
  rw [references_of_call rfl, CallAt.made, waits]
  simp

omit [DecidableEq Event] [DecidableEq Thread] [Fintype Thread]
  [Fintype Event] in
theorem wfmos_of_counts {waiter : Nat}
    (counted : library.counts waiter ≠ none) :
    ∃ wfmo, library.wfmos waiter = some wfmo := by
  cases found : library.wfmos waiter with
  | none => simp [counts, refCount?, found] at counted
  | some wfmo => exact ⟨wfmo, rfl⟩

/-- The waiter of a call is not deleted before the call returns. -/
theorem Refers.wfmo_of_wait (refers : library.Refers) {thread : Thread}
    {wait : Wait Event}
    (waits : (library.calls thread).wait? = some wait) :
    ∃ wfmo, library.wfmos wait.wfmo = some wfmo :=
  wfmos_of_counts (refers.counted.present (mem_references_of_wait waits))

/-- Nor is a waiter that an event refers to. -/
theorem Refers.wfmo_of_refersTo (refers : library.Refers) {waiter : Nat}
    (refersTo : library.RefersTo waiter) :
    ∃ wfmo, library.wfmos waiter = some wfmo := by
  rcases refersTo with ⟨event, info, member, rfl⟩ | ⟨thread, wait, waits, rfl⟩
  · have listed : info.waiter ∈ library.references (.inl event) :=
      List.mem_map_of_mem member
    exact wfmos_of_counts (refers.counted.present listed)
  · exact refers.wfmo_of_wait waits

theorem Refers.lt_created (refers : library.Refers) (locks : library.Locks)
    {thread : Thread} {wait : Wait Event}
    (waits : (library.calls thread).wait? = some wait) :
    wait.wfmo < library.created := by
  by_contra late
  obtain ⟨wfmo, found⟩ := refers.wfmo_of_wait waits
  rw [locks.fresh wait.wfmo (by omega)] at found
  cases found

theorem Refers.unique_step (refers : library.Refers) (locks : library.Locks)
    (move : Move library action next) (thread other : Thread)
    (wait otherWait : Wait Event)
    (waits : (next.calls thread).wait? = some wait)
    (otherWaits : (next.calls other).wait? = some otherWait)
    (same : wait.wfmo = otherWait.wfmo) : thread = other := by
  rcases wait_of_move move waits with
    ⟨before, waited, -, further⟩ | ⟨begun, -, new, -⟩
  · have number : before.wfmo = wait.wfmo := by rw [further]
    have old := refers.lt_created locks waited
    rcases wait_of_move move otherWaits with
      ⟨otherBefore, otherWaited, -, otherFurther⟩ | ⟨-, -, otherNew, -⟩
    · have otherNumber : otherBefore.wfmo = otherWait.wfmo := by
        rw [otherFurther]
      exact refers.unique _ _ _ _ waited otherWaited (by omega)
    · omega
  · rcases wait_of_move move otherWaits with
      ⟨otherBefore, otherWaited, -, otherFurther⟩ | ⟨otherBegun, -, -, -⟩
    · have otherNumber : otherBefore.wfmo = otherWait.wfmo := by
        rw [otherFurther]
      have old := refers.lt_created locks otherWaited
      omega
    · rw [begun] at otherBegun
      exact (Action.waitForMultipleEvents.inj otherBegun).1

theorem Refers.waitAll_step (refers : library.Refers) (locks : library.Locks)
    (move : Move library action next) (thread : Thread) (wait : Wait Event)
    (wfmo : Wfmo Thread) (waits : (next.calls thread).wait? = some wait)
    (found : next.wfmos wait.wfmo = some wfmo) :
    wfmo.waitAll = wait.waitAll := by
  rcases wait_of_move move waits with
    ⟨before, waited, -, further⟩ | ⟨begun, -, new, -⟩
  · have number : before.wfmo = wait.wfmo := by rw [further]
    have old := refers.lt_created locks waited
    rcases wfmo_of_move move found with
      ⟨wfmoBefore, known, sameAll, -⟩ | ⟨made, -⟩
    · rw [sameAll, refers.waitAll thread before wfmoBefore waited
        (number ▸ known), further]
    · omega
  · rcases wfmo_of_move move found with
      ⟨wfmoBefore, known, -⟩ | ⟨-, maker, events, milliseconds, making⟩
    · rw [new, locks.fresh _ (le_refl _)] at known
      cases known
    · rw [begun] at making
      exact (Action.waitForMultipleEvents.inj making).2.2.1.symm

/-- The call of a waiter that is still waiting has not returned: it stops the
waiting before. -/
theorem Refers.waited_step (refers : library.Refers)
    (move : Move library action next) (waiter : Nat) (wfmo : Wfmo Thread)
    (found : next.wfmos waiter = some wfmo)
    (still : wfmo.stillWaiting = true) :
    ∃ thread wait, (next.calls thread).wait? = some wait ∧
      wait.wfmo = waiter := by
  rcases wfmo_of_move move found with
    ⟨before, known, -, stillBefore⟩ | ⟨rfl, maker, events, time, making⟩
  · obtain ⟨thread, wait, waits, number⟩ :=
      refers.waited waiter before known (stillBefore still)
    rcases wait_kept_of_move move waits with
      ⟨after, goesOn, sameNumber⟩ | ⟨timedOut, last, leaving, had, rfl⟩
    · exact ⟨thread, after, goesOn, sameNumber.trans number⟩
    · simp only [giveBack, goTo, drop, assert, putWfmo, ← number,
        update_self] at found
      rw [released_eq_some found] at still
      cases still
  · subst making
    cases move with
    | begin outside =>
        refine ⟨maker, ⟨library.created, events, wfmo.waitAll, time, 0⟩,
          ?_, rfl⟩
        simp [CallAt.wait?]

theorem Refers.step (refers : library.Refers) (locks : library.Locks)
    (move : Move library action next) : next.Refers :=
  ⟨refers.counted_step locks move, refers.unique_step locks move,
    refers.waitAll_step locks move, refers.waited_step move⟩

omit [DecidableEq Event] [DecidableEq Thread] in
theorem start_refers (manualReset initialState : Event → Bool) :
    (start manualReset initialState : Library Thread Event).Refers := by
  constructor
  · constructor
    · intro waiter
      have none : ∀ place, ((start manualReset initialState :
          Library Thread Event).references place).count waiter = 0 := by
        rintro (event | thread) <;> rfl
      simp only [held, none, Finset.sum_const_zero]
      rfl
    · rintro waiter count ⟨⟩
  · rintro thread other wait otherWait ⟨⟩
  · rintro thread wait wfmo ⟨⟩
  · rintro waiter wfmo ⟨⟩

/-- A waiter exists exactly as long as something refers to it. -/
theorem Refers.exists_iff (refers : library.Refers) (waiter : Nat) :
    library.wfmos waiter ≠ none ↔ library.RefersTo waiter := by
  constructor
  · intro exist
    by_contra unreferred
    have unheld : held library.references waiter = 0 := by
      apply Finset.sum_eq_zero
      intro place _
      rw [List.count_eq_zero]
      intro member
      apply unreferred
      cases place with
      | inl event =>
          obtain ⟨info, listed, number⟩ := List.mem_map.mp member
          exact .inl ⟨event, info, listed, number⟩
      | inr thread =>
          obtain ⟨wait, waits, number⟩ : ∃ wait,
              (library.calls thread).wait? = some wait ∧
                wait.wfmo = waiter := by
            simpa [references, CallAt.made] using member
          exact .inr ⟨thread, wait, waits, number⟩
    have counted : library.counts waiter ≠ none := by
      simpa [counts, refCount?] using exist
    have some := refers.counted.present_iff.mp counted
    omega
  · intro refersTo
    obtain ⟨wfmo, found⟩ := refers.wfmo_of_refersTo refersTo
    simp [found]

/-- No step but a signal uses a deleted waiter. -/
theorem Refers.accessedFreed_eq (refers : library.Refers)
    (move : Move library action next) :
    next.accessedFreed = library.accessedFreed := by
  cases move with
  | accessFreed gone refersTo =>
      obtain ⟨wfmo, found⟩ := refers.wfmo_of_refersTo refersTo
      rw [gone] at found
      cases found
  | @signal _ _ event =>
      cases auto : (library.events event).autoReset <;> simp [signal, auto]
  | _ => rfl

/-- The mutexes and the references are in order, and no deleted waiter was
used. -/
structure Sound (library : Library Thread Event) : Prop where
  locks : library.Locks
  refers : library.Refers
  unused : library.accessedFreed = false

theorem Sound.step (sound : library.Sound)
    (stepTo : libraryStep library action = some next) : next.Sound := by
  have move := move_of_step stepTo
  refine ⟨sound.locks.step move, sound.refers.step sound.locks move, ?_⟩
  rw [sound.refers.accessedFreed_eq move, sound.unused]

omit [DecidableEq Event] [DecidableEq Thread] in
theorem start_sound (manualReset initialState : Event → Bool) :
    (start manualReset initialState : Library Thread Event).Sound :=
  ⟨start_locks _ _, start_refers _ _, rfl⟩

/-- No deleted waiter was used, a waiter exists exactly as long as something
refers to it, and its `RefCount` is the number of these references. -/
structure WaitersSafe (library : Library Thread Event) : Prop where
  unused : library.accessedFreed = false
  exists_iff : ∀ waiter,
    library.wfmos waiter ≠ none ↔ library.RefersTo waiter
  refCount_eq : ∀ waiter wfmo, library.wfmos waiter = some wfmo →
    wfmo.refCount = held library.references waiter

theorem Sound.waitersSafe (sound : library.Sound) : library.WaitersSafe := by
  refine ⟨sound.unused, sound.refers.exists_iff, ?_⟩
  intro waiter wfmo found
  have exact := sound.refers.counted.exact waiter
  simpa [counts, found] using exact

end Library

/-- However the calls interleave, no call locks, reads or writes a waiter that
was deleted, and no waiter is left behind: it exists exactly as long as the call
that made it, or an event where it is registered, refers to it. -/
theorem waiters_safe [Fintype Thread] [Fintype Event]
    (manualReset initialState : Event → Bool)
    (actions : List (Action Thread Event)) :
    HoldsAlong libraryStep Library.WaitersSafe
      (.start manualReset initialState) actions := by
  apply holdsAlong_of_invariant _ _
    (Library.start_sound manualReset initialState) actions
  · exact fun library sound => sound.waitersSafe
  · exact fun before action after sound stepTo => sound.step stepTo

end Neosmart
