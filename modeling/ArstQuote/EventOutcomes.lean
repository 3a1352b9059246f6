import ArstQuote.EventWaits

/-!
# What the calls of the event library tell

What `WaitForMultipleEvents` returns is what happened: the events that it names
or counts as its own satisfied it, each once.  An auto-reset event satisfies no
more waits than it was set, and the assertions of the library hold.
-/

namespace Neosmart

open Function GuardedRuns SharedObjects

variable {Thread Event : Type*} [DecidableEq Event] [DecidableEq Thread]

namespace Library

/-- How often an event has satisfied a wait of either kind. -/
def satisfied (library : Library Thread Event) (event : Event) : Nat :=
  (library.acquired.map Acquisition.event).count event

/-- Every satisfied wait has used up a call of `SetEvent`, and so will the next
one if the event is set. -/
def Spends (library : Library Thread Event) : Prop :=
  ∀ event, (library.events event).autoReset = true →
    library.satisfied event + (library.events event).state.toNat ≤
      library.sets event

variable {library next : Library Thread Event} {action : Action Thread Event}

omit [DecidableEq Thread] in
/-- An event that is set satisfies one more wait. -/
theorem Spends.take (spends : library.Spends) {event : Event}
    {object : NeosmartEvent Thread}
    (state : (library.events event).state = true)
    (auto : object.autoReset = (library.events event).autoReset)
    (taken : object.state = (library.events event).taken.state)
    (info : Option WfmoInfo) :
    ((library.putEvent event object).acquire event info).Spends := by
  intro other
  by_cases same : other = event
  · subst same
    intro autoReset
    simp only [putEvent, acquire, update_self] at autoReset ⊢
    have before := spends other (auto ▸ autoReset)
    have reset : object.state = false := by
      rw [taken, NeosmartEvent.taken, ← auto, autoReset]
      simp
    simp only [satisfied, List.map_cons, List.count_cons_self, reset,
      Bool.toNat_false]
    simp only [satisfied, state, Bool.toNat_true] at before
    omega
  · have before := spends other
    simpa [satisfied, update_of_ne same, List.count_cons, Ne.symm same]
      using before

omit [DecidableEq Thread] in
/-- An event that is not set by the step satisfies nobody. -/
theorem Spends.put (spends : library.Spends) {event : Event}
    {object : NeosmartEvent Thread}
    (auto : object.autoReset = (library.events event).autoReset)
    (fewer : object.state = true → (library.events event).state = true) :
    (library.putEvent event object).Spends := by
  intro other
  by_cases same : other = event
  · subst same
    intro autoReset
    simp only [putEvent, update_self] at autoReset ⊢
    have before := spends other (auto ▸ autoReset)
    have less : object.state.toNat ≤
        (library.events other).state.toNat := by
      cases state : object.state with
      | true => rw [fewer state]
      | false => exact Nat.zero_le _
    simp only [satisfied] at before ⊢
    omega
  · have before := spends other
    simpa [satisfied, update_of_ne same] using before

theorem Spends.step (spends : library.Spends) (locks : library.Locks)
    (move : Move library action next) : next.Spends := by
  cases move with
  | @setEvent _ changed =>
      intro event
      by_cases same : event = changed
      · subst same
        intro auto
        have before := spends event (by simpa using auto)
        simp only [satisfied, putEvent, goTo, countSet, update_self,
          Bool.toNat_true] at before ⊢
        omega
      · simpa [satisfied, update_of_ne same] using spends event
  | resetEvent => exact spends.put rfl (by simp)
  | endScan | lock | expire | remove | register => exact spends.put rfl id
  | take outside free state | riseTake call free state
  | findAll call last found state | findAny call last found state =>
      exact spends.take state (by rfl) (by rfl) _
  | fire call =>
      exact spends.take (locks.sets _ _ (.inl call)) (by rfl) (by rfl) _
  | @signal _ _ event =>
      cases auto : (library.events event).autoReset with
      | true =>
          simp only [signal, auto, if_true]
          exact spends.put (by simp [auto]) id
      | false =>
          simp only [signal, auto, Bool.false_eq_true, if_false]
          exact spends
  | _ => exact spends

omit [DecidableEq Thread] in
theorem start_spends (manualReset initialState : Event → Bool) :
    (start manualReset initialState : Library Thread Event).Spends := by
  intro event _
  cases initially : initialState event <;>
    simp [start, satisfied, initially]

section Asserts

variable [Fintype Thread] [Fintype Event]

omit [DecidableEq Event] [DecidableEq Thread] in
/-- `RefCount` does not fall below zero. -/
theorem Refers.dropped_nonneg (refers : library.Refers) {waiter : Nat}
    {wfmo : Wfmo Thread} (found : library.wfmos waiter = some wfmo) :
    0 ≤ wfmo.dropped.refCount := by
  have positive := refers.counted.positive waiter wfmo.refCount
    (congrArg refCount? found)
  simp only [Wfmo.dropped]
  omega

omit [DecidableEq Thread] [Fintype Thread] in
/-- `EventsLeft` does not either. -/
theorem Stands.countsDown {call : CallAt Event} {wait : Wait Event}
    {wfmo : Wfmo Thread} (stands : library.Stands call wait wfmo)
    (waitAll : wfmo.waitAll = wait.waitAll) : wfmo.countsDown = true := by
  cases all : wait.waitAll with
  | true =>
      have status := stands.accounts.all all
      simp [Wfmo.countsDown, waitAll, all, status]
  | false => simp [Wfmo.countsDown, waitAll, all]

/-- The assertions about a waiter that was there before the step. -/
theorem Settled.countsDown_after (settled : library.Settled)
    (sound : library.Sound) (move : Move library action next)
    (soundAfter : next.Sound) {thread : Thread} {wait : Wait Event}
    {wfmo : Wfmo Thread}
    (waits : (next.calls thread).wait? = some wait)
    (found : next.wfmos wait.wfmo = some wfmo) : wfmo.countsDown = true :=
  (settled.stands_step sound move thread wait wfmo waits found).countsDown
    (soundAfter.refers.waitAll thread wait wfmo waits found)

theorem Settled.asserts_step (settled : library.Settled)
    (sound : library.Sound) (asserts : library.assertsHold = true)
    (move : Move library action next) (soundAfter : next.Sound) :
    next.assertsHold = true := by
  have refers := sound.refers
  have same := move
  cases move with
  | expire call front found | remove call entry found =>
      simpa [asserts] using refers.dropped_nonneg found
  | leave call found =>
      simpa [asserts] using refers.dropped_nonneg found
  | @findAll thread _ wait _ _ wfmo call last found state all =>
      have waits : (update library.calls thread
          (.registering { wait with i := wait.i + 1 }) thread).wait? =
            some { wait with i := wait.i + 1 } := by
        rw [update_self]
        rfl
      have wfmos : update library.wfmos wait.wfmo
          (some (wfmo.found wait.i)) wait.wfmo = some (wfmo.found wait.i) :=
        update_self _ _ _
      have fits := settled.countsDown_after sound same soundAfter waits wfmos
      simpa [asserts] using fits
  | @findAny thread _ wait _ _ wfmo call last found state any =>
      have waits : (update library.calls thread
          (.leaving wait false) thread).wait? = some wait := by
        rw [update_self]
        rfl
      have wfmos : update library.wfmos wait.wfmo
          (some (wfmo.found wait.i)) wait.wfmo = some (wfmo.found wait.i) :=
        update_self _ _ _
      have fits := settled.countsDown_after sound same soundAfter waits wfmos
      simpa [asserts] using fits
  | @fire actor _ event info rest wfmo call front found free still =>
      obtain ⟨owner, wait, waits, made⟩ := refers.waited _ _ found still
      rcases wait_kept_of_move same waits with
        ⟨after, goesOn, number⟩ | ⟨timedOut, last, leaving, -, -⟩
      · have fired : (library.fire actor event info rest wfmo).wfmos
            after.wfmo = some (wfmo.fired info.waitIndex) := by
          rw [number, made]
          exact update_self _ _ _
        have fits := settled.countsDown_after sound same soundAfter goesOn
          fired
        have dropped := refers.dropped_nonneg found
        simp only [fire, assert, fits, Bool.and_true, Bool.and_eq_true]
        exact ⟨asserts, decide_eq_true dropped⟩
      · have stays := (sound.unlocked waits (made ▸ found) free).1
        simp [leaving] at stays
  | @signal _ _ event =>
      cases auto : (library.events event).autoReset <;>
        simpa [signal, auto] using asserts
  | _ => exact asserts

end Asserts

section Runs

variable [Fintype Thread] [Fintype Event]

/-- Everything that the calls keep. -/
structure Valid (library : Library Thread Event) : Prop where
  sound : library.Sound
  settled : library.Settled
  spends : library.Spends
  asserts : library.assertsHold = true

theorem Valid.step (valid : library.Valid)
    (stepTo : libraryStep library action = some next) : next.Valid := by
  have move := move_of_step stepTo
  have soundAfter := valid.sound.step stepTo
  exact ⟨soundAfter, valid.settled.step valid.sound move,
    valid.spends.step valid.sound.locks move,
    valid.settled.asserts_step valid.sound valid.asserts move soundAfter⟩

omit [DecidableEq Thread] in
theorem start_valid (manualReset initialState : Event → Bool) :
    (start manualReset initialState : Library Thread Event).Valid :=
  ⟨start_sound _ _, start_settled _ _, start_spends _ _, rfl⟩

/-- What a call of `WaitForMultipleEvents` has returned is true: each index that
was satisfied was so once and by the event it names; a wait for all events
counts the others, and one for any event names the index. -/
structure Outcome (library : Library Thread Event)
    (returned : Returned Event) : Prop where
  named : ∀ acquisition ∈ library.acquired, ∀ i,
    acquisition.info = some ⟨returned.wait.wfmo, i⟩ →
      returned.wait.events[i]? = some acquisition.event
  once : ∀ i, library.wins ⟨returned.wait.wfmo, i⟩ ≤ 1
  all : returned.wait.waitAll = true →
    returned.waitIndex = library.left returned.wait ∧
      (returned.timedOut = false → ∀ i < returned.wait.events.length,
        library.wins ⟨returned.wait.wfmo, i⟩ = 1)
  any : returned.wait.waitAll = false →
    (∀ i : Nat, library.wins ⟨returned.wait.wfmo, i⟩ = 1 ↔
      returned.waitIndex = i) ∧
    (returned.timedOut = false → ∃ i < returned.wait.events.length,
      returned.waitIndex = i)

omit [DecidableEq Thread] [Fintype Thread] in
theorem Settled.outcome (settled : library.Settled)
    {returned : Returned Event} (member : returned ∈ library.returned) :
    library.Outcome returned := by
  have told := settled.told returned member
  have made : library.Made returned.wait.wfmo returned.wait.events :=
    .inr ⟨returned, member, rfl, rfl⟩
  have named : ∀ acquisition ∈ library.acquired, ∀ i,
      acquisition.info = some ⟨returned.wait.wfmo, i⟩ →
        returned.wait.events[i]? = some acquisition.event :=
    fun acquisition acquired i taken =>
      (settled.won acquisition acquired _ taken).2 _ made
  refine ⟨named, told.accounts.once, ?_, ?_⟩
  · intro all
    have counted := told.accounts.all all
    refine ⟨counted, ?_⟩
    intro inTime i within
    have none := told.satisfied inTime
    rw [if_pos all, counted, Int.natCast_eq_zero, left,
      Finset.card_eq_zero, Finset.filter_eq_empty_iff] at none
    have won := none (Finset.mem_range.mpr within)
    have once := told.accounts.once i
    omega
  · intro any
    have exactly := told.accounts.any any
    have iff : ∀ i : Nat, library.wins ⟨returned.wait.wfmo, i⟩ = 1 ↔
        returned.waitIndex = i := by
      intro i
      rw [exactly i]
      split_ifs with same <;> simp [same]
    refine ⟨iff, ?_⟩
    intro inTime
    have some := told.satisfied inTime
    rw [if_neg (by simp [any])] at some
    rcases told.accounts.named any with none | index
    · exact absurd none some
    · obtain ⟨i, same⟩ := Int.eq_ofNat_of_zero_le index
      have won : 0 < library.wins ⟨returned.wait.wfmo, i⟩ := by
        rw [(iff i).mpr same]
        exact Nat.one_pos
      obtain ⟨acquisition, acquired, taken⟩ := exists_acquisition won
      have listed := named acquisition acquired i taken
      exact ⟨i, (List.getElem?_eq_some_iff.mp listed).1, same⟩

/-- No two calls that have returned had one waiter. -/
def Distinct (library : Library Thread Event) : Prop :=
  (library.returned.map fun returned => returned.wait.wfmo).Nodup

omit [Fintype Thread] in
theorem Settled.distinct_step (settled : library.Settled)
    (distinct : library.Distinct) (move : Move library action next) :
    next.Distinct := by
  rcases returned_eq_of_move move with
    same | ⟨wait, timedOut, wfmo, leaving, found, rfl⟩
  · rw [Distinct, same]
    exact distinct
  · refine List.nodup_cons.mpr ⟨?_, distinct⟩
    intro member
    obtain ⟨returned, before, number⟩ := List.mem_map.mp member
    exact (settled.past returned before).2 action.thread wait
      (congrArg CallAt.wait? leaving) number.symm

/-- The calls that have returned with an index. -/
def returnedAt (library : Library Thread Event) (i : Nat) :
    List (Returned Event) :=
  library.returned.filter fun returned : Returned Event =>
    returned.waitIndex = (i : Int)

omit [DecidableEq Thread] [Fintype Thread] in
/-- The waits for any event that returned with an index were satisfied by the
event it names, each once. -/
theorem Settled.returnedAt_le (settled : library.Settled)
    (distinct : library.Distinct) {event : Event} {i : Nat}
    (names : ∀ returned ∈ library.returned, returned.wait.waitAll = false ∧
      (returned.waitIndex = i → returned.wait.events[i]? = some event)) :
    (library.returnedAt i).length ≤ library.satisfied event := by
  let infos := (library.returnedAt i).map fun returned =>
    (⟨returned.wait.wfmo, i⟩ : WfmoInfo)
  let acquisitions := library.acquired.filter
    fun acquisition : Acquisition Event => acquisition.event = event
  have nodup : infos.Nodup := by
    have numbers : (infos.map WfmoInfo.waiter).Nodup := by
      rw [List.map_map]
      exact distinct.sublist (List.filter_sublist.map _)
    exact List.Nodup.of_map _ numbers
  have subset : infos ⊆ acquisitions.filterMap Acquisition.info := by
    intro info member
    obtain ⟨returned, filtered, rfl⟩ := List.mem_map.mp member
    obtain ⟨before, index⟩ := List.mem_filter.mp filtered
    have index := of_decide_eq_true index
    obtain ⟨any, named⟩ := names returned before
    have outcome := settled.outcome before
    have won := ((outcome.any any).1 i).mpr index
    obtain ⟨acquisition, acquired, taken⟩ :=
      exists_acquisition (won ▸ Nat.one_pos)
    have right := outcome.named acquisition acquired i taken
    rw [named index, Option.some.injEq] at right
    exact List.mem_filterMap.mpr ⟨acquisition,
      List.mem_filter.mpr ⟨acquired, by simp [right]⟩, taken⟩
  calc (library.returnedAt i).length
      = infos.length := (List.length_map _).symm
    _ ≤ (acquisitions.filterMap Acquisition.info).length :=
        (nodup.subperm subset).length_le
    _ ≤ acquisitions.length := List.length_filterMap_le _ _
    _ = library.satisfied event := by
        rw [satisfied, List.count, List.countP_map, List.countP_eq_length_filter]
        rfl

end Runs

end Library

section Runs

variable [Fintype Thread] [Fintype Event]

/-- `WaitForMultipleEvents` tells the truth, in time or not and whatever the
other threads do. -/
theorem waits_truthful (manualReset initialState : Event → Bool)
    (actions : List (Action Thread Event)) :
    HoldsAlong libraryStep
      (fun library => ∀ returned ∈ library.returned, library.Outcome returned)
      (.start manualReset initialState) actions := by
  apply holdsAlong_of_invariant _ _
    (Library.start_valid manualReset initialState) actions
  · intro library valid returned member
    exact valid.settled.outcome member
  · exact fun before action after valid stepTo => valid.step stepTo

/-- No two waits are satisfied by one call of `SetEvent` on an auto-reset
event. -/
theorem events_spent (manualReset initialState : Event → Bool)
    (actions : List (Action Thread Event)) :
    HoldsAlong libraryStep Library.Spends
      (.start manualReset initialState) actions := by
  apply holdsAlong_of_invariant _ _
    (Library.start_valid manualReset initialState) actions
  · exact fun library valid => valid.spends
  · exact fun before action after valid stepTo => valid.step stepTo

/-- The assertions of the library hold. -/
theorem asserts_hold (manualReset initialState : Event → Bool)
    (actions : List (Action Thread Event)) :
    HoldsAlong libraryStep (fun library => library.assertsHold = true)
      (.start manualReset initialState) actions := by
  apply holdsAlong_of_invariant _ _
    (Library.start_valid manualReset initialState) actions
  · exact fun library valid => valid.asserts
  · exact fun before action after valid stepTo => valid.step stepTo

end Runs

end Neosmart
