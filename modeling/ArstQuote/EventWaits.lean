import ArstQuote.EventReferences

/-!
# What the waits of the event library are satisfied by

An event satisfies a waiter where a call of `SetEvent` finds the waiter
registered, or where the call of the waiter finds the event set.  Each index of
a wait is registered or satisfied at most once, and the waiter's `Status` counts
this: `EventsLeft` those that are not satisfied yet, and `FiredEvent` names the
one that is.
-/

namespace Neosmart

open Function GuardedRuns SharedObjects

variable {Thread Event : Type*}

namespace Library

/-- How often an event has satisfied this index of a waiter. -/
def wins (library : Library Thread Event) (info : WfmoInfo) : Nat :=
  (library.acquired.map Acquisition.info).count (some info)

/-- How often an index of a waiter is registered. -/
def entries [Fintype Event] (library : Library Thread Event)
    (info : WfmoInfo) : Nat :=
  held (NeosmartEvent.registeredWaits ∘ library.events) info

theorem wins_acquire (library : Library Thread Event) (event : Event)
    (taken : Option WfmoInfo) (info : WfmoInfo) :
    (library.acquire event taken).wins info =
      library.wins info + if taken = some info then 1 else 0 := by
  simp [wins, List.count_cons]

theorem wins_le_of_move [DecidableEq Event] [DecidableEq Thread]
    {library next : Library Thread Event} {action : Action Thread Event}
    (move : Move library action next) (info : WfmoInfo) :
    library.wins info ≤ next.wins info := by
  rcases acquired_eq_of_move move with same | ⟨acquisition, more⟩
  · simp only [wins, same, le_refl]
  · simp only [wins, more, List.map_cons]
    exact List.count_le_count_cons

variable [DecidableEq Event] [Fintype Event]

theorem entries_putEvent (library : Library Thread Event) (event : Event)
    (object : NeosmartEvent Thread) (info : WfmoInfo) :
    (library.putEvent event object).entries info +
        (library.events event).registeredWaits.count info =
      library.entries info + object.registeredWaits.count info := by
  simp only [entries, putEvent, comp_update]
  exact held_update _ event _ info

theorem entries_of_count (library : Library Thread Event) (event : Event)
    (object : NeosmartEvent Thread) (info : WfmoInfo)
    (same : object.registeredWaits.count info =
      (library.events event).registeredWaits.count info) :
    (library.putEvent event object).entries info = library.entries info := by
  have updated := library.entries_putEvent event object info
  omega

/-- A step as the waiter of another call sees it: nothing happens to it, or it
is fired from where it is registered, or its registration is removed after it
has stopped waiting. -/
inductive Foreign (library next : Library Thread Event) (waiter : Nat) : Prop
  | same
      (wfmo : next.wfmos waiter = library.wfmos waiter)
      (wins : ∀ i, next.wins ⟨waiter, i⟩ = library.wins ⟨waiter, i⟩)
      (entries : ∀ i, next.entries ⟨waiter, i⟩ = library.entries ⟨waiter, i⟩)
  | fired {event waitIndex wfmo}
      (listed : ⟨waiter, waitIndex⟩ ∈ (library.events event).registeredWaits)
      (found : library.wfmos waiter = some wfmo)
      (free : wfmo.mutex = none)
      (still : wfmo.stillWaiting = true)
      (signals : ∃ thread event,
        next.calls thread = .signalling event waiter)
      (wfmo : next.wfmos waiter = some (wfmo.fired waitIndex))
      (wins : ∀ i, next.wins ⟨waiter, i⟩ =
        library.wins ⟨waiter, i⟩ + if waitIndex = i then 1 else 0)
      (entries : ∀ i,
        next.entries ⟨waiter, i⟩ + (if waitIndex = i then 1 else 0) =
          library.entries ⟨waiter, i⟩)
  | expired {wfmo}
      (found : library.wfmos waiter = some wfmo)
      (ended : wfmo.stillWaiting = false)
      (wfmo : next.wfmos waiter = wfmo.released)
      (wins : ∀ i, next.wins ⟨waiter, i⟩ = library.wins ⟨waiter, i⟩)

variable [DecidableEq Thread] {library next : Library Thread Event}
  {action : Action Thread Event}

/-- The steps of another call that come across no entry of the waiter. -/
theorem foreign_of_move (move : Move library action next) {waiter : Nat}
    (foreign : ∀ wait, (library.calls action.thread).wait? = some wait →
      wait.wfmo ≠ waiter)
    (old : waiter ≠ library.created) : Foreign library next waiter := by
  cases move with
  | stay | accessFreed | sleep | keepMutex | notifyOne | notifyNone
  | notifyAll | giveUp | finish | keep | wakeWaiter | waitAgain
  | wakeSleeper | riseLate | sleepAgain =>
      exact .same rfl (fun _ => rfl) (fun _ => rfl)
  | setEvent | resetEvent | lock =>
      exact .same rfl (fun _ => rfl)
        (fun _ => library.entries_of_count _ _ _ rfl)
  | endScan call empty =>
      exact .same rfl (fun _ => rfl)
        (fun _ => library.entries_of_count _ _ _ (by rw [empty]))
  | take | riseTake =>
      refine .same rfl (fun i => ?_)
        (fun _ => library.entries_of_count _ _ _ rfl)
      exact library.wins_acquire _ _ _
  | begin =>
      exact .same (update_of_ne old _ _) (fun _ => rfl) (fun _ => rfl)
  | wait call | relock call | leave call =>
      have other := foreign _ (congrArg CallAt.wait? call)
      exact .same (update_of_ne other.symm _ _) (fun _ => rfl) (fun _ => rfl)
  | @signal _ _ event _ call =>
      cases auto : (library.events event).autoReset with
      | true =>
          refine .same (by simp [signal, auto]) (fun _ => ?_) (fun i => ?_)
          · simp [signal, auto, wins]
          · simp only [signal, auto, if_true]
            exact library.entries_of_count _ _ _ rfl
      | false =>
          refine .same (by simp [signal, auto]) (fun _ => ?_) (fun i => ?_)
          · simp [signal, auto, wins]
          · simp [signal, auto, entries]
  | findAll call | findAny call =>
      have other := foreign _ (congrArg CallAt.wait? call)
      refine .same (update_of_ne other.symm _ _) (fun i => ?_)
        (fun _ => library.entries_of_count _ _ _ rfl)
      refine (library.wins_acquire _ _ _).trans ?_
      simp [other]
  | register call =>
      have other := foreign _ (congrArg CallAt.wait? call)
      exact .same (update_of_ne other.symm _ _) (fun _ => rfl)
        (fun _ => library.entries_of_count _ _ _
          (by simp [List.count_append, other]))
  | @expire _ _ event info rest wfmo call front found free expired =>
      by_cases mine : info.waiter = waiter
      · subst mine
        exact .expired found expired (update_self _ _ _) (fun _ => rfl)
      · have apart : ∀ i, info ≠ ⟨waiter, i⟩ := fun i same => mine (same ▸ rfl)
        exact .same (update_of_ne (Ne.symm mine) _ _) (fun _ => rfl)
          (fun i => library.entries_of_count _ _ _
            (by rw [front, List.count_cons_of_ne (apart i)]))
  | @remove _ _ _ event position info wfmo call entry found free expired =>
      by_cases mine : info.waiter = waiter
      · subst mine
        exact .expired found expired (update_self _ _ _) (fun _ => rfl)
      · have apart : ∀ i, info ≠ ⟨waiter, i⟩ := fun i same => mine (same ▸ rfl)
        obtain ⟨within, rfl⟩ := List.getElem?_eq_some_iff.mp entry
        have perm := List.getElem_cons_eraseIdx_perm within
        exact .same (update_of_ne (Ne.symm mine) _ _) (fun _ => rfl)
          (fun i => library.entries_of_count _ _ _
            (by rw [← perm.count_eq, List.count_cons_of_ne (apart i)]))
  | @fire _ _ event info rest wfmo call front found free still =>
      have listed : info ∈ (library.events event).registeredWaits := by
        simp [front]
      have updated := fun i => library.entries_putEvent event {
        (library.events event).taken with registeredWaits := rest }
        ⟨waiter, i⟩
      obtain ⟨number, index⟩ := info
      simp only [front, List.count_cons, beq_iff_eq,
        WfmoInfo.mk.injEq] at updated
      by_cases mine : number = waiter
      · subst mine
        refine .fired listed found free still
          ⟨_, event, update_self _ _ _⟩ (update_self _ _ _) (fun i => ?_)
          (fun i => ?_)
        · refine (library.wins_acquire _ _ _).trans ?_
          simp
        · have counted := updated i
          simp only [true_and] at counted
          rw [add_comm (List.count _ rest), ← add_assoc] at counted
          exact Nat.add_right_cancel counted
      · refine .same (update_of_ne (Ne.symm mine) _ _) (fun i => ?_)
          (fun i => ?_)
        · refine (library.wins_acquire _ _ _).trans ?_
          simp [mine]
        · exact library.entries_of_count _ _ _ (by simp [front, mine])

end Library

/-- The call is about to return. -/
@[simp] def CallAt.leaves : CallAt Event → Bool
  | .leaving _ _ => true
  | _ => false

/-- The call has looked at all of its events and waits to be signalled. -/
@[simp] def CallAt.waits : CallAt Event → Bool
  | .waiting _ | .woken _ _ => true
  | _ => false

/-- The call goes through its events with its waiter locked. -/
@[simp] def CallAt.registers : CallAt Event → Bool
  | .registering _ | .cleaning _ _ _ => true
  | _ => false

namespace Library

/-- How many indices of a wait are not satisfied yet. -/
def left (library : Library Thread Event) (wait : Wait Event) : Nat :=
  ((Finset.range wait.events.length).filter fun i =>
    library.wins ⟨wait.wfmo, i⟩ = 0).card

/-- Each index of the wait is satisfied at most once, and `Status` counts the
others, or names the one. -/
structure Accounts (library : Library Thread Event) (wait : Wait Event)
    (status : Int) : Prop where
  once : ∀ i, library.wins ⟨wait.wfmo, i⟩ ≤ 1
  all : wait.waitAll = true → status = library.left wait
  named : wait.waitAll = false → status = -1 ∨ 0 ≤ status
  any : wait.waitAll = false → ∀ i : Nat,
    library.wins ⟨wait.wfmo, i⟩ = if status = i then 1 else 0

/-- How a wait and its waiter stand while the call goes on.  Unless the waiter
is fired already, it is registered for every index that it looked at and that is
not satisfied. -/
structure Stands [Fintype Event] [DecidableEq Event]
    (library : Library Thread Event) (call : CallAt Event)
    (wait : Wait Event) (wfmo : Wfmo Thread) : Prop where
  bound : wait.i ≤ wait.events.length
  accounts : library.Accounts wait wfmo.status
  registered : call.leaves = false → wfmo.stillWaiting = true → ∀ i,
    library.wins ⟨wait.wfmo, i⟩ + library.entries ⟨wait.wfmo, i⟩ =
      if i < wait.i then 1 else 0
  unfired : call.leaves = false → wfmo.stillWaiting = true →
    wait.waitAll = false → wfmo.status = -1
  unseen : call.registers = true → wfmo.stillWaiting = true
  fired : wfmo.stillWaiting = false →
    wait.waitAll = false ∧ wfmo.status ≠ -1
  looks : ∀ event position, call = .cleaning wait event position →
    wait.events[wait.i]? = some event
  looked : call.waits = true → wait.i = wait.events.length
  done : call = .leaving wait false → wfmo.done = true

section Accounts

variable {library next : Library Thread Event} {wait : Wait Event}
  {status : Int}

theorem Accounts.of_wins (accounts : library.Accounts wait status)
    (wins : ∀ i, next.wins ⟨wait.wfmo, i⟩ = library.wins ⟨wait.wfmo, i⟩) :
    next.Accounts wait status := by
  refine ⟨?_, ?_, accounts.named, ?_⟩
  · simpa only [wins] using accounts.once
  · simpa only [left, wins] using accounts.all
  · simpa only [wins] using accounts.any

/-- One more index is satisfied. -/
theorem left_of_win {index : Nat} (within : index < wait.events.length)
    (unwon : library.wins ⟨wait.wfmo, index⟩ = 0)
    (wins : ∀ i, next.wins ⟨wait.wfmo, i⟩ =
      library.wins ⟨wait.wfmo, i⟩ + if index = i then 1 else 0) :
    next.left wait + 1 = library.left wait := by
  have member : index ∈ (Finset.range wait.events.length).filter fun i =>
      library.wins ⟨wait.wfmo, i⟩ = 0 := by
    simp [within, unwon]
  have erased : ((Finset.range wait.events.length).filter fun i =>
      next.wins ⟨wait.wfmo, i⟩ = 0) =
        ((Finset.range wait.events.length).filter fun i =>
          library.wins ⟨wait.wfmo, i⟩ = 0).erase index := by
    ext i
    by_cases same : index = i
    · simp [wins, same]
    · simp [wins, same, Ne.symm same]
  unfold left
  rw [erased]
  exact Finset.card_erase_add_one member

theorem Accounts.win (accounts : library.Accounts wait status) {index : Nat}
    (within : index < wait.events.length)
    (unwon : library.wins ⟨wait.wfmo, index⟩ = 0)
    (unfired : wait.waitAll = false → status = -1)
    (wins : ∀ i, next.wins ⟨wait.wfmo, i⟩ =
      library.wins ⟨wait.wfmo, i⟩ + if index = i then 1 else 0) :
    next.Accounts wait (if wait.waitAll then status - 1 else index) := by
  have less := left_of_win within unwon wins
  constructor
  · intro i
    rw [wins]
    have before := accounts.once i
    split
    case isTrue same =>
      subst same
      omega
    case isFalse => omega
  · intro all
    rw [if_pos all, accounts.all all]
    omega
  · intro any
    simp [any]
  · intro any i
    have before := accounts.any any i
    rw [unfired any, if_neg (by omega)] at before
    rw [wins, before, zero_add, any, if_neg Bool.false_ne_true]
    exact if_congr Int.natCast_inj.symm rfl rfl

end Accounts

section Steps

variable [Fintype Event] [DecidableEq Event]
  {library next : Library Thread Event} {call after : CallAt Event}
  {wait : Wait Event} {wfmo : Wfmo Thread}

/-- Nothing happens to a wait but that its thread may be signalled. -/
theorem Stands.signalled (stands : library.Stands call wait wfmo)
    (signalled : call.Signalled after) : library.Stands after wait wfmo := by
  cases signalled with
  | same => exact stands
  | woken =>
      exact { stands with
        unseen := by simp
        looks := by simp
        done := by simp
        looked := fun _ => stands.looked rfl
        registered := fun _ => stands.registered rfl
        unfired := fun _ => stands.unfired rfl }
  | risen =>
      exact { stands with
        unseen := by simp
        looks := by simp
        done := by simp
        looked := by simp
        registered := fun _ => stands.registered rfl
        unfired := fun _ => stands.unfired rfl }

theorem Stands.of_same (stands : library.Stands call wait wfmo)
    (wins : ∀ i, next.wins ⟨wait.wfmo, i⟩ = library.wins ⟨wait.wfmo, i⟩)
    (entries : ∀ i,
      next.entries ⟨wait.wfmo, i⟩ = library.entries ⟨wait.wfmo, i⟩) :
    next.Stands call wait wfmo :=
  { stands with
    accounts := stands.accounts.of_wins wins
    registered := by simpa only [wins, entries] using stands.registered }

/-- The call goes on to another place with its waiter as it is. -/
theorem Stands.goOn (stands : library.Stands call wait wfmo)
    (stays : call.leaves = false)
    (unseen : after.registers = true → wfmo.stillWaiting = true)
    (looks : ∀ event position, after = .cleaning wait event position →
      wait.events[wait.i]? = some event)
    (looked : after.waits = true → wait.i = wait.events.length)
    (done : after = .leaving wait false → wfmo.done = true) :
    library.Stands after wait wfmo :=
  { stands with
    registered := fun _ => stands.registered stays
    unfired := fun _ => stands.unfired stays
    unseen := unseen
    looks := looks
    looked := looked
    done := done }

/-- Locking and unlocking the waiter makes no difference. -/
theorem Stands.lock (stands : library.Stands call wait wfmo)
    (mutex : Option Thread) :
    library.Stands call wait { wfmo with mutex := mutex } :=
  { stands with }

/-- An index where the waiter is registered is not satisfied yet. -/
theorem Stands.unwon (stands : library.Stands call wait wfmo)
    (stays : call.leaves = false) (still : wfmo.stillWaiting = true)
    {event : Event} {index : Nat}
    (listed : ⟨wait.wfmo, index⟩ ∈ (library.events event).registeredWaits) :
    index < wait.events.length ∧ library.wins ⟨wait.wfmo, index⟩ = 0 := by
  have counted := stands.registered stays still index
  have some : 0 < library.entries ⟨wait.wfmo, index⟩ :=
    held_pos (show _ ∈ (NeosmartEvent.registeredWaits ∘ library.events) event
      from listed)
  have bound := stands.bound
  split at counted <;> omega

/-- `SetEvent` fires the waiter from where it is registered. -/
theorem Stands.fire (stands : library.Stands call wait wfmo)
    (waitAll : wfmo.waitAll = wait.waitAll)
    (stays : call.leaves = false) (passed : call.registers = false)
    (still : wfmo.stillWaiting = true) {event : Event} {index : Nat}
    (listed : ⟨wait.wfmo, index⟩ ∈ (library.events event).registeredWaits)
    (wins : ∀ i, next.wins ⟨wait.wfmo, i⟩ =
      library.wins ⟨wait.wfmo, i⟩ + if index = i then 1 else 0)
    (entries : ∀ i,
      next.entries ⟨wait.wfmo, i⟩ + (if index = i then 1 else 0) =
        library.entries ⟨wait.wfmo, i⟩) :
    next.Stands call wait (wfmo.fired index) := by
  obtain ⟨within, unwon⟩ := stands.unwon stays still listed
  have accounts := stands.accounts.win within unwon
    (stands.unfired stays still) wins
  have registered : ∀ i,
      next.wins ⟨wait.wfmo, i⟩ + next.entries ⟨wait.wfmo, i⟩ =
        if i < wait.i then 1 else 0 := by
    intro i
    rw [← stands.registered stays still i, wins, ← entries]
    omega
  cases all : wait.waitAll with
  | true =>
      rw [all] at waitAll accounts
      exact {
        bound := stands.bound
        accounts := by simpa [Wfmo.fired, waitAll] using accounts
        registered := fun _ _ => registered
        unfired := by simp [all]
        unseen := fun registers => absurd registers (by rw [passed]; decide)
        fired := by simp [Wfmo.fired, waitAll, still]
        looks := stands.looks
        looked := stands.looked
        done := by
          rintro rfl
          cases stays }
  | false =>
      rw [all] at waitAll accounts
      exact {
        bound := stands.bound
        accounts := by simpa [Wfmo.fired, waitAll] using accounts
        registered := by simp [Wfmo.fired, waitAll]
        unfired := by simp [Wfmo.fired, waitAll]
        unseen := fun registers => absurd registers (by rw [passed]; decide)
        fired := by
          simp only [Wfmo.fired, waitAll, all]
          simp
        looks := stands.looks
        looked := stands.looked
        done := by
          rintro rfl
          cases stays }

/-- A registration of a waiter that was fired is removed. -/
theorem Stands.expire (stands : library.Stands call wait wfmo)
    (ended : wfmo.stillWaiting = false) {left : Wfmo Thread}
    (released : wfmo.released = some left)
    (wins : ∀ i, next.wins ⟨wait.wfmo, i⟩ = library.wins ⟨wait.wfmo, i⟩) :
    next.Stands call wait left := by
  rw [released_eq_some released]
  exact { stands with
    accounts := stands.accounts.of_wins wins
    registered := by simp [ended]
    unfired := by simp [ended] }

/-- The index that the call looks at is not satisfied yet. -/
theorem Stands.next_unwon (stands : library.Stands call wait wfmo)
    {event : Event} {position : Nat}
    (cleaning : call = .cleaning wait event position) :
    wait.i < wait.events.length ∧ library.wins ⟨wait.wfmo, wait.i⟩ = 0 := by
  subst cleaning
  have none := stands.registered rfl (stands.unseen rfl) wait.i
  rw [if_neg (lt_irrefl _)] at none
  have listed := stands.looks event position rfl
  exact ⟨(List.getElem?_eq_some_iff.mp listed).1, by omega⟩

/-- The call finds the next event set, one of those that it waits for. -/
theorem Stands.findAll (stands : library.Stands call wait wfmo)
    (waitAll : wfmo.waitAll = wait.waitAll) {event : Event} {position : Nat}
    (cleaning : call = .cleaning wait event position)
    (all : wait.waitAll = true)
    (wins : ∀ i, next.wins ⟨wait.wfmo, i⟩ =
      library.wins ⟨wait.wfmo, i⟩ + if wait.i = i then 1 else 0)
    (entries : ∀ i,
      next.entries ⟨wait.wfmo, i⟩ = library.entries ⟨wait.wfmo, i⟩) :
    next.Stands (.registering { wait with i := wait.i + 1 })
      { wait with i := wait.i + 1 } (wfmo.found wait.i) := by
  obtain ⟨within, unwon⟩ := stands.next_unwon cleaning
  subst cleaning
  have still := stands.unseen rfl
  have accounts := stands.accounts.win within unwon
    (stands.unfired rfl still) wins
  obtain ⟨sameAll, sameStill⟩ := found_facts wfmo wait.i
  rw [all] at waitAll accounts
  exact {
    bound := within
    accounts := by
      have status : (wfmo.found wait.i).status = wfmo.status - 1 := by
        simp [Wfmo.found, waitAll]
      rw [status]
      exact ⟨accounts.once, accounts.all, accounts.named, accounts.any⟩
    registered := by
      intro _ _ i
      have before := stands.registered rfl still i
      change next.wins ⟨wait.wfmo, i⟩ + next.entries ⟨wait.wfmo, i⟩ =
        if i < wait.i + 1 then 1 else 0
      rw [wins, entries]
      split_ifs at before ⊢ <;> omega
    unfired := by simp [all]
    unseen := by simp [sameStill, still]
    fired := by simp [sameStill, still]
    looks := by simp
    looked := by simp
    done := by simp }

/-- The call finds the next event set, the one that ends its wait. -/
theorem Stands.findAny (stands : library.Stands call wait wfmo)
    (waitAll : wfmo.waitAll = wait.waitAll) {event : Event} {position : Nat}
    (cleaning : call = .cleaning wait event position)
    (any : wait.waitAll = false)
    (wins : ∀ i, next.wins ⟨wait.wfmo, i⟩ =
      library.wins ⟨wait.wfmo, i⟩ + if wait.i = i then 1 else 0) :
    next.Stands (.leaving wait false) wait (wfmo.found wait.i) := by
  obtain ⟨within, unwon⟩ := stands.next_unwon cleaning
  subst cleaning
  have still := stands.unseen rfl
  have accounts := stands.accounts.win within unwon
    (stands.unfired rfl still) wins
  obtain ⟨sameAll, sameStill⟩ := found_facts wfmo wait.i
  rw [any] at waitAll accounts
  exact {
    bound := stands.bound
    accounts := by simpa [Wfmo.found, waitAll] using accounts
    registered := by simp
    unfired := by simp
    unseen := by simp
    fired := by simp [sameStill, still]
    looks := by simp
    looked := by simp
    done := by simp [Wfmo.found, Wfmo.done, waitAll] }

/-- The call registers its waiter with the next event. -/
theorem Stands.register (stands : library.Stands call wait wfmo)
    {event : Event} {position : Nat}
    (cleaning : call = .cleaning wait event position)
    (wins : ∀ i, next.wins ⟨wait.wfmo, i⟩ = library.wins ⟨wait.wfmo, i⟩)
    (entries : ∀ i, next.entries ⟨wait.wfmo, i⟩ =
      library.entries ⟨wait.wfmo, i⟩ + if wait.i = i then 1 else 0) :
    next.Stands (.registering { wait with i := wait.i + 1 })
      { wait with i := wait.i + 1 }
      { wfmo with refCount := wfmo.refCount + 1 } := by
  obtain ⟨within, -⟩ := stands.next_unwon cleaning
  subst cleaning
  have still := stands.unseen rfl
  have accounts := stands.accounts.of_wins wins
  exact {
    bound := within
    accounts :=
      ⟨accounts.once, accounts.all, accounts.named, accounts.any⟩
    registered := by
      intro _ _ i
      have before := stands.registered rfl still i
      change next.wins ⟨wait.wfmo, i⟩ + next.entries ⟨wait.wfmo, i⟩ =
        if i < wait.i + 1 then 1 else 0
      rw [wins, entries]
      split_ifs at before ⊢ <;> omega
    unfired := fun _ _ any => stands.unfired rfl still any
    unseen := fun _ => still
    fired := stands.fired
    looks := by simp
    looked := by simp
    done := by simp }

end Steps

section Runs

variable [Fintype Event] [DecidableEq Event]
  {library next : Library Thread Event} {action : Action Thread Event}

/-- A call of `WaitForMultipleEvents` on these events made the waiter; it has
returned or not. -/
def Made (library : Library Thread Event) (waiter : Nat)
    (events : List Event) : Prop :=
  (∃ thread wait, (library.calls thread).wait? = some wait ∧
    wait.wfmo = waiter ∧ wait.events = events) ∨
  ∃ returned ∈ library.returned,
    returned.wait.wfmo = waiter ∧ returned.wait.events = events

/-- What a call that has returned has told its caller is true. -/
structure Told (library : Library Thread Event) (returned : Returned Event) :
    Prop where
  accounts : library.Accounts returned.wait returned.waitIndex
  satisfied : returned.timedOut = false →
    if returned.wait.waitAll then returned.waitIndex = 0
    else returned.waitIndex ≠ -1

/-- All waits stand well, and what satisfied a waiter, or where it is
registered, is the event of its list that the index names. -/
structure Settled (library : Library Thread Event) : Prop where
  stands : ∀ thread wait wfmo, (library.calls thread).wait? = some wait →
    library.wfmos wait.wfmo = some wfmo →
      library.Stands (library.calls thread) wait wfmo
  told : ∀ returned ∈ library.returned, library.Told returned
  past : ∀ returned ∈ library.returned,
    returned.wait.wfmo < library.created ∧
      ∀ thread wait, (library.calls thread).wait? = some wait →
        wait.wfmo ≠ returned.wait.wfmo
  won : ∀ acquisition ∈ library.acquired, ∀ info,
    acquisition.info = some info → info.waiter < library.created ∧
      ∀ events, library.Made info.waiter events →
        events[info.waitIndex]? = some acquisition.event
  listed : ∀ event, ∀ info ∈ (library.events event).registeredWaits,
    ∀ events, library.Made info.waiter events →
      events[info.waitIndex]? = some event

variable [DecidableEq Thread] [Fintype Thread]

omit [DecidableEq Event] [DecidableEq Thread] [Fintype Event]
  [Fintype Thread] in
/-- An index that was satisfied is on record. -/
theorem exists_acquisition {info : WfmoInfo} (won : 0 < library.wins info) :
    ∃ acquisition ∈ library.acquired, acquisition.info = some info :=
  List.mem_map.mp (List.count_pos_iff.mp won)

omit [DecidableEq Thread] [Fintype Thread] in
theorem Settled.wins_created (settled : library.Settled) (i : Nat) :
    library.wins ⟨library.created, i⟩ = 0 := by
  by_contra won
  obtain ⟨acquisition, member, taken⟩ :=
    exists_acquisition (Nat.pos_of_ne_zero won)
  have old := (settled.won acquisition member _ taken).1
  exact lt_irrefl _ old

/-- A waiter with a number to come is registered nowhere. -/
theorem Sound.not_listed (sound : library.Sound) {event : Event}
    {info : WfmoInfo}
    (member : info ∈ (library.events event).registeredWaits) :
    info.waiter < library.created := by
  by_contra late
  obtain ⟨wfmo, found⟩ :=
    sound.refers.wfmo_of_refersTo (refersTo_of_mem member)
  rw [sound.locks.fresh _ (by omega)] at found
  cases found

theorem Sound.entries_created (sound : library.Sound) (i : Nat) :
    library.entries ⟨library.created, i⟩ = 0 := by
  apply Finset.sum_eq_zero
  intro event _
  rw [List.count_eq_zero]
  intro member
  exact lt_irrefl _ (sound.not_listed member)

omit [DecidableEq Event] [DecidableEq Thread] in
/-- A call keeps its waiter locked while it registers it and when it leaves. -/
theorem Sound.unlocked (sound : library.Sound) {thread : Thread}
    {wait : Wait Event} {wfmo : Wfmo Thread}
    (waits : (library.calls thread).wait? = some wait)
    (found : library.wfmos wait.wfmo = some wfmo)
    (free : wfmo.mutex = none) :
    (library.calls thread).leaves = false ∧
      (library.calls thread).registers = false := by
  have unheld : (library.calls thread).wfmoHeld ≠ some wait.wfmo := by
    intro held
    have noted := (sound.locks.wfmos wait.wfmo thread).mpr held
    simp [found, free] at noted
  cases call : library.calls thread <;>
    simp_all [CallAt.wait?]

/-- Whoever an event satisfies goes on waiting in its call. -/
theorem Sound.taker_of_move (sound : library.Sound)
    (move : Move library action next) {event : Event}
    {info : Option WfmoInfo}
    (taken : next.acquired = ⟨event, info⟩ :: library.acquired) :
    (∃ thread time, action = .waitForEvent thread event time) ∨
      (∃ time, library.calls action.thread = .risen event time false) ∨
      ∃ thread wait i, (next.calls thread).wait? = some wait ∧
        info = some ⟨wait.wfmo, i⟩ := by
  cases move with
  | take =>
      obtain ⟨rfl, rfl⟩ := Acquisition.mk.inj (List.cons.inj taken).1
      exact .inl ⟨_, _, rfl⟩
  | riseTake call =>
      obtain ⟨rfl, rfl⟩ := Acquisition.mk.inj (List.cons.inj taken).1
      exact .inr (.inl ⟨_, call⟩)
  | @fire actor _ changed entry rest wfmo call front found free still =>
      obtain ⟨rfl, rfl⟩ := Acquisition.mk.inj (List.cons.inj taken).1
      obtain ⟨thread, wait, waits, number⟩ :=
        sound.refers.waited _ _ found still
      have other : thread ≠ actor := by
        rintro rfl
        simp [call, CallAt.wait?] at waits
      refine .inr (.inr ⟨thread, wait, entry.waitIndex, ?_, by rw [number]⟩)
      simpa [fire, update_of_ne other] using waits
  | @findAll actor _ wait | @findAny actor _ wait =>
      obtain ⟨rfl, rfl⟩ := Acquisition.mk.inj (List.cons.inj taken).1
      exact .inr (.inr ⟨actor, _, wait.i,
        congrArg CallAt.wait? (update_self actor _ library.calls), rfl⟩)
  | @signal _ _ changed =>
      cases auto : (library.events changed).autoReset <;>
        simp [signal, auto] at taken
  | _ => simp at taken

/-- What the steps of other threads do to a wait. -/
theorem Settled.stands_foreign (settled : library.Settled)
    (sound : library.Sound) (move : Move library action next)
    {thread : Thread} (other : thread ≠ action.thread) {wait : Wait Event}
    {wfmo : Wfmo Thread}
    (waits : (next.calls thread).wait? = some wait)
    (found : next.wfmos wait.wfmo = some wfmo) :
    next.Stands (next.calls thread) wait wfmo := by
  have signalled := calls_of_move move other
  have waited : (library.calls thread).wait? = some wait := by
    rw [← signalled.wait?_eq]
    exact waits
  have old := sound.refers.lt_created sound.locks waited
  have apart : ∀ own, (library.calls action.thread).wait? = some own →
      own.wfmo ≠ wait.wfmo := by
    intro own owned same
    exact other (sound.refers.unique _ _ _ _ waited owned same.symm)
  cases foreign_of_move move apart (by omega) with
  | same kept wins entries =>
      rw [kept] at found
      exact ((settled.stands thread wait wfmo waited found).of_same wins
        entries).signalled signalled
  | fired listed known free still _ fired wins entries =>
      obtain ⟨stays, passed⟩ := sound.unlocked waited known free
      have waitAll := sound.refers.waitAll _ _ _ waited known
      obtain rfl := Option.some.inj (fired.symm.trans found)
      exact ((settled.stands thread wait _ waited known).fire waitAll stays
        passed still listed wins entries).signalled signalled
  | expired known ended released wins =>
      exact ((settled.stands thread wait _ waited known).expire ended
        (released.symm.trans found) wins).signalled signalled

theorem Settled.stands_begin (settled : library.Settled)
    (sound : library.Sound) {after : Library Thread Event}
    {thread : Thread} {events : List Event} {waitAll : Bool}
    {milliseconds : UInt64}
    (wins : ∀ i, after.wins ⟨library.created, i⟩ =
      library.wins ⟨library.created, i⟩)
    (entries : ∀ i, after.entries ⟨library.created, i⟩ =
      library.entries ⟨library.created, i⟩) :
    let wait : Wait Event :=
      ⟨library.created, events, waitAll, milliseconds, 0⟩
    after.Stands (.registering wait) wait {
      mutex := some thread
      refCount := 1
      status := if waitAll then events.length else -1
      waitAll := waitAll
      stillWaiting := true } := by
  have unwon : ∀ i, after.wins ⟨library.created, i⟩ = 0 := by
    intro i
    rw [wins, settled.wins_created]
  exact {
    bound := Nat.zero_le _
    accounts := {
      once := fun i => by simp [unwon]
      all := fun all => by simp_all [left]
      named := fun any => by simp_all
      any := fun any i => by
        simp only at any
        rw [unwon, any]
        simp }
    registered := fun _ _ i => by
      simp [unwon, entries, sound.entries_created]
    unfired := fun _ _ any => by simp_all
    unseen := fun _ => rfl
    fired := by simp
    looks := by simp
    looked := by simp
    done := by simp }

omit [Fintype Event] [DecidableEq Event] [DecidableEq Thread]
  [Fintype Thread] in
theorem eq_of_putWfmo {waiter : Nat} {replaced found : Option (Wfmo Thread)}
    (same : (library.putWfmo waiter replaced).wfmos waiter = found) :
    replaced = found := by
  rw [← same]
  exact (update_self waiter replaced library.wfmos).symm

/-- What the steps of its own thread do to a wait. -/
theorem Settled.stands_own (settled : library.Settled)
    (sound : library.Sound) (move : Move library action next)
    {call : CallAt Event} {wait : Wait Event} {wfmo : Wfmo Thread}
    (calls : next.calls action.thread = call)
    (waits : call.wait? = some wait)
    (found : next.wfmos wait.wfmo = some wfmo) :
    next.Stands call wait wfmo := by
  have stands : ∀ earlier before, library.calls action.thread = earlier →
      earlier.wait? = some wait → library.wfmos wait.wfmo = some before →
        library.Stands earlier wait before := by
    rintro earlier before rfl waited
    exact settled.stands _ _ _ waited
  cases move with
  | accessFreed =>
      exact (stands _ _ calls waits found).of_same (fun _ => rfl)
        (fun _ => rfl)
  | expire at_ =>
      obtain rfl := (at_.symm.trans calls)
      cases waits
  | resetEvent at_ | stay at_ | take at_ =>
      obtain rfl := (at_.symm.trans calls)
      cases waits
  | @signal _ _ event =>
      cases auto : (library.events event).autoReset <;>
        simp [Action.thread, signal, auto] at calls <;>
        subst calls <;> cases waits
  | notifyOne at_ auto sleeps =>
      simp only [goTo, Action.thread, update_apply] at calls
      split_ifs at calls <;> subst calls <;> cases waits
  | setEvent | sleep | endScan | keepMutex | fire | notifyNone | notifyAll
  | leave | wakeSleeper | riseLate | riseTake | sleepAgain =>
      simp [Action.thread, fire, CallAt.broadcast] at calls
      subst calls
      cases waits
  | begin =>
      simp only [Action.thread, putWfmo, goTo, countCreated,
        update_self] at calls
      subst calls
      obtain rfl := Option.some.inj waits
      obtain rfl := Option.some.inj (eq_of_putWfmo found)
      exact settled.stands_begin sound (fun _ => rfl) (fun _ => rfl)
  | lock at_ listed =>
      simp only [Action.thread, goTo, putEvent, update_self] at calls
      subst calls
      obtain rfl := Option.some.inj waits
      have before := stands _ _ at_ rfl found
      refine Stands.goOn (before.of_same (fun _ => rfl)
        (fun _ => library.entries_of_count _ _ _ rfl)) rfl
          (fun _ => before.unseen rfl) ?_ (by simp) (by simp)
      rintro event position ⟨⟩
      exact listed
  | giveUp at_ =>
      simp only [Action.thread, goTo, update_self] at calls
      subst calls
      obtain rfl := Option.some.inj waits
      have before := stands _ _ at_ rfl found
      exact Stands.goOn (before.of_same (fun _ => rfl) (fun _ => rfl)) rfl (by simp) (by simp) (by simp) (by simp)
  | finish at_ last known done =>
      simp only [Action.thread, goTo, update_self] at calls
      subst calls
      obtain rfl := Option.some.inj waits
      obtain rfl := Option.some.inj (known.symm.trans found)
      have before := stands _ _ at_ rfl found
      exact Stands.goOn (before.of_same (fun _ => rfl) (fun _ => rfl)) rfl (by simp) (by simp) (by simp) (fun _ => done)
  | wait at_ last known =>
      simp only [Action.thread, goTo, putWfmo, update_self] at calls
      subst calls
      obtain rfl := Option.some.inj waits
      obtain rfl := Option.some.inj (eq_of_putWfmo found)
      have before := stands _ _ at_ rfl known
      have looked := le_antisymm before.bound last
      exact Stands.goOn ((before.lock none).of_same (fun _ => rfl)
        (fun _ => rfl)) rfl (by simp) (by simp) (fun _ => looked) (by simp)
  | keep at_ =>
      simp only [Action.thread, goTo, update_self] at calls
      subst calls
      obtain rfl := Option.some.inj waits
      have before := stands _ _ at_ rfl found
      refine Stands.goOn (before.of_same (fun _ => rfl) (fun _ => rfl)) rfl
        (fun _ => before.unseen rfl) ?_ (by simp) (by simp)
      rintro event position ⟨⟩
      exact before.looks _ _ rfl
  | @remove _ _ own event position info gone at_ entry known free expired =>
      obtain rfl := at_.symm.trans calls
      obtain rfl := Option.some.inj waits
      have waited := congrArg CallAt.wait? at_
      -- The waiter of the call itself is locked.
      have apart : info.waiter ≠ own.wfmo := by
        intro same
        rw [same] at known
        have passed := (sound.unlocked waited known free).2
        rw [at_] at passed
        cases passed
      have foundBefore : library.wfmos own.wfmo = some wfmo :=
        (update_of_ne apart.symm _ _).symm.trans found
      have other : ∀ i, info ≠ ⟨own.wfmo, i⟩ := fun i same =>
        apart (same ▸ rfl)
      obtain ⟨within, rfl⟩ := List.getElem?_eq_some_iff.mp entry
      have perm := List.getElem_cons_eraseIdx_perm within
      exact Stands.of_same (stands _ _ at_ rfl foundBefore) (fun _ => rfl)
        (fun i => library.entries_of_count _ _ _
          (by rw [← perm.count_eq, List.count_cons_of_ne (other i)]))
  | findAll at_ last known state all =>
      simp only [Action.thread, goTo, putWfmo, putEvent, acquire, assert,
        update_self] at calls
      subst calls
      obtain rfl := Option.some.inj waits
      obtain rfl := Option.some.inj (eq_of_putWfmo found)
      have waited := congrArg CallAt.wait? at_
      have before := settled.stands _ _ _ waited known
      have waitAll := sound.refers.waitAll _ _ _ waited known
      refine before.findAll waitAll at_ all (fun i => ?_)
        (fun _ => library.entries_of_count _ _ _ rfl)
      refine (library.wins_acquire _ _ _).trans ?_
      simp
  | findAny at_ last known state any =>
      simp only [Action.thread, goTo, putWfmo, putEvent, acquire, assert,
        update_self] at calls
      subst calls
      obtain rfl := Option.some.inj waits
      obtain rfl := Option.some.inj (eq_of_putWfmo found)
      have waited := congrArg CallAt.wait? at_
      have before := settled.stands _ _ _ waited known
      have waitAll := sound.refers.waitAll _ _ _ waited known
      refine before.findAny waitAll at_ any (fun i => ?_)
      refine (library.wins_acquire _ _ _).trans ?_
      simp
  | @register _ _ wait event _ _ at_ last known =>
      simp only [Action.thread, goTo, putWfmo, putEvent,
        update_self] at calls
      subst calls
      obtain rfl := Option.some.inj waits
      obtain rfl := Option.some.inj (eq_of_putWfmo found)
      have before := settled.stands _ _ _ (congrArg CallAt.wait? at_) known
      refine before.register at_ (fun _ => rfl) (fun i => ?_)
      have updated := library.entries_putEvent event {
        library.events event with
        mutex := none
        registeredWaits := (library.events event).registeredWaits ++
          [⟨wait.wfmo, wait.i⟩] } ⟨wait.wfmo, i⟩
      simp only [List.count_append, List.count_singleton, beq_iff_eq,
        WfmoInfo.mk.injEq, true_and] at updated
      rw [add_comm (List.count _ _), ← add_assoc] at updated
      exact Nat.add_right_cancel updated
  | wakeWaiter at_ =>
      simp only [Action.thread, goTo, update_self] at calls
      subst calls
      obtain rfl := Option.some.inj waits
      have before := stands _ _ at_ rfl found
      exact Stands.goOn (before.of_same (fun _ => rfl) (fun _ => rfl)) rfl (by simp) (by simp) (fun _ => before.looked rfl)
        (by simp)
  | relock at_ known free due =>
      simp only [Action.thread, goTo, putWfmo, update_self] at calls
      subst calls
      obtain rfl := Option.some.inj waits
      obtain rfl := Option.some.inj (eq_of_putWfmo found)
      have before := stands _ _ at_ rfl known
      refine Stands.goOn ((before.lock _).of_same (fun _ => rfl)
        (fun _ => rfl)) rfl (by simp) (by simp) (by simp) ?_
      rintro ⟨⟩
      have done : Wfmo.done _ = true := due.resolve_left (by decide)
      exact done
  | waitAgain at_ =>
      simp only [Action.thread, goTo, update_self] at calls
      subst calls
      obtain rfl := Option.some.inj waits
      have before := stands _ _ at_ rfl found
      exact Stands.goOn (before.of_same (fun _ => rfl) (fun _ => rfl)) rfl (by simp) (by simp) (fun _ => before.looked rfl)
        (by simp)

theorem Settled.stands_step (settled : library.Settled)
    (sound : library.Sound) (move : Move library action next)
    (thread : Thread) (wait : Wait Event) (wfmo : Wfmo Thread)
    (waits : (next.calls thread).wait? = some wait)
    (found : next.wfmos wait.wfmo = some wfmo) :
    next.Stands (next.calls thread) wait wfmo := by
  by_cases acts : thread = action.thread
  · subst acts
    exact settled.stands_own sound move rfl waits found
  · exact settled.stands_foreign sound move acts waits found

/-- Nothing satisfies a waiter any more once its call has returned. -/
theorem Settled.wins_returned (settled : library.Settled)
    (sound : library.Sound) (move : Move library action next)
    {returned : Returned Event} (member : returned ∈ library.returned)
    (i : Nat) :
    next.wins ⟨returned.wait.wfmo, i⟩ =
      library.wins ⟨returned.wait.wfmo, i⟩ := by
  obtain ⟨old, past⟩ := settled.past returned member
  cases foreign_of_move move (past action.thread) (by omega) with
  | same wfmo wins => exact wins i
  | expired known ended wfmo wins => exact wins i
  | fired listed known free still =>
      obtain ⟨thread, wait, waits, same⟩ :=
        sound.refers.waited _ _ known still
      exact absurd same (past thread wait waits)

theorem Settled.told_step (settled : library.Settled)
    (sound : library.Sound) (move : Move library action next)
    (returned : Returned Event) (member : returned ∈ next.returned) :
    next.Told returned := by
  rcases returned_of_move move member with
    before | ⟨wait, timedOut, wfmo, leaving, found, rfl, rfl⟩
  · have told := settled.told returned before
    exact { told with
      accounts := told.accounts.of_wins
        (settled.wins_returned sound move before) }
  · have waited := congrArg CallAt.wait? leaving
    have stands := settled.stands _ _ _ waited found
    have waitAll := sound.refers.waitAll _ _ _ waited found
    refine ⟨stands.accounts.of_wins fun _ => rfl, ?_⟩
    rintro ⟨⟩
    have done := stands.done leaving
    simp only [Wfmo.done, waitAll] at done
    split_ifs at done ⊢ <;> simpa using done

theorem Settled.past_step (settled : library.Settled)
    (sound : library.Sound) (move : Move library action next)
    (returned : Returned Event) (member : returned ∈ next.returned) :
    returned.wait.wfmo < next.created ∧
      ∀ thread wait, (next.calls thread).wait? = some wait →
        wait.wfmo ≠ returned.wait.wfmo := by
  have later := created_of_move move
  rcases returned_of_move move member with
    before | ⟨own, timedOut, wfmo, leaving, found, rfl, left⟩
  · obtain ⟨old, past⟩ := settled.past returned before
    refine ⟨by omega, ?_⟩
    intro thread wait waits
    rcases wait_of_move move waits with
      ⟨earlier, waited, -, further⟩ | ⟨-, -, new, -⟩
    · rw [further]
      exact past thread earlier waited
    · omega
  · have owned := congrArg CallAt.wait? leaving
    have old := sound.refers.lt_created sound.locks owned
    refine ⟨by simpa using lt_of_lt_of_le old later, ?_⟩
    intro thread wait waits same
    rcases wait_of_move move waits with
      ⟨earlier, waited, -, further⟩ | ⟨-, -, new, -⟩
    · have number : earlier.wfmo = own.wfmo := by
        rw [← same, further]
      obtain rfl := sound.refers.unique _ _ _ _ waited owned number
      simp [left, CallAt.wait?] at waits
    · simp only at same
      omega

omit [Fintype Event] [Fintype Thread] in
/-- A waiter that was made on a list of events was so before the step, unless
it is the one that the step makes. -/
theorem made_of_move (move : Move library action next) {waiter : Nat}
    {events : List Event} (made : next.Made waiter events) :
    library.Made waiter events ∨ waiter = library.created := by
  rcases made with ⟨thread, wait, waits, rfl, rfl⟩ | ⟨returned, member, rfl, rfl⟩
  · rcases wait_of_move move waits with
      ⟨earlier, waited, -, further⟩ | ⟨-, -, new, -⟩
    · left
      rw [further]
      exact .inl ⟨thread, earlier, waited, rfl, rfl⟩
    · exact .inr new
  · left
    rcases returned_of_move move member with
      before | ⟨wait, timedOut, wfmo, leaving, -, rfl, -⟩
    · exact .inr ⟨returned, before, rfl, rfl⟩
    · exact .inl ⟨_, wait, congrArg CallAt.wait? leaving, rfl, rfl⟩

omit [DecidableEq Thread] in
/-- The list of events of a call that goes on. -/
theorem Settled.made_eq (settled : library.Settled) (sound : library.Sound)
    {thread : Thread} {wait : Wait Event} {events : List Event}
    (waits : (library.calls thread).wait? = some wait)
    (made : library.Made wait.wfmo events) : wait.events = events := by
  rcases made with ⟨other, own, owned, same, rfl⟩ | ⟨returned, member, same, -⟩
  · obtain rfl := sound.refers.unique _ _ _ _ owned waits same
    rw [waits] at owned
    rw [Option.some.inj owned]
  · exact absurd same.symm ((settled.past returned member).2 thread wait waits)

/-- The index that a call looks at names the event it looks at. -/
theorem Settled.looks (settled : library.Settled) (sound : library.Sound)
    {thread : Thread} {wait : Wait Event} {event : Event} {position : Nat}
    {events : List Event}
    (cleaning : library.calls thread = .cleaning wait event position)
    (made : library.Made wait.wfmo events) :
    events[wait.i]? = some event := by
  have waited := congrArg CallAt.wait? cleaning
  obtain ⟨wfmo, found⟩ := sound.refers.wfmo_of_wait waited
  have stands := settled.stands _ _ _ waited found
  rw [← settled.made_eq sound waited made]
  exact stands.looks event position cleaning

theorem Settled.won_step (settled : library.Settled)
    (sound : library.Sound) (move : Move library action next)
    (acquisition : Acquisition Event)
    (member : acquisition ∈ next.acquired) (info : WfmoInfo)
    (taken : acquisition.info = some info) :
    info.waiter < next.created ∧
      ∀ events, next.Made info.waiter events →
        events[info.waitIndex]? = some acquisition.event := by
  have later := created_of_move move
  have facts : info.waiter < library.created ∧
      ∀ events, library.Made info.waiter events →
        events[info.waitIndex]? = some acquisition.event := by
    rcases acquired_of_move move member taken with
      before | listed | ⟨wait, position, cleaning, rfl⟩
    · exact settled.won acquisition before info taken
    · exact ⟨sound.not_listed listed, settled.listed _ info listed⟩
    · exact ⟨sound.refers.lt_created sound.locks
        (congrArg CallAt.wait? cleaning),
        fun events made => settled.looks sound cleaning made⟩
  refine ⟨by omega, ?_⟩
  intro events made
  rcases made_of_move move made with before | new
  · exact facts.2 events before
  · omega

theorem Settled.listed_step (settled : library.Settled)
    (sound : library.Sound) (move : Move library action next)
    (event : Event) (info : WfmoInfo)
    (member : info ∈ (next.events event).registeredWaits)
    (events : List Event) (made : next.Made info.waiter events) :
    events[info.waitIndex]? = some event := by
  rcases listed_of_move move member with
    before | ⟨wait, position, cleaning, rfl, -⟩
  · rcases made_of_move move made with made | new
    · exact settled.listed event info before events made
    · exact absurd new (ne_of_lt (sound.not_listed before))
  · rcases made_of_move move made with made | new
    · exact settled.looks sound cleaning made
    · exact absurd new (ne_of_lt (sound.refers.lt_created sound.locks
        (congrArg CallAt.wait? cleaning)))

theorem Settled.step (settled : library.Settled) (sound : library.Sound)
    (move : Move library action next) : next.Settled :=
  ⟨settled.stands_step sound move, settled.told_step sound move,
    settled.past_step sound move, settled.won_step sound move,
    settled.listed_step sound move⟩

omit [DecidableEq Thread] [Fintype Thread] in
theorem start_settled (manualReset initialState : Event → Bool) :
    (start manualReset initialState : Library Thread Event).Settled := by
  constructor
  · rintro thread wait wfmo ⟨⟩
  · rintro returned ⟨⟩
  · rintro returned ⟨⟩
  · rintro acquisition ⟨⟩
  · rintro event info ⟨⟩

end Runs

end Library

end Neosmart
