import ArstQuote.ThreadHandles

/-!
# The calls that suit a thread's id

Which calls of `Start`, `Join`, `Detach` and the destructor go well can be told
from the calls, their outcomes and the returns of the threads alone.  While they
come in order, the members of the object are a function of what became of the
thread started last; a call out of order misuses its id, or loses a thread.
-/

namespace ArstQuote

open GuardedRuns

/-- What the calls, with their outcomes, have made of the thread started last.
`flagged` says that the thread before it was detached, which leaves
`m_nDetached` set. -/
inductive LastThread
  | unstarted
  | pending (flagged returned : Bool)
  | joined
  | detached (returned : Bool)
  | failed (flagged : Bool)
  | destroyed (returned : Bool)
  deriving DecidableEq

namespace LastThread

/-- `Start`, not while the thread before is neither joined nor detached. -/
def start (last : LastThread) (succeeds : Bool) : Option LastThread :=
  match last with
  | .unstarted => some (if succeeds then .pending false false else .unstarted)
  | .joined => some (if succeeds then .pending false false else .failed false)
  | .detached _ =>
      some (if succeeds then .pending true false else .failed true)
  | .failed flagged =>
      some (if succeeds then .pending flagged false else .failed flagged)
  | .pending _ _ | .destroyed _ => none

/-- `Join`, not after a `Join` or a `Start` that failed, nor once a detached
thread has returned. -/
def join (last : LastThread) (succeeds : Bool) : Option LastThread :=
  match last with
  | .unstarted => some .unstarted
  | .pending flagged returned =>
      some (if succeeds then .joined else .pending flagged returned)
  | .detached returned => if returned then none else some (.detached returned)
  | .joined | .failed _ | .destroyed _ => none

/-- `Detach`, not after a `Join` or a `Start` that failed; where `m_nDetached`
is still set it does nothing. -/
def detach (last : LastThread) (succeeds : Bool) : Option LastThread :=
  match last with
  | .unstarted => some .unstarted
  | .pending flagged returned =>
      some (if succeeds && !flagged then .detached returned
        else .pending flagged returned)
  | .detached returned => some (.detached returned)
  | .failed flagged => if flagged then some (.failed flagged) else none
  | .joined | .destroyed _ => none

/-- The tests of the destructor: a thread is detached by now, by a successful
`Detach` or the destructor itself, and has not returned when it is cancelled. -/
def destroy (last : LastThread) (succeeds : Bool) : Option LastThread :=
  match last with
  | .unstarted => some .unstarted
  | .pending flagged returned =>
      if succeeds && !flagged then some (.destroyed returned) else none
  | .detached returned | .destroyed returned =>
      if returned then none else some (.destroyed returned)
  | .joined | .failed _ => none

/-- The thread has returned. -/
def afterReturn : LastThread → LastThread
  | .pending flagged _ => .pending flagged true
  | .detached _ => .detached true
  | .destroyed _ => .destroyed true
  | last => last

end LastThread

/-- The number of threads started, and what became of the last one. -/
structure Usage where
  started : Nat
  last : LastThread
  deriving DecidableEq

namespace Usage

def fresh : Usage :=
  ⟨0, .unstarted⟩

/-- The calls one after the other, as far as they are in order. -/
def step (usage : Usage) : ThreadAction → Option Usage
  | .start succeeds => (usage.last.start succeeds).map fun last =>
      ⟨if succeeds then usage.started + 1 else usage.started, last⟩
  | .join succeeds => (usage.last.join succeeds).map fun last =>
      ⟨usage.started, last⟩
  | .detach succeeds => (usage.last.detach succeeds).map fun last =>
      ⟨usage.started, last⟩
  | .destroy succeeds => (usage.last.destroy succeeds).map fun last =>
      ⟨usage.started, last⟩
  | .returns tid =>
      some (if tid + 1 = usage.started then
        ⟨usage.started, usage.last.afterReturn⟩
      else usage)

end Usage

/-- The calls on an object come in an order that suits its id and flags.  This
looks at the calls, their outcomes and the returns of threads alone. -/
def InOrder (actions : List ThreadAction) : Prop :=
  (execute Usage.step .fresh actions).isSome
  deriving Decidable

namespace LastThread

/-- The thread whose id is in `m_tid`. -/
def created : LastThread → Option CreatedThread
  | .unstarted | .failed _ => none
  | .pending _ returned => some ⟨returned, 0, 0⟩
  | .joined => some ⟨true, 1, 0⟩
  | .detached returned | .destroyed returned => some ⟨returned, 0, 1⟩

/-- That id may be used. -/
def Usable (last : LastThread) : Prop :=
  ∃ created ∈ last.created, created.Valid

def m_nRunning : LastThread → Int
  | .unstarted => 0
  | _ => 1

def m_nDetached : LastThread → Int
  | .pending flagged _ | .failed flagged => if flagged then 1 else 0
  | .detached _ => 1
  | .unstarted | .joined | .destroyed _ => 0

/-- Where the destructor has not begun, it has not detached the thread. -/
def Allows : LastThread → Lifetime → Prop
  | .unstarted, _ => True
  | .destroyed _, lifetime => lifetime ≠ .alive
  | _, lifetime => lifetime = .alive

end LastThread

/-- The members of the object are what its calls, all in order, make of
them. -/
structure Usage.Describes (usage : Usage) (object : ArstThread) : Prop where
  unmisused : object.misused = false
  started : object.threads.length = usage.started
  handle : ∀ tid, object.m_tid = some tid → tid + 1 = usage.started
  current : object.current = usage.last.created
  past : ∀ tid created, object.threads[tid]? = some created →
    object.m_tid ≠ some tid → created.Settled
  running : object.m_nRunning = usage.last.m_nRunning
  flag : object.lifetime = .alive →
    object.m_nDetached = usage.last.m_nDetached
  allowed : usage.last.Allows object.lifetime

theorem Usage.fresh_describes : Usage.fresh.Describes .fresh := by
  constructor <;>
    simp [fresh, ArstThread.fresh, ArstThread.current, LastThread.created,
      LastThread.m_nRunning, LastThread.m_nDetached, LastThread.Allows]

namespace LastThread

variable {last next : LastThread} {created : CreatedThread}

theorem settled_of_start {succeeds : Bool}
    (inOrder : last.start succeeds = some next)
    (member : last.created = some created) : created.Settled := by
  cases last with
  | joined | detached _ =>
      obtain rfl := Option.some.inj member
      rfl
  | unstarted | failed _ => cases member
  | pending _ _ | destroyed _ => cases inOrder

theorem start_fails (inOrder : last.start false = some next) :
    next.created = none ∧ last.m_nRunning = next.m_nRunning ∧
      last.m_nDetached = next.m_nDetached ∧ next.Allows .alive := by
  cases last <;> simp only [LastThread.start, reduceCtorEq] at inOrder
  all_goals
    obtain rfl := Option.some.inj inOrder
    exact ⟨rfl, rfl, rfl, by trivial⟩

theorem start_succeeds (inOrder : last.start true = some next) :
    next.created = some CreatedThread.fresh ∧ 1 = next.m_nRunning ∧
      last.m_nDetached = next.m_nDetached ∧ next.Allows .alive := by
  cases last <;> simp only [LastThread.start, reduceCtorEq] at inOrder
  all_goals
    obtain rfl := Option.some.inj inOrder
    exact ⟨rfl, rfl, rfl, rfl⟩

/-- A thread that was detached and has returned. -/
theorem not_usable_returned :
    ¬ (detached true).Usable ∧ ¬ (destroyed true).Usable := by
  simp [Usable, created, CreatedThread.Valid]

theorem not_usable_joined : ¬ joined.Usable := by
  simp [Usable, created, CreatedThread.Valid]

theorem not_usable_failed {flagged : Bool} : ¬ (failed flagged).Usable := by
  simp [Usable, created]

theorem unusable_of_join {succeeds : Bool}
    (outOfOrder : last.join succeeds = none) (allowed : last.Allows .alive) :
    last.m_nRunning = 1 ∧ ¬ last.Usable := by
  cases last with
  | joined => exact ⟨rfl, not_usable_joined⟩
  | failed flagged => exact ⟨rfl, not_usable_failed⟩
  | detached returned =>
      cases returned with
      | true => exact ⟨rfl, not_usable_returned.1⟩
      | false => cases outOfOrder
  | destroyed returned => exact absurd rfl allowed
  | unstarted | pending _ _ => cases outOfOrder

theorem unusable_of_detach {succeeds : Bool}
    (outOfOrder : last.detach succeeds = none) (allowed : last.Allows .alive) :
    last.m_nRunning = 1 ∧ last.m_nDetached = 0 ∧ ¬ last.Usable := by
  cases last with
  | joined => exact ⟨rfl, rfl, not_usable_joined⟩
  | failed flagged =>
      cases flagged with
      | true => cases outOfOrder
      | false => exact ⟨rfl, rfl, not_usable_failed⟩
  | destroyed returned => exact absurd rfl allowed
  | unstarted | pending _ _ | detached _ => cases outOfOrder

/-- The first test of the destructor meets a thread that it does not detach, or
an id that the second test may not use. -/
theorem pending_of_destroy {succeeds : Bool}
    (outOfOrder : last.destroy succeeds = none) (allowed : last.Allows .alive)
    (usable : last.Usable) : ∃ flagged returned,
      last = .pending flagged returned ∧
        (flagged = false → succeeds = false) := by
  cases last with
  | pending flagged returned =>
      refine ⟨flagged, returned, rfl, ?_⟩
      rintro rfl
      cases succeeds with
      | true => cases outOfOrder
      | false => rfl
  | joined => exact absurd usable not_usable_joined
  | failed flagged => exact absurd usable not_usable_failed
  | detached returned =>
      cases returned with
      | true => exact absurd usable not_usable_returned.1
      | false => cases outOfOrder
  | destroyed returned => exact absurd rfl allowed
  | unstarted => cases outOfOrder

theorem unusable_of_cancel {succeeds : Bool}
    (outOfOrder : last.destroy succeeds = none)
    (allowed : last.Allows .cancelling) : ¬ last.Usable := by
  cases last with
  | destroyed returned =>
      cases returned with
      | true => exact not_usable_returned.2
      | false => cases outOfOrder
  | unstarted => cases outOfOrder
  | pending _ _ | joined | detached _ | failed _ => cases allowed

theorem running_of_destroy {succeeds : Bool}
    (outOfOrder : last.destroy succeeds = none) : last.m_nRunning = 1 := by
  cases last with
  | unstarted => cases outOfOrder
  | pending _ _ | joined | detached _ | failed _ | destroyed _ => rfl

theorem afterReturn_created : last.afterReturn.created =
    last.created.map fun created => { created with returned := true } := by
  cases last <;> rfl

theorem afterReturn_m_nRunning :
    last.afterReturn.m_nRunning = last.m_nRunning := by
  cases last <;> rfl

theorem afterReturn_m_nDetached :
    last.afterReturn.m_nDetached = last.m_nDetached := by
  cases last <;> rfl

theorem afterReturn_allows {lifetime : Lifetime} :
    last.afterReturn.Allows lifetime ↔ last.Allows lifetime := by
  cases last <;> rfl

end LastThread

namespace Usage.Describes

open ArstThread

variable {object next : ArstThread} {usage : Usage} {last : LastThread}

/-- With the last thread settled, all are. -/
theorem settled (describes : usage.Describes object)
    (lastSettled : ∀ created ∈ usage.last.created, created.Settled) {tid : Nat}
    {created : CreatedThread}
    (found : object.threads[tid]? = some created) : created.Settled := by
  by_cases same : object.m_tid = some tid
  · apply lastSettled
    rw [← describes.current]
    exact current_eq_some.mpr ⟨tid, same, found⟩
  · exact describes.past tid created found same

theorem handleValid_iff (describes : usage.Describes object) :
    object.HandleValid ↔ usage.last.Usable := by
  rw [HandleValid, describes.current, LastThread.Usable]

/-- Something was done to the last thread, or nothing. -/
theorem onCurrent {change : CreatedThread → CreatedThread} {m_nDetached : Int}
    {lifetime : Lifetime} (describes : usage.Describes object)
    (created : usage.last.created.map change = last.created)
    (running : usage.last.m_nRunning = last.m_nRunning)
    (flag : lifetime = .alive → m_nDetached = last.m_nDetached)
    (allowed : last.Allows lifetime) :
    Describes ⟨usage.started, last⟩ { object.onCurrent change with
      m_nDetached := m_nDetached, lifetime := lifetime } := by
  constructor
  · exact describes.unmisused
  · rw [← describes.started]
    exact onCurrent_threads_length
  · exact describes.handle
  · change (object.onCurrent change).current = last.created
    rw [onCurrent_current, describes.current, created]
  · intro tid other found differs
    have same : (object.onCurrent change).threads[tid]? =
        object.threads[tid]? :=
      onCurrent_getElem? differs
    exact describes.past tid other (same.symm.trans found) differs
  · exact describes.running.trans running
  · exact flag
  · exact allowed

theorem move {lifetime : Lifetime} (describes : usage.Describes object)
    (created : usage.last.created = last.created)
    (running : usage.last.m_nRunning = last.m_nRunning)
    (allowed : last.Allows lifetime) (destroyed : lifetime ≠ .alive) :
    Describes ⟨usage.started, last⟩ { object with lifetime := lifetime } :=
  ⟨describes.unmisused, describes.started, describes.handle,
    describes.current.trans created, describes.past,
    describes.running.trans running,
    fun alive => absurd alive destroyed, allowed⟩

/-- A new thread behind others that are settled, or an id that is none. -/
theorem start {succeeds : Bool} (describes : usage.Describes object)
    (inOrder : usage.last.start succeeds = some last)
    (alive : object.lifetime = .alive) :
    Describes ⟨if succeeds then usage.started + 1 else usage.started, last⟩
      (object.start succeeds) := by
  have settled : ∀ (tid : Nat) (created : CreatedThread),
      object.threads[tid]? = some created → created.Settled := by
    intro tid created found
    apply describes.settled _ found
    intro current member
    exact LastThread.settled_of_start inOrder member
  have flag := describes.flag alive
  cases succeeds with
  | false =>
      obtain ⟨noId, running, flagEq, allowed⟩ :=
        LastThread.start_fails inOrder
      refine ⟨describes.unmisused, describes.started, ?_, noId.symm, ?_,
        describes.running.trans running, fun _ => flag.trans flagEq, ?_⟩
      · intro tid handle
        cases handle
      · intro tid created found _
        exact settled tid created found
      · rw [ArstThread.start]
        exact alive ▸ allowed
  | true =>
      obtain ⟨fresh, running, flagEq, allowed⟩ :=
        LastThread.start_succeeds inOrder
      constructor
      · exact describes.unmisused
      · simp [ArstThread.start, describes.started]
      · intro tid handle
        simp only [ArstThread.start, if_true, Option.some.injEq] at handle
        simp [← handle, describes.started]
      · simp [ArstThread.start, ArstThread.current, fresh]
      · intro tid created found other
        have older : object.threads[tid]? = some created := by
          simp only [ArstThread.start, if_true] at found other
          have differs : tid ≠ object.threads.length :=
            fun same => other (congrArg some same.symm)
          obtain ⟨bound, -⟩ := List.getElem?_eq_some_iff.mp found
          simp only [List.length_append, List.length_singleton] at bound
          rwa [List.getElem?_append_left (by omega)] at found
        exact settled tid created older
      · exact running
      · exact fun _ => flag.trans flagEq
      · exact alive ▸ allowed

theorem join {succeeds : Bool} (describes : usage.Describes object)
    (inOrder : usage.last.join succeeds = some last)
    (alive : object.lifetime = .alive)
    (stepTo : object.join succeeds = some next) :
    Describes ⟨usage.started, last⟩ next := by
  obtain ⟨started, before⟩ := usage
  cases before with
  | unstarted =>
      have running : object.m_nRunning = 0 := describes.running
      obtain rfl := Option.some.inj inOrder
      obtain rfl : object = next := by
        simpa [ArstThread.join, running] using stepTo
      exact describes
  | pending flagged returned =>
      have running : object.m_nRunning = 1 := describes.running
      have found : object.current = some ⟨returned, 0, 0⟩ := describes.current
      obtain rfl := Option.some.inj inOrder
      simp only [ArstThread.join, running, if_true, pthreadJoin, found,
        CreatedThread.Valid, implies_true, and_self] at stepTo
      cases succeeds with
      | false =>
          obtain rfl : object = next := by simpa using stepTo
          exact describes
      | true =>
          obtain ⟨joined, called, rfl⟩ := Option.map_eq_some_iff.mp stepTo
          obtain ⟨rfl, rfl⟩ := by simpa using called
          exact describes.onCurrent rfl rfl (fun _ => rfl) alive
  | detached returned =>
      have running : object.m_nRunning = 1 := describes.running
      have found : object.current = some ⟨returned, 0, 1⟩ := describes.current
      simp only [LastThread.join, Option.ite_none_left_eq_some,
        Bool.not_eq_true, Option.some.injEq] at inOrder
      obtain ⟨rfl, rfl⟩ := inOrder
      cases succeeds with
      | false =>
          obtain rfl : object = next := by
            simpa [ArstThread.join, running, pthreadJoin, found,
              CreatedThread.Valid] using stepTo
          exact describes
      | true =>
          -- A detached thread is not joined.
          simp [ArstThread.join, running, pthreadJoin, found,
            CreatedThread.Valid] at stepTo
  | joined | failed _ | destroyed _ => cases inOrder

theorem detach {succeeds : Bool} (describes : usage.Describes object)
    (inOrder : usage.last.detach succeeds = some last)
    (alive : object.lifetime = .alive) :
    Describes ⟨usage.started, last⟩ (object.detach succeeds) := by
  obtain ⟨started, before⟩ := usage
  cases before with
  | unstarted =>
      have running : object.m_nRunning = 0 := describes.running
      obtain rfl := Option.some.inj inOrder
      simpa [ArstThread.detach, running] using describes
  | pending flagged returned =>
      have running : object.m_nRunning = 1 := describes.running
      have found : object.current = some ⟨returned, 0, 0⟩ := describes.current
      have flag : object.m_nDetached = if flagged then 1 else 0 :=
        describes.flag alive
      have valid : object.HandleValid :=
        describes.handleValid_iff.mpr ⟨_, rfl, rfl, fun _ => rfl⟩
      obtain rfl := Option.some.inj inOrder
      cases flagged with
      | true => simpa [ArstThread.detach, flag] using describes
      | false =>
          cases succeeds with
          | false =>
              simpa [ArstThread.detach, running, flag, pthreadDetach, valid]
                using describes
          | true =>
              simp only [ArstThread.detach, running, flag, pthreadDetach, valid]
              exact describes.onCurrent rfl rfl (fun _ => rfl) alive
  | detached returned =>
      have flag : object.m_nDetached = 1 := describes.flag alive
      obtain rfl := Option.some.inj inOrder
      simpa [ArstThread.detach, flag] using describes
  | failed flagged =>
      have flag : object.m_nDetached = if flagged then 1 else 0 :=
        describes.flag alive
      simp only [LastThread.detach, Option.ite_none_right_eq_some,
        Option.some.injEq] at inOrder
      obtain ⟨rfl, rfl⟩ := inOrder
      simpa [ArstThread.detach, flag] using describes
  | joined | destroyed _ => cases inOrder

/-- The destructor in order leaves the last thread detached. -/
theorem destroy {succeeds : Bool} (describes : usage.Describes object)
    (inOrder : usage.last.destroy succeeds = some last)
    (stepTo : object.destroy succeeds = some next) :
    Describes ⟨usage.started, last⟩ next := by
  obtain ⟨started, before⟩ := usage
  cases lifetime : object.lifetime <;>
    simp only [ArstThread.destroy, lifetime, reduceCtorEq,
      Option.some.injEq] at stepTo
  case alive =>
    subst stepTo
    cases before with
    | unstarted =>
        have running : object.m_nRunning = 0 := describes.running
        obtain rfl := Option.some.inj inOrder
        rw [if_neg (by simp [running])]
        exact describes.move rfl rfl trivial (by decide)
    | pending flagged returned =>
        have running : object.m_nRunning = 1 := describes.running
        have flag : object.m_nDetached = if flagged then 1 else 0 :=
          describes.flag lifetime
        have valid : object.HandleValid :=
          describes.handleValid_iff.mpr ⟨_, rfl, rfl, fun _ => rfl⟩
        simp only [LastThread.destroy, Option.ite_none_right_eq_some,
          Bool.and_eq_true, Bool.not_eq_true', Option.some.injEq] at inOrder
        obtain ⟨⟨rfl, rfl⟩, rfl⟩ := inOrder
        have left : LastThread.Allows (.destroyed returned) .cancelling := by
          simp [LastThread.Allows]
        simp only [running, flag, pthreadDetach, valid]
        exact describes.onCurrent rfl rfl (by simp) left
    | detached returned =>
        have flag : object.m_nDetached = 1 := describes.flag lifetime
        simp only [LastThread.destroy, Option.ite_none_left_eq_some,
          Bool.not_eq_true, Option.some.injEq] at inOrder
        obtain ⟨rfl, rfl⟩ := inOrder
        rw [if_neg (by simp [flag])]
        exact describes.move rfl rfl (by simp [LastThread.Allows]) (by decide)
    | joined | failed _ => cases inOrder
    | destroyed returned => exact absurd lifetime describes.allowed
  case cancelling =>
    subst stepTo
    cases before with
    | unstarted =>
        have running : object.m_nRunning = 0 := describes.running
        obtain rfl := Option.some.inj inOrder
        rw [if_neg (by simp [running])]
        exact describes.move rfl rfl trivial (by decide)
    | destroyed returned =>
        simp only [LastThread.destroy, Option.ite_none_left_eq_some,
          Bool.not_eq_true, Option.some.injEq] at inOrder
        obtain ⟨rfl, rfl⟩ := inOrder
        have valid : object.HandleValid :=
          describes.handleValid_iff.mpr ⟨_, rfl, rfl, by simp⟩
        simp only [pthreadCancel, valid, if_true, ite_self]
        exact describes.move rfl rfl (by simp [LastThread.Allows]) (by decide)
    | pending _ _ | joined | detached _ | failed _ =>
        cases lifetime.symm.trans describes.allowed

/-- Only what became of the last thread can tell a return. -/
theorem afterReturns {tid : Nat} (describes : usage.Describes object)
    (stepTo : object.returns tid = some next)
    (created : next.current = last.created)
    (running : usage.last.m_nRunning = last.m_nRunning)
    (flag : usage.last.m_nDetached = last.m_nDetached)
    (allowed : last.Allows object.lifetime) :
    Describes ⟨usage.started, last⟩ next := by
  obtain ⟨frame, lengthEq⟩ := returns_frame stepTo
  have handle : next.m_tid = object.m_tid := by rw [frame]
  refine ⟨?_, lengthEq.trans describes.started, ?_, created, ?_, ?_, ?_, ?_⟩
  · rw [frame]
    exact describes.unmisused
  · rw [handle]
    exact describes.handle
  · intro other thread found differs
    obtain ⟨before, foundBefore, joins, detaches, -⟩ :=
      returns_getElem? stepTo found
    rw [CreatedThread.Settled, joins, detaches]
    exact describes.past other before foundBefore (handle ▸ differs)
  · rw [frame]
    exact describes.running.trans running
  · rw [frame]
    exact fun alive => (describes.flag alive).trans flag
  · rw [frame]
    exact allowed

theorem returns {tid : Nat} (describes : usage.Describes object)
    (stepTo : object.returns tid = some next) :
    Describes (if tid + 1 = usage.started then
      ⟨usage.started, usage.last.afterReturn⟩ else usage) next := by
  have lastReturned (created : next.current = usage.last.afterReturn.created) :
      Describes ⟨usage.started, usage.last.afterReturn⟩ next :=
    describes.afterReturns stepTo created
      LastThread.afterReturn_m_nRunning.symm
      LastThread.afterReturn_m_nDetached.symm
      (LastThread.afterReturn_allows.mpr describes.allowed)
  rcases returns_current stepTo with
    ⟨created, own, found, after⟩ | ⟨other, after⟩
  · rw [if_pos (describes.handle tid own)]
    apply lastReturned
    rw [after, LastThread.afterReturn_created, ← describes.current, found]
    rfl
  · split
    · rename_i isLast
      apply lastReturned
      -- The last `Start` failed, so that no thread's id is in `m_tid`.
      have noId : object.current = none := by
        cases handle : object.m_tid with
        | none => simp [ArstThread.current, handle]
        | some last =>
            have same := describes.handle last handle
            obtain rfl : last = tid := by omega
            exact absurd handle other
      rw [after, LastThread.afterReturn_created, ← describes.current, noId]
      rfl
    · exact describes.afterReturns stepTo (after.trans describes.current)
        rfl rfl describes.allowed

/-- A step in order. -/
theorem step {action : ThreadAction} {after : Usage}
    (describes : usage.Describes object)
    (inOrder : usage.step action = some after)
    (stepTo : threadStep object action = some next) :
    after.Describes next := by
  cases action with
  | returns tid =>
      obtain rfl := Option.some.inj inOrder
      exact describes.returns stepTo
  | start succeeds =>
      obtain ⟨last, ordered, rfl⟩ := Option.map_eq_some_iff.mp inOrder
      simp only [threadStep, Option.ite_none_right_eq_some,
        Option.some.injEq] at stepTo
      obtain ⟨alive, rfl⟩ := stepTo
      exact describes.start ordered alive
  | join succeeds =>
      obtain ⟨last, ordered, rfl⟩ := Option.map_eq_some_iff.mp inOrder
      simp only [threadStep, Option.ite_none_right_eq_some] at stepTo
      exact describes.join ordered stepTo.1 stepTo.2
  | detach succeeds =>
      obtain ⟨last, ordered, rfl⟩ := Option.map_eq_some_iff.mp inOrder
      simp only [threadStep, Option.ite_none_right_eq_some,
        Option.some.injEq] at stepTo
      obtain ⟨alive, rfl⟩ := stepTo
      exact describes.detach ordered alive
  | destroy succeeds =>
      obtain ⟨last, ordered, rfl⟩ := Option.map_eq_some_iff.mp inOrder
      exact describes.destroy ordered stepTo

theorem sound (describes : usage.Describes object) : object.Sound := by
  refine ⟨describes.unmisused, ?_⟩
  intro gone created member
  obtain ⟨tid, bound, rfl⟩ := List.getElem_of_mem member
  apply describes.settled _ (List.getElem?_eq_getElem bound)
  intro last lastMember
  have allowed := describes.allowed
  obtain ⟨started, before⟩ := usage
  cases before with
  | unstarted => cases lastMember
  | destroyed returned =>
      obtain rfl := Option.some.inj lastMember
      rfl
  | pending _ _ | joined | detached _ | failed _ =>
      cases gone.symm.trans allowed

/-- A thread that is neither joined nor detached is lost when `m_tid` is
overwritten. -/
theorem doomed_of_start {succeeds : Bool} (describes : usage.Describes object)
    (outOfOrder : usage.last.start succeeds = none)
    (alive : object.lifetime = .alive) : (object.start succeeds).Doomed := by
  obtain ⟨started, before⟩ := usage
  cases before with
  | pending flagged returned =>
      obtain ⟨tid, handle, found⟩ := current_eq_some.mp describes.current
      have bound := (List.getElem?_eq_some_iff.mp found).1
      have unsettled : ¬ CreatedThread.Settled ⟨returned, 0, 0⟩ := by
        simp [CreatedThread.Settled]
      cases succeeds with
      | false =>
          exact .lost tid _ found (by simp [ArstThread.start]) unsettled
      | true =>
          apply Doomed.lost tid _ _ _ unsettled
          · simpa [ArstThread.start, List.getElem?_append_left bound]
              using found
          · simp only [ArstThread.start, if_true, ne_eq, Option.some.injEq]
            omega
  | destroyed returned => exact absurd alive describes.allowed
  | unstarted | joined | detached _ | failed _ => cases outOfOrder

theorem doomed_of_join {succeeds : Bool} (describes : usage.Describes object)
    (outOfOrder : usage.last.join succeeds = none)
    (alive : object.lifetime = .alive)
    (stepTo : object.join succeeds = some next) : next.Doomed := by
  obtain ⟨running, unusable⟩ :=
    LastThread.unusable_of_join outOfOrder (alive ▸ describes.allowed)
  have invalid := mt describes.handleValid_iff.mp unusable
  simp only [ArstThread.join, describes.running, running, if_true,
    pthreadJoin_of_invalid invalid, Option.map_some,
    Option.some.injEq] at stepTo
  apply Doomed.misused
  rw [← stepTo]
  cases succeeds <;> rfl

theorem doomed_of_detach {succeeds : Bool} (describes : usage.Describes object)
    (outOfOrder : usage.last.detach succeeds = none)
    (alive : object.lifetime = .alive) : (object.detach succeeds).Doomed := by
  obtain ⟨running, flag, unusable⟩ :=
    LastThread.unusable_of_detach outOfOrder (alive ▸ describes.allowed)
  have invalid := mt describes.handleValid_iff.mp unusable
  have unflagged := (describes.flag alive).trans flag
  apply Doomed.misused
  cases succeeds <;>
    simp [ArstThread.detach, describes.running, running, unflagged,
      pthreadDetach, invalid]

/-- The destructor leaves a thread behind that is neither joined nor detached,
or uses an id that may not be used. -/
theorem doomed_of_destroy {succeeds : Bool} (describes : usage.Describes object)
    (outOfOrder : usage.last.destroy succeeds = none)
    (stepTo : object.destroy succeeds = some next) : next.Doomed := by
  have running : object.m_nRunning = 1 :=
    describes.running.trans (LastThread.running_of_destroy outOfOrder)
  unfold ArstThread.destroy at stepTo
  split at stepTo
  case h_1 alive =>
    obtain rfl := Option.some.inj stepTo
    by_cases usable : usage.last.Usable
    · obtain ⟨flagged, returned, lastEq, fails⟩ :=
        LastThread.pending_of_destroy outOfOrder (alive ▸ describes.allowed)
          usable
      have left : (if object.m_nRunning = 1 ∧ object.m_nDetached = 0 then
          object.pthreadDetach succeeds else object) = object := by
        cases flagged with
        | true =>
            have flag : object.m_nDetached = 1 := by
              rw [describes.flag alive, lastEq]
              rfl
            simp [flag]
        | false =>
            have valid := describes.handleValid_iff.mpr usable
            simp [fails rfl, pthreadDetach, valid]
      have found : object.current = some ⟨returned, 0, 0⟩ := by
        rw [describes.current, lastEq]
        rfl
      have unsettled : ¬ CreatedThread.Settled ⟨returned, 0, 0⟩ := by
        simp [CreatedThread.Settled]
      obtain ⟨tid, -, found⟩ := current_eq_some.mp found
      rw [left]
      exact .leftBehind (by simp) tid _ found unsettled
    · have invalid := mt describes.handleValid_iff.mp usable
      by_cases unflagged : object.m_nDetached = 0
      · simp only [running, unflagged, and_self, if_true, pthreadDetach,
          invalid, if_false]
        exact .misused rfl
      · rw [if_neg fun tests => unflagged tests.2]
        exact .unusable rfl running invalid
  case h_2 cancelling =>
    obtain rfl := Option.some.inj stepTo
    have unusable := LastThread.unusable_of_cancel outOfOrder
      (cancelling ▸ describes.allowed)
    have invalid := mt describes.handleValid_iff.mp unusable
    simp only [running, if_true, pthreadCancel, invalid, if_false]
    exact .misused rfl
  case h_3 => cases stepTo

/-- A step out of order. -/
theorem doomed_of_step {action : ThreadAction}
    (describes : usage.Describes object)
    (outOfOrder : usage.step action = none)
    (stepTo : threadStep object action = some next) : next.Doomed := by
  cases action with
  | returns tid => cases outOfOrder
  | start succeeds =>
      have rejected := Option.map_eq_none_iff.mp outOfOrder
      simp only [threadStep, Option.ite_none_right_eq_some,
        Option.some.injEq] at stepTo
      obtain ⟨alive, rfl⟩ := stepTo
      exact describes.doomed_of_start rejected alive
  | join succeeds =>
      have rejected := Option.map_eq_none_iff.mp outOfOrder
      simp only [threadStep, Option.ite_none_right_eq_some] at stepTo
      exact describes.doomed_of_join rejected stepTo.1 stepTo.2
  | detach succeeds =>
      have rejected := Option.map_eq_none_iff.mp outOfOrder
      simp only [threadStep, Option.ite_none_right_eq_some,
        Option.some.injEq] at stepTo
      obtain ⟨alive, rfl⟩ := stepTo
      exact describes.doomed_of_detach rejected alive
  | destroy succeeds =>
      exact describes.doomed_of_destroy
        (Option.map_eq_none_iff.mp outOfOrder) stepTo

end Usage.Describes

/-- When the calls come in order, no pthread function is called with an id that
may not be used, and in the end each thread is joined or detached once; and over
a whole life of the object nothing less is enough. -/
theorem threadHandles_sound_iff (actions : List ThreadAction) :
    (InOrder actions →
      HoldsAlong threadStep ArstThread.Sound .fresh actions) ∧
    ∀ last, execute threadStep .fresh actions = some last →
      last.lifetime = .gone →
      HoldsAlong threadStep ArstThread.Sound .fresh actions →
        InOrder actions := by
  apply accepted_decides ArstThread.Doomed _ _ _ _ _ Usage.fresh_describes
  · intro usage object describes
    exact describes.sound
  · intro usage object action after next describes inOrder stepTo
    exact describes.step inOrder stepTo
  · intro usage object action next describes outOfOrder stepTo
    exact describes.doomed_of_step outOfOrder stepTo
  · intro object action next doomed stepTo
    exact doomed.step stepTo
  · intro last doomed gone
    exact doomed.not_sound gone

/-- A thread that is detached, and cancelled before it ends. -/
theorem threadHandles_sound_detached :
    HoldsAlong threadStep ArstThread.Sound .fresh
      [.start true, .detach true, .destroy true, .destroy true,
        .returns 0] :=
  (threadHandles_sound_iff _).1 (by decide)

/-- A thread that was joined is detached and cancelled by the destructor, and a
thread that another was started after is never joined or detached. -/
theorem threadHandles_misused :
    (∃ object, execute threadStep .fresh
        [.start true, .returns 0, .join true, .destroy true,
          .destroy true] = some object ∧ object.misused = true) ∧
      ∃ object, execute threadStep .fresh
        [.start true, .start true, .destroy true, .destroy true] =
          some object ∧
        object.lifetime = .gone ∧ ⟨false, 0, 0⟩ ∈ object.threads := by
  refine ⟨⟨_, rfl, rfl⟩, _, rfl, rfl, ?_⟩
  decide

end ArstQuote
