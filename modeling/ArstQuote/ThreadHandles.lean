import ArstQuote.GuardedRuns
import Mathlib.Data.List.Basic

/-!
# The thread id of a thread object

An `ARSTThread` keeps the id of the thread it started last and two flags, and
its destructor detaches and cancels that thread as the flags tell it to.  The
flags do not follow what became of the thread: a join leaves `m_nRunning` set,
a second start overwrites the id, and a thread may end by itself.  An object
that has lost a thread in this way is doomed, whatever is called next.
-/

namespace ArstQuote

open GuardedRuns

/-- A thread that `pthread_create` has created, with what became of it. -/
structure CreatedThread where
  returned : Bool
  joins : Nat
  detaches : Nat
  deriving DecidableEq

namespace CreatedThread

def fresh : CreatedThread :=
  ⟨false, 0, 0⟩

/-- The id of the thread may be used: it is neither joined, nor detached and
since terminated. -/
def Valid (created : CreatedThread) : Prop :=
  created.joins = 0 ∧ (created.returned = true → created.detaches = 0)
  deriving Decidable

/-- The thread is joined or detached, once. -/
def Settled (created : CreatedThread) : Prop :=
  created.joins + created.detaches = 1
  deriving Decidable

end CreatedThread

/-- Whether the object is in use, between the two tests of its destructor, or
gone. -/
inductive Lifetime
  | alive
  | cancelling
  | gone
  deriving DecidableEq

/-- The members of an `ARSTThread`, `none` for an `m_tid` that is no thread id,
with the threads it has created and whether a pthread function was called with
an id that may not be used. -/
structure ArstThread where
  m_tid : Option Nat
  m_nRunning : Int
  m_nDetached : Int
  lifetime : Lifetime
  threads : List CreatedThread
  misused : Bool
  deriving DecidableEq

/-- What the owner of the object does, with the outcome of the pthread function
that is called, and the return of a thread from its function.  The destructor
takes two steps, one for each of its tests. -/
inductive ThreadAction
  | start (succeeds : Bool)
  | join (succeeds : Bool)
  | detach (succeeds : Bool)
  | destroy (succeeds : Bool)
  | returns (tid : Nat)
  deriving DecidableEq

namespace ArstThread

/-- The object once it is constructed. -/
def fresh : ArstThread :=
  ⟨none, 0, 0, .alive, [], false⟩

/-- The thread whose id is in `m_tid`. -/
def current (object : ArstThread) : Option CreatedThread :=
  object.m_tid.bind fun tid => object.threads[tid]?

/-- The id in `m_tid` may be used. -/
def HandleValid (object : ArstThread) : Prop :=
  ∃ created ∈ object.current, created.Valid

instance (object : ArstThread) : Decidable object.HandleValid :=
  inferInstanceAs (Decidable (∃ created ∈ object.current, created.Valid))

/-- A change to the thread whose id is in `m_tid`. -/
def onCurrent (change : CreatedThread → CreatedThread) (object : ArstThread) :
    ArstThread :=
  { object with
    threads := match object.m_tid with
      | none => object.threads
      | some tid => object.threads.modify tid change }

/-- `pthread_join(m_tid)`, which succeeds on a thread that has terminated and
is not detached. -/
def pthreadJoin (object : ArstThread) (succeeds : Bool) : Option ArstThread :=
  match object.current with
  | none => some { object with misused := true }
  | some created =>
      if created.Valid then
        if succeeds then
          if created.returned ∧ created.detaches = 0 then
            some (object.onCurrent fun created =>
              { created with joins := created.joins + 1 })
          else none
        else some object
      else some { object with misused := true }

/-- `pthread_detach(m_tid)`. -/
def pthreadDetach (object : ArstThread) (succeeds : Bool) : ArstThread :=
  if object.HandleValid then
    if succeeds then
      object.onCurrent fun created =>
        { created with detaches := created.detaches + 1 }
    else object
  else { object with misused := true }

/-- `pthread_cancel(m_tid)`, which only asks the thread to end. -/
def pthreadCancel (object : ArstThread) : ArstThread :=
  if object.HandleValid then object else { object with misused := true }

/-- `Start`; a failed `pthread_create` leaves no thread id behind. -/
def start (object : ArstThread) (succeeds : Bool) : ArstThread :=
  if succeeds then
    { object with
      m_tid := some object.threads.length
      m_nRunning := 1
      threads := object.threads ++ [CreatedThread.fresh] }
  else { object with m_tid := none }

def join (object : ArstThread) (succeeds : Bool) : Option ArstThread :=
  if object.m_nRunning = 1 then
    (object.pthreadJoin succeeds).map fun joined =>
      if succeeds then { joined with m_nDetached := 0 } else joined
  else some object

def detach (object : ArstThread) (succeeds : Bool) : ArstThread :=
  if object.m_nRunning = 1 ∧ object.m_nDetached = 0 then
    let detached := object.pthreadDetach succeeds
    if succeeds then { detached with m_nDetached := 1 } else detached
  else object

/-- The two `if`s of the destructor, the result of `pthread_detach` not being
looked at. -/
def destroy (object : ArstThread) (succeeds : Bool) : Option ArstThread :=
  match object.lifetime with
  | .alive =>
      let detached :=
        if object.m_nRunning = 1 ∧ object.m_nDetached = 0 then
          object.pthreadDetach succeeds
        else object
      some { detached with lifetime := .cancelling }
  | .cancelling =>
      let cancelled :=
        if object.m_nRunning = 1 then object.pthreadCancel else object
      some { cancelled with lifetime := .gone }
  | .gone => none

/-- The function of a thread returns. -/
def returns (object : ArstThread) (tid : Nat) : Option ArstThread :=
  match object.threads[tid]? with
  | none => none
  | some created =>
      if created.returned then none
      else some { object with
        threads := object.threads.set tid { created with returned := true } }

end ArstThread

/-- The member functions are called on an object in use. -/
def threadStep (object : ArstThread) : ThreadAction → Option ArstThread
  | .start succeeds =>
      if object.lifetime = .alive then some (object.start succeeds) else none
  | .join succeeds =>
      if object.lifetime = .alive then object.join succeeds else none
  | .detach succeeds =>
      if object.lifetime = .alive then some (object.detach succeeds) else none
  | .destroy succeeds => object.destroy succeeds
  | .returns tid => object.returns tid

namespace ArstThread

/-- No pthread function was called with an id that may not be used, and when
the object is gone, each thread it created was joined or detached once. -/
def Sound (object : ArstThread) : Prop :=
  object.misused = false ∧
    (object.lifetime = .gone → ∀ created ∈ object.threads, created.Settled)
  deriving Decidable

section Changes

variable {object : ArstThread} {change : CreatedThread → CreatedThread}

@[simp]
theorem onCurrent_m_tid : (object.onCurrent change).m_tid = object.m_tid :=
  rfl

@[simp]
theorem onCurrent_misused :
    (object.onCurrent change).misused = object.misused :=
  rfl

@[simp]
theorem onCurrent_current :
    (object.onCurrent change).current = object.current.map change := by
  cases handle : object.m_tid <;> simp [onCurrent, current, handle]

theorem onCurrent_threads_length :
    (object.onCurrent change).threads.length = object.threads.length := by
  cases handle : object.m_tid <;> simp [onCurrent, handle]

/-- The other threads stay what they are. -/
theorem onCurrent_getElem? {tid : Nat} (other : object.m_tid ≠ some tid) :
    (object.onCurrent change).threads[tid]? = object.threads[tid]? := by
  cases handle : object.m_tid with
  | none => simp [onCurrent, handle]
  | some current =>
      have differs : current ≠ tid := fun same => other (same ▸ handle)
      simp [onCurrent, handle, differs]

end Changes

section Steps

variable {object next : ArstThread}

theorem current_eq_some {created : CreatedThread} :
    object.current = some created ↔ ∃ tid, object.m_tid = some tid ∧
      object.threads[tid]? = some created := by
  simp [current, Option.bind_eq_some_iff]

/-- The return of a thread changes nothing but its `returned`. -/
theorem returns_getElem? {tid other : Nat} {created : CreatedThread}
    (stepTo : object.returns tid = some next)
    (found : next.threads[other]? = some created) :
    ∃ before, object.threads[other]? = some before ∧
      created.joins = before.joins ∧ created.detaches = before.detaches ∧
        (before.returned = true → created.returned = true) := by
  unfold returns at stepTo
  split at stepTo
  · cases stepTo
  · rename_i before foundBefore
    split at stepTo
    · cases stepTo
    · obtain rfl := Option.some.inj stepTo
      by_cases same : tid = other
      · subst same
        rw [List.getElem?_set_self
          (List.getElem?_eq_some_iff.mp foundBefore).1] at found
        obtain rfl := Option.some.inj found
        exact ⟨before, foundBefore, rfl, rfl, fun _ => rfl⟩
      · rw [List.getElem?_set_ne same] at found
        exact ⟨created, found, rfl, rfl, id⟩

theorem returns_frame {tid : Nat} (stepTo : object.returns tid = some next) :
    next = { object with threads := next.threads } ∧
      next.threads.length = object.threads.length := by
  unfold returns at stepTo
  grind

/-- What the return does to the last thread. -/
theorem returns_current {tid : Nat}
    (stepTo : object.returns tid = some next) :
    (∃ created, object.m_tid = some tid ∧ object.current = some created ∧
        next.current = some { created with returned := true }) ∨
      (object.m_tid ≠ some tid ∧ next.current = object.current) := by
  unfold returns at stepTo
  split at stepTo
  · cases stepTo
  · rename_i created found
    obtain ⟨-, rfl⟩ := by simpa using stepTo
    have bound := (List.getElem?_eq_some_iff.mp found).1
    by_cases same : object.m_tid = some tid
    · refine Or.inl ⟨created, same, ?_, ?_⟩
      · simp [current, same, found]
      · simp [current, same, bound]
    · refine Or.inr ⟨same, ?_⟩
      cases handle : object.m_tid with
      | none => simp [current, handle]
      | some last =>
          have differs : tid ≠ last := fun equal => same (equal ▸ handle)
          simp [current, handle, differs]

theorem misused_of_threadStep {action : ThreadAction}
    (stepTo : threadStep object action = some next)
    (misused : object.misused = true) : next.misused = true := by
  cases action <;>
    simp only [threadStep, ArstThread.start, ArstThread.join,
      ArstThread.detach, ArstThread.destroy, ArstThread.returns,
      pthreadJoin, pthreadDetach, pthreadCancel] at stepTo
  all_goals grind [onCurrent_misused]

theorem returns_settled {tid other : Nat} {created : CreatedThread}
    (stepTo : object.returns tid = some next)
    (found : object.threads[other]? = some created) :
    ∃ after, next.threads[other]? = some after ∧
      (after.Settled ↔ created.Settled) := by
  obtain ⟨-, lengthEq⟩ := returns_frame stepTo
  have bound := (List.getElem?_eq_some_iff.mp found).1
  have after := List.getElem?_eq_getElem (lengthEq ▸ bound)
  obtain ⟨before, foundBefore, joins, detaches, -⟩ :=
    returns_getElem? stepTo after
  obtain rfl := Option.some.inj (found.symm.trans foundBefore)
  exact ⟨_, after, by rw [CreatedThread.Settled, joins, detaches]; rfl⟩

/-- A step leaves alone what became of the threads whose id is not in
`m_tid`. -/
theorem others_of_threadStep {action : ThreadAction} {tid : Nat}
    {created : CreatedThread} (stepTo : threadStep object action = some next)
    (found : object.threads[tid]? = some created)
    (other : object.m_tid ≠ some tid) :
    next.m_tid ≠ some tid ∧ ∃ after, next.threads[tid]? = some after ∧
      (after.Settled ↔ created.Settled) := by
  have same (change : CreatedThread → CreatedThread) :
      (object.onCurrent change).threads[tid]? = some created :=
    (onCurrent_getElem? other).trans found
  cases action with
  | returns returning =>
      refine ⟨?_, returns_settled stepTo found⟩
      rw [(returns_frame stepTo).1]
      exact other
  | start succeeds =>
      simp only [threadStep, ArstThread.start] at stepTo
      grind
  | join succeeds =>
      simp only [threadStep, ArstThread.join, pthreadJoin] at stepTo
      grind [onCurrent_m_tid]
  | detach succeeds =>
      simp only [threadStep, ArstThread.detach, pthreadDetach] at stepTo
      grind [onCurrent_m_tid]
  | destroy succeeds =>
      simp only [threadStep, ArstThread.destroy, pthreadDetach,
        pthreadCancel] at stepTo
      grind [onCurrent_m_tid]

/-- Past the first test of the destructor nothing is joined or detached. -/
theorem destroyed_of_threadStep {action : ThreadAction}
    (stepTo : threadStep object action = some next)
    (destroyed : object.lifetime ≠ .alive) :
    next.lifetime ≠ .alive ∧ ∀ tid : Nat, ∀ created : CreatedThread,
      object.threads[tid]? = some created →
        ∃ after : CreatedThread, next.threads[tid]? = some after ∧
          (after.Settled ↔ created.Settled) := by
  cases action with
  | returns returning =>
      refine ⟨?_, fun tid created found => returns_settled stepTo found⟩
      rw [(returns_frame stepTo).1]
      exact destroyed
  | start succeeds => simp [threadStep, destroyed] at stepTo
  | join succeeds => simp [threadStep, destroyed] at stepTo
  | detach succeeds => simp [threadStep, destroyed] at stepTo
  | destroy succeeds =>
      simp only [threadStep, ArstThread.destroy, pthreadCancel] at stepTo
      grind

/-- From here no life of the object ends well: an id was misused, the id of a
thread that is not settled is lost, or the destructor has left one behind or is
about to cancel an id it may not use. -/
inductive Doomed (object : ArstThread) : Prop
  | misused (called : object.misused = true)
  | lost (tid : Nat) (created : CreatedThread)
      (found : object.threads[tid]? = some created)
      (other : object.m_tid ≠ some tid) (unsettled : ¬ created.Settled)
  | leftBehind (destroyed : object.lifetime ≠ .alive) (tid : Nat)
      (created : CreatedThread)
      (found : object.threads[tid]? = some created)
      (unsettled : ¬ created.Settled)
  | unusable (cancelling : object.lifetime = .cancelling)
      (running : object.m_nRunning = 1) (invalid : ¬ object.HandleValid)

theorem handleValid_of_returns {tid : Nat}
    (stepTo : object.returns tid = some next) (valid : next.HandleValid) :
    object.HandleValid := by
  obtain ⟨created, member, noJoins, undetached⟩ := valid
  obtain ⟨last, lastEq, found⟩ := current_eq_some.mp member
  obtain ⟨before, foundBefore, joins, detaches, returned⟩ :=
    returns_getElem? stepTo found
  rw [(returns_frame stepTo).1] at lastEq
  refine ⟨before, current_eq_some.mpr ⟨last, lastEq, foundBefore⟩,
    joins ▸ noJoins, ?_⟩
  intro ended
  exact detaches ▸ undetached (returned ended)

theorem Doomed.step {action : ThreadAction} (doomed : object.Doomed)
    (stepTo : threadStep object action = some next) : next.Doomed := by
  cases doomed with
  | misused called => exact .misused (misused_of_threadStep stepTo called)
  | lost tid created found other unsettled =>
      obtain ⟨otherNext, after, foundAfter, same⟩ :=
        others_of_threadStep stepTo found other
      exact .lost tid after foundAfter otherNext (mt same.mp unsettled)
  | leftBehind destroyed tid created found unsettled =>
      obtain ⟨stillDestroyed, each⟩ := destroyed_of_threadStep stepTo destroyed
      obtain ⟨after, foundAfter, same⟩ := each tid created found
      exact .leftBehind stillDestroyed tid after foundAfter
        (mt same.mp unsettled)
  | unusable cancelling running invalid =>
      cases action with
      | returns tid =>
          obtain ⟨frame, -⟩ := returns_frame stepTo
          refine .unusable ?_ ?_ (mt (handleValid_of_returns stepTo) invalid)
          · rw [frame]
            exact cancelling
          · rw [frame]
            exact running
      | destroy succeeds =>
          apply Doomed.misused
          simp only [threadStep, ArstThread.destroy, cancelling, running,
            pthreadCancel, invalid, if_true, if_false,
            Option.some.injEq] at stepTo
          rw [← stepTo]
      | start succeeds => simp [threadStep, cancelling] at stepTo
      | join succeeds => simp [threadStep, cancelling] at stepTo
      | detach succeeds => simp [threadStep, cancelling] at stepTo

theorem Doomed.not_sound (doomed : object.Doomed)
    (gone : object.lifetime = .gone) : ¬ object.Sound := by
  rintro ⟨unmisused, settled⟩
  cases doomed with
  | misused called => cases unmisused.symm.trans called
  | lost tid created found other unsettled =>
      exact unsettled (settled gone created (List.mem_of_getElem? found))
  | leftBehind destroyed tid created found unsettled =>
      exact unsettled (settled gone created (List.mem_of_getElem? found))
  | unusable cancelling running invalid =>
      cases gone.symm.trans cancelling

theorem pthreadJoin_of_invalid (invalid : ¬ object.HandleValid)
    (succeeds : Bool) :
    object.pthreadJoin succeeds = some { object with misused := true } := by
  unfold pthreadJoin
  split
  · rfl
  · rename_i created member
    rw [if_neg fun usable => invalid ⟨created, member, usable⟩]

end Steps

end ArstThread

end ArstQuote
