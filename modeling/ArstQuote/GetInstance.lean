import ArstQuote.GuardedRuns
import ArstQuote.SharedObjects

/-!
# The one instance of a class

`ARSTClients::GetInstance` and `ARSTServers::GetInstance` look at `instance`
before and after they lock `ms_mtxInstance`.  The main thread, the relay threads
and the readers call them at any time.  However the calls interleave, one object
is constructed at most, all callers get that object, and no call waits for ever.
-/

namespace ArstQuote

open GuardedRuns SharedObjects

/-- The statement of `GetInstance` that a caller is about to execute.  `assign`
has the object that `new` has just constructed. -/
inductive GetInstanceAt
  | test
  | lock
  | retest
  | construct
  | assign (object : Nat)
  | log
  | unlock
  | ret
  deriving DecidableEq

/-- The static members of the class, the objects constructed so far, which are
numbered, the calls under way, what the others returned, and the causes that
`GetInstance` logged; what the constructor of `ARSTServers` logs on its own is
not among them. -/
structure Singleton (Thread : Type*) where
  object : Option Nat
  ms_mtxInstance : Option Thread
  constructed : Nat
  calls : Thread → Option GetInstanceAt
  returned : List (Option Nat)
  logged : List String

def Singleton.start (Thread : Type*) : Singleton Thread :=
  ⟨none, none, 0, fun _ => none, [], []⟩

inductive SingletonAction (Thread : Type*)
  | call (thread : Thread)
  | proceed (thread : Thread)

/-- The caller is between `pthread_mutex_lock` and `pthread_mutex_unlock`. -/
def GetInstanceAt.inside : GetInstanceAt → Bool
  | .retest | .construct | .assign _ | .log | .unlock => true
  | .test | .lock | .ret => false

/-- The steps that the call can still take. -/
def GetInstanceAt.remaining : GetInstanceAt → Nat
  | .test => 8
  | .lock => 7
  | .retest => 6
  | .construct => 5
  | .assign _ => 4
  | .log => 3
  | .unlock => 2
  | .ret => 1

section Steps

variable {Thread : Type*} [DecidableEq Thread]

def Singleton.place (single : Singleton Thread) (thread : Thread)
    (next : Option GetInstanceAt) : Singleton Thread :=
  { single with calls := Function.update single.calls thread next }

/-- One statement of a call; `pCause` is what the first caller logs. -/
def Singleton.proceed (pCause : String) (single : Singleton Thread)
    (thread : Thread) : GetInstanceAt → Option (Singleton Thread)
  | .test =>
      some (single.place thread
        (some (if single.object = none then .lock else .ret)))
  | .lock =>
      if single.ms_mtxInstance = none then
        some ({ single with ms_mtxInstance := some thread }.place thread
          (some .retest))
      else none
  | .retest =>
      some (single.place thread
        (some (if single.object = none then .construct else .unlock)))
  | .construct =>
      some ({ single with constructed := single.constructed + 1 }.place thread
        (some (.assign single.constructed)))
  | .assign object =>
      some ({ single with object := some object }.place thread (some .log))
  | .log =>
      some ({ single with logged := single.logged ++ [pCause] }.place thread
        (some .unlock))
  | .unlock =>
      some ({ single with ms_mtxInstance := none }.place thread (some .ret))
  | .ret =>
      some ({ single with
        returned := single.returned ++ [single.object] }.place thread none)

def getInstanceStep (pCause : String) (single : Singleton Thread) :
    SingletonAction Thread → Option (Singleton Thread)
  | .call thread =>
      if single.calls thread = none then
        some (single.place thread (some .test))
      else none
  | .proceed thread =>
      (single.calls thread).bind (single.proceed pCause thread)

/-- `ARSTClients::GetInstance`. -/
def clientsGetInstance (single : Singleton Thread) :
    SingletonAction Thread → Option (Singleton Thread) :=
  getInstanceStep "CLIENTS_ONE" single

/-- `ARSTServers::GetInstance`. -/
def serversGetInstance (single : Singleton Thread) :
    SingletonAction Thread → Option (Singleton Thread) :=
  getInstanceStep "SERVERS_ONE" single

end Steps

/-- How far the one object has got. -/
inductive Phase
  | nothing
  | constructed
  | assigned
  | logged
  deriving DecidableEq

def Phase.next : Phase → Phase
  | .nothing => .constructed
  | .constructed => .assigned
  | .assigned | .logged => .logged

/-- The phases in which a caller can be at a statement. -/
def GetInstanceAt.Fits : GetInstanceAt → Phase → Prop
  | .test, _ | .lock, _ => True
  | .retest, phase => phase = .nothing ∨ phase = .logged
  | .construct, phase => phase = .nothing
  | .assign object, phase => phase = .constructed ∧ object = 0
  | .log, phase => phase = .assigned
  | .unlock, phase => phase = .logged
  | .ret, phase => phase = .assigned ∨ phase = .logged

namespace Singleton

variable {Thread : Type*}

/-- What the phase says about the object and the log. -/
def InPhase (pCause : String) (single : Singleton Thread) : Phase → Prop
  | .nothing => single.object = none ∧ single.constructed = 0 ∧
      single.logged = []
  | .constructed => single.object = none ∧ single.constructed = 1 ∧
      single.logged = []
  | .assigned => single.object = some 0 ∧ single.constructed = 1 ∧
      single.logged = []
  | .logged => single.object = some 0 ∧ single.constructed = 1 ∧
      single.logged = [pCause]

/-- The mutexes that a thread has. -/
def inside (position : Option GetInstanceAt) : Option Unit :=
  position.bind fun position => if position.inside then some () else none

/-- The mutex of the class, as a table of mutexes. -/
def holder (single : Singleton Thread) : Unit → Option Thread :=
  fun _ => single.ms_mtxInstance

/-- Who has the mutex, going by the statements. -/
def held (single : Singleton Thread) (thread : Thread) : Option Unit :=
  inside (single.calls thread)

/-- What holds in every interleaving, in one of the phases.  In the two middle
phases somebody has the mutex and will take the object further. -/
structure Valid (pCause : String) (single : Singleton Thread)
    (phase : Phase) : Prop where
  mutex : Exact single.holder single.held
  inPhase : single.InPhase pCause phase
  fits : ∀ thread position, single.calls thread = some position →
    position.Fits phase
  taken : phase = .constructed ∨ phase = .assigned →
    single.ms_mtxInstance.isSome = true
  returned : ∀ object ∈ single.returned, object = some 0

/-- The class is in one of its phases. -/
def Sound (pCause : String) (single : Singleton Thread) : Prop :=
  ∃ phase, single.Valid pCause phase

theorem start_valid (pCause : String) :
    (start Thread).Valid pCause .nothing where
  mutex := by simp [Exact, start, holder, held, inside]
  inPhase := ⟨rfl, rfl, rfl⟩
  fits := by simp [start]
  taken := by simp
  returned := by simp [start]

section Steps

variable [DecidableEq Thread] {pCause : String}
  {single next : Singleton Thread} {thread : Thread} {phase : Phase}

theorem held_place (single : Singleton Thread) (thread : Thread)
    (position : Option GetInstanceAt) :
    (single.place thread position).held =
      Function.update single.held thread (inside position) := by
  funext other
  by_cases same : other = thread
  · subst same
    simp [held, place]
  · simp [held, place, same]

omit [DecidableEq Thread] in
theorem update_holder (single : Singleton Thread) (noted : Option Thread) :
    Function.update single.holder () noted = fun _ => noted := by
  funext mutex
  rw [Subsingleton.elim mutex (), Function.update_self]

omit [DecidableEq Thread] in
theorem held_of_inside {position : GetInstanceAt}
    (own : single.calls thread = some position)
    (isInside : position.inside = true) : single.held thread = some () := by
  simp [held, own, inside, isInside]

/-- An outside caller stays where it can be while another takes the object
further. -/
theorem fits_next {position : GetInstanceAt}
    (fits : position.Fits phase) (outside : position.inside = false) :
    position.Fits phase.next := by
  cases position with
  | test | lock => trivial
  | ret =>
      rcases fits with rfl | rfl
      · exact Or.inr rfl
      · exact Or.inr rfl
  | _ => cases outside

/-- A statement that changes only where its caller is, on the same side of the
lock. -/
theorem Valid.moveTo (valid : single.Valid pCause phase)
    {position : Option GetInstanceAt}
    (side : inside position = inside (single.calls thread))
    (fits : ∀ there, position = some there → there.Fits phase) :
    (single.place thread position).Valid pCause phase where
  mutex := by
    rw [held_place]
    exact valid.mutex.keepHeld side.symm
  inPhase := valid.inPhase
  fits who there found := by
    rcases eq_some_of_update found with ⟨-, new⟩ | ⟨-, before⟩
    · exact fits there new
    · exact valid.fits who there before
  taken := valid.taken
  returned := valid.returned

/-- A statement inside that takes the object to its next phase. -/
theorem Valid.advance (valid : single.Valid pCause phase)
    {position there : GetInstanceAt} {after : Singleton Thread}
    (own : single.calls thread = some position)
    (isInside : position.inside = true) (stays : there.inside = true)
    (fits : there.Fits phase.next)
    (inPhase : after.InPhase pCause phase.next)
    (calls : after.calls = single.calls)
    (mutex : after.ms_mtxInstance = single.ms_mtxInstance)
    (returned : after.returned = single.returned) :
    (after.place thread (some there)).Valid pCause phase.next where
  mutex := by
    have held : after.held = single.held := by
      funext other
      rw [Singleton.held, Singleton.held, calls]
    have holder : after.holder = single.holder := by
      funext _
      exact mutex
    rw [held_place, held]
    change Exact after.holder _
    rw [holder]
    apply valid.mutex.keepHeld
    simp [held_of_inside own isInside, inside, stays]
  inPhase := inPhase
  fits who position found := by
    change Function.update after.calls _ _ _ = _ at found
    rw [calls] at found
    rcases eq_some_of_update found with ⟨-, new⟩ | ⟨different, before⟩
    · obtain rfl := Option.some.inj new
      exact fits
    · apply fits_next (valid.fits who position before)
      by_contra isInsideToo
      rw [Bool.not_eq_false] at isInsideToo
      exact different (valid.mutex.unique (held_of_inside before isInsideToo)
        (held_of_inside own isInside))
  taken _ := by
    change after.ms_mtxInstance.isSome = true
    have has := (valid.mutex () thread).mpr (held_of_inside own isInside)
    change single.ms_mtxInstance = some thread at has
    rw [mutex, has]
    rfl
  returned := by
    change ∀ object ∈ after.returned, object = some 0
    rw [returned]
    exact valid.returned

omit [DecidableEq Thread] in
/-- Nobody has the mutex only before the object and after it. -/
theorem Valid.between (valid : single.Valid pCause phase)
    (free : single.ms_mtxInstance = none) :
    phase = .nothing ∨ phase = .logged := by
  cases phase with
  | nothing => exact Or.inl rfl
  | logged => exact Or.inr rfl
  | constructed => simpa [free] using valid.taken (Or.inl rfl)
  | assigned => simpa [free] using valid.taken (Or.inr rfl)

theorem Valid.lock (valid : single.Valid pCause phase)
    (own : single.calls thread = some .lock)
    (free : single.ms_mtxInstance = none) :
    ({ single with ms_mtxInstance := some thread }.place thread
      (some .retest)).Valid pCause phase := by
  have freeMutex : single.holder () = none := free
  have without : single.held thread = none := by
    simp [held, own, inside, GetInstanceAt.inside]
  refine ⟨?_, valid.inPhase, ?_, fun _ => rfl, valid.returned⟩
  · rw [held_place]
    have locked := valid.mutex.lock freeMutex without
    rw [update_holder] at locked
    exact locked
  · intro who position found
    rcases eq_some_of_update found with ⟨-, new⟩ | ⟨-, before⟩
    · obtain rfl := Option.some.inj new
      exact valid.between free
    · exact valid.fits who position before

theorem Valid.unlock (valid : single.Valid pCause phase)
    (own : single.calls thread = some .unlock) :
    ({ single with ms_mtxInstance := none }.place thread
      (some .ret)).Valid pCause phase := by
  have logged : phase = .logged := valid.fits thread _ own
  refine ⟨?_, valid.inPhase, ?_, by simp [logged], valid.returned⟩
  · rw [held_place]
    have unlocked := valid.mutex.unlock (held_of_inside own rfl)
    rw [update_holder] at unlocked
    exact unlocked
  · intro who position found
    rcases eq_some_of_update found with ⟨-, new⟩ | ⟨-, before⟩
    · obtain rfl := Option.some.inj new
      exact Or.inr logged
    · exact valid.fits who position before

omit [DecidableEq Thread] in
/-- A caller that has seen the object can return. -/
theorem Valid.fits_ret (valid : single.Valid pCause phase)
    (present : single.object ≠ none) : GetInstanceAt.ret.Fits phase := by
  have inPhase := valid.inPhase
  cases phase with
  | nothing | constructed => exact absurd inPhase.1 present
  | assigned => exact Or.inl rfl
  | logged => exact Or.inr rfl

omit [DecidableEq Thread] in
/-- A caller that is about to return finds the object. -/
theorem Valid.object_of_ret (valid : single.Valid pCause phase)
    (own : single.calls thread = some .ret) : single.object = some 0 := by
  have inPhase := valid.inPhase
  rcases valid.fits thread _ own with rfl | rfl
  · exact inPhase.1
  · exact inPhase.1

theorem Valid.step (valid : single.Valid pCause phase)
    {action : SingletonAction Thread}
    (stepTo : getInstanceStep pCause single action = some next) :
    ∃ later, next.Valid pCause later := by
  have inPhase := valid.inPhase
  cases action with
  | call thread =>
      simp only [getInstanceStep, Option.ite_none_right_eq_some,
        Option.some.injEq] at stepTo
      obtain ⟨idle, rfl⟩ := stepTo
      refine ⟨phase, valid.moveTo (by rw [idle]; rfl) ?_⟩
      rintro there ⟨⟩
      trivial
  | proceed thread =>
      obtain ⟨position, own, stepTo⟩ := Option.bind_eq_some_iff.mp stepTo
      have fits := valid.fits thread position own
      cases position with
      | test =>
          cases stepTo
          refine ⟨phase, valid.moveTo ?_ ?_⟩
          · rw [own]
            split <;> rfl
          · rintro there ⟨⟩
            by_cases absent : single.object = none
            · simp [absent, GetInstanceAt.Fits]
            · simp only [absent, if_false]
              exact valid.fits_ret absent
      | lock =>
          simp only [proceed, Option.ite_none_right_eq_some,
            Option.some.injEq] at stepTo
          obtain ⟨free, rfl⟩ := stepTo
          exact ⟨phase, valid.lock own free⟩
      | retest =>
          cases stepTo
          refine ⟨phase, valid.moveTo ?_ ?_⟩
          · rw [own]
            split <;> rfl
          · rintro there ⟨⟩
            rcases fits with rfl | rfl
            · simp [inPhase.1, GetInstanceAt.Fits]
            · simp [inPhase.1, GetInstanceAt.Fits]
      | construct =>
          cases stepTo
          obtain rfl := fits
          obtain ⟨object, constructed, logged⟩ := inPhase
          refine ⟨.constructed, valid.advance own rfl rfl ?_ ?_ rfl rfl rfl⟩
          · exact ⟨rfl, constructed⟩
          · exact ⟨object, by rw [constructed], logged⟩
      | assign object =>
          cases stepTo
          obtain ⟨rfl, rfl⟩ := fits
          obtain ⟨-, constructed, logged⟩ := inPhase
          exact ⟨.assigned, valid.advance own rfl rfl rfl
            ⟨rfl, constructed, logged⟩ rfl rfl rfl⟩
      | log =>
          cases stepTo
          obtain rfl := fits
          obtain ⟨object, constructed, logged⟩ := inPhase
          refine ⟨.logged, valid.advance own rfl rfl rfl
            ⟨object, constructed, ?_⟩ rfl rfl rfl⟩
          rw [logged]
          rfl
      | unlock =>
          cases stepTo
          exact ⟨phase, valid.unlock own⟩
      | ret =>
          cases stepTo
          have moved : (single.place thread none).Valid pCause phase := by
            apply valid.moveTo _ (by simp)
            rw [own]
            rfl
          refine ⟨phase, moved.mutex, moved.inPhase, moved.fits, moved.taken,
            ?_⟩
          intro object member
          rcases List.mem_append.mp member with before | now
          · exact valid.returned object before
          · rw [List.mem_singleton.mp now]
            exact valid.object_of_ret own

end Steps

section Progress

variable [Fintype Thread] {pCause : String}

/-- The steps that the calls under way can still take, all together. -/
def remaining (single : Singleton Thread) : Nat :=
  ∑ thread, (single.calls thread).elim 0 GetInstanceAt.remaining

/-- One object at most is constructed and logged, every call returns it, and
the calls under way end: some caller can always go on, and without new calls
there are no more steps than `remaining`. -/
structure Serves [DecidableEq Thread] (pCause : String)
    (single : Singleton Thread) : Prop where
  constructed : single.constructed ≤ 1
  logged : single.logged = [] ∨ single.logged = [pCause]
  returned : ∀ object ∈ single.returned, object = some 0
  goesOn : (∃ thread, single.calls thread ≠ none) →
    ∃ thread next, getInstanceStep pCause single (.proceed thread) = some next
  settles : ∀ threads later,
    execute (fun single thread => getInstanceStep pCause single
      (.proceed thread)) single threads = some later →
    threads.length + later.remaining ≤ single.remaining

variable [DecidableEq Thread] {single next : Singleton Thread}
  {thread : Thread} {phase : Phase}

omit [Fintype Thread] in
/-- Every statement leaves its caller fewer. -/
theorem proceed_remaining {position : GetInstanceAt}
    (stepTo : single.proceed pCause thread position = some next) :
    ∃ left : Option GetInstanceAt,
      next.calls = Function.update single.calls thread left ∧
        left.elim 0 GetInstanceAt.remaining < position.remaining := by
  cases position with
  | lock =>
      simp only [proceed, Option.ite_none_right_eq_some,
        Option.some.injEq] at stepTo
      obtain ⟨-, rfl⟩ := stepTo
      exact ⟨_, rfl, by decide⟩
  | test | retest =>
      cases stepTo
      refine ⟨_, rfl, ?_⟩
      split <;> decide
  | construct | assign _ | log | unlock | ret =>
      cases stepTo
      exact ⟨_, rfl, by simp [GetInstanceAt.remaining]⟩

theorem remaining_lt
    (stepTo : getInstanceStep pCause single (.proceed thread) = some next) :
    next.remaining < single.remaining := by
  obtain ⟨position, own, stepTo⟩ := Option.bind_eq_some_iff.mp stepTo
  obtain ⟨left, calls, fewer⟩ := proceed_remaining stepTo
  have total := sum_update_add
    (fun position => Option.elim position 0 GetInstanceAt.remaining)
    single.calls thread left
  simp only [own, Option.elim_some] at total
  rw [remaining, remaining, calls]
  omega

theorem settles_of_execute {threads : List Thread} {later : Singleton Thread}
    (executed : execute (fun single thread => getInstanceStep pCause single
      (.proceed thread)) single threads = some later) :
    threads.length + later.remaining ≤ single.remaining := by
  have each : ∀ (before : Singleton Thread) thread after, True → True →
      getInstanceStep pCause before (.proceed thread) = some after →
        True ∧ after.remaining < before.remaining :=
    fun _ _ _ _ _ stepTo => ⟨trivial, remaining_lt stepTo⟩
  exact length_add_rank_le each trivial (fun _ _ => trivial) executed

omit [Fintype Thread] in
/-- Only a locked mutex can make a caller wait. -/
theorem proceed_of_free {position : GetInstanceAt}
    (free : position = .lock → single.ms_mtxInstance = none) :
    ∃ next, single.proceed pCause thread position = some next := by
  cases position with
  | lock =>
      rw [proceed, if_pos (free rfl)]
      exact ⟨_, rfl⟩
  | _ => exact ⟨_, rfl⟩

omit [Fintype Thread] in
/-- Where one caller waits for the mutex, the one that has it can go on. -/
theorem Valid.goesOn (valid : single.Valid pCause phase)
    (busy : ∃ thread, single.calls thread ≠ none) :
    ∃ thread next,
      getInstanceStep pCause single (.proceed thread) = some next := by
  have moves : ∀ who position, single.calls who = some position →
      (position = .lock → single.ms_mtxInstance = none) →
      ∃ thread next,
        getInstanceStep pCause single (.proceed thread) = some next := by
    intro who position own free
    obtain ⟨next, proceeds⟩ := proceed_of_free free
    refine ⟨who, next, ?_⟩
    simp only [getInstanceStep, own, Option.bind_some]
    exact proceeds
  cases mutex : single.ms_mtxInstance with
  | none =>
      obtain ⟨thread, present⟩ := busy
      obtain ⟨position, own⟩ := Option.ne_none_iff_exists'.mp present
      exact moves thread position own fun _ => mutex
  | some owner =>
      have has : single.held owner = some () :=
        (valid.mutex () owner).mp mutex
      obtain ⟨position, own, isInside⟩ := Option.bind_eq_some_iff.mp has
      apply moves owner position own
      rintro rfl
      cases isInside

theorem Valid.serves (valid : single.Valid pCause phase) :
    single.Serves pCause where
  constructed := by
    have inPhase := valid.inPhase
    cases phase <;> simp only [InPhase] at inPhase <;> omega
  logged := by
    have inPhase := valid.inPhase
    cases phase with
    | logged => exact Or.inr inPhase.2.2
    | _ => exact Or.inl inPhase.2.2
  returned := valid.returned
  goesOn := valid.goesOn
  settles _ _ executed := settles_of_execute executed

end Progress

end Singleton

/-- Both classes have one instance, whoever asks for it and whenever. -/
theorem getInstance_serves {Thread : Type*} [Fintype Thread]
    [DecidableEq Thread] (actions : List (SingletonAction Thread)) :
    HoldsAlong clientsGetInstance (Singleton.Serves "CLIENTS_ONE")
        (Singleton.start Thread) actions ∧
      HoldsAlong serversGetInstance (Singleton.Serves "SERVERS_ONE")
        (Singleton.start Thread) actions := by
  have each : ∀ pCause, HoldsAlong (getInstanceStep pCause)
      (Singleton.Serves pCause) (Singleton.start Thread) actions := by
    intro pCause
    have sound : (Singleton.start Thread).Sound pCause :=
      ⟨.nothing, Singleton.start_valid pCause⟩
    apply holdsAlong_of_invariant _ _ sound actions
    · rintro single ⟨phase, valid⟩
      exact valid.serves
    · rintro single action next ⟨phase, valid⟩ stepTo
      exact valid.step stepTo
  exact ⟨each "CLIENTS_ONE", each "SERVERS_ONE"⟩

end ArstQuote
