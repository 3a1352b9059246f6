import ArstQuote.EventProjection

/-!
# The waits of one thread

The event library refines the model of the waits.  Each step of the library is
none or more steps of the waits that show the same calls of `SetEvent` and the
same results: within a call the waits do not move, and where the thread cleans
up in an event they see the effect at the end.
-/

namespace Neosmart

open Function GuardedRuns SharedObjects Simulations
open PosixEvents (PosixEvent SetEventAt WaitAt Waits WaitsAction waitsStep)

variable {Thread Event : Type*}

namespace Library

variable {library next : Library Thread Event} {action : Action Thread Event}
  {main : Thread}

section Steps

variable [DecidableEq Event] [DecidableEq Thread] [Fintype Event]
  [Fintype Thread] {waits : Waits Event} {thread : Thread}
  {event : Event} {wait : Wait Event}

omit [DecidableEq Event] [DecidableEq Thread] [Fintype Event]
  [Fintype Thread] in
/-- The wait looks at its next event. -/
theorem drop_of_listed (listed : wait.events[wait.i]? = some event) :
    wait.events.drop wait.i = event :: wait.events.drop (wait.i + 1) := by
  obtain ⟨within, here⟩ := List.getElem?_eq_some_iff.mp listed
  rw [List.drop_eq_getElem_cons within, here]

/-- A waiter is not registered with an event that it has yet to look at. -/
theorem Alone.not_registered (alone : library.Alone main)
    (valid : library.Valid)
    (call : library.calls thread = .registering wait)
    (listed : wait.events[wait.i]? = some event) {info : WfmoInfo}
    (member : info ∈ (library.events event).registeredWaits) :
    info.waiter ≠ wait.wfmo := by
  intro own
  have waited := congrArg CallAt.wait? call
  obtain ⟨wfmo, found⟩ := valid.sound.refers.wfmo_of_wait waited
  have stands := valid.settled.stands _ _ _ waited found
  rw [call] at stands
  obtain ⟨-, -, nodup, -⟩ := alone.waits thread wait waited
  have named := valid.settled.listed event info member wait.events
    (.inl ⟨thread, wait, waited, own.symm, rfl⟩)
  have within := (List.getElem?_eq_some_iff.mp named).1
  have index : info.waitIndex = wait.i :=
    (List.getElem?_inj within nodup).mp (named.trans listed.symm)
  obtain rfl : info = ⟨wait.wfmo, wait.i⟩ := by rw [← own, ← index]
  have counted := stands.registered rfl (stands.unseen rfl) wait.i
  have entered : 0 < library.entries ⟨wait.wfmo, wait.i⟩ :=
    held_pos member
  rw [if_neg (lt_irrefl _)] at counted
  omega

theorem ShownBy.lock (shown : library.ShownBy main waits)
    (valid : library.Valid) (alone : library.Alone main)
    (call : library.calls thread = .registering wait)
    (listed : wait.events[wait.i]? = some event)
    (free : (library.events event).mutex = none) :
    ((library.putEvent event { library.events event with
      mutex := some thread }).goTo thread
        (.cleaning wait event 0)).ShownBy main waits := by
  have move : Move library (.proceed thread false) _ :=
    .lock call listed free
  have locks := valid.sound.locks
  obtain ⟨own, -, -, latest⟩ :=
    alone.waits thread wait (congrArg CallAt.wait? call)
  subst own
  have clean : (library.calls thread).cleans ≠ some event := by
    simp [call, CallAt.cleans]
  have before := shown.events event
  apply shown.keep move _ (.of_eq rfl) rfl ⟨rfl, rfl, rfl, rfl⟩
  · apply shown.events_put locks move event
    · simp [Action.thread, call]
    · simp [Action.thread, eq_comm]
    · intro other apart
      exact ⟨update_of_ne apart _ _, rfl⟩
    · have fresh : waits.waiter ∉ (waits.events event).registeredWaits := by
        rw [before.same clean, shown.waiter, ← latest]
        intro member
        obtain ⟨info, entry, number⟩ := List.mem_map.mp member
        exact alone.not_registered valid call listed entry
          (Nat.succ.inj number)
      have kept := before.kept
      simp only [goTo, putEvent, update_self, setEventAt, CallAt.setEventAt,
        CallAt.cleans]
      refine ⟨before.state, ?_, before.nodup, kept, by simp, fun _ => fresh⟩
      rw [before.place, setEventAt, free]
  · simp [Alike, Action.thread, call, CallAt.waitAt, CallAt.wait?,
      drop_of_listed listed]

omit [Fintype Event] [Fintype Thread] [DecidableEq Event]
  [DecidableEq Thread] in
/-- A waiter that a reference to was given back is the same or gone. -/
theorem SameWaiters.drop {waiter : Nat} {wfmo : Wfmo Thread}
    (found : library.wfmos waiter = some wfmo) :
    library.SameWaiters (library.drop waiter wfmo) := by
  intro other left known
  rcases eq_some_of_update known with ⟨rfl, released⟩ | ⟨-, before⟩
  · obtain rfl := released_eq_some released
    exact ⟨wfmo, found, rfl, rfl⟩
  · exact ⟨left, before, rfl, rfl⟩

omit [Fintype Event] [Fintype Thread] [DecidableEq Event]
  [DecidableEq Thread] in
theorem SameWaiters.mutex {waiter : Nat} {wfmo : Wfmo Thread}
    (found : library.wfmos waiter = some wfmo) (mutex : Option Thread) :
    library.SameWaiters
      (library.putWfmo waiter (some { wfmo with mutex := mutex })) := by
  intro other left known
  rcases eq_some_of_update known with ⟨rfl, new⟩ | ⟨-, before⟩
  · obtain rfl := Option.some.inj new
    exact ⟨wfmo, found, rfl, rfl⟩
  · exact ⟨left, before, rfl, rfl⟩

theorem ShownBy.remove (shown : library.ShownBy main waits)
    (valid : library.Valid) (alone : library.Alone main) {position : Nat}
    {info : WfmoInfo} {wfmo : Wfmo Thread}
    (call : library.calls thread = .cleaning wait event position)
    (entry : (library.events event).registeredWaits[position]? = some info)
    (found : library.wfmos info.waiter = some wfmo)
    (free : wfmo.mutex = none) (expired : wfmo.stillWaiting = false) :
    ((library.putEvent event { library.events event with
      registeredWaits :=
        (library.events event).registeredWaits.eraseIdx position }).drop
          info.waiter wfmo).ShownBy main waits := by
  have move : Move library (.proceed thread false) _ :=
    .remove call entry found free expired
  obtain ⟨own, -⟩ := alone.waits thread wait (congrArg CallAt.wait? call)
  subst own
  have before := shown.events event
  have cleaned : (library.calls thread).cleans = some event := by
    simp [call, CallAt.cleans]
  apply shown.keep move ⟨rfl, rfl⟩ (.drop found) rfl ⟨rfl, rfl, rfl, rfl⟩
  apply shown.events_put valid.sound.locks move event
  · simp [Action.thread, call, eq_comm]
  · simp [Action.thread, call, eq_comm]
  · intro other apart
    exact ⟨update_of_ne apart _ _, rfl⟩
  · have fewer := (List.eraseIdx_sublist (library.events event).registeredWaits
      position).map fun info => info.waiter + 1
    simp only [drop, assert, putWfmo, putEvent, update_self]
    refine ⟨before.state, ?_, before.nodup, fewer.trans before.kept,
      fun unclean => absurd cleaned unclean, before.fresh⟩
    rw [before.place]
    simp [setEventAt]

omit [DecidableEq Thread] in
/-- A waiter that is not locked is not the latest one, or the waiting thread
waits for its condition. -/
theorem ShownBy.unlocked (shown : library.ShownBy main waits)
    (valid : library.Valid) (alone : library.Alone main) {waiter : Nat}
    {wfmo : Wfmo Thread} (found : library.wfmos waiter = some wfmo)
    (free : wfmo.mutex = none) (latest : waiter + 1 = waits.waiter) :
    waits.waitAt.locked = false ∧
      (waits.stillWaiting = true → wfmo.stillWaiting = true) := by
  rw [shown.waitAt]
  cases waited : (library.calls main).wait? with
  | none =>
      refine ⟨?_, by simp [shown.outside waited]⟩
      cases call : library.calls main <;>
        simp_all [CallAt.waitAt, CallAt.wait?, WaitAt.locked]
  | some wait =>
      obtain ⟨-, -, -, number⟩ := alone.waits main wait waited
      rw [shown.waiter, ← number] at latest
      obtain rfl := Nat.succ.inj latest
      have unlocked := valid.sound.unlocked waited found free
      rw [(shown.latest wait wfmo waited found).1]
      refine ⟨?_, id⟩
      cases call : library.calls main <;>
        simp_all [CallAt.waitAt, CallAt.wait?, WaitAt.locked]

omit [DecidableEq Event] [DecidableEq Thread] [Fintype Event]
  [Fintype Thread] in
theorem not_cleans_of_mutex (locks : library.Locks)
    (other : (library.events event).mutex ≠ some main) :
    (library.calls main).cleans ≠ some event := by
  intro cleans
  exact other ((locks.events event main).mpr (eventHeld_of_cleans cleans))

omit [Fintype Event] [Fintype Thread] in
theorem not_cleans_of_move (move : Move library action next)
    (actor : (next.calls action.thread).cleans = none)
    (before : (library.calls main).cleans ≠ some event) :
    (next.calls main).cleans ≠ some event := by
  by_cases acts : main = action.thread
  · rw [acts, actor]
    simp
  · rw [(Signalled.views_eq (calls_of_move move acts)).2.1]
    exact before

/-- Some steps of the waits show the observations and lead to the library. -/
def ShownAfter (main : Thread) (waits : Waits Event)
    (observations : List (Observation Event))
    (next : Library Thread Event) : Prop :=
  ∃ waitsNext, Shows waitsStep observeWaits waits observations waitsNext ∧
    next.ShownBy main waitsNext

omit [Fintype Event] [Fintype Thread] in
/-- A step of `SetEvent` changes one event that is not cleaned up. -/
theorem ShownBy.events_exact (shown : library.ShownBy main waits)
    (locks : library.Locks) (move : Move library action next) (event : Event)
    {events : Event → PosixEvent}
    (before : ∀ other, (library.calls action.thread).eventHeld = some other →
      other = event)
    (after : ∀ other, (next.calls action.thread).eventHeld = some other →
      other = event)
    (others : ∀ other, other ≠ event →
      next.events other = library.events other ∧
        events other = waits.events other)
    (unclean : (library.calls main).cleans ≠ some event)
    (actor : (next.calls action.thread).cleans = none)
    (state : (events event).state = (next.events event).state)
    (place : (events event).setEventAt = next.setEventAt event)
    (nodup : (events event).registeredWaits.Nodup)
    (same : (events event).registeredWaits = (next.events event).numbers)
    (other : Event) :
    EventShown (next.events other) ((next.calls main).cleans = some other)
      (next.setEventAt other) waits.waiter (events other) := by
  apply shown.events_put locks move event before after others
  exact .exact state place nodup same (not_cleans_of_move move actor unclean)

theorem ShownBy.setEvent (shown : library.ShownBy main waits)
    (valid : library.Valid) (outside : library.calls thread = .outside)
    (free : (library.events event).mutex = none) :
    ShownAfter main waits [.set event]
      (((library.putEvent event { library.events event with
        mutex := some thread
        state := true }).goTo thread (.setting event)).countSet event) := by
  have move : Move library (.setEvent thread event) _ :=
    .setEvent outside free
  have before := shown.events event
  have unclean : (library.calls main).cleans ≠ some event :=
    not_cleans_of_mutex valid.sound.locks (by simp [free])
  have nowhere : (waits.events event).setEventAt = .nowhere := by
    rw [before.place, setEventAt, free]
  have stepTo : waitsStep waits (.setEvent event) = some _ :=
    if_pos nowhere
  refine ⟨_, shows_of_step stepTo, ?_⟩
  refine shown.keep move ?_ (.of_eq rfl) rfl ⟨rfl, rfl, rfl, rfl⟩ ?_
  · simp [Alike, Action.thread, outside, CallAt.waitAt, CallAt.wait?]
  apply shown.events_exact valid.sound.locks move event
  · simp [Action.thread, outside]
  · simp [Action.thread, eq_comm]
  · intro other apart
    exact ⟨update_of_ne apart _ _, update_of_ne apart _ _⟩
  · exact unclean
  · simp [Action.thread, CallAt.cleans]
  · simp [Waits.withEvent]
  · simp [Waits.withEvent, setEventAt, CallAt.setEventAt]
  · simpa [Waits.withEvent] using before.nodup
  · simpa [Waits.withEvent, NeosmartEvent.numbers] using before.same unclean

omit [DecidableEq Event] [DecidableEq Thread] [Fintype Event]
  [Fintype Thread] in
/-- The waits know a call of `SetEvent` and all of the waiters that it is to
look at. -/
theorem ShownBy.setter (shown : library.ShownBy main waits)
    (locks : library.Locks)
    (has : (library.calls thread).eventHeld = some event)
    (setter : (library.calls thread).cleans = none) :
    (library.calls main).cleans ≠ some event ∧
      (waits.events event).setEventAt = (library.calls thread).setEventAt ∧
      (waits.events event).registeredWaits =
        (library.events event).numbers := by
  have noted : (library.events event).mutex = some thread :=
    (locks.events event thread).mpr has
  have unclean : (library.calls main).cleans ≠ some event := by
    intro cleans
    have held := (locks.events event main).mpr (eventHeld_of_cleans cleans)
    obtain rfl := Option.some.inj (noted.symm.trans held)
    rw [setter] at cleans
    cases cleans
  refine ⟨unclean, ?_, (shown.events event).same unclean⟩
  rw [(shown.events event).place, setEventAt, noted]

omit [DecidableEq Event] [DecidableEq Thread] [Fintype Event]
  [Fintype Thread] in
/-- The waits see a call of `SetEvent` in its loop. -/
theorem ShownBy.scanner (shown : library.ShownBy main waits)
    (locks : library.Locks) (call : library.calls thread = .setting event) :
    (library.calls main).cleans ≠ some event ∧
      (waits.events event).setEventAt = .scanning ∧
      (waits.events event).registeredWaits =
        (library.events event).numbers := by
  obtain ⟨unclean, place, same⟩ := shown.setter locks
    (congrArg CallAt.eventHeld call) (by rw [call]; rfl)
  rw [call] at place
  exact ⟨unclean, place, same⟩

/-- The end of the loop in `SetEvent`, which unlocks the event at once. -/
theorem ShownBy.endScan (shown : library.ShownBy main waits)
    (valid : library.Valid) (call : library.calls thread = .setting event)
    (empty : (library.events event).registeredWaits = [])
    (state : (library.events event).autoReset = true →
      (library.events event).state = true) :
    ShownAfter main waits []
      ((library.putEvent event { library.events event with
        mutex := none
        registeredWaits := [] }).goTo thread (.notifying event)) := by
  have move : Move library (.proceed thread false) _ :=
    .endScan call empty state
  have before := shown.events event
  obtain ⟨unclean, scanning, same⟩ := shown.scanner valid.sound.locks call
  have none : (waits.events event).registeredWaits = [] := by
    rw [same, NeosmartEvent.numbers, empty]
    rfl
  have scan : waitsStep waits (.scan event) = some (waits.withEvent event
      { waits.events event with setEventAt := .leaving }) := by
    simp [waitsStep, Waits.scan, scanning, none]
  have leave : waitsStep (waits.withEvent event
      { waits.events event with setEventAt := .leaving }) (.leave event) =
        some _ :=
    if_pos (by simp [Waits.withEvent])
  refine ⟨_, (shows_of_step scan).trans (shows_of_step leave), ?_⟩
  refine shown.keep move ?_ (.of_eq rfl) rfl ⟨rfl, rfl, rfl, rfl⟩ ?_
  · simp [Alike, Action.thread, call, CallAt.waitAt, CallAt.wait?]
  apply shown.events_exact valid.sound.locks move event
  · simp [Action.thread, call, eq_comm]
  · simp [Action.thread]
  · intro other apart
    refine ⟨update_of_ne apart _ _, ?_⟩
    simp [Waits.withEvent, update_of_ne apart]
  · exact unclean
  · simp [Action.thread, CallAt.cleans]
  · simpa [Waits.withEvent] using before.state
  · simp [Waits.withEvent, setEventAt]
  · simpa [Waits.withEvent] using before.nodup
  · simpa [Waits.withEvent, NeosmartEvent.numbers] using none

theorem ShownBy.expire (shown : library.ShownBy main waits)
    (valid : library.Valid) (alone : library.Alone main) {info : WfmoInfo}
    {rest : List WfmoInfo} {wfmo : Wfmo Thread}
    (call : library.calls thread = .setting event)
    (front : (library.events event).registeredWaits = info :: rest)
    (found : library.wfmos info.waiter = some wfmo)
    (free : wfmo.mutex = none) (expired : wfmo.stillWaiting = false) :
    ShownAfter main waits []
      ((library.putEvent event { library.events event with
        registeredWaits := rest }).drop info.waiter wfmo) := by
  have move : Move library (.proceed thread false) _ :=
    .expire call front found free expired
  have before := shown.events event
  obtain ⟨unclean, scanning, same⟩ := shown.scanner valid.sound.locks call
  rw [NeosmartEvent.numbers, front, List.map_cons] at same
  have scan : waitsStep waits (.scan event) = some (waits.withEvent event
      { waits.events event with
        registeredWaits := rest.map fun info => info.waiter + 1 }) := by
    by_cases latest : info.waiter + 1 = waits.waiter
    · obtain ⟨unlocked, still⟩ := shown.unlocked valid alone found free latest
      simp only [expired, Bool.false_eq_true, imp_false,
        Bool.not_eq_true] at still
      simp [waitsStep, Waits.scan, scanning, same, latest, unlocked, still]
    · simp [waitsStep, Waits.scan, scanning, same, latest]
  refine ⟨_, shows_of_step scan, ?_⟩
  refine shown.keep move ⟨rfl, rfl⟩ (.drop found) rfl ⟨rfl, rfl, rfl, rfl⟩ ?_
  apply shown.events_exact valid.sound.locks move event
  · simp [Action.thread, call, eq_comm]
  · simp [Action.thread, call, eq_comm]
  · intro other apart
    exact ⟨update_of_ne apart _ _, update_of_ne apart _ _⟩
  · exact unclean
  · simp [Action.thread, call, CallAt.cleans]
  · simpa [Waits.withEvent] using before.state
  · simpa [Waits.withEvent, setEventAt] using before.place
  · have nodup := before.nodup
    rw [same] at nodup
    simpa [Waits.withEvent] using nodup.of_cons
  · simp [Waits.withEvent, NeosmartEvent.numbers]

omit [DecidableEq Event] [DecidableEq Thread] [Fintype Event]
  [Fintype Thread] in
/-- The waits know the latest waiter if they know the one of the wait. -/
theorem latest_of_own (wait : Wait Event) (wfmo : Wfmo Thread)
    {waitsNext : Waits Event}
    (waited : (next.calls main).wait? = some wait)
    (found : next.wfmos wait.wfmo = some wfmo)
    (known : waitsNext.stillWaiting = wfmo.stillWaiting ∧
      waitsNext.firedEvent = wait.firedEvent wfmo.status) :
    ∀ other left, (next.calls main).wait? = some other →
      next.wfmos other.wfmo = some left →
        waitsNext.stillWaiting = left.stillWaiting ∧
          waitsNext.firedEvent = other.firedEvent left.status := by
  intro other left waitedOther foundOther
  obtain rfl := Option.some.inj (waited.symm.trans waitedOther)
  obtain rfl := Option.some.inj (found.symm.trans foundOther)
  exact known

theorem ShownBy.fire (shown : library.ShownBy main waits)
    (valid : library.Valid) (alone : library.Alone main) {info : WfmoInfo}
    {rest : List WfmoInfo} {wfmo : Wfmo Thread}
    (call : library.calls thread = .setting event)
    (front : (library.events event).registeredWaits = info :: rest)
    (found : library.wfmos info.waiter = some wfmo)
    (free : wfmo.mutex = none) (still : wfmo.stillWaiting = true) :
    ShownAfter main waits [] (library.fire thread event info rest wfmo) := by
  have move : Move library (.proceed thread false) _ :=
    .fire call front found free still
  have before := shown.events event
  obtain ⟨owner, wait, waited, number⟩ :=
    valid.sound.refers.waited _ _ found still
  obtain ⟨rfl, any, -, latest⟩ := alone.waits owner wait waited
  rw [number, ← shown.waiter] at latest
  obtain ⟨unclean, scanning, same⟩ := shown.scanner valid.sound.locks call
  rw [NeosmartEvent.numbers, front, List.map_cons] at same
  have unlocked := (shown.unlocked valid alone found free latest).1
  have waiting : waits.stillWaiting = true := by
    rw [(shown.latest wait wfmo waited (number ▸ found)).1, still]
  have scan : waitsStep waits (.scan event) = some { waits.withEvent event
      ⟨false, rest.map fun info => info.waiter + 1, .leaving⟩ with
        stillWaiting := false
        firedEvent := some event } := by
    simp [waitsStep, Waits.scan, scanning, same, latest, unlocked, waiting]
  have alike : Alike (library.calls owner)
      ((library.fire thread event info rest wfmo).calls owner) := by
    apply alike_of_move move
    simp [Alike, Action.thread, Library.fire, call, CallAt.waitAt,
      CallAt.wait?]
  refine ⟨_, shows_of_step scan, shown.waiter, ?_, ?_, ?_, ?_⟩
  · exact shown.waitAt.trans alike.1.symm
  · apply shown.events_exact valid.sound.locks move event
    · simp [Action.thread, call, eq_comm]
    · simp [Action.thread, Library.fire, eq_comm]
    · intro other apart
      exact ⟨update_of_ne apart _ _, update_of_ne apart _ _⟩
    · exact unclean
    · simp [Action.thread, Library.fire, CallAt.cleans]
    · simp [Waits.withEvent, Library.fire, alone.auto event]
    · have noted := (valid.sound.locks.events event thread).mpr
        (congrArg CallAt.eventHeld call)
      simp only [comp_apply] at noted
      simp [Waits.withEvent, Library.fire, setEventAt, noted,
        CallAt.setEventAt]
    · have nodup := before.nodup
      rw [same] at nodup
      simpa [Waits.withEvent] using nodup.of_cons
    · simp [Waits.withEvent, Library.fire, NeosmartEvent.numbers]
  · have waitAll := valid.sound.refers.waitAll _ _ _ waited (number ▸ found)
    have named := valid.settled.listed event info (by simp [front])
      wait.events (.inl ⟨owner, wait, waited, number, rfl⟩)
    apply latest_of_own wait (wfmo.fired info.waitIndex)
    · exact alike.2.trans waited
    · simp [Library.fire, number]
    · simp [Wfmo.fired, waitAll, any, Wait.firedEvent, named]
  · exact fun _ => rfl

theorem ShownBy.signal (shown : library.ShownBy main waits)
    (valid : library.Valid) (alone : library.Alone main) {waiter : Nat}
    (call : library.calls thread = .signalling event waiter) :
    ShownAfter main waits [] (library.signal thread event waiter) := by
  have move : Move library (.proceed thread false) _ := .signal call
  have before := shown.events event
  have auto := alone.auto event
  obtain ⟨unclean, place, same⟩ := shown.setter valid.sound.locks
    (congrArg CallAt.eventHeld call) (by rw [call]; rfl)
  have leaving : (waits.events event).setEventAt = .leaving := by
    rw [place, call]
    rfl
  have stepTo : waitsStep waits (.leave event) = some _ := if_pos leaving
  refine ⟨_, shows_of_step stepTo, ?_⟩
  refine shown.keep move ?_ (.of_eq ?_) ?_ ⟨rfl, rfl, rfl, rfl⟩ ?_
  · simp [Alike, Action.thread, Library.signal, auto, call, CallAt.waitAt,
      CallAt.wait?]
  · simp [Library.signal, auto]
  · simp [Library.signal, auto]
  apply shown.events_exact valid.sound.locks move event
  · simp [Action.thread, call, eq_comm]
  · simp [Action.thread, Library.signal, auto]
  · intro other apart
    simp [Waits.withEvent, Library.signal, auto, update_of_ne apart]
  · exact unclean
  · simp [Action.thread, Library.signal, auto, CallAt.cleans]
  · simpa [Waits.withEvent, Library.signal, auto] using before.state
  · simp [Waits.withEvent, Library.signal, auto, setEventAt]
  · simpa [Waits.withEvent] using before.nodup
  · simpa [Waits.withEvent, Library.signal, auto, NeosmartEvent.numbers]
      using same

theorem ShownBy.begin (shown : library.ShownBy main waits)
    (valid : library.Valid) {later : List Event} {milliseconds : UInt64}
    (outside : library.calls main = .outside) :
    ShownAfter main waits []
      (((library.putWfmo library.created (some {
        mutex := some main
        refCount := 1
        status := -1
        waitAll := false
        stillWaiting := true })).goTo main (.registering
          ⟨library.created, event :: later, false, milliseconds,
            0⟩)).countCreated) := by
  have move : Move library
      (.waitForMultipleEvents main (event :: later) false milliseconds) _ :=
    .begin outside
  have waitAt : waits.waitAt = .outside := by
    rw [shown.waitAt, outside]
    rfl
  have stepTo : waitsStep waits (.waitFor event later) = some _ :=
    if_pos waitAt
  refine ⟨_, shows_of_step stepTo, ?_, ?_, ?_, ?_, ?_⟩
  · simp [shown.waiter]
  · simp [CallAt.waitAt]
  · intro other
    have before := shown.events other
    have unclean : (library.calls main).cleans ≠ some other := by
      simp [outside, CallAt.cleans]
    refine .exact before.state ?_ before.nodup (before.same unclean) ?_
    · rw [before.place]
      exact (setEventAt_frame valid.sound.locks move
        (by simp [Action.thread, outside]) rfl).symm
    · simp [CallAt.cleans]
  · exact latest_of_own
      ⟨library.created, event :: later, false, milliseconds, 0⟩
      ⟨some main, 1, -1, false, true⟩ (by simp [CallAt.wait?]) (by simp)
      ⟨rfl, rfl⟩
  · simp [CallAt.wait?]

omit [DecidableEq Event] [DecidableEq Thread] [Fintype Event]
  [Fintype Thread] in
/-- What is left of a list without repetitions is what lies in the rest. -/
theorem filter_mem_of_sublist {rest all : List Nat}
    (kept : rest.Sublist all) (nodup : all.Nodup) :
    (all.filter fun number => number ∈ rest) = rest := by
  have within : rest.Sublist (all.filter fun number => number ∈ rest) := by
    have filtered := kept.filter fun number => decide (number ∈ rest)
    rwa [List.filter_eq_self.mpr (by simp)] at filtered
  have subset : (all.filter fun number => number ∈ rest) ⊆ rest := by
    intro number member
    simpa using (List.mem_filter.mp member).2
  have atMost := ((nodup.filter _).subperm subset).length_le
  exact (within.eq_of_length_le atMost).symm

omit [DecidableEq Thread] in
/-- The end of a clean-up, whose effect the waits see now. -/
theorem ShownBy.cleaned_eq (shown : library.ShownBy main waits)
    (valid : library.Valid) {position : Nat}
    (call : library.calls main = .cleaning wait event position) :
    waits.waitAt = .registering event (wait.events.drop (wait.i + 1)) ∧
      (waits.events event).setEventAt = .nowhere ∧
      (waits.cleaned event fun number =>
        number ∈ (library.events event).numbers) =
          (library.events event).numbers ∧
      waits.waiter ∉ (library.events event).numbers := by
  have known := shown.events event
  have fresh := known.fresh (by simp [call, CallAt.cleans])
  have noted : (library.events event).mutex = some main :=
    (valid.sound.locks.events event main).mpr
      (congrArg CallAt.eventHeld call)
  refine ⟨?_, ?_, ?_, ?_⟩
  · rw [shown.waitAt, call]
    rfl
  · rw [known.place, setEventAt, noted]
    simp [call, CallAt.setEventAt]
  · refine Eq.trans (List.filter_congr ?_)
      (filter_mem_of_sublist known.kept known.nodup)
    intro number member
    have apart : number ≠ waits.waiter := by
      rintro rfl
      exact fresh member
    simp [apart]
  · exact fun member => fresh (known.kept.subset member)

theorem ShownBy.findAny (shown : library.ShownBy main waits)
    (valid : library.Valid) (alone : library.Alone main) {position : Nat}
    {wfmo : Wfmo Thread}
    (call : library.calls main = .cleaning wait event position)
    (last : (library.events event).registeredWaits.length ≤ position)
    (found : library.wfmos wait.wfmo = some wfmo)
    (state : (library.events event).state = true)
    (any : wait.waitAll = false) :
    ShownAfter main waits []
      (((((library.putEvent event { (library.events event).taken with
        mutex := none }).putWfmo wait.wfmo
          (some (wfmo.found wait.i))).goTo main
            (.leaving wait false)).acquire event
              (some ⟨wait.wfmo, wait.i⟩)).assert
        (wfmo.found wait.i).countsDown) := by
  have move : Move library (.proceed main false) _ :=
    .findAny call last found state any
  have known := shown.events event
  have waited := congrArg CallAt.wait? call
  have waitAll := valid.sound.refers.waitAll _ _ _ waited found
  have listed := (valid.settled.stands _ _ _ waited found).looks _ _ call
  have within := (List.getElem?_eq_some_iff.mp listed).1
  have nodup := known.kept.nodup known.nodup
  obtain ⟨waitAt, place, cleaned, -⟩ := shown.cleaned_eq valid call
  have stepTo : waitsStep waits (.register fun number =>
      number ∈ (library.events event).numbers) =
        some { waits.withEvent event { waits.events event with
            state := false
            registeredWaits := (library.events event).numbers } with
          firedEvent := some event
          waitAt := .finishing } := by
    simp [waitsStep, Waits.register, waitAt, place, known.state, state,
      cleaned]
  refine ⟨_, shows_of_step stepTo, shown.waiter, ?_, ?_, ?_, ?_⟩
  · simp [CallAt.waitAt, within]
  · apply shown.events_put valid.sound.locks move event
    · simp [Action.thread, call, eq_comm]
    · simp [Action.thread]
    · intro other apart
      exact ⟨update_of_ne apart _ _, update_of_ne apart _ _⟩
    · refine .exact ?_ ?_ ?_ ?_ (by simp [CallAt.cleans])
      · simp [Waits.withEvent, alone.auto event]
      · simpa [Waits.withEvent, setEventAt] using place
      · simpa [Waits.withEvent] using nodup
      · simp [Waits.withEvent, NeosmartEvent.numbers]
  · have still := (shown.latest wait wfmo waited found).1
    apply latest_of_own wait (wfmo.found wait.i)
    · simp [CallAt.wait?]
    · simp
    · simp [Wfmo.found, waitAll, any, Wait.firedEvent, listed, still]
  · simp [CallAt.wait?]

theorem ShownBy.register (shown : library.ShownBy main waits)
    (valid : library.Valid) (alone : library.Alone main) {position : Nat}
    {wfmo : Wfmo Thread}
    (call : library.calls main = .cleaning wait event position)
    (last : (library.events event).registeredWaits.length ≤ position)
    (found : library.wfmos wait.wfmo = some wfmo)
    (reset : (library.events event).state = false) :
    ShownAfter main waits []
      (((library.putEvent event { library.events event with
        mutex := none
        registeredWaits := (library.events event).registeredWaits ++
          [⟨wait.wfmo, wait.i⟩] }).putWfmo wait.wfmo (some { wfmo with
            refCount := wfmo.refCount + 1 })).goTo main
              (.registering { wait with i := wait.i + 1 })) := by
  have move : Move library (.proceed main false) _ :=
    .register call last found reset
  have known := shown.events event
  have waited := congrArg CallAt.wait? call
  obtain ⟨-, -, -, latest⟩ := alone.waits main wait waited
  rw [← shown.waiter] at latest
  have nodup := known.kept.nodup known.nodup
  obtain ⟨waitAt, place, cleaned, fresh⟩ := shown.cleaned_eq valid call
  have stepTo : waitsStep waits (.register fun number =>
      number ∈ (library.events event).numbers) =
        some { waits.withEvent event { waits.events event with
            registeredWaits :=
              (library.events event).numbers ++ [waits.waiter] } with
          waitAt := CallAt.waitAt
            (.registering { wait with i := wait.i + 1 }) } := by
    cases later : wait.events.drop (wait.i + 1) <;>
      simp [waitsStep, Waits.register, waitAt, place, known.state, reset,
        cleaned, CallAt.waitAt, later]
  refine ⟨_, shows_of_step stepTo, shown.waiter, ?_, ?_, ?_, ?_⟩
  · simp
  · apply shown.events_put valid.sound.locks move event
    · simp [Action.thread, call, eq_comm]
    · simp [Action.thread]
    · intro other apart
      exact ⟨update_of_ne apart _ _, update_of_ne apart _ _⟩
    · refine .exact ?_ ?_ ?_ ?_ (by simp [CallAt.cleans])
      · simpa [Waits.withEvent] using known.state
      · simpa [Waits.withEvent, setEventAt] using place
      · simpa [Waits.withEvent, List.nodup_append] using
          ⟨nodup, fun number member same => fresh (same ▸ member)⟩
      · simp [Waits.withEvent, NeosmartEvent.numbers, latest]
  · exact latest_of_own { wait with i := wait.i + 1 }
      { wfmo with refCount := wfmo.refCount + 1 } (by simp [CallAt.wait?])
      (by simp) (shown.latest wait wfmo waited found)
  · simp [CallAt.wait?]

omit [DecidableEq Thread] [Fintype Event] [Fintype Thread] in
/-- A call that leaves has been timed out, or an event was fired or found. -/
theorem ShownBy.returns (shown : library.ShownBy main waits)
    {timedOut : Bool} (call : library.calls main = .leaving wait timedOut)
    (taken : timedOut = false → waits.firedEvent.isSome = true) :
    Shows waitsStep observeWaits waits []
      { waits with waitAt := .returned timedOut, stillWaiting := false } := by
  have waitAt := shown.waitAt
  rw [call, CallAt.waitAt] at waitAt
  split_ifs at waitAt with finishes
  · have finish : waitsStep waits .finish = some _ := if_pos waitAt
    rw [finishes.1]
    exact shows_of_step finish
  · have wake : waitsStep waits (.wake timedOut) = some
        { waits with waitAt := .returned timedOut, stillWaiting := false } := by
      cases timedOut with
      | true => simp [waitsStep, Waits.wake, waitAt]
      | false => simp [waitsStep, Waits.wake, waitAt, taken rfl]
    exact shows_of_step wake

theorem ShownBy.leave (shown : library.ShownBy main waits)
    (valid : library.Valid) (alone : library.Alone main) {timedOut : Bool}
    {wfmo : Wfmo Thread} (call : library.calls main = .leaving wait timedOut)
    (found : library.wfmos wait.wfmo = some wfmo)
    (after : (((library.drop wait.wfmo { wfmo with
      stillWaiting := false }).goTo main .outside).giveBack
        ⟨wait, timedOut, wfmo.status⟩).Valid) :
    ShownAfter main waits [.result (wait.taken timedOut wfmo.status)]
      (((library.drop wait.wfmo { wfmo with
        stillWaiting := false }).goTo main .outside).giveBack
          ⟨wait, timedOut, wfmo.status⟩) := by
  have move : Move library (.proceed main false) _ := .leave call found
  have waited := congrArg CallAt.wait? call
  have fired := (shown.latest wait wfmo waited found).2
  obtain ⟨-, any, -, -⟩ := alone.waits main wait waited
  have outcome := (after.settled.outcome (List.mem_cons_self ..)).any any
  have taken : timedOut = false →
      waits.firedEvent = wait.taken timedOut wfmo.status ∧
        waits.firedEvent.isSome = true := by
    intro inTime
    obtain ⟨i, within, index⟩ := outcome.2 inTime
    have index : wfmo.status = i := index
    simp [fired, Wait.firedEvent, Wait.taken, inTime, index, within]
  have returned := shown.returns call fun inTime => (taken inTime).2
  have take : waitsStep
      { waits with waitAt := .returned timedOut, stillWaiting := false }
        .take = some _ := rfl
  have result : Waits.taken
      { waits with waitAt := .returned timedOut, stillWaiting := false } =
        wait.taken timedOut wfmo.status := by
    cases inTime : timedOut with
    | true => simp [Waits.taken, Wait.taken]
    | false =>
        rw [Waits.taken, if_pos rfl, ← inTime]
        exact (taken inTime).1
  have shows := returned.trans (shows_of_step take)
  rw [observeWaits, result] at shows
  refine ⟨_, shows, shown.waiter, ?_, ?_, ?_, fun _ => rfl⟩
  · simp [CallAt.waitAt]
  · intro event
    exact shown.frame valid.sound.locks move (by simp [Action.thread, call])
      (by simp [Action.thread]) rfl
  · simp [CallAt.wait?]

omit [Fintype Event] [Fintype Thread] [DecidableEq Event]
  [DecidableEq Thread] in
theorem observe_of_call {busy : Bool} {call : CallAt Event}
    (here : library.calls thread = call) (stays : call.leaves = false) :
    library.observe (.proceed thread busy) = [] := by
  cases call <;> simp_all [observe]

/-- The steps within a wait. -/
theorem ShownBy.within (shown : library.ShownBy main waits)
    (valid : library.Valid) (move : Move library action next)
    {call after : CallAt Event}
    (before : library.calls action.thread = call)
    (calls : next.calls = update library.calls action.thread after)
    (alike : Alike call after) (events : next.events = library.events)
    (created : next.created = library.created)
    (wfmos : library.SameWaiters next)
    (views : after.eventHeld = call.eventHeld ∧
      after.setEventAt = call.setEventAt ∧ after.cleans = call.cleans) :
    next.ShownBy main waits := by
  obtain ⟨held, place, cleans⟩ := views
  apply shown.quiet valid.sound.locks move _ wfmos created events
  · simpa [calls, before] using held
  · simpa [calls, before] using place
  · simpa [calls, before] using cleans
  · simpa [calls, before] using alike

omit [Fintype Event] [Fintype Thread] [DecidableEq Event]
  [DecidableEq Thread] in
theorem alike_of_looked (last : wait.events.length ≤ wait.i) :
    (∀ timedOut, Alike (.registering wait) (.leaving wait timedOut)) ∧
      Alike (.registering wait) (.waiting wait) := by
  have none : wait.events.drop wait.i = [] := List.drop_eq_nil_of_le last
  simp [Alike, CallAt.waitAt, CallAt.wait?, none, last]

/-- A valid state with the waits as the waiting thread sees it. -/
structure Projected (main : Thread) (library : Library Thread Event)
    (waits : Waits Event) : Prop where
  valid : library.Valid
  alone : library.Alone main
  shown : library.ShownBy main waits

theorem Projected.shownAfter (projected : library.Projected main waits)
    (waitsAlone : action.waitsAlone main)
    (stepTo : libraryStep library action = some next) :
    ShownAfter main waits (library.observe action) next := by
  obtain ⟨valid, alone, shown⟩ := projected
  have after := valid.step stepTo
  have move := move_of_step stepTo
  have same := move
  have awake := alone.awake
  have own : ∀ thread wait, (library.calls thread).wait? = some wait →
      thread = main ∧ wait.waitAll = false := fun thread wait waited =>
    ⟨(alone.waits thread wait waited).1, (alone.waits thread wait waited).2.1⟩
  cases move with
  | setEvent outside free => exact shown.setEvent valid outside free
  | resetEvent | stay | take | sleep => exact waitsAlone.elim
  | @begin thread events waitAll milliseconds outside =>
      obtain ⟨rfl, rfl, nonempty, -⟩ := waitsAlone
      obtain ⟨event, later, rfl⟩ := List.exists_cons_of_ne_nil nonempty
      exact shown.begin valid outside
  | accessFreed gone refers =>
      obtain ⟨wfmo, found⟩ := valid.sound.refers.wfmo_of_refersTo refers
      rw [gone] at found
      cases found
  | endScan call empty state =>
      rw [observe_of_call call rfl]
      exact shown.endScan valid call empty state
  | keepMutex call empty auto reset =>
      have set := valid.sound.locks.sets _ _ (.inl call)
      rw [reset] at set
      cases set
  | fire call front found free still =>
      rw [observe_of_call call rfl]
      exact shown.fire valid alone call front found free still
  | expire call front found free expired =>
      rw [observe_of_call call rfl]
      exact shown.expire valid alone call front found free expired
  | signal call =>
      rw [observe_of_call call rfl]
      exact shown.signal valid alone call
  | @notifyOne _ _ sleeper _ call auto sleeps =>
      have awake := awake sleeper
      simp [sleeps, CallAt.sleeps] at awake
  | @notifyNone thread event call =>
      exact ⟨waits, .refl waits, shown.within valid same call rfl
        ⟨rfl, rfl⟩ rfl rfl (.of_eq rfl) ⟨rfl, rfl, rfl⟩⟩
  | @notifyAll thread event chosen call manual =>
      rw [alone.auto event] at manual
      cases manual
  | lock call listed free =>
      obtain ⟨rfl, -⟩ := own _ _ (congrArg CallAt.wait? call)
      rw [observe_of_call call rfl]
      exact ⟨waits, .refl waits, shown.lock valid alone call listed free⟩
  | giveUp call last now =>
      rw [observe_of_call call rfl]
      exact ⟨waits, .refl waits, shown.within valid same call rfl
        ((alike_of_looked last).1 _) rfl rfl (.of_eq rfl) ⟨rfl, rfl, rfl⟩⟩
  | finish call last found done =>
      rw [observe_of_call call rfl]
      exact ⟨waits, .refl waits, shown.within valid same call rfl
        ((alike_of_looked last).1 _) rfl rfl (.of_eq rfl) ⟨rfl, rfl, rfl⟩⟩
  | wait call last found undone =>
      rw [observe_of_call call rfl]
      exact ⟨waits, .refl waits, shown.within valid same call rfl
        (alike_of_looked last).2 rfl rfl (.mutex found none) ⟨rfl, rfl, rfl⟩⟩
  | keep call entry found kept =>
      rw [observe_of_call call rfl]
      exact ⟨waits, .refl waits, shown.within valid same call rfl
        ⟨rfl, rfl⟩ rfl rfl (.of_eq rfl) ⟨rfl, rfl, rfl⟩⟩
  | remove call entry found free expired =>
      rw [observe_of_call call rfl]
      exact ⟨waits, .refl waits,
        shown.remove valid alone call entry found free expired⟩
  | findAll call last found state all =>
      obtain ⟨-, any⟩ := own _ _ (congrArg CallAt.wait? call)
      rw [any] at all
      cases all
  | findAny call last found state any =>
      obtain ⟨rfl, -⟩ := own _ _ (congrArg CallAt.wait? call)
      rw [observe_of_call call rfl]
      exact shown.findAny valid alone call last found state any
  | register call last found reset =>
      obtain ⟨rfl, -⟩ := own _ _ (congrArg CallAt.wait? call)
      rw [observe_of_call call rfl]
      exact shown.register valid alone call last found reset
  | wakeWaiter call ends =>
      exact ⟨waits, .refl waits, shown.within valid same call rfl
        ⟨rfl, rfl⟩ rfl rfl (.of_eq rfl) ⟨rfl, rfl, rfl⟩⟩
  | @relock thread _ wait timedOut wfmo call found free due =>
      have waited := congrArg CallAt.wait? call
      have stands := valid.settled.stands _ _ _ waited found
      have looked := stands.looked (by rw [call]; rfl)
      rw [observe_of_call call rfl]
      exact ⟨waits, .refl waits, shown.within valid same call rfl
        (by simp [Alike, CallAt.waitAt, CallAt.wait?, looked]) rfl rfl
        (.mutex found (some thread)) ⟨rfl, rfl, rfl⟩⟩
  | waitAgain call found undone =>
      rw [observe_of_call call rfl]
      exact ⟨waits, .refl waits, shown.within valid same call rfl
        ⟨rfl, rfl⟩ rfl rfl (.of_eq rfl) ⟨rfl, rfl, rfl⟩⟩
  | leave call found =>
      obtain ⟨rfl, -⟩ := own _ _ (congrArg CallAt.wait? call)
      have result := shown.leave valid alone call found after
      simpa [observe, call, found] using result
  | @wakeSleeper thread _ _ _ call | @riseLate thread _ _ _ call
  | @riseTake thread _ _ _ call | @sleepAgain thread _ _ _ call =>
      have awake := awake thread
      simp [call, CallAt.sleeps] at awake

theorem Projected.step (projected : library.Projected main waits)
    (waitsAlone : action.waitsAlone main)
    (stepTo : libraryStep library action = some next) :
    ∃ waitsNext, Shows waitsStep observeWaits waits (library.observe action)
      waitsNext ∧ next.Projected main waitsNext := by
  obtain ⟨waitsNext, shows, shown⟩ := projected.shownAfter waitsAlone stepTo
  exact ⟨waitsNext, shows, projected.valid.step stepTo,
    projected.alone.step waitsAlone (move_of_step stepTo), shown⟩

omit [DecidableEq Thread] in
theorem start_projected (main : Thread) :
    (start (fun _ => false) fun _ => false :
      Library Thread Event).Projected main Waits.start := by
  refine ⟨start_valid _ _, ⟨by simp [start, CallAt.wait?],
    by simp [start, CallAt.sleeps], by simp [start]⟩, rfl, rfl, ?_, ?_, ?_⟩
  · intro event
    exact .exact rfl rfl List.nodup_nil rfl (by simp [start, CallAt.cleans])
  · simp [start, CallAt.wait?]
  · exact fun _ => rfl

end Steps

end Library

/-- One thread that waits for any of several auto-reset events sees the event
library as the model of its waits: whatever the other threads do to the events,
some run of the model shows the same calls of `SetEvent` and the same results
of the waits, in the same order, and leaves the same events set. -/
theorem library_refines_waits [DecidableEq Event] [DecidableEq Thread]
    [Fintype Thread] [Fintype Event] (main : Thread)
    (actions : List (Action Thread Event)) (last : Library Thread Event)
    (alone : MeetsAlong libraryStep (fun _ action => action.waitsAlone main)
      (.start (fun _ => false) fun _ => false) actions)
    (executed : execute libraryStep
      (.start (fun _ => false) fun _ => false) actions = some last) :
    ∃ waits, Shows waitsStep observeWaits Waits.start
        (trace libraryStep Library.observe
          (.start (fun _ => false) fun _ => false) actions) waits ∧
      ∀ event, (waits.events event).state = (last.events event).state := by
  obtain ⟨waits, shows, projected⟩ := shows_of_simulates
    (fun _ _ _ _ projected waitsAlone stepTo =>
      Library.Projected.step projected waitsAlone stepTo)
    (Library.start_projected main) alone executed
  exact ⟨waits, shows, fun event => (projected.shown.events event).state⟩

/-- The first of two events is set while the thread waits for them, and a second
wait is timed out. -/
theorem library_refines_waits_of_set :
    ∃ waits : Waits Bool, Shows waitsStep observeWaits .start
      [.set true, .result (some true), .result none] waits ∧
        (waits.events true).state = false := by
  have refined := library_refines_waits false
    [.waitForMultipleEvents false [true, false] false 5000,
      .proceed false false, .proceed false false, .proceed false false,
      .proceed false false, .proceed false false, .setEvent true true,
      .proceed true false, .proceed true false, .proceed false false,
      .proceed false false, .waitForMultipleEvents false [true, false] false 0,
      .proceed false false, .proceed false false, .proceed false false,
      .proceed false false, .proceed false false, .proceed false false,
      .proceed false false]
    _ (by decide) rfl
  obtain ⟨waits, shows, states⟩ := refined
  exact ⟨waits, shows, states true⟩

end Neosmart
