import ArstQuote.GuardedRuns
import ArstQuote.Heartbeat
import Mathlib.Data.List.Induction

/-!
# The callbacks of a heartbeat

A sequence of wait results drives the loop of `ARSTHeartbeat::Run`, and the
idle time it keeps is five seconds for each timeout since the last reply.  So
the callbacks can be read off the results: the loss is declared by the first
timeout that takes the idle time past the interval and the grace, and it is
never the first that its owner hears.
-/

namespace ArstQuote

open GuardedRuns

/-- The wait came back with a timeout or with the reply event, the two results
after which the loop may go on. -/
def WaitResult.Continues (result : WaitResult) : Prop :=
  result = .timeout ∨ result = .triggered 0
  deriving Decidable

/-- How many timeouts in a row the results end with. -/
def timeoutsInRow (results : List WaitResult) : Nat :=
  (results.reverse.takeWhile (· = .timeout)).length

namespace Heartbeat

/-- The callback of each wait the loop makes, for as long as it goes on. -/
def run (heartbeat : Heartbeat) :
    List WaitResult → List (Option HeartbeatCallback)
  | [] => []
  | result :: results =>
      match heartbeat.pass result with
      | .waits next callback => callback :: next.run results
      | .ends callback => [some callback]

/-- The object in its next wait, if the pass leads to one. -/
def next (heartbeat : Heartbeat) (result : WaitResult) : Option Heartbeat :=
  match heartbeat.pass result with
  | .waits next _ => some next
  | .ends _ => none

end Heartbeat

/-- The callback of a pass, if it makes one. -/
def HeartbeatPass.callback : HeartbeatPass → Option HeartbeatCallback
  | .waits _ callback => callback
  | .ends callback => some callback

/-- After these results the loop with the given interval is still running. -/
structure StillWaits (interval : Int) (results : List WaitResult) : Prop where
  continues : ∀ result ∈ results, result.Continues
  within : ∀ count ≤ results.length,
    5 * (timeoutsInRow (results.take count) : Int) ≤ interval + 10

@[simp]
theorem timeoutsInRow_nil : timeoutsInRow [] = 0 :=
  rfl

@[simp]
theorem timeoutsInRow_timeout (results : List WaitResult) :
    timeoutsInRow (results ++ [.timeout]) = timeoutsInRow results + 1 := by
  simp [timeoutsInRow]

theorem timeoutsInRow_of_ne (results : List WaitResult) {last : WaitResult}
    (other : last ≠ .timeout) : timeoutsInRow (results ++ [last]) = 0 := by
  simp [timeoutsInRow, other]

theorem take_succ_of_getElem? {results : List WaitResult} {position : Nat}
    {result : WaitResult} (found : results[position]? = some result) :
    results.take (position + 1) = results.take position ++ [result] := by
  rw [List.take_add_one, found, Option.toList_some]

/-- Results that end with a timeout end with one more than those before it. -/
theorem exists_timeout_of_pos {results : List WaitResult} {count : Nat}
    (within : count ≤ results.length)
    (positive : 0 < timeoutsInRow (results.take count)) :
    ∃ position, count = position + 1 ∧
      results[position]? = some .timeout ∧
      timeoutsInRow (results.take count) =
        timeoutsInRow (results.take position) + 1 := by
  cases count with
  | zero => simp at positive
  | succ position =>
      have found := List.getElem?_eq_getElem (show position < _ from within)
      rw [take_succ_of_getElem? found] at positive ⊢
      by_cases timeout : results[position] = .timeout
      · rw [timeout] at found ⊢
        exact ⟨position, rfl, found, timeoutsInRow_timeout _⟩
      · rw [timeoutsInRow_of_ne _ timeout] at positive
        cases positive

theorem StillWaits.take {interval : Int} {results : List WaitResult}
    (still : StillWaits interval results) (count : Nat) :
    StillWaits interval (results.take count) where
  continues result member := still.continues result (List.mem_of_mem_take member)
  within shorter bound := by
    rw [List.take_take, Nat.min_eq_left (by simp at bound; omega)]
    apply still.within
    simp at bound
    omega

theorem stillWaits_nil {interval : Int} (nonneg : 0 ≤ interval) :
    StillWaits interval [] := by
  constructor
  · intro result member
    cases member
  · intro count _
    simp only [List.take_nil, timeoutsInRow_nil]
    omega

theorem stillWaits_snoc {interval : Int} {results : List WaitResult}
    {last : WaitResult} :
    StillWaits interval (results ++ [last]) ↔
      StillWaits interval results ∧ last.Continues ∧
        5 * (timeoutsInRow (results ++ [last]) : Int) ≤ interval + 10 := by
  constructor
  · intro still
    refine ⟨⟨?_, ?_⟩, still.continues last (by simp), ?_⟩
    · intro result member
      exact still.continues result (List.mem_append_left _ member)
    · intro count bound
      have within := still.within count (by simp; omega)
      rwa [List.take_append_of_le_length bound] at within
    · have within := still.within (results ++ [last]).length le_rfl
      rwa [List.take_length] at within
  · rintro ⟨still, continues, within⟩
    constructor
    · intro result member
      rcases List.mem_append.mp member with old | new
      · exact still.continues result old
      · exact List.mem_singleton.mp new ▸ continues
    · intro count bound
      rcases Nat.lt_or_ge results.length count with past | before
      · rwa [List.take_of_length_le (by simp; omega)]
      · rw [List.take_append_of_le_length before]
        exact still.within count before

namespace Heartbeat

section Timeouts

variable {interval idle : Int}

theorem pass_timeout_quiet (early : idle + 5 < interval) :
    pass ⟨interval, idle⟩ .timeout = .waits ⟨interval, idle + 5⟩ none := by
  simp [pass, idleIncrement, early]

theorem pass_timeout_probes (late : interval ≤ idle + 5)
    (within : idle + 5 ≤ interval + 10) :
    pass ⟨interval, idle⟩ .timeout =
      .waits ⟨interval, idle + 5⟩ (some .onHeartbeatRequest) := by
  simp [pass, idleIncrement, extraGrace, Int.not_lt.mpr late, within]

theorem pass_timeout_loses (past : interval + 10 < idle + 5) :
    pass ⟨interval, idle⟩ .timeout = .ends .onHeartbeatLost := by
  have late : ¬ idle + 5 < interval := by omega
  simp [pass, idleIncrement, extraGrace, late, Int.not_le.mpr past]

theorem next_timeout_eq_some {heartbeat : Heartbeat} :
    next ⟨interval, idle⟩ .timeout = some heartbeat ↔
      idle + 5 ≤ interval + 10 ∧ heartbeat = ⟨interval, idle + 5⟩ := by
  rcases Int.lt_or_le (idle + 5) interval with early | late
  · have within : idle + 5 ≤ interval + 10 := by omega
    simp [next, pass_timeout_quiet early, within, eq_comm]
  · rcases Int.lt_or_le (interval + 10) (idle + 5) with past | within
    · simp [next, pass_timeout_loses past, Int.not_le.mpr past]
    · simp [next, pass_timeout_probes late within, within, eq_comm]

end Timeouts

/-- One more wait result, when the idle time is that of the results so far. -/
theorem next_eq_some {interval : Int} (nonneg : 0 ≤ interval)
    {results : List WaitResult} {last : WaitResult} {heartbeat : Heartbeat} :
    next ⟨interval, 5 * timeoutsInRow results⟩ last = some heartbeat ↔
      last.Continues ∧
        5 * (timeoutsInRow (results ++ [last]) : Int) ≤ interval + 10 ∧
        heartbeat = ⟨interval, 5 * timeoutsInRow (results ++ [last])⟩ := by
  cases last with
  | error => simp [next, pass, WaitResult.Continues]
  | timeout =>
      have more : (5 : Int) * (timeoutsInRow results + 1 : Nat) =
          5 * timeoutsInRow results + 5 := by
        omega
      rw [next_timeout_eq_some, timeoutsInRow_timeout, more]
      simp [WaitResult.Continues]
  | triggered nIndex =>
      rw [timeoutsInRow_of_ne results (by simp)]
      by_cases reply : nIndex = 0
      · have within : (0 : Int) ≤ interval + 10 := by omega
        simp [next, pass, WaitResult.Continues, reply, within, eq_comm]
      · by_cases terminate : nIndex = 1 <;>
          simp [next, pass, WaitResult.Continues, reply, terminate]

/-- While the loop runs, the idle time is five seconds for each timeout since
the start or the last reply. -/
theorem execute_next_iff {interval : Int} (nonneg : 0 ≤ interval)
    (results : List WaitResult) (heartbeat : Heartbeat) :
    execute next (create interval) results = some heartbeat ↔
      StillWaits interval results ∧
        heartbeat = ⟨interval, 5 * timeoutsInRow results⟩ := by
  induction results using List.reverseRecOn generalizing heartbeat with
  | nil =>
      simp [execute, create, stillWaits_nil nonneg, eq_comm]
  | append_singleton results last ih =>
      rw [execute_snoc, stillWaits_snoc, Option.bind_eq_some_iff]
      simp only [ih]
      constructor
      · rintro ⟨before, ⟨still, rfl⟩, stepTo⟩
        obtain ⟨continues, within, rfl⟩ := (next_eq_some nonneg).mp stepTo
        exact ⟨⟨still, continues, within⟩, rfl⟩
      · rintro ⟨⟨still, continues, within⟩, rfl⟩
        exact ⟨_, ⟨still, rfl⟩,
          (next_eq_some nonneg).mpr ⟨continues, within, rfl⟩⟩

/-- The loop makes the wait at a position if it still runs there, and its
callback is that of the pass the result leads to. -/
theorem run_getElem? (heartbeat : Heartbeat) (results : List WaitResult)
    (position : Nat) :
    (heartbeat.run results)[position]? =
      (execute next heartbeat (results.take position)).bind fun waiting =>
        results[position]?.map fun result =>
          (waiting.pass result).callback := by
  induction position generalizing heartbeat results with
  | zero =>
      cases results with
      | nil => rfl
      | cons result results =>
          simp only [run, List.take_zero, execute, Option.bind_some,
            List.getElem?_cons_zero, Option.map_some]
          cases heartbeat.pass result <;> rfl
  | succ position ih =>
      cases results with
      | nil =>
          cases execute next heartbeat [] <;> rfl
      | cons result results =>
          simp only [run, List.take_succ_cons, execute, next,
            List.getElem?_cons_succ]
          cases passed : heartbeat.pass result with
          | waits waiting callback => simp [ih]
          | ends callback => simp

/-- A pass that leads to the next wait calls nothing but
`OnHeartbeatRequest`. -/
theorem callback_of_waits {heartbeat waiting : Heartbeat}
    {result : WaitResult} {callback : Option HeartbeatCallback}
    (waits : heartbeat.pass result = .waits waiting callback) :
    callback = none ∨ callback = some .onHeartbeatRequest := by
  cases result <;> simp only [pass, reduceCtorEq] at waits
  all_goals grind

/-- The loop ends with a callback other than `OnHeartbeatRequest`. -/
theorem run_length_of_last {heartbeat : Heartbeat} {results : List WaitResult}
    {position : Nat} {callback : HeartbeatCallback}
    (called : (heartbeat.run results)[position]? = some (some callback))
    (other : callback ≠ .onHeartbeatRequest) :
    (heartbeat.run results).length = position + 1 := by
  induction results generalizing heartbeat position with
  | nil => simp [run] at called
  | cons result results ih =>
      cases passed : heartbeat.pass result with
      | ends last =>
          simp only [run, passed] at called ⊢
          cases position with
          | zero => rfl
          | succ position => simp at called
      | waits waiting made =>
          simp only [run, passed] at called ⊢
          cases position with
          | zero =>
              rcases callback_of_waits passed with rfl | rfl
              · simp at called
              · simp [eq_comm, other] at called
          | succ position =>
              rw [List.getElem?_cons_succ] at called
              simp [ih called]

end Heartbeat

/-- The loop still runs at the wait at this position, and its timeout is the
first that takes the idle time past the interval and the grace. -/
structure DeclaresLoss (interval : Int) (results : List WaitResult)
    (position : Nat) : Prop where
  reached : position < results.length
  waits : StillWaits interval (results.take position)
  past : interval + 10 < 5 * timeoutsInRow (results.take (position + 1))

/-- The loss is declared at the right timeout, after at least two requests
among the timeouts that lead to it, and nothing follows the last callback. -/
structure ProbesBeforeLoss (interval : Int) (results : List WaitResult)
    (callbacks : List (Option HeartbeatCallback)) : Prop where
  lost : ∀ position,
    callbacks[position]? = some (some .onHeartbeatLost) ↔
      DeclaresLoss interval results position
  probed : ∀ position,
    callbacks[position]? = some (some .onHeartbeatLost) →
      ∃ first second, first < second ∧ second < position ∧
        position + 1 ≤ first + timeoutsInRow (results.take (position + 1)) ∧
        callbacks[first]? = some (some .onHeartbeatRequest) ∧
        callbacks[second]? = some (some .onHeartbeatRequest)
  last : ∀ position callback,
    callbacks[position]? = some (some callback) →
      callback ≠ .onHeartbeatRequest → callbacks.length = position + 1

namespace Heartbeat

theorem callback_eq_lost_iff {heartbeat : Heartbeat} {result : WaitResult} :
    (heartbeat.pass result).callback = some .onHeartbeatLost ↔
      result = .timeout ∧ heartbeat.Expiring := by
  rw [← pass_lost_iff]
  cases passed : heartbeat.pass result with
  | ends callback => simp [HeartbeatPass.callback]
  | waits waiting callback =>
      rcases callback_of_waits passed with rfl | rfl <;>
        simp [HeartbeatPass.callback]

/-- What the loop does at a position depends on the results before it only
through the number of timeouts they end with. -/
theorem run_getElem?_eq_some {interval : Int} (nonneg : 0 ≤ interval)
    {results : List WaitResult} {position : Nat}
    {callback : Option HeartbeatCallback} :
    ((create interval).run results)[position]? = some callback ↔
      StillWaits interval (results.take position) ∧
        ∃ result, results[position]? = some result ∧
          (pass ⟨interval, 5 * timeoutsInRow (results.take position)⟩
            result).callback = callback := by
  rw [run_getElem?, Option.bind_eq_some_iff]
  simp only [execute_next_iff nonneg, Option.map_eq_some_iff]
  constructor
  · rintro ⟨waiting, ⟨still, rfl⟩, made⟩
    exact ⟨still, made⟩
  · rintro ⟨still, made⟩
    exact ⟨_, ⟨still, rfl⟩, made⟩

theorem run_lost_iff {interval : Int} (nonneg : 0 ≤ interval)
    (results : List WaitResult) (position : Nat) :
    ((create interval).run results)[position]? =
        some (some .onHeartbeatLost) ↔
      DeclaresLoss interval results position := by
  rw [run_getElem?_eq_some nonneg]
  simp only [callback_eq_lost_iff, Expiring, extraGrace, idleIncrement]
  constructor
  · rintro ⟨still, result, found, rfl, past⟩
    refine ⟨(List.getElem?_eq_some_iff.mp found).1, still, ?_⟩
    rw [take_succ_of_getElem? found, timeoutsInRow_timeout]
    omega
  · rintro ⟨reached, still, past⟩
    have found := List.getElem?_eq_getElem reached
    rw [take_succ_of_getElem? found] at past
    by_cases timeout : results[position] = .timeout
    · rw [timeout, timeoutsInRow_timeout] at past
      exact ⟨still, _, found, timeout, by omega⟩
    · rw [timeoutsInRow_of_ne _ timeout] at past
      omega

/-- A timeout at which the loop still runs, with the idle time between the
interval and the end of the grace, makes a request. -/
theorem run_request {interval : Int} (nonneg : 0 ≤ interval)
    {results : List WaitResult} {position : Nat}
    (still : StillWaits interval (results.take position))
    (found : results[position]? = some .timeout)
    (late : interval ≤ 5 * timeoutsInRow (results.take position) + 5)
    (within : 5 * timeoutsInRow (results.take position) + 5 ≤
      interval + 10) :
    ((create interval).run results)[position]? =
      some (some .onHeartbeatRequest) := by
  rw [run_getElem?_eq_some nonneg]
  refine ⟨still, .timeout, found, ?_⟩
  rw [pass_timeout_probes late within]
  rfl

/-- The two timeouts before the one that declares the loss make requests. -/
theorem run_probed {interval : Int} (nonneg : 0 ≤ interval)
    {results : List WaitResult} {position : Nat}
    (loss : DeclaresLoss interval results position) :
    ∃ first second, first < second ∧ second < position ∧
      position + 1 ≤ first + timeoutsInRow (results.take (position + 1)) ∧
      ((create interval).run results)[first]? =
        some (some .onHeartbeatRequest) ∧
      ((create interval).run results)[second]? =
        some (some .onHeartbeatRequest) := by
  obtain ⟨reached, still, past⟩ := loss
  obtain ⟨_, ⟨⟩, -, total⟩ := exists_timeout_of_pos
    (show position + 1 ≤ results.length from reached) (by omega)
  have within := still.within position (by simp; omega)
  rw [List.take_take, Nat.min_self] at within
  obtain ⟨second, rfl, foundSecond, secondTotal⟩ :=
    exists_timeout_of_pos (Nat.le_of_lt reached) (by omega)
  obtain ⟨first, rfl, foundFirst, firstTotal⟩ := exists_timeout_of_pos
    (show second ≤ results.length by omega) (by omega)
  have before (count : Nat) (bound : count ≤ first + 1 + 1) :
      StillWaits interval (results.take count) := by
    have shorter := still.take count
    rwa [List.take_take, Nat.min_eq_left bound] at shorter
  refine ⟨first, first + 1, by omega, by omega, by omega, ?_, ?_⟩
  · exact run_request nonneg (before first (by omega)) foundFirst (by omega)
      (by omega)
  · exact run_request nonneg (before (first + 1) (by omega)) foundSecond
      (by omega) (by omega)

end Heartbeat

/-- Whatever the waits come back with, a peer is declared lost at the first
timeout past the interval and the grace, and was probed twice before. -/
theorem heartbeat_probes_before_loss {interval : Int} (nonneg : 0 ≤ interval)
    (results : List WaitResult) :
    ProbesBeforeLoss interval results
      ((Heartbeat.create interval).run results) := by
  constructor
  · exact Heartbeat.run_lost_iff nonneg results
  · intro position lost
    exact Heartbeat.run_probed nonneg
      ((Heartbeat.run_lost_iff nonneg results position).mp lost)
  · intro position callback called other
    exact Heartbeat.run_length_of_last called other

/-- With an interval of twelve seconds the loss comes with the fifth timeout,
after requests at the third and the fourth. -/
theorem heartbeat_probes_before_loss_twelve :
    (Heartbeat.create 12).run (.triggered 0 :: List.replicate 5 .timeout) =
        [none, none, none, some .onHeartbeatRequest,
          some .onHeartbeatRequest, some .onHeartbeatLost] ∧
      ProbesBeforeLoss 12 (.triggered 0 :: List.replicate 5 .timeout)
        ((Heartbeat.create 12).run
          (.triggered 0 :: List.replicate 5 .timeout)) :=
  ⟨by decide, heartbeat_probes_before_loss (by decide) _⟩

end ArstQuote
