import ArstQuote.GuardedRuns
import ArstQuote.RelayIteration

/-!
# Runs of the relay loop

A run feeds messages to the loop one after the other and records which were
taken and which texts went to the clients.  The keys in `QueueLocal` are always
the most recently accepted ones.  Withholding is judged by keys alone, so a
tick is lost when its message spells the text of an earlier one; and the window
is shortened only when a message is withheld, so fresh messages lengthen it
without bound.
-/

namespace ArstQuote

open CString GuardedRuns EvictingWindow

/-- The loop together with its history: the messages taken and the texts
broadcast, both in order. -/
structure RelayRun where
  relay : Relay
  seen : List Bytes
  accepted : List Bytes

def RelayRun.start : RelayRun :=
  ⟨Relay.start, [], []⟩

/-- The run once an iteration has come to its end. -/
def RelayRun.after (run : RelayRun) (queued : Bytes) (result : Iterated) :
    RelayRun :=
  ⟨result.relay, run.seen ++ [queued],
    run.accepted ++ result.broadcast.toList⟩

/-- One iteration on a run; `none` when it does not come to its end. -/
def relayStep (run : RelayRun) (queued : Bytes) : Option RelayRun :=
  match runIteration run.relay queued with
  | .error _ => none
  | .ok result => some (run.after queued result)

/-- The message is taken for a duplicate and not sent to the clients. -/
def Withheld (run : RelayRun) (queued : Bytes) : Prop :=
  ∃ result, runIteration run.relay queued = .ok result ∧
    result.duplicate = true

/-- The number of accepted keys that are never forgotten. -/
def recentKeys : Nat := 501

structure RelayRun.Valid (run : RelayRun) : Prop where
  ready : run.relay.Ready
  remembers : Remembers recentKeys (run.accepted.map dedupKey)
    run.relay.queueLocal
  origin : run.accepted.Sublist (run.seen.map payload)

section Steps

variable {run next : RelayRun} {queued : Bytes}

theorem relayStep_nil (run : RelayRun) :
    relayStep run [] = some { run with seen := run.seen ++ [[]] } := by
  simp [relayStep, runIteration_nil, RelayRun.after]

theorem relayStep_of_fresh (ready : run.relay.Ready) (nonempty : queued ≠ [])
    (fits : Fits queued)
    (fresh : dedupKey (payload queued) ∉ run.relay.queueLocal) :
    relayStep run queued = some
      ⟨Relay.withWindow
          (run.relay.queueLocal ++ [dedupKey (payload queued)]),
        run.seen ++ [queued], run.accepted ++ [payload queued]⟩ := by
  rw [relayStep, runIteration_of_fresh ready nonempty fits fresh]
  rfl

theorem relayStep_of_known (ready : run.relay.Ready) (nonempty : queued ≠ [])
    (fits : Fits queued)
    (known : dedupKey (payload queued) ∈ run.relay.queueLocal)
    {kept : List Bytes}
    (evicted : evictQueueLocal run.relay.queueLocal = some kept) :
    relayStep run queued = some
      ⟨Relay.withWindow kept, run.seen ++ [queued], run.accepted⟩ := by
  rw [relayStep, runIteration_of_duplicate ready nonempty fits known evicted]
  simp [RelayRun.after]

theorem fits_of_relayStep (stepTo : relayStep run queued = some next) :
    Fits queued := by
  unfold relayStep at stepTo
  split at stepTo
  · cases stepTo
  · exact fits_of_runIteration (by assumption)

/-- Everything one iteration can do to a run. -/
theorem relayStep_cases (ready : run.relay.Ready)
    (stepTo : relayStep run queued = some next) :
    (queued = [] ∧ next = { run with seen := run.seen ++ [queued] }) ∨
      (queued ≠ [] ∧ dedupKey (payload queued) ∉ run.relay.queueLocal ∧
        next = ⟨Relay.withWindow
            (run.relay.queueLocal ++ [dedupKey (payload queued)]),
          run.seen ++ [queued], run.accepted ++ [payload queued]⟩) ∨
      (queued ≠ [] ∧ dedupKey (payload queued) ∈ run.relay.queueLocal ∧
        ∃ kept, evictQueueLocal run.relay.queueLocal = some kept ∧
          next = ⟨Relay.withWindow kept, run.seen ++ [queued],
            run.accepted⟩) := by
  by_cases empty : queued = []
  · subst empty
    rw [relayStep_nil, Option.some.injEq] at stepTo
    exact Or.inl ⟨rfl, stepTo.symm⟩
  have fits := fits_of_relayStep stepTo
  by_cases known : dedupKey (payload queued) ∈ run.relay.queueLocal
  · obtain ⟨kept, evicted⟩ := exists_evictQueueLocal run.relay.queueLocal
    rw [relayStep_of_known ready empty fits known evicted,
      Option.some.injEq] at stepTo
    exact Or.inr (Or.inr ⟨empty, known, kept, evicted, stepTo.symm⟩)
  · rw [relayStep_of_fresh ready empty fits known, Option.some.injEq] at stepTo
    exact Or.inr (Or.inl ⟨empty, known, stepTo.symm⟩)

end Steps

theorem seen_of_relayStep {run next : RelayRun} {queued : Bytes}
    (ready : run.relay.Ready) (stepTo : relayStep run queued = some next) :
    next.seen = run.seen ++ [queued] := by
  rcases relayStep_cases ready stepTo with
    ⟨-, rfl⟩ | ⟨-, -, rfl⟩ | ⟨-, -, kept, -, rfl⟩ <;> rfl

theorem RelayRun.start_valid : RelayRun.start.Valid where
  ready := Relay.start_ready
  remembers := Remembers.nil
  origin := by simp [RelayRun.start]

/-- Every iteration keeps the run valid. -/
theorem RelayRun.Valid.step {run next : RelayRun} {queued : Bytes}
    (valid : run.Valid) (stepTo : relayStep run queued = some next) :
    next.Valid := by
  have older : run.accepted.Sublist ((run.seen ++ [queued]).map payload) := by
    rw [List.map_append]
    exact valid.origin.trans (List.sublist_append_left _ _)
  rcases relayStep_cases valid.ready stepTo with
    ⟨-, rfl⟩ | ⟨-, fresh, rfl⟩ | ⟨-, -, kept, evicted, rfl⟩
  · exact ⟨valid.ready, valid.remembers, older⟩
  · refine ⟨Relay.withWindow_ready _, ?_, ?_⟩
    · simpa using valid.remembers.push fresh
    · rw [List.map_append]
      exact valid.origin.append (List.Sublist.refl _)
  · obtain ⟨kept', evicted', -, remembers⟩ :=
      valid.remembers.evict (show 0 < 250 by decide)
        (show recentKeys + 250 ≤ queueLocalSize / 4 * 3 + 1 by decide)
    have same : kept' = kept := Option.some.inj (evicted'.symm.trans evicted)
    exact ⟨Relay.withWindow_ready kept, same ▸ remembers, older⟩

theorem RelayRun.valid_of_execute {messages : List Bytes} {run : RelayRun}
    (processed : execute relayStep RelayRun.start messages = some run) :
    run.Valid :=
  invariant_of_execute RelayRun.start_valid
    (fun _ _ _ valid stepTo => valid.step stepTo) processed

/-- Messages that fit the buffers never stop the loop. -/
theorem exists_relayStep {run : RelayRun} (ready : run.relay.Ready)
    {queued : Bytes} (fits : Fits queued) :
    ∃ next, relayStep run queued = some next := by
  by_cases empty : queued = []
  · subst empty
    exact ⟨_, relayStep_nil run⟩
  by_cases known : dedupKey (payload queued) ∈ run.relay.queueLocal
  · obtain ⟨kept, evicted⟩ := exists_evictQueueLocal run.relay.queueLocal
    exact ⟨_, relayStep_of_known ready empty fits known evicted⟩
  · exact ⟨_, relayStep_of_fresh ready empty fits known⟩

theorem exists_execute {run : RelayRun} (valid : run.Valid)
    {messages : List Bytes} (fits : ∀ queued ∈ messages, Fits queued) :
    ∃ final, execute relayStep run messages = some final := by
  induction messages generalizing run with
  | nil => exact ⟨run, rfl⟩
  | cons queued messages ih =>
      obtain ⟨next, stepTo⟩ :=
        exists_relayStep valid.ready (fits queued (by simp))
      obtain ⟨final, executed⟩ := ih (valid.step stepTo)
        fun other member => fits other (List.mem_cons_of_mem _ member)
      exact ⟨final, by simp [execute, stepTo, executed]⟩

end ArstQuote
