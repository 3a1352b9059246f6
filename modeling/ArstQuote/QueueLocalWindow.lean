import ArstQuote.RelayRuns

/-!
# What `QueueLocal` holds along a run

Keys enter `QueueLocal` when a message is accepted and leave it only when one
is withheld, 250 at a time while there are more than 750.  So it never forgets
one of the 501 keys accepted last, but nothing stops its growth as long as the
messages stay fresh.
-/

namespace ArstQuote

open CString GuardedRuns EvictingWindow

/-- After every run `QueueLocal` is a suffix of the accepted keys without
repetition that reaches back at least 501 keys; the eviction loop ends without
leaving the vector, however much fuel it has; and the next message is broadcast
if its key is not in `QueueLocal`, and not if its key is one of the 501 accepted
last. -/
theorem queueLocal_remembers_recent {messages : List Bytes} {run : RelayRun}
    (processed : execute relayStep RelayRun.start messages = some run) :
    (run.relay.queueLocal <:+ run.accepted.map dedupKey ∧
      run.relay.queueLocal.Nodup ∧
      min (run.accepted.map dedupKey).length 501 ≤
        run.relay.queueLocal.length) ∧
    (∃ kept, ∀ fuel, run.relay.queueLocal.length ≤ fuel →
      evict (queueLocalSize / 4 * 3) 250 fuel run.relay.queueLocal =
        some kept) ∧
    ∀ queued result, runIteration run.relay queued = .ok result →
      (∀ text, result.broadcast = some text → dedupKey text ∉
        (run.accepted.map dedupKey).drop (run.accepted.length - 501)) ∧
      (queued ≠ [] → dedupKey (payload queued) ∉ run.relay.queueLocal →
        result.broadcast = some (payload queued)) := by
  have valid := RelayRun.valid_of_execute processed
  refine ⟨⟨valid.remembers.suffix, valid.remembers.nodup,
    valid.remembers.recent⟩, ?_, ?_⟩
  · obtain ⟨kept, evicted⟩ := exists_evictQueueLocal run.relay.queueLocal
    refine ⟨kept, fun fuel enough => ?_⟩
    rw [evict_fuel (by decide) (by decide) enough]
    exact evicted
  · intro queued result ended
    by_cases empty : queued = []
    · subst empty
      rw [runIteration_nil, Except.ok.injEq] at ended
      subst ended
      simp
    have fits := fits_of_runIteration ended
    by_cases known : dedupKey (payload queued) ∈ run.relay.queueLocal
    · obtain ⟨kept, evicted⟩ := exists_evictQueueLocal run.relay.queueLocal
      rw [runIteration_of_duplicate valid.ready empty fits known evicted,
        Except.ok.injEq] at ended
      subst ended
      simp [known]
    · rw [runIteration_of_fresh valid.ready empty fits known,
        Except.ok.injEq] at ended
      subst ended
      refine ⟨fun text equal recent => known ?_, fun _ _ => rfl⟩
      rw [Option.some.inj equal]
      apply valid.remembers.mem_of_recent
      simpa [recentKeys] using recent

/-- A message that must not lengthen a full `QueueLocal`: it has no text, or
its key is there already. -/
def KnownWhenFull (run : RelayRun) (queued : Bytes) : Prop :=
  run.relay.queueLocal.length = queueLocalSize →
    queued = [] ∨ dedupKey (payload queued) ∈ run.relay.queueLocal

/-- One iteration keeps the bound exactly when it does not meet a full
`QueueLocal` with a fresh message. -/
theorem length_le_iff_of_relayStep {run next : RelayRun} {queued : Bytes}
    (valid : run.Valid)
    (bounded : run.relay.queueLocal.length ≤ queueLocalSize)
    (stepTo : relayStep run queued = some next) :
    next.relay.queueLocal.length ≤ queueLocalSize ↔
      KnownWhenFull run queued := by
  rcases relayStep_cases valid.ready stepTo with
    ⟨empty, rfl⟩ | ⟨nonempty, fresh, rfl⟩ | ⟨-, known, kept, evicted, rfl⟩
  · exact ⟨fun _ _ => Or.inl empty, fun _ => bounded⟩
  · simp only [Relay.withWindow_queueLocal, List.length_append,
      List.length_singleton, KnownWhenFull, nonempty, fresh, or_false]
    constructor
    · intro within full
      omega
    · intro notFull
      have differs : run.relay.queueLocal.length ≠ queueLocalSize := notFull
      omega
  · have shorter : kept.length ≤ run.relay.queueLocal.length := by
      obtain ⟨kept', evicted', suffix, -, -⟩ :=
        evict_spec (show 0 < 250 by decide)
          (show 250 ≤ queueLocalSize / 4 * 3 + 1 by decide)
          (le_refl run.relay.queueLocal.length)
      rw [Option.some.inj (evicted.symm.trans evicted')]
      exact suffix.length_le
    exact ⟨fun _ _ => Or.inr known, fun _ => shorter.trans bounded⟩

/-- `QueueLocal` stays within `QUEUELOCALSIZE` exactly along the runs in which
no fresh message arrives while it is full. -/
theorem queueLocal_bounded_iff (messages : List Bytes) :
    HoldsAlong relayStep
        (fun run => run.relay.queueLocal.length ≤ queueLocalSize)
        RelayRun.start messages ↔
      MeetsAlong relayStep KnownWhenFull RelayRun.start messages :=
  holdsAlong_iff_meetsAlong
    (fun _ _ _ valid stepTo => RelayRun.Valid.step valid stepTo)
    (fun _ _ _ valid bounded stepTo =>
      length_le_iff_of_relayStep valid bounded stepTo)
    RelayRun.start_valid (Nat.zero_le _) messages

/-- Messages with pairwise different keys only lengthen `QueueLocal`. -/
theorem execute_of_fresh {run : RelayRun} (valid : run.Valid)
    (messages : List Bytes)
    (fits : ∀ queued ∈ messages, queued ≠ [] ∧ Fits queued)
    (distinct : (run.relay.queueLocal ++
      messages.map fun queued => dedupKey (payload queued)).Nodup) :
    ∃ final, execute relayStep run messages = some final ∧
      final.relay.queueLocal = run.relay.queueLocal ++
        messages.map fun queued => dedupKey (payload queued) := by
  induction messages generalizing run with
  | nil => exact ⟨run, rfl, by simp⟩
  | cons queued messages ih =>
      obtain ⟨nonempty, queuedFits⟩ := fits queued (by simp)
      obtain ⟨next, stepTo⟩ := exists_relayStep valid.ready queuedFits
      have fresh : dedupKey (payload queued) ∉ run.relay.queueLocal := by
        intro member
        exact (List.nodup_append.mp distinct).2.2 _ member _ (by simp) rfl
      have window : next.relay.queueLocal =
          run.relay.queueLocal ++ [dedupKey (payload queued)] := by
        rcases relayStep_cases valid.ready stepTo with
          ⟨empty, -⟩ | ⟨-, -, rfl⟩ | ⟨-, known, -⟩
        · exact absurd empty nonempty
        · rfl
        · exact absurd known fresh
      obtain ⟨final, executed, finalWindow⟩ := ih (valid.step stepTo)
        (fun other member => fits other (List.mem_cons_of_mem _ member))
        (by simpa [window] using distinct)
      refine ⟨final, by simp [execute, stepTo, executed], ?_⟩
      simp [finalWindow, window]

/-- `0,0,0,1…1`, with a price of `digits` ones. -/
def risingPrice (digits : Nat) : Bytes :=
  [48] ++ comma :: ([48] ++ comma :: ([48] ++ comma ::
    List.replicate digits 49))

theorem dedupKey_risingPrice {digits : Nat} (positive : 0 < digits) :
    dedupKey (risingPrice digits) = List.replicate digits 49 := by
  have ones : comma ∉ List.replicate digits 49 := by
    simp [comma]
  have nonempty : List.replicate digits (49 : UInt8) ≠ [] := by
    simp
    omega
  have zero : comma ∉ ([48] : Bytes) := by decide
  rw [dedupKey, risingPrice,
    DelimitedTokens.tokens_append_cons zero (by simp),
    DelimitedTokens.tokens_append_cons zero (by simp),
    DelimitedTokens.tokens_append_cons zero (by simp),
    DelimitedTokens.tokens_of_not_mem ones nonempty]
  simp [keyFrom, isKeyPos, pricePos, volumePos, epochPos]

/-- `count` messages, every one with a price of its own. -/
def risingPrices (count : Nat) : List Bytes :=
  (List.range count).map fun index => risingPrice (index + 1)

theorem risingPrice_clean (digits : Nat) : 0 ∉ risingPrice digits := by
  simp [risingPrice, comma]

theorem risingPrice_length (digits : Nat) :
    (risingPrice digits).length = digits + 6 := by
  simp [risingPrice]

/-- As many distinct ticks as one likes lengthen `QueueLocal` by one key
each. -/
theorem execute_risingPrices (count : Nat) (short : count + 6 < bufSize) :
    ∃ final, execute relayStep RelayRun.start (risingPrices count) =
        some final ∧ final.relay.queueLocal.length = count := by
  have keys : (risingPrices count).map
        (fun queued => dedupKey (payload queued)) =
      (List.range count).map
        fun index => List.replicate (index + 1) (49 : UInt8) := by
    rw [risingPrices, List.map_map]
    apply List.map_congr_left
    intro index _
    rw [Function.comp_apply, payload_of_clean (risingPrice_clean _),
      dedupKey_risingPrice (Nat.succ_pos index)]
  have distinct : ((List.range count).map
      fun index => List.replicate (index + 1) (49 : UInt8)).Nodup := by
    refine List.Nodup.map ?_ List.nodup_range
    intro first second same
    have lengths := congrArg List.length same
    simpa using lengths
  have fits : ∀ queued ∈ risingPrices count, queued ≠ [] ∧ Fits queued := by
    intro queued member
    obtain ⟨index, range, rfl⟩ := List.mem_map.mp member
    have bound := List.mem_range.mp range
    refine ⟨by simp [risingPrice], fits_of_lt ?_⟩
    rw [risingPrice_length]
    omega
  obtain ⟨final, executed, window⟩ :=
    execute_of_fresh RelayRun.start_valid (risingPrices count) fits
      (by rw [keys]; simpa [RelayRun.start, Relay.start] using distinct)
  refine ⟨final, executed, ?_⟩
  rw [window, List.length_append, List.length_map, risingPrices,
    List.length_map, List.length_range]
  simp [RelayRun.start, Relay.start]

theorem not_holdsAlong_risingPrices {count bound : Nat}
    (short : count + 6 < bufSize) (exceeds : bound < count) :
    ¬ HoldsAlong relayStep (fun run => run.relay.queueLocal.length ≤ bound)
        RelayRun.start (risingPrices count) := by
  intro bounded
  obtain ⟨final, executed, length⟩ := execute_risingPrices count short
  have within := holds_of_execute bounded executed
  omega

/-- After 1001 ticks with different prices `QueueLocal` holds 1001 keys. -/
theorem queueLocal_exceeds_queueLocalSize :
    (∀ queued ∈ risingPrices 1001, 0 ∉ queued ∧ queued.length < bufSize) ∧
    ¬ HoldsAlong relayStep
        (fun run => run.relay.queueLocal.length ≤ queueLocalSize)
        RelayRun.start (risingPrices 1001) := by
  constructor
  · intro queued member
    obtain ⟨index, range, rfl⟩ := List.mem_map.mp member
    have bound := List.mem_range.mp range
    refine ⟨risingPrice_clean _, ?_⟩
    rw [risingPrice_length, bufSize]
    omega
  · exact not_holdsAlong_risingPrices (by decide) (by decide)

/-- The window after two messages with different prices. -/
theorem queueLocal_remembers_two_prices :
    ∃ run, execute relayStep RelayRun.start [risingPrice 1, risingPrice 2] =
        some run ∧
      run.relay.queueLocal <:+ run.accepted.map dedupKey ∧
      run.relay.queueLocal.Nodup ∧
      min (run.accepted.map dedupKey).length 501 ≤
        run.relay.queueLocal.length := by
  obtain ⟨run, processed, -⟩ := execute_risingPrices 2 (by decide)
  exact ⟨run, processed, (queueLocal_remembers_recent processed).1⟩

end ArstQuote
