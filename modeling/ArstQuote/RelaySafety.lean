import ArstQuote.GuardedRuns
import ArstQuote.RelayIteration

/-!
# Messages that the relay survives

Any process may write to the queue that the relay reads.  A message with room
for its NUL in the relay's buffers is handled inside them, whatever the other
relay threads did to the variables they share.  A longer one is refused by
`msgrcv`, and the process ends.
-/

namespace ArstQuote

open CString GuardedRuns

/-- An iteration of this thread, or anything the other threads do to
`hash_string` and `QueueLocal` between two of them. -/
inductive RelayAction
  | iterate (queued : Bytes)
  | others (hashString : Bytes) (queueLocal : List Bytes)

def relayLoopStep (relay : Relay) : RelayAction → Option Relay
  | .iterate queued =>
      match runIteration relay queued with
      | .error _ => none
      | .ok result => some result.relay
  | .others hashString queueLocal =>
      some { relay with hashString := hashString, queueLocal := queueLocal }

/-- A message that fits its buffers is handled, and leaves this thread's
variables clean. -/
theorem Relay.Cleared.exists_runIteration {relay : Relay}
    (cleared : relay.Cleared) {queued : Bytes} (fits : Fits queued) :
    ∃ result, runIteration relay queued = .ok result ∧
      result.relay.Cleared := by
  by_cases empty : queued = []
  · subst empty
    exact ⟨_, runIteration_nil relay, cleared⟩
  by_cases known : relay.hashString ++ dedupKey (payload queued) ∈
      relay.queueLocal
  · obtain ⟨kept, evicted⟩ := exists_evictQueueLocal relay.queueLocal
    exact ⟨_, runIteration_of_old cleared empty fits known evicted, rfl, rfl⟩
  · exact ⟨_, runIteration_of_new cleared empty fits known, rfl, rfl⟩

/-- A message longer than the buffers never gets into them. -/
theorem runIteration_of_long (relay : Relay) {queued : Bytes}
    (long : bufSize < queued.length) :
    runIteration relay queued = .error .exit := by
  simp [runIteration, receiveMessage_of_long long, checked, bind, Except.bind,
    throw, throwThe, MonadExceptOf.throw]

theorem Relay.Cleared.step {relay next : Relay} {action : RelayAction}
    (cleared : relay.Cleared)
    (stepTo : relayLoopStep relay action = some next) : next.Cleared := by
  cases action with
  | iterate queued =>
      simp only [relayLoopStep] at stepTo
      split at stepTo
      · cases stepTo
      · rename_i result ended
        obtain rfl := Option.some.inj stepTo
        obtain ⟨other, otherEnded, kept⟩ :=
          cleared.exists_runIteration (fits_of_runIteration ended)
        obtain rfl := Except.ok.inj (otherEnded.symm.trans ended)
        exact kept
  | others hashString queueLocal =>
      obtain rfl := Option.some.inj stepTo
      exact ⟨cleared.uncaRecvBuf, cleared.readcount⟩

/-- In every state of the loop: a message that leaves room for its NUL is
handled without leaving a buffer, and a longer one ends the process. -/
theorem relay_survives_fitting {relay : Relay}
    (reaches : Reaches relayLoopStep Relay.start relay) (queued : Bytes) :
    (Fits queued → ∃ result, runIteration relay queued = .ok result) ∧
      (bufSize < queued.length →
        runIteration relay queued = .error .exit) := by
  have cleared : relay.Cleared :=
    invariant_of_reaches Relay.start_cleared
      (fun _ _ _ held stepTo => held.step stepTo) reaches
  constructor
  · intro fits
    obtain ⟨result, ended, -⟩ := cleared.exists_runIteration fits
    exact ⟨result, ended⟩
  · exact runIteration_of_long relay

/-- A short line, after another thread has left its key behind. -/
theorem relay_survives_line :
    ∃ relay, execute relayLoopStep Relay.start [.others [49] [[49], [50]]] =
        some relay ∧
      ∃ result, runIteration relay [66, 10] = .ok result := by
  have executed : ∃ relay, execute relayLoopStep Relay.start
      [.others [49] [[49], [50]]] = some relay := ⟨_, rfl⟩
  obtain ⟨relay, executed⟩ := executed
  have survives := relay_survives_fitting (reaches_of_execute executed) [66, 10]
  exact ⟨relay, executed, survives.1 (fits_of_lt (by decide))⟩

/-- A message of 1501 bytes ends the process. -/
theorem relay_exits_on_long :
    runIteration Relay.start (List.replicate 1501 65) = .error .exit := by
  apply runIteration_of_long
  rw [List.length_replicate]
  decide

end ArstQuote
