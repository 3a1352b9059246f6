import ArstQuote.RelayRuns
import ArstQuote.TickIdentity

/-!
# Which ticks the relay withholds

A message is withheld when its key is in `QueueLocal`, hence when it has the
key of an earlier message of the run.  Whether it is then the same tick is a
question about the two messages alone.
-/

namespace ArstQuote

open CString GuardedRuns

/-- In the run of these messages no distinct tick is suppressed: equal keys
mean equal ticks, and a withheld message repeats an earlier tick. -/
structure DistinctTicksForwarded (messages : List Bytes) : Prop where
  keys : ∀ first ∈ messages, ∀ second ∈ messages,
    dedupKey first = dedupKey second → SameTick first second
  withheld : MeetsAlong relayStep
    (fun run queued => Withheld run queued →
      ∃ earlier ∈ run.seen, SameTick earlier queued)
    RelayRun.start messages

/-- A withheld message has the key of an earlier one. -/
theorem exists_seen_of_withheld {run : RelayRun} (valid : run.Valid)
    {queued : Bytes} (withheld : Withheld run queued) :
    ∃ earlier ∈ run.seen,
      dedupKey (payload earlier) = dedupKey (payload queued) := by
  obtain ⟨result, ended, duplicate⟩ := withheld
  by_cases empty : queued = []
  · subst empty
    rw [runIteration_nil, Except.ok.injEq] at ended
    subst ended
    cases duplicate
  have fits := fits_of_runIteration ended
  by_cases known : dedupKey (payload queued) ∈ run.relay.queueLocal
  · obtain ⟨text, accepted, same⟩ :=
      List.mem_map.mp (valid.remembers.subset known)
    obtain ⟨earlier, seen, rfl⟩ :=
      List.mem_map.mp (valid.origin.subset accepted)
    exact ⟨earlier, seen, same⟩
  · rw [runIteration_of_fresh valid.ready empty fits known,
      Except.ok.injEq] at ended
    subst ended
    cases duplicate

/-- `B,X,S,1,23,U,S,D,9`. -/
def splitTick : Bytes :=
  [66, 44, 88, 44, 83, 44, 49, 44, 50, 51, 44, 85, 44, 83, 44, 68, 44, 57]

/-- `B,X,S,12,3,U,S,D,9`: another price and volume, the same digits. -/
def resplitTick : Bytes :=
  [66, 44, 88, 44, 83, 44, 49, 50, 44, 51, 44, 85, 44, 83, 44, 68, 44, 57]

/-- `B,X,S,1,24,U,S,D,9`. -/
def otherTick : Bytes :=
  [66, 44, 88, 44, 83, 44, 49, 44, 50, 52, 44, 85, 44, 83, 44, 68, 44, 57]

end ArstQuote
