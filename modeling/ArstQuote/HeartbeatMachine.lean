import ArstQuote.HeartbeatTrace
import Mathlib.Data.Int.Order.Basic
import Mathlib.Order.Basic

/-!
# The heartbeat loop and its header comment

The comment at the head of `ARSTHeartbeat.cpp` describes the loop as a machine
on the idle time.  The machine is written out here from the comment, and its
callbacks compared with those of the loop.  They part where the idle time
equals the interval: the comment waits there, the loop makes a request.
-/

namespace ArstQuote

open GuardedRuns

/-- The methods of `ARSTHeartbeatCallback`. -/
inductive CallbackKind
  | heartbeatRequest
  | heartbeatLost
  | heartbeatError
  deriving DecidableEq

def HeartbeatCallback.kind : HeartbeatCallback → CallbackKind
  | .onHeartbeatRequest => .heartbeatRequest
  | .onHeartbeatLost => .heartbeatLost
  | .onHeartbeatError _ _ => .heartbeatError

/-- The callbacks of the machine in the header comment. -/
def documentedCallbacks (interval idle : Int) :
    List WaitResult → List CallbackKind
  | [] => []
  | .error :: _ => [.heartbeatError]
  | .timeout :: results =>
      if idle + 5 ≤ interval then
        documentedCallbacks interval (idle + 5) results
      else if idle + 5 ≤ interval + 10 then
        .heartbeatRequest :: documentedCallbacks interval (idle + 5) results
      else [.heartbeatLost]
  | .triggered nIndex :: results =>
      if nIndex = 0 then documentedCallbacks interval 0 results
      else [.heartbeatError]

namespace Heartbeat

/-- The methods called by the loop, in order. -/
def callbacks (heartbeat : Heartbeat) (results : List WaitResult) :
    List CallbackKind :=
  (heartbeat.run results).filterMap fun callback =>
    callback.map HeartbeatCallback.kind

/-- The wait does not come back with a timeout that takes the idle time to
exactly the interval. -/
def Misses (heartbeat : Heartbeat) (result : WaitResult) : Prop :=
  result = .timeout → heartbeat.m_nIdleTime + 5 ≠ heartbeat.m_nTimeInterval

@[simp]
theorem callbacks_nil (heartbeat : Heartbeat) : heartbeat.callbacks [] = [] :=
  rfl

theorem callbacks_of_ends {heartbeat : Heartbeat} {result : WaitResult}
    {callback : HeartbeatCallback}
    (ends : heartbeat.pass result = .ends callback)
    (results : List WaitResult) :
    heartbeat.callbacks (result :: results) = [callback.kind] := by
  simp [callbacks, run, ends]

theorem callbacks_of_waits {heartbeat waiting : Heartbeat}
    {result : WaitResult} {callback : Option HeartbeatCallback}
    (waits : heartbeat.pass result = .waits waiting callback)
    (results : List WaitResult) :
    heartbeat.callbacks (result :: results) =
      (callback.map HeartbeatCallback.kind).toList ++
        waiting.callbacks results := by
  cases callback <;> simp [callbacks, run, waits]

theorem meetsAlong_of_ends {heartbeat : Heartbeat} {result : WaitResult}
    {callback : HeartbeatCallback}
    (ends : heartbeat.pass result = .ends callback)
    (results : List WaitResult) :
    MeetsAlong next Misses heartbeat (result :: results) := by
  intro waiting stepTo
  simp [next, ends] at stepTo

theorem meetsAlong_of_waits {heartbeat waiting : Heartbeat}
    {result : WaitResult} {callback : Option HeartbeatCallback}
    (waits : heartbeat.pass result = .waits waiting callback)
    (results : List WaitResult) :
    MeetsAlong next Misses heartbeat (result :: results) ↔
      heartbeat.Misses result ∧ MeetsAlong next Misses waiting results := by
  simp [MeetsAlong, next, waits]

/-- The loop makes a reply reset the idle time, as the comment says. -/
theorem pass_reply (heartbeat : Heartbeat) :
    heartbeat.pass (.triggered 0) =
      .waits { heartbeat with m_nIdleTime := 0 } none :=
  rfl

theorem pass_other (heartbeat : Heartbeat) {nIndex : Int}
    (other : nIndex ≠ 0) :
    ∃ message nData, heartbeat.pass (.triggered nIndex) =
      .ends (.onHeartbeatError nData message) := by
  by_cases terminate : nIndex = 1
  · exact ⟨_, _, by simp [pass, terminate]; exact ⟨rfl, rfl⟩⟩
  · exact ⟨_, _, by simp [pass, other, terminate]; exact ⟨rfl, rfl⟩⟩

section Timeouts

variable {interval idle : Int} {results : List WaitResult}

theorem callbacks_timeout_quiet (early : idle + 5 < interval) :
    callbacks ⟨interval, idle⟩ (.timeout :: results) =
      callbacks ⟨interval, idle + 5⟩ results := by
  rw [callbacks_of_waits (pass_timeout_quiet early)]
  rfl

theorem callbacks_timeout_probes (late : interval ≤ idle + 5)
    (within : idle + 5 ≤ interval + 10) :
    callbacks ⟨interval, idle⟩ (.timeout :: results) =
      .heartbeatRequest :: callbacks ⟨interval, idle + 5⟩ results := by
  rw [callbacks_of_waits (pass_timeout_probes late within)]
  rfl

theorem callbacks_timeout_loses (past : interval + 10 < idle + 5) :
    callbacks ⟨interval, idle⟩ (.timeout :: results) = [.heartbeatLost] := by
  rw [callbacks_of_ends (pass_timeout_loses past)]
  rfl

theorem documentedCallbacks_quiet (early : idle + 5 ≤ interval) :
    documentedCallbacks interval idle (.timeout :: results) =
      documentedCallbacks interval (idle + 5) results := by
  simp [documentedCallbacks, early]

theorem documentedCallbacks_probes (late : interval < idle + 5)
    (within : idle + 5 ≤ interval + 10) :
    documentedCallbacks interval idle (.timeout :: results) =
      .heartbeatRequest :: documentedCallbacks interval (idle + 5) results := by
  simp [documentedCallbacks, Int.not_le.mpr late, within]

theorem documentedCallbacks_loses (past : interval + 10 < idle + 5) :
    documentedCallbacks interval idle (.timeout :: results) =
      [.heartbeatLost] := by
  have late : ¬ idle + 5 ≤ interval := by omega
  simp [documentedCallbacks, late, Int.not_le.mpr past]

end Timeouts

/-- The loop calls its owner at least as often as the comment says. -/
theorem documentedCallbacks_length_le (interval idle : Int)
    (results : List WaitResult) :
    (documentedCallbacks interval idle results).length ≤
      (callbacks ⟨interval, idle⟩ results).length := by
  induction results generalizing idle with
  | nil => rfl
  | cons result results ih =>
      cases result with
      | error => simp [documentedCallbacks, callbacks, run, pass]
      | triggered nIndex =>
          by_cases reply : nIndex = 0
          · subst reply
            rw [callbacks_of_waits (pass_reply _)]
            simpa [documentedCallbacks] using ih 0
          · obtain ⟨message, nData, ends⟩ :=
              pass_other ⟨interval, idle⟩ reply
            rw [callbacks_of_ends ends]
            simp [documentedCallbacks, reply]
      | timeout =>
          have rest := ih (idle + 5)
          rcases lt_trichotomy (idle + 5) interval with early | exact | late
          · rwa [callbacks_timeout_quiet early,
              documentedCallbacks_quiet early.le]
          · rw [callbacks_timeout_probes exact.ge (by omega),
              documentedCallbacks_quiet exact.le, List.length_cons]
            omega
          · rcases le_or_gt (idle + 5) (interval + 10) with within | past
            · rw [callbacks_timeout_probes late.le within,
                documentedCallbacks_probes late within]
              simpa using rest
            · rw [callbacks_timeout_loses past, documentedCallbacks_loses past]

/-- From any idle time the callbacks agree exactly when no timeout takes the
idle time to the interval itself. -/
theorem callbacks_eq_documentedCallbacks_iff (interval idle : Int)
    (results : List WaitResult) :
    callbacks ⟨interval, idle⟩ results =
        documentedCallbacks interval idle results ↔
      MeetsAlong next Misses ⟨interval, idle⟩ results := by
  induction results generalizing idle with
  | nil => exact iff_of_true rfl trivial
  | cons result results ih =>
      cases result with
      | error =>
          apply iff_of_true
          · simp [documentedCallbacks, callbacks, run, pass,
              HeartbeatCallback.kind]
          · exact meetsAlong_of_ends rfl results
      | triggered nIndex =>
          by_cases reply : nIndex = 0
          · subst reply
            rw [callbacks_of_waits (pass_reply _),
              meetsAlong_of_waits (pass_reply _), ← ih]
            simp [documentedCallbacks, Misses]
          · obtain ⟨message, nData, ends⟩ :=
              pass_other ⟨interval, idle⟩ reply
            apply iff_of_true
            · rw [callbacks_of_ends ends]
              simp [documentedCallbacks, reply, HeartbeatCallback.kind]
            · exact meetsAlong_of_ends ends results
      | timeout =>
          rcases lt_trichotomy (idle + 5) interval with early | exact | late
          · rw [callbacks_timeout_quiet early,
              documentedCallbacks_quiet early.le, ih,
              meetsAlong_of_waits (pass_timeout_quiet early)]
            simp [Misses, early.ne]
          · -- The loop makes a request that the comment does not have.
            have most := documentedCallbacks_length_le interval (idle + 5)
              results
            apply iff_of_false
            · rw [callbacks_timeout_probes exact.ge (by omega),
                documentedCallbacks_quiet exact.le]
              intro same
              have lengths := congrArg List.length same
              rw [List.length_cons] at lengths
              omega
            · rw [meetsAlong_of_waits
                (pass_timeout_probes exact.ge (by omega))]
              rintro ⟨misses, -⟩
              exact misses rfl exact
          · rcases le_or_gt (idle + 5) (interval + 10) with within | past
            · rw [callbacks_timeout_probes late.le within,
                documentedCallbacks_probes late within, List.cons_inj_right,
                ih, meetsAlong_of_waits (pass_timeout_probes late.le within)]
              simp [Misses, late.ne']
            · apply iff_of_true
              · rw [callbacks_timeout_loses past,
                  documentedCallbacks_loses past]
              · exact meetsAlong_of_ends (pass_timeout_loses past) results

end Heartbeat

/-- No timeout that the loop gets to is the one that makes the timeouts in a
row last exactly the interval. -/
def MissesInterval (interval : Int) (results : List WaitResult) : Prop :=
  ∀ earlier later, results = earlier ++ .timeout :: later →
    StillWaits interval earlier →
      5 * ((timeoutsInRow earlier : Int) + 1) ≠ interval

/-- The loop calls its owner as its header comment says exactly when the idle
time never equals the interval at a timeout. -/
theorem heartbeat_documented_iff {interval : Int} (nonneg : 0 ≤ interval)
    (results : List WaitResult) :
    (Heartbeat.create interval).callbacks results =
        documentedCallbacks interval 0 results ↔
      MissesInterval interval results := by
  refine (Heartbeat.callbacks_eq_documentedCallbacks_iff interval 0
    results).trans ?_
  rw [meetsAlong_iff]
  constructor
  · intro misses earlier later split still hits
    have reached := (Heartbeat.execute_next_iff nonneg earlier _).mpr
      ⟨still, rfl⟩
    have waits : Heartbeat.next ⟨interval, 5 * timeoutsInRow earlier⟩
        .timeout = some ⟨interval, 5 * timeoutsInRow earlier + 5⟩ :=
      Heartbeat.next_timeout_eq_some.mpr ⟨by omega, rfl⟩
    have missed := misses earlier .timeout later split _ _ reached waits rfl
    simp only at missed
    omega
  · intro misses earlier result later split before after reached _ timeout
    obtain ⟨still, rfl⟩ :=
      (Heartbeat.execute_next_iff nonneg earlier before).mp reached
    subst timeout
    have missed := misses earlier later split still
    simp only
    omega

/-- An interval that five seconds do not divide is never hit. -/
theorem missesInterval_of_not_dvd {interval : Int} (uneven : ¬ 5 ∣ interval)
    (results : List WaitResult) : MissesInterval interval results := by
  intro earlier later _ _ hits
  exact uneven ⟨_, hits.symm⟩

/-- With an interval of twelve seconds the loop does what its header comment
says. -/
theorem heartbeat_documented_twelve :
    (Heartbeat.create 12).callbacks (List.replicate 5 .timeout) =
      documentedCallbacks 12 0 (List.replicate 5 .timeout) :=
  (heartbeat_documented_iff (by decide) _).mpr
    (missesInterval_of_not_dvd (by decide) _)

/-- Twelve timeouts take the idle time to the interval of the quote servers:
the loop makes a request, and the comment waits. -/
theorem heartbeat_requests_at_interval :
    (Heartbeat.create 60).callbacks (List.replicate 12 .timeout) =
        [.heartbeatRequest] ∧
      documentedCallbacks 60 0 (List.replicate 12 .timeout) = [] := by
  decide

end ArstQuote
