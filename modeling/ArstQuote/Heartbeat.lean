import Mathlib.Data.Int.Basic

/-!
# The heartbeat loop

`ARSTHeartbeat::Run` waits for one of its two events, for five seconds at a
time, and tells its owner when nothing was heard for too long.  One pass of the
loop is a function of the object's two numbers and of the result of the wait.
-/

namespace ArstQuote

namespace Heartbeat

/-- `IDLE_INCREMENT`, in seconds. -/
def idleIncrement : Int := 5

/-- `EXTRA_GRACE`, in seconds. -/
def extraGrace : Int := 10

end Heartbeat

/-- The numbers of an `ARSTHeartbeat`, in seconds. -/
structure Heartbeat where
  m_nTimeInterval : Int
  m_nIdleTime : Int
  deriving DecidableEq

/-- What `WaitForMultipleEvents` comes back with. -/
inductive WaitResult
  | error
  | timeout
  | triggered (nIndex : Int)
  deriving DecidableEq

/-- The calls an `ARSTHeartbeatCallback` receives. -/
inductive HeartbeatCallback
  | onHeartbeatRequest
  | onHeartbeatLost
  | onHeartbeatError (nData : Int) (pErrorMessage : String)
  deriving DecidableEq

/-- How one pass of the loop ends: with the next wait, after the callback it
made if any, or with a last callback. -/
inductive HeartbeatPass
  | waits (heartbeat : Heartbeat) (callback : Option HeartbeatCallback)
  | ends (callback : HeartbeatCallback)
  deriving DecidableEq

namespace Heartbeat

/-- The constructor, followed by `SetTimeInterval`. -/
def create (nTimeInterval : Int) : Heartbeat :=
  ⟨nTimeInterval, 0⟩

/-- One pass of the loop in `ARSTHeartbeat::Run`, from the end of the wait. -/
def pass (heartbeat : Heartbeat) : WaitResult → HeartbeatPass
  | .error => .ends (.onHeartbeatError 0 "HEARTBEAT_ERROR_IN_WAIT")
  | .timeout =>
      let idled : Heartbeat :=
        { heartbeat with m_nIdleTime := heartbeat.m_nIdleTime + idleIncrement }
      if idled.m_nIdleTime < idled.m_nTimeInterval then .waits idled none
      else if idled.m_nIdleTime ≤ idled.m_nTimeInterval + extraGrace then
        .waits idled (some .onHeartbeatRequest)
      else .ends .onHeartbeatLost
  | .triggered nIndex =>
      if nIndex = 0 then .waits { heartbeat with m_nIdleTime := 0 } none
      else if nIndex = 1 then
        .ends (.onHeartbeatError 0 "HEARTBEAT_TERMINATE")
      else
        .ends (.onHeartbeatError nIndex "HEARTBEAT_UNEXPECTED_INDEX_ERROR")

/-- The next timeout takes the idle time past the interval and the grace. -/
def Expiring (heartbeat : Heartbeat) : Prop :=
  heartbeat.m_nTimeInterval + extraGrace <
    heartbeat.m_nIdleTime + idleIncrement
  deriving Decidable

/-- The loss is declared by a timeout that takes the idle time past the
interval and the grace, and by nothing else. -/
theorem pass_lost_iff (heartbeat : Heartbeat) (result : WaitResult) :
    heartbeat.pass result = .ends .onHeartbeatLost ↔
      result = .timeout ∧ heartbeat.Expiring := by
  cases result with
  | error => simp [pass]
  | triggered nIndex =>
      by_cases reply : nIndex = 0
      · simp [pass, reply]
      · by_cases terminate : nIndex = 1 <;> simp [pass, reply, terminate]
  | timeout =>
      simp only [pass, Expiring, extraGrace, true_and]
      by_cases waiting : heartbeat.m_nIdleTime + idleIncrement <
          heartbeat.m_nTimeInterval
      · simp only [waiting, if_true, reduceCtorEq, false_iff]
        omega
      · by_cases probing : heartbeat.m_nIdleTime + idleIncrement ≤
            heartbeat.m_nTimeInterval + 10
        · simp only [waiting, probing, if_true, if_false, reduceCtorEq,
            false_iff]
          omega
        · simp only [waiting, probing, if_false, true_iff]
          omega

end Heartbeat

end ArstQuote
