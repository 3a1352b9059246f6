import ArstQuote.QuoteServer

/-!
# Starting a quote server

The supervisor looks at the status of a server only, so that a server is served
again after a failure if its status says `ssBreakdown`, or if its reader is
still there to set it.  The failures that leave neither behind are those whose
result `OnConnect` and `Run` do not turn into a status.
-/

namespace ArstQuote

open GuardedRuns

namespace Server

/-- The server is marked for replacement, or a reader serves it. -/
def Attended (server : Server) : Prop :=
  server.m_ssServerStatus = .breakdown ∨
    (server.reader ≠ .absent ∧ server.reader ≠ .exited)
  deriving Decidable

/-- Once its constructor has returned, the server is attended. -/
def AttendedOnceBuilt (server : Server) : Prop :=
  server.creator = .returned → server.Attended
  deriving Decidable

/-- The socket is allocated and the reader thread created; the reader has not
exited when the constructor notes that it runs, and its allocations do not fail
later than that, unless the status is `ssBreakdown`. -/
def KeepsAttended (server : Server) : ServerAction → Prop
  | .create succeeds =>
      (server.creator = .newSocket ∨ server.creator = .start →
        succeeds = true) ∧
      (server.creator = .markRunning → server.reader = .exited →
        server.m_ssServerStatus = .breakdown)
  | .read succeeds =>
      server.creator = .returned →
      server.reader = .newHeartbeat ∨ server.reader = .newRequest →
        succeeds = true ∨ server.m_ssServerStatus = .breakdown
  | .beat _ | .send _ | .close | .reset => True

instance (server : Server) : DecidablePred server.KeepsAttended
  | .create _ | .read _ => by dsimp only [KeepsAttended]; infer_instance
  | .beat _ | .send _ | .close | .reset => isTrue trivial

theorem start_attendedOnceBuilt : start.AttendedOnceBuilt := by
  intro returned
  cases returned

section Steps

variable {server next : Server}

theorem creatorStep_attended_iff {succeeds : Bool} (valid : server.Valid)
    (stepTo : server.creatorStep succeeds = some next) :
    next.AttendedOnceBuilt ↔ server.KeepsAttended (.create succeeds) := by
  rcases valid.creatorStep_cases stepTo with
    ⟨before, still, notStart, allocated, nextEq⟩ | ⟨early, failed, rfl⟩ |
      ⟨starting, created, rfl⟩ | ⟨marking, rfl⟩ | ⟨failing, rfl⟩
  · apply iff_of_true
    · intro returned
      simp [returned, CreatorAt.beforeStart] at still
    · constructor
      · rintro (allocating | starting)
        · exact allocated allocating
        · exact absurd starting notStart
      · intro marking
        simp [marking, CreatorAt.beforeStart] at before
  · have before : server.creator.beforeStart := by
      rcases early with allocating | starting
      · rw [allocating]
        rfl
      · rw [starting]
        rfl
    obtain ⟨absent, -, noStatus⟩ := valid.unstarted before
    apply iff_of_false
    · intro attended
      rcases attended rfl with broken | ⟨present, -⟩
      · cases noStatus.symm.trans broken
      · exact present absent
    · rintro ⟨succeeded, -⟩
      cases failed.symm.trans (succeeded early)
  · apply iff_of_true
    · intro returned
      cases returned
    · exact ⟨fun _ => created, fun marking => by simp [starting] at marking⟩
  · have present := valid.started marking
    simp only [AttendedOnceBuilt, Attended, KeepsAttended, marking,
      reduceCtorEq, or_self, IsEmpty.forall_iff, true_and, true_implies]
    constructor
    · rintro (broken | ⟨-, running⟩) exited
      · exact broken
      · exact absurd exited running
    · intro ifExited
      by_cases exited : server.reader = .exited
      · exact Or.inl (ifExited exited)
      · exact Or.inr ⟨present, exited⟩
  · apply iff_of_true
    · intro _
      exact Or.inl rfl
    · simp [KeepsAttended, failing]

theorem readerStep_attended_iff {succeeds : Bool} (valid : server.Valid)
    (stepTo : server.readerStep succeeds = some next) :
    next.AttendedOnceBuilt ↔ server.KeepsAttended (.read succeeds) := by
  obtain ⟨present, nextPresent, creatorEq, -⟩ := readerStep_frame stepTo
  simp only [AttendedOnceBuilt, KeepsAttended, creatorEq]
  apply forall_congr'
  intro returned
  by_cases exited : next.reader = .exited
  · obtain ⟨statusEq, failed | stopped⟩ := readerStep_exited stepTo exited
    · obtain ⟨rfl, allocating⟩ := failed
      simp [Attended, exited, statusEq, allocating]
    · exact absurd (valid.running returned present) stopped.2
  · apply iff_of_true
    · exact Or.inr ⟨nextPresent, exited⟩
    · intro allocating
      cases succeeds with
      | true => exact Or.inl rfl
      | false =>
          exact absurd (readerStep_exited_of_failure stepTo allocating) exited

/-- The heartbeat and the peer leave an attended server attended. -/
theorem attendedOnceBuilt_of_unread
    (attended : server.AttendedOnceBuilt)
    (creatorEq : next.creator = server.creator)
    (readerEq : next.reader = server.reader)
    (statusEq : next.m_ssServerStatus = server.m_ssServerStatus ∨
      next.m_ssServerStatus = .breakdown) :
    next.AttendedOnceBuilt := by
  intro returned
  rcases statusEq with same | broken
  · rw [Attended, same, readerEq]
    exact attended (creatorEq ▸ returned)
  · exact Or.inl broken

/-- A step leads to a server that is attended exactly when it meets the
condition. -/
theorem attended_iff_of_serverStep {action : ServerAction}
    (valid : server.Valid) (attended : server.AttendedOnceBuilt)
    (stepTo : serverStep server action = some next) :
    next.AttendedOnceBuilt ↔ server.KeepsAttended action := by
  cases action with
  | create succeeds => exact creatorStep_attended_iff valid stepTo
  | read succeeds => exact readerStep_attended_iff valid stepTo
  | beat result =>
      apply iff_of_true _ trivial
      rcases heartbeatStep_cases stepTo with
        ⟨heartbeat, -, nextEq, -⟩ | ⟨callback, -, -, rfl⟩
      · rw [nextEq]
        exact attendedOnceBuilt_of_unread attended rfl rfl (Or.inl rfl)
      · exact attendedOnceBuilt_of_unread attended rfl rfl (Or.inr rfl)
  | send bytes =>
      apply iff_of_true _ trivial
      simp only [serverStep, Option.ite_none_left_eq_some,
        Option.some.injEq] at stepTo
      obtain ⟨-, rfl⟩ := stepTo
      exact attended
  | close =>
      apply iff_of_true _ trivial
      obtain rfl := Option.some.inj stepTo
      exact attended
  | reset =>
      apply iff_of_true _ trivial
      obtain rfl := Option.some.inj stepTo
      exact attended

end Steps

/-- Along a run of one server it stays attended exactly when every step meets
the condition. -/
theorem attendedAlong_iff (actions : List ServerAction) :
    HoldsAlong serverStep AttendedOnceBuilt start actions ↔
      MeetsAlong serverStep KeepsAttended start actions := by
  apply holdsAlong_iff_meetsAlong _ _ start_valid start_attendedOnceBuilt
  · intro server action next valid stepTo
    exact valid.step stepTo
  · intro server action next valid attended stepTo
    exact attended_iff_of_serverStep valid attended stepTo

end Server

end ArstQuote
