import ArstQuote.QuoteServer

/-!
# Losing the heartbeat of a server

`OnHeartbeatLost` and `OnHeartbeatError` mark the server as broken down, for
which they need the lock that the reader keeps while it waits for the rest of a
line.  With a silent peer the two threads stay as they are.  The mark is certain
where the reader can finish its line when the heartbeat ends or the lock is
taken, and does not overwrite it afterwards.
-/

namespace ArstQuote

open GuardedRuns

/-- A step of the process itself. -/
def ServerAction.Local : ServerAction → Prop
  | .create _ | .read _ | .beat _ => True
  | .send _ | .close | .reset => False

/-- The reader is in its loop with nothing failed yet, or past it. -/
def ReaderAt.reading : ReaderAt → Bool
  | .loopTest | .statusTest | .lock | .recv _ | .unlock true | .sendData
  | .exited => true
  | _ => false

namespace Server

/-- `OnHeartbeatLost` was called. -/
def HeartbeatLost (server : Server) : Prop :=
  server.heartbeat = .settingBreakdown .onHeartbeatLost ∨
    server.heartbeat = .finished .onHeartbeatLost

/-- The heartbeat is at the `SetStatus(ssBreakdown)` of its last callback. -/
def SettingBreakdown (server : Server) : Prop :=
  match server.heartbeat with
  | .settingBreakdown _ => True
  | _ => False

/-- The heartbeat waits for the lock inside `SetStatus(ssBreakdown)`, and the
reader that holds it is blocked in `recv`. -/
def Stuck (server : Server) : Prop :=
  server.SettingBreakdown ∧
    server.m_pmtxServerStatusLock = true ∧
    (∃ charIndex, server.reader = .recv charIndex) ∧
    server.pending = [] ∧ server.ended = false

/-- The status can become `ssBreakdown` without the peer. -/
def BreakdownReachable (server : Server) : Prop :=
  ∃ last, ReachesWhen serverStep (fun _ action => action.Local) server last ∧
    last.m_ssServerStatus = .breakdown

/-- A lost connection can be marked. -/
def CanBreakDown (server : Server) : Prop :=
  ¬ server.Stuck ∧ (server.HeartbeatLost → server.BreakdownReachable)

/-- What has arrived finishes a line read from this index on: it has the
newline, or fills the array, or nothing follows it. -/
def LineReadyFrom (server : Server) (charIndex : Nat) : Prop :=
  server.ended = true ∨ newline ∈ server.pending ∨
    bufferSize ≤ charIndex + server.pending.length
  deriving Decidable

/-- The reader is not inside a line, or can finish it. -/
def LineReady (server : Server) : Prop :=
  match server.reader with
  | .recv charIndex => server.LineReadyFrom charIndex
  | _ => True

/-- This result of the wait under way ends the heartbeat. -/
def EndsWith (server : Server) (result : WaitResult) : Prop :=
  match server.heartbeat with
  | .waiting heartbeat =>
      match result with
      | .error => True
      | .timeout => heartbeat.Expiring
      | .triggered nIndex => nIndex ≠ 0
  | _ => False

/-- The heartbeat ends, and the lock is taken from its last callback, only when
the line can be finished; and the reader does not set `ssFree` when
`OnHeartbeatLost` is through. -/
def LetsBreakDown (server : Server) : ServerAction → Prop
  | .beat result => server.EndsWith result → server.LineReady
  | .read _ =>
      (server.reader = .lock → server.SettingBreakdown →
        server.LineReadyFrom 0) ∧
        (server.reader = .setFree →
          server.heartbeat ≠ .finished .onHeartbeatLost)
  | _ => True

instance (server : Server) : Decidable server.LineReady := by
  dsimp only [LineReady]
  cases server.reader <;> infer_instance

instance (server : Server) : Decidable server.SettingBreakdown := by
  dsimp only [SettingBreakdown]
  cases server.heartbeat <;> infer_instance

instance (server : Server) (result : WaitResult) :
    Decidable (server.EndsWith result) := by
  dsimp only [EndsWith]
  cases server.heartbeat <;> cases result <;> infer_instance

instance (server : Server) : DecidablePred server.LetsBreakDown
  | .beat _ | .read _ => by dsimp only [LetsBreakDown]; infer_instance
  | .create _ | .send _ | .close | .reset => isTrue trivial

/-- The invariant of the runs that let the server break down. -/
structure Breakable (server : Server) : Prop where
  valid : server.Valid
  ready : server.SettingBreakdown → server.LineReady
  marked : server.heartbeat = .finished .onHeartbeatLost →
    server.m_ssServerStatus = .breakdown

theorem start_breakable : start.Breakable := by
  constructor
  · exact start_valid
  all_goals intro lost; cases lost

theorem settingBreakdown_iff {server : Server} :
    server.SettingBreakdown ↔
      ∃ callback, server.heartbeat = .settingBreakdown callback := by
  unfold SettingBreakdown
  split <;> simp_all

theorem SettingBreakdown.of_heartbeat_eq {server next : Server}
    (setting : next.SettingBreakdown)
    (same : next.heartbeat = server.heartbeat) : server.SettingBreakdown := by
  rw [settingBreakdown_iff] at setting ⊢
  exact same ▸ setting

/-- A pass that ends the loop was given a result that does so. -/
theorem endsWith_of_pass {server : Server} {heartbeat : Heartbeat}
    {result : WaitResult} {callback : HeartbeatCallback}
    (waiting : server.heartbeat = .waiting heartbeat)
    (ends : heartbeat.pass result = .ends callback) :
    server.EndsWith result := by
  simp only [EndsWith, waiting]
  cases result with
  | error => trivial
  | timeout =>
      have lost : callback = .onHeartbeatLost := by
        simp only [Heartbeat.pass] at ends
        split_ifs at ends
        exact (HeartbeatPass.ends.inj ends).symm
      exact ((heartbeat.pass_lost_iff .timeout).mp (lost ▸ ends)).2
  | triggered nIndex =>
      rintro rfl
      simp [Heartbeat.pass] at ends

theorem lineReady_of_recv {server : Server} {charIndex : Nat}
    (receiving : server.reader = .recv charIndex) :
    server.LineReady ↔ server.LineReadyFrom charIndex := by
  simp [LineReady, receiving]

theorem lineReady_of_not_recv {server : Server}
    (outside : ∀ charIndex, server.reader ≠ .recv charIndex) :
    server.LineReady := by
  unfold LineReady
  split
  · exact absurd ‹_› (outside _)
  · trivial

theorem recv_of_not_lineReady {server : Server}
    (unready : ¬ server.LineReady) :
    ∃ charIndex, server.reader = .recv charIndex := by
  by_contra outside
  apply unready
  apply lineReady_of_not_recv
  intro charIndex receiving
  exact outside ⟨charIndex, receiving⟩

/-- Taking a byte inside the line leaves the rest of it ready. -/
theorem LineReadyFrom.next {server next : Server} {charIndex : Nat}
    {byte : UInt8} (ready : server.LineReadyFrom charIndex)
    (inside : byte ≠ newline) (taken : server.pending = byte :: next.pending)
    (ended : next.ended = server.ended) :
    next.LineReadyFrom (charIndex + 1) := by
  rcases ready with closed | stops | fills
  · exact Or.inl (ended.trans closed)
  · rw [taken, List.mem_cons] at stops
    exact Or.inr (Or.inl (stops.resolve_left (Ne.symm inside)))
  · rw [taken, List.length_cons] at fills
    exact Or.inr (Or.inr (by omega))

section Steps

variable {server next : Server}

theorem Breakable.creatorStep {succeeds : Bool} (breakable : server.Breakable)
    (stepTo : server.creatorStep succeeds = some next) : next.Breakable := by
  have valid := breakable.valid
  constructor
  · exact valid.creatorStep stepTo
  · intro lost
    rcases valid.creatorStep_cases stepTo with
      ⟨-, -, -, -, nextEq⟩ | ⟨-, -, rfl⟩ | ⟨-, -, rfl⟩ | ⟨-, rfl⟩ | ⟨-, rfl⟩
    · rw [nextEq] at lost ⊢
      exact breakable.ready lost
    · exact breakable.ready lost
    · trivial
    · exact breakable.ready lost
    · exact breakable.ready lost
  · intro done
    rcases valid.creatorStep_cases stepTo with
      ⟨-, -, -, -, nextEq⟩ | ⟨-, -, rfl⟩ | ⟨-, -, rfl⟩ | ⟨-, rfl⟩ | ⟨-, rfl⟩
    · rw [nextEq] at done ⊢
      exact breakable.marked done
    · exact breakable.marked done
    · exact breakable.marked done
    · exact breakable.marked done
    · rfl

theorem Breakable.readerStep {succeeds : Bool} (breakable : server.Breakable)
    (lets : server.LetsBreakDown (.read succeeds))
    (stepTo : server.readerStep succeeds = some next) : next.Breakable := by
  obtain ⟨readyToLock, keepsMark⟩ := lets
  constructor
  · exact breakable.valid.readerStep stepTo
  · intro lost
    by_cases inside : ∃ charIndex, next.reader = .recv charIndex
    · obtain ⟨charIndex, receiving⟩ := inside
      rw [lineReady_of_recv receiving]
      obtain ⟨ended, heartbeatEq, fromLock | fromRecv⟩ :=
        readerStep_recv stepTo receiving
      · obtain ⟨locking, rfl, pendingEq⟩ := fromLock
        have ready :=
          readyToLock locking (lost.of_heartbeat_eq heartbeatEq)
        unfold LineReadyFrom at ready ⊢
        rw [ended, pendingEq]
        exact ready
      · obtain ⟨before, byte, receivingBefore, rfl, -, notNewline, taken⟩ :=
          fromRecv
        have ready := breakable.ready (lost.of_heartbeat_eq heartbeatEq)
        rw [lineReady_of_recv receivingBefore] at ready
        exact ready.next notNewline taken ended
    · apply lineReady_of_not_recv
      intro charIndex receiving
      exact inside ⟨charIndex, receiving⟩
  · intro done
    have doneBefore : server.heartbeat = .finished .onHeartbeatLost := by
      rcases readerStep_heartbeat stepTo with same | absent | ⟨_, waiting⟩
      · exact same ▸ done
      · cases done.symm.trans absent
      · cases done.symm.trans waiting
    rcases readerStep_status stepTo with same | ⟨freeing, -⟩ | ⟨-, broken⟩
    · exact same.trans (breakable.marked doneBefore)
    · exact absurd doneBefore (keepsMark freeing)
    · exact broken

theorem Breakable.heartbeatStep {result : WaitResult}
    (breakable : server.Breakable) (lets : server.LetsBreakDown (.beat result))
    (stepTo : server.heartbeatStep result = some next) : next.Breakable := by
  have nextValid := breakable.valid.heartbeatStep stepTo
  rcases heartbeatStep_cases stepTo with
    ⟨heartbeat, waiting, nextEq, outcome⟩ | ⟨callback, setting, -, rfl⟩
  · constructor
    · exact nextValid
    · intro lost
      rcases outcome with ⟨_, still⟩ | ⟨callback, -, ends⟩
      · simp [SettingBreakdown, still] at lost
      · have ready : server.LineReady := lets (endsWith_of_pass waiting ends)
        rw [nextEq]
        exact ready
    · intro done
      rcases outcome with ⟨_, still⟩ | ⟨callback, setting, -⟩
      · cases done.symm.trans still
      · cases done.symm.trans setting
  · exact ⟨nextValid, False.elim, fun _ => rfl⟩

/-- More bytes, or the end, leave a line that can be finished so. -/
theorem Breakable.withPeer {pending : Bytes} {ended : Bool}
    (breakable : server.Breakable)
    (more : ∀ charIndex, server.LineReadyFrom charIndex →
      LineReadyFrom { server with pending := pending, ended := ended }
        charIndex) :
    Breakable { server with pending := pending, ended := ended } := by
  constructor
  · exact breakable.valid.withPeer pending ended
  · intro lost
    have ready := breakable.ready lost
    unfold LineReady at ready ⊢
    split
    · rename_i charIndex receiving
      rw [show server.reader = .recv charIndex from receiving] at ready
      exact more charIndex ready
    · trivial
  · exact breakable.marked

theorem Breakable.step {action : ServerAction} (breakable : server.Breakable)
    (lets : server.LetsBreakDown action)
    (stepTo : serverStep server action = some next) : next.Breakable := by
  cases action with
  | create succeeds => exact breakable.creatorStep stepTo
  | read succeeds => exact breakable.readerStep lets stepTo
  | beat result => exact breakable.heartbeatStep lets stepTo
  | send bytes =>
      simp only [serverStep, Option.ite_none_left_eq_some,
        Option.some.injEq] at stepTo
      obtain ⟨-, rfl⟩ := stepTo
      apply breakable.withPeer
      intro charIndex ready
      rcases ready with closed | stops | fills
      · exact Or.inl closed
      · exact Or.inr (Or.inl (List.mem_append_left _ stops))
      · apply Or.inr (Or.inr _)
        simp only [List.length_append]
        omega
  | close =>
      obtain rfl := Option.some.inj stepTo
      apply breakable.withPeer
      intro charIndex _
      exact Or.inl rfl
  | reset =>
      obtain rfl := Option.some.inj stepTo
      apply breakable.withPeer
      intro charIndex _
      exact Or.inl rfl

end Steps

section Progress

variable {server next : Server}

/-- The steps the reader has left inside the lock, at most. -/
def lockedSteps (server : Server) : Nat :=
  match server.reader with
  | .recv _ => server.pending.length + 2
  | .unlock _ => 1
  | _ => 0

/-- Taking a byte that has arrived. -/
theorem exists_recvStep {byte : UInt8} {pending : Bytes}
    (arrived : server.pending = byte :: pending) (charIndex : Nat) :
    ∃ next, server.recvStep charIndex = some next ∧
      next.heartbeat = server.heartbeat ∧ next.pending = pending ∧
      next.ended = server.ended ∧
      next.reader = if byte = newline ∨ bufferSize ≤ charIndex + 1 then
          .unlock true
        else .recv (charIndex + 1) := by
  simp only [recvStep, arrived]
  by_cases stops : byte = newline
  · rw [if_pos stops, if_pos (Or.inl stops)]
    exact ⟨_, rfl, rfl, rfl, rfl, rfl⟩
  · rw [if_neg stops]
    refine ⟨_, rfl, rfl, rfl, rfl, ?_⟩
    by_cases full : bufferSize ≤ charIndex + 1
    · simp [full, Nat.not_lt.mpr full]
    · simp [stops, full, Nat.not_le.mp full]

/-- A step of the reader that has the lock and can finish its line. -/
theorem exists_readerStep (valid : server.Valid)
    (locked : server.m_pmtxServerStatusLock = true)
    (ready : server.LineReady) :
    ∃ next, server.readerStep true = some next ∧
      next.heartbeat = server.heartbeat ∧
      next.lockedSteps < server.lockedSteps := by
  have holds : server.reader.holdsLock = true := valid.lock.symm.trans locked
  cases readerAt : server.reader <;>
    simp only [readerAt, ReaderAt.holdsLock, Bool.false_eq_true] at holds
  case unlock bRecvAll =>
    simp only [Server.readerStep, readerAt, lockedSteps]
    refine ⟨_, rfl, rfl, ?_⟩
    cases bRecvAll <;> exact Nat.zero_lt_one
  case recv charIndex =>
    have within := valid.index charIndex readerAt
    rw [lineReady_of_recv readerAt] at ready
    simp only [Server.readerStep, readerAt, lockedSteps]
    cases arrived : server.pending with
    | nil =>
        have closed : server.ended = true := by
          rcases ready with closed | stops | fills
          · exact closed
          · simp [arrived] at stops
          · simp only [arrived, List.length_nil, Nat.add_zero] at fills
            omega
        simp only [recvStep, arrived, closed, if_true]
        exact ⟨_, rfl, rfl, by simp⟩
    | cons byte pending =>
        obtain ⟨next, stepTo, heartbeatEq, pendingEq, -, readerEq⟩ :=
          exists_recvStep arrived charIndex
        refine ⟨next, stepTo, heartbeatEq, ?_⟩
        rw [readerEq, pendingEq, List.length_cons]
        by_cases last : byte = newline ∨ bufferSize ≤ charIndex + 1
        · rw [if_pos last]
          dsimp only
          omega
        · rw [if_neg last]
          dsimp only
          omega

/-- With the loss declared, the reader gives the lock back and the heartbeat
sets the status. -/
theorem Breakable.breakdownReachable (breakable : server.Breakable)
    (lost : server.HeartbeatLost) : server.BreakdownReachable := by
  rcases lost with setting | finished
  · have unlocks : ∃ last,
        ReachesWhen serverStep (fun _ action => action.Local) server last ∧
          (last.Breakable ∧
            last.heartbeat = .settingBreakdown .onHeartbeatLost) ∧
          last.m_pmtxServerStatusLock = false := by
      apply exists_reachesWhen_of_rank lockedSteps _ ⟨breakable, setting⟩
      rintro before ⟨kept, still⟩
      cases locked : before.m_pmtxServerStatusLock with
      | false => exact Or.inl rfl
      | true =>
          obtain ⟨next, stepTo, heartbeatEq, less⟩ :=
            exists_readerStep kept.valid locked
              (kept.ready (settingBreakdown_iff.mpr ⟨_, still⟩))
          have holds : before.reader.holdsLock = true :=
            kept.valid.lock.symm.trans locked
          have lets : before.LetsBreakDown (.read true) := by
            constructor
            · intro locking
              simp [locking, ReaderAt.holdsLock] at holds
            · intro freeing
              simp [freeing, ReaderAt.holdsLock] at holds
          exact Or.inr ⟨.read true, next, trivial, stepTo,
            ⟨kept.readerStep lets stepTo, heartbeatEq.trans still⟩, less⟩
    obtain ⟨last, reaches, ⟨-, still⟩, unlocked⟩ := unlocks
    let broken : Server := { last with
      m_ssServerStatus := .breakdown
      heartbeat := .finished .onHeartbeatLost }
    have stepTo : serverStep last (.beat .timeout) = some broken := by
      simp [serverStep, Server.heartbeatStep, still, setStatus, unlocked,
        broken]
    have isLocal : (ServerAction.beat .timeout).Local := trivial
    exact ⟨broken, reaches.trans (reachesWhen_single isLocal stepTo), rfl⟩
  · exact ⟨server, Relation.ReflTransGen.refl, breakable.marked finished⟩

theorem Breakable.not_stuck (breakable : server.Breakable) :
    ¬ server.Stuck := by
  rintro ⟨lost, -, ⟨charIndex, receiving⟩, nothing, notEnded⟩
  have ready := breakable.ready lost
  rw [lineReady_of_recv receiving] at ready
  have within := breakable.valid.index charIndex receiving
  rcases ready with closed | stops | fills
  · cases closed.symm.trans notEnded
  · simp [nothing] at stops
  · simp only [nothing, List.length_nil, Nat.add_zero] at fills
    omega

/-- Only the peer can move a stuck server to `ssBreakdown`. -/
theorem Stuck.not_breakdownReachable (valid : server.Valid)
    (stuck : server.Stuck) (working : server.m_ssServerStatus ≠ .breakdown) :
    ¬ server.BreakdownReachable := by
  rintro ⟨last, reaches, broken⟩
  have stays : last.Valid ∧ last.Stuck ∧
      last.m_ssServerStatus ≠ .breakdown := by
    apply invariant_of_reachesWhen ⟨valid, stuck, working⟩ _ reaches
    rintro before action after ⟨valid, stuck, working⟩ isLocal stepTo
    obtain ⟨setting, locked, ⟨charIndex, receiving⟩, nothing, notEnded⟩ :=
      stuck
    obtain ⟨callback, lost⟩ := settingBreakdown_iff.mp setting
    cases action with
    | create succeeds =>
        obtain rfl := valid.creatorStep_of_present (by simp [receiving]) stepTo
        exact ⟨valid.step stepTo,
          ⟨setting, locked, ⟨charIndex, receiving⟩, nothing, notEnded⟩,
          working⟩
    | read succeeds =>
        simp [serverStep, Server.readerStep, receiving, recvStep, nothing,
          notEnded] at stepTo
    | beat result =>
        simp [serverStep, Server.heartbeatStep, lost, setStatus, locked]
          at stepTo
    | send bytes => exact isLocal.elim
    | close => exact isLocal.elim
    | reset => exact isLocal.elim
  exact stays.2.2 broken

/-- The heartbeat is through, its mark is overwritten, and the reader goes on
with an open connection. -/
structure Overwritten (server : Server) : Prop where
  valid : server.Valid
  finished : server.heartbeat = .finished .onHeartbeatLost
  unmarked : server.m_ssServerStatus ≠ .breakdown
  connected : server.ended = false
  reading : server.reader.reading = true

theorem readerStep_reading {succeeds : Bool}
    (connected : server.ended = false)
    (reading : server.reader.reading = true)
    (stepTo : server.readerStep succeeds = some next) :
    next.reader.reading = true ∧ next.heartbeat = server.heartbeat ∧
      next.m_ssServerStatus = server.m_ssServerStatus ∧
      next.ended = server.ended := by
  unfold Server.readerStep at stepTo
  grind [recvStep, ReaderAt.reading]

/-- Setting `ssFree` after `OnHeartbeatLost` takes the mark away. -/
theorem overwritten_of_setFree {succeeds : Bool} (valid : server.Valid)
    (finished : server.heartbeat = .finished .onHeartbeatLost)
    (connected : server.ended = false) (freeing : server.reader = .setFree)
    (stepTo : server.readerStep succeeds = some next) : next.Overwritten := by
  have nextValid := valid.readerStep stepTo
  simp only [Server.readerStep, freeing, Option.map_eq_some_iff] at stepTo
  obtain ⟨free, set, rfl⟩ := stepTo
  obtain ⟨-, rfl⟩ := setStatus_eq_some.mp set
  exact ⟨nextValid, finished, by simp, connected, rfl⟩

/-- Only the peer can then move the server to `ssBreakdown` again. -/
theorem Overwritten.not_breakdownReachable
    (overwritten : server.Overwritten) : ¬ server.BreakdownReachable := by
  rintro ⟨last, reaches, broken⟩
  have stays : last.Overwritten := by
    apply invariant_of_reachesWhen overwritten _ reaches
    rintro before action after ⟨valid, finished, unmarked, connected, reading⟩
      isLocal stepTo
    have afterValid := valid.step stepTo
    cases action with
    | create succeeds =>
        have present : before.reader ≠ .absent := by
          intro absent
          simp [absent, ReaderAt.reading] at reading
        obtain rfl := valid.creatorStep_of_present present stepTo
        exact ⟨afterValid, finished, unmarked, connected, reading⟩
    | read succeeds =>
        obtain ⟨stillReading, heartbeatEq, statusEq, endedEq⟩ :=
          readerStep_reading connected reading stepTo
        exact ⟨afterValid, heartbeatEq.trans finished, statusEq ▸ unmarked,
          endedEq.trans connected, stillReading⟩
    | beat result =>
        simp [serverStep, Server.heartbeatStep, finished] at stepTo
    | send bytes => exact isLocal.elim
    | close => exact isLocal.elim
    | reset => exact isLocal.elim
  exact stays.unmarked broken

/-- Once the heartbeat has ended inside a line that cannot be finished, the
reader runs into the wait for its next byte. -/
theorem exists_stuck (valid : server.Valid)
    (lost : server.SettingBreakdown) (unready : ¬ server.LineReady) :
    ∃ last, ReachesWhen serverStep (fun _ action => action.Local) server
      last ∧ last.Stuck := by
  have drains : ∃ last,
      ReachesWhen serverStep (fun _ action => action.Local) server last ∧
        (last.Valid ∧ ¬ last.LineReady ∧ last.SettingBreakdown) ∧
        last.pending = [] := by
    apply exists_reachesWhen_of_rank (fun before => before.pending.length) _
      ⟨valid, unready, lost⟩
    rintro before ⟨valid, unready, lost⟩
    obtain ⟨charIndex, receiving⟩ := recv_of_not_lineReady unready
    rw [lineReady_of_recv receiving] at unready
    cases arrived : before.pending with
    | nil => exact Or.inl rfl
    | cons byte pending =>
        obtain ⟨next, stepTo, heartbeatEq, pendingEq, endedEq, readerEq⟩ :=
          exists_recvStep arrived charIndex
        have readTo : before.readerStep true = some next := by
          rw [Server.readerStep, receiving]
          exact stepTo
        have inside : ¬ (byte = newline ∨ bufferSize ≤ charIndex + 1) := by
          rintro (stops | fills)
          · exact unready (Or.inr (Or.inl (by simp [arrived, stops])))
          · apply unready (Or.inr (Or.inr _))
            simp only [arrived, List.length_cons]
            omega
        rw [if_neg inside] at readerEq
        refine Or.inr ⟨.read true, next, trivial, readTo,
          ⟨valid.readerStep readTo, ?_,
            lost.of_heartbeat_eq heartbeatEq.symm⟩, ?_⟩
        · rw [lineReady_of_recv readerEq]
          rintro (closed | stops | fills)
          · exact unready (Or.inl (endedEq ▸ closed))
          · apply unready (Or.inr (Or.inl _))
            rw [arrived, ← pendingEq]
            exact List.mem_cons_of_mem _ stops
          · apply unready (Or.inr (Or.inr _))
            simp only [arrived, List.length_cons, ← pendingEq]
            omega
        · simp [pendingEq]
  obtain ⟨last, reaches, ⟨valid, unready, lost⟩, nothing⟩ := drains
  obtain ⟨charIndex, receiving⟩ := recv_of_not_lineReady unready
  rw [lineReady_of_recv receiving] at unready
  refine ⟨last, reaches, lost, ?_, ⟨charIndex, receiving⟩, nothing, ?_⟩
  · rw [valid.lock, receiving]
    rfl
  · cases closed : last.ended with
    | false => rfl
    | true => exact absurd (Or.inl closed) unready

end Progress

end Server

/-- In every run whose steps let the server break down, a lost connection can
be marked in every state. -/
theorem heartbeatLost_breaksDown {actions : List ServerAction}
    (lets : MeetsAlong serverStep Server.LetsBreakDown .start actions) :
    HoldsAlong serverStep Server.CanBreakDown .start actions := by
  apply holdsAlong_of_meetsAlong _ _ Server.start_breakable lets
  · intro server breakable
    exact ⟨breakable.not_stuck, breakable.breakdownReachable⟩
  · intro server action next breakable met stepTo
    exact breakable.step met stepTo

/-- The server connects, and its reader is about to lock for the first line. -/
def readerAboutToLock : List ServerAction :=
  List.replicate 5 (.create true) ++ List.replicate 6 (.read true)

/-- A line arrives and the reader locks for it, but then the thread does not get
on for 75 seconds, and the heartbeat waits for the lock until the line is
read. -/
def lossInsideLine : List ServerAction :=
  readerAboutToLock ++ .send [65, newline] :: .read true ::
    List.replicate 15 (.beat .timeout) ++ List.replicate 3 (.read true) ++
    [.beat .timeout]

/-- The rest of the line has arrived, so the mark comes through. -/
theorem heartbeatLost_breaksDown_insideLine :
    HoldsAlong serverStep Server.CanBreakDown .start lossInsideLine ∧
      (execute serverStep .start lossInsideLine).map
          (fun server => (server.m_ssServerStatus, server.heartbeat)) =
        some (.breakdown, .finished .onHeartbeatLost) :=
  ⟨heartbeatLost_breaksDown (by decide +kernel), by decide +kernel⟩

/-- The server whose peer was silent for 75 seconds after the reader locked. -/
def silencedServer : Server where
  m_ssServerStatus := .free
  m_pmtxServerStatusLock := true
  m_nRunning := 1
  creator := .returned
  reader := .recv 0
  heartbeat := .settingBreakdown .onHeartbeatLost
  replyEvent := .reset
  uncaRecvBuf := CString.zeroed bufferSize
  sent := []
  pending := []
  ended := false

/-- The reader locks, the peer is silent, and the heartbeat is lost: neither
thread moves any more. -/
theorem heartbeatLost_stuck :
    execute serverStep .start (readerAboutToLock ++
        .read true :: List.replicate 15 (.beat .timeout)) =
          some silencedServer ∧
      silencedServer.Stuck ∧ silencedServer.HeartbeatLost ∧
      ¬ silencedServer.BreakdownReachable := by
  have executed : execute serverStep .start (readerAboutToLock ++
      .read true :: List.replicate 15 (.beat .timeout)) =
        some silencedServer := by
    decide +kernel
  have valid : silencedServer.Valid :=
    invariant_of_execute Server.start_valid
      (fun _ _ _ valid stepTo => valid.step stepTo) executed
  have stuck : silencedServer.Stuck :=
    ⟨trivial, rfl, ⟨0, rfl⟩, rfl, rfl⟩
  refine ⟨executed, stuck, Or.inl rfl, ?_⟩
  apply stuck.not_breakdownReachable valid
  decide

end ArstQuote
