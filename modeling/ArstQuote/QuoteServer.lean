import ArstQuote.CString
import ArstQuote.GuardedRuns
import ArstQuote.Heartbeat

/-!
# One quote server and its threads

An `ARSTServer` is set up by the thread that constructs it and then served by a
reader thread and a heartbeat thread, while its peer sends bytes, closes the
connection or falls silent.  The reader holds `m_pmtxServerStatusLock` from the
first `recv` of a line to the last, so that `SetStatus` has to wait for the
peer.
-/

namespace ArstQuote

open CString GuardedRuns

/-- `BUFFERSIZE`, the size of the reader's array. -/
def bufferSize : Nat := 1024

/-- `HEARTBEAT_TIME_INTERVAL`, in seconds. -/
def heartbeatTimeInterval : Int := 60

/-- `'\n'`. -/
def newline : UInt8 := 10

inductive ServerStatus
  | none
  | free
  | inuse
  | breakdown
  | reconnecting
  deriving DecidableEq

/-- The statement that the thread constructing the server is about to execute,
in the constructor, `ARSTClientSocket::Connect`, `OnConnect`, `Start` and
`OnDisconnect`. -/
inductive CreatorAt
  | newSocket
  | connect
  | onConnect
  | start
  | markRunning
  | onDisconnect
  | returned
  deriving DecidableEq

/-- The statement of `ARSTServer::Run` that the reader thread is about to
execute.  It is inside the locked part at `recv` and `unlock`. -/
inductive ReaderAt
  | absent
  | newHeartbeat
  | startHeartbeat
  | newRequest
  | setFree
  | loopTest
  | statusTest
  | lock
  | recv (charIndex : Nat)
  | unlock (bRecvAll : Bool)
  | setBreakdown
  | asleep
  | sendData
  | exited
  deriving DecidableEq

/-- Where the heartbeat thread is: in its wait, or at the
`SetStatus(ssBreakdown)` of its last callback, or past it. -/
inductive HeartbeatAt
  | absent
  | waiting (heartbeat : Heartbeat)
  | settingBreakdown (callback : HeartbeatCallback)
  | finished (callback : HeartbeatCallback)
  deriving DecidableEq

/-- The reply event of the heartbeat: whether `SetEvent` has fired the wait
under way, and whether the event is set.  A wait is taken to be under way all
the time, which allows it no fewer timeouts than it has. -/
structure ReplyEvent where
  fired : Bool
  state : Bool
  deriving DecidableEq

namespace ReplyEvent

def reset : ReplyEvent :=
  ⟨false, false⟩

/-- `TriggerGetReplyEvent`, which fires the wait or, when that was done before,
sets the event. -/
def trigger (event : ReplyEvent) : ReplyEvent :=
  if event.fired || event.state then { event with state := true }
  else { event with fired := true }

/-- What a wait leaves, whatever it returns: one that was fired drops the
trigger with a timeout, and any other takes the event if that is set. -/
def afterWait (event : ReplyEvent) : ReplyEvent :=
  if event.fired then { event with fired := false }
  else { event with state := false }

end ReplyEvent

/-- A server, its threads and its connection.  `sent` holds the strings passed
to `SendData` (`none` for an array without a NUL), `pending` what the peer has
sent and the reader not yet taken, and `ended` tells that nothing follows
it. -/
structure Server where
  m_ssServerStatus : ServerStatus
  m_pmtxServerStatusLock : Bool
  m_nRunning : Int
  creator : CreatorAt
  reader : ReaderAt
  heartbeat : HeartbeatAt
  replyEvent : ReplyEvent
  uncaRecvBuf : Bytes
  sent : List (Option Bytes)
  pending : Bytes
  ended : Bool
  deriving DecidableEq

/-- The server before the body of its constructor. -/
def Server.start : Server where
  m_ssServerStatus := .none
  m_pmtxServerStatusLock := false
  m_nRunning := 0
  creator := .newSocket
  reader := .absent
  heartbeat := .absent
  replyEvent := .reset
  uncaRecvBuf := []
  sent := []
  pending := []
  ended := false

/-- A step of one of the threads or of the peer.  `succeeds` is the outcome of
the allocation, `connect` or `pthread_create` about to be executed, where there
is one. -/
inductive ServerAction
  | create (succeeds : Bool)
  | read (succeeds : Bool)
  | beat (result : WaitResult)
  | send (bytes : Bytes)
  | close
  | reset
  deriving DecidableEq

/-- A step is one of the reader's statements or leaves the reader be. -/
theorem ServerAction.read_or_not (action : ServerAction) :
    (∃ succeeds, action = .read succeeds) ∨
      ∀ succeeds, action ≠ .read succeeds := by
  by_cases reads : ∃ succeeds, action = .read succeeds
  · exact Or.inl reads
  · exact Or.inr fun succeeds same => reads ⟨succeeds, same⟩

namespace Server

/-- `SetStatus`, which needs the lock free. -/
def setStatus (server : Server) (ssServerStatus : ServerStatus) :
    Option Server :=
  if server.m_pmtxServerStatusLock then none
  else some { server with m_ssServerStatus := ssServerStatus }

/-- A step of the constructing thread. -/
def creatorStep (server : Server) (succeeds : Bool) : Option Server :=
  match server.creator with
  | .newSocket =>
      -- A failed allocation is caught in the constructor.
      some { server with creator := if succeeds then .connect else .returned }
  | .connect =>
      some { server with
        creator := if succeeds then .onConnect else .onDisconnect }
  | .onConnect =>
      match server.m_ssServerStatus with
      | .none => some { server with creator := .start }
      | .reconnecting =>
          (server.setStatus .free).map fun free =>
            { free with
              replyEvent := free.replyEvent.trigger
              creator := .returned }
      | _ => some { server with creator := .returned }
  | .start =>
      if succeeds then
        some { server with creator := .markRunning, reader := .newHeartbeat }
      else some { server with creator := .returned }
  | .markRunning => some { server with m_nRunning := 1, creator := .returned }
  | .onDisconnect =>
      (server.setStatus .breakdown).map fun broken =>
        { broken with creator := .returned }
  | .returned => none

/-- `RecvAll` of one byte and what the line loop does with the result. -/
def recvStep (server : Server) (charIndex : Nat) : Option Server :=
  match server.pending with
  | byte :: pending =>
      let received : Server := { server with
        pending := pending
        uncaRecvBuf := server.uncaRecvBuf.set charIndex byte }
      if byte = newline then some { received with reader := .unlock true }
      else
        some { received with
          replyEvent := server.replyEvent.trigger
          reader := if charIndex + 1 < bufferSize then .recv (charIndex + 1)
            else .unlock true }
  | [] =>
      if server.ended then some { server with reader := .unlock false }
      else none

/-- A step of the reader thread. -/
def readerStep (server : Server) (succeeds : Bool) : Option Server :=
  match server.reader with
  | .newHeartbeat =>
      some { server with
        reader := if succeeds then .startHeartbeat else .exited }
  | .startHeartbeat =>
      -- The result of `Start` is not looked at.
      some { server with
        reader := .newRequest
        heartbeat := if succeeds then
            .waiting (Heartbeat.create heartbeatTimeInterval)
          else .absent }
  | .newRequest =>
      some { server with reader := if succeeds then .setFree else .exited }
  | .setFree =>
      (server.setStatus .free).map fun free => { free with reader := .loopTest }
  | .loopTest =>
      some { server with
        reader := if server.m_nRunning = 1 then .statusTest else .exited }
  | .statusTest =>
      if server.m_ssServerStatus = .free ∨ server.m_ssServerStatus = .inuse then
        some { server with uncaRecvBuf := zeroed bufferSize, reader := .lock }
      else some { server with reader := .loopTest }
  | .lock =>
      if server.m_pmtxServerStatusLock then none
      else some { server with
        m_pmtxServerStatusLock := true, reader := .recv 0 }
  | .recv charIndex => server.recvStep charIndex
  | .unlock bRecvAll =>
      some { server with
        m_pmtxServerStatusLock := false
        reader := if bRecvAll then .sendData else .setBreakdown }
  | .setBreakdown =>
      (server.setStatus .breakdown).map fun broken =>
        { broken with reader := .asleep }
  | .sendData =>
      some { server with
        sent := server.sent ++ [stringAt server.uncaRecvBuf 0]
        reader := .loopTest }
  | .absent | .asleep | .exited => none

/-- The wait can come back with this result: an event that is set as the wait
begins ends it at once, while one that fires it may come too late.  Nobody sets
the terminate event of a server that is not destroyed. -/
def Offers (server : Server) : WaitResult → Prop
  | .error => True
  | .timeout =>
      server.replyEvent.fired = true ∨ server.replyEvent.state = false
  | .triggered nIndex => nIndex = 0 ∧
      (server.replyEvent.fired = true ∨ server.replyEvent.state = true)

instance (server : Server) : DecidablePred server.Offers
  | .error => inferInstanceAs (Decidable True)
  | .timeout => inferInstanceAs (Decidable (_ ∨ _))
  | .triggered _ => inferInstanceAs (Decidable (_ ∧ (_ ∨ _)))

/-- A step of the heartbeat thread. -/
def heartbeatStep (server : Server) (result : WaitResult) : Option Server :=
  match server.heartbeat with
  | .waiting heartbeat =>
      if server.Offers result then
        some { server with
          replyEvent := server.replyEvent.afterWait
          heartbeat := match heartbeat.pass result with
            | .waits next _ => .waiting next
            | .ends callback => .settingBreakdown callback }
      else none
  | .settingBreakdown callback =>
      (server.setStatus .breakdown).map fun broken =>
        { broken with heartbeat := .finished callback }
  | .absent | .finished _ => none

end Server

def serverStep (server : Server) : ServerAction → Option Server
  | .create succeeds => server.creatorStep succeeds
  | .read succeeds => server.readerStep succeeds
  | .beat result => server.heartbeatStep result
  | .send bytes =>
      if server.ended then none
      else some { server with pending := server.pending ++ bytes }
  | .close => some { server with ended := true }
  | .reset => some { server with pending := [], ended := true }

/-- `pthread_create` of the reader thread is still to come. -/
def CreatorAt.beforeStart : CreatorAt → Bool
  | .markRunning | .returned => false
  | _ => true

/-- The reader is between its `pthread_mutex_lock` and the unlock. -/
def ReaderAt.holdsLock : ReaderAt → Bool
  | .recv _ | .unlock _ => true
  | _ => false

namespace Server

/-- What holds of a server in every interleaving: only the reader keeps the
lock from one step to the next, it stays inside its array, and the thread that
constructs the server is where the other threads allow it to be. -/
structure Valid (server : Server) : Prop where
  lock : server.m_pmtxServerStatusLock = server.reader.holdsLock
  index : ∀ charIndex, server.reader = .recv charIndex →
    charIndex < bufferSize
  unstarted : server.creator.beforeStart → server.reader = .absent ∧
    server.heartbeat = .absent ∧ server.m_ssServerStatus = .none
  started : server.creator = .markRunning → server.reader ≠ .absent
  running : server.creator = .returned → server.reader ≠ .absent →
    server.m_nRunning = 1

theorem setStatus_eq_some {server next : Server} {status : ServerStatus} :
    server.setStatus status = some next ↔
      server.m_pmtxServerStatusLock = false ∧
        next = { server with m_ssServerStatus := status } := by
  cases locked : server.m_pmtxServerStatusLock <;>
    simp [setStatus, locked, eq_comm]

theorem start_valid : start.Valid := by
  constructor <;> simp [start, ReaderAt.holdsLock]

section CreatorSteps

variable {server next : Server} {succeeds : Bool}

/-- What the constructing thread can do: move on, give up with no thread
started, start the reader, note that it runs, or report the failed connect. -/
theorem Valid.creatorStep_cases (valid : server.Valid)
    (stepTo : server.creatorStep succeeds = some next) :
    (server.creator.beforeStart ∧ next.creator.beforeStart ∧
        server.creator ≠ .start ∧
        (server.creator = .newSocket → succeeds = true) ∧
        next = { server with creator := next.creator }) ∨
      ((server.creator = .newSocket ∨ server.creator = .start) ∧
        succeeds = false ∧ next = { server with creator := .returned }) ∨
      (server.creator = .start ∧ succeeds = true ∧ next =
        { server with creator := .markRunning, reader := .newHeartbeat }) ∨
      (server.creator = .markRunning ∧
        next = { server with m_nRunning := 1, creator := .returned }) ∨
      (server.creator = .onDisconnect ∧ next = { server with
        m_ssServerStatus := .breakdown, creator := .returned }) := by
  have unstarted := valid.unstarted
  cases creatorAt : server.creator <;>
    simp only [creatorStep, creatorAt, reduceCtorEq] at stepTo
  case newSocket =>
    cases succeeds <;> obtain rfl := Option.some.inj stepTo <;>
      simp [CreatorAt.beforeStart]
  case connect =>
    cases succeeds <;> obtain rfl := Option.some.inj stepTo <;>
      simp [CreatorAt.beforeStart]
  case onConnect =>
    -- Nothing has set the status yet, so that `Start` comes next.
    rw [creatorAt] at unstarted
    obtain ⟨-, -, noStatus⟩ := unstarted rfl
    simp only [noStatus, Option.some.injEq] at stepTo
    subst stepTo
    simp [CreatorAt.beforeStart, noStatus]
  case start =>
    cases succeeds <;> obtain rfl := Option.some.inj stepTo <;> simp
  case markRunning =>
    obtain rfl := Option.some.inj stepTo
    simp
  case onDisconnect =>
    obtain ⟨broken, set, rfl⟩ := Option.map_eq_some_iff.mp stepTo
    obtain ⟨-, rfl⟩ := setStatus_eq_some.mp set
    simp

/-- With its reader started, the constructing thread only notes that. -/
theorem Valid.creatorStep_of_present (valid : server.Valid)
    (present : server.reader ≠ .absent)
    (stepTo : server.creatorStep succeeds = some next) :
    next = { server with m_nRunning := 1, creator := .returned } := by
  rcases valid.creatorStep_cases stepTo with
    ⟨early, -⟩ | ⟨early | early, -⟩ | ⟨early, -⟩ | ⟨-, nextEq⟩ | ⟨early, -⟩
  · exact absurd (valid.unstarted early).1 present
  · exact absurd (valid.unstarted (early ▸ rfl)).1 present
  · exact absurd (valid.unstarted (early ▸ rfl)).1 present
  · exact absurd (valid.unstarted (early ▸ rfl)).1 present
  · exact nextEq
  · exact absurd (valid.unstarted (early ▸ rfl)).1 present

theorem Valid.creatorStep (valid : server.Valid)
    (stepTo : server.creatorStep succeeds = some next) : next.Valid := by
  have lock := valid.lock
  have unstarted := valid.unstarted
  rcases valid.creatorStep_cases stepTo with
    ⟨before, still, -, -, nextEq⟩ | ⟨early, -, rfl⟩ | ⟨starting, -, rfl⟩ |
      ⟨marking, rfl⟩ | ⟨failing, rfl⟩
  · obtain ⟨absent, noHeartbeat, noStatus⟩ := unstarted before
    rw [nextEq]
    constructor
    · exact lock
    · exact valid.index
    · intro _
      exact ⟨absent, noHeartbeat, noStatus⟩
    · intro marking
      change next.creator = .markRunning at marking
      simp [marking, CreatorAt.beforeStart] at still
    · intro _ present
      exact absurd absent present
  · have before : server.creator.beforeStart := by
      rcases early with allocating | starting
      · rw [allocating]
        rfl
      · rw [starting]
        rfl
    obtain ⟨absent, -, -⟩ := unstarted before
    constructor
    · exact lock
    · exact valid.index
    all_goals simp [CreatorAt.beforeStart, absent]
  · rw [starting] at unstarted
    obtain ⟨absent, -, -⟩ := unstarted rfl
    constructor
    · rw [lock, absent]
      rfl
    all_goals simp [CreatorAt.beforeStart]
  · constructor
    · exact lock
    · exact valid.index
    all_goals simp [CreatorAt.beforeStart]
  · rw [failing] at unstarted
    obtain ⟨absent, -, -⟩ := unstarted rfl
    constructor
    · exact lock
    · exact valid.index
    all_goals simp [CreatorAt.beforeStart, absent]

end CreatorSteps

section ReaderSteps

variable {server next : Server} {succeeds : Bool}

theorem readerStep_frame (stepTo : server.readerStep succeeds = some next) :
    server.reader ≠ .absent ∧ next.reader ≠ .absent ∧
      next.creator = server.creator ∧
      next.m_nRunning = server.m_nRunning := by
  unfold readerStep at stepTo
  grind [recvStep, setStatus]

theorem readerStep_lock
    (lock : server.m_pmtxServerStatusLock = server.reader.holdsLock)
    (stepTo : server.readerStep succeeds = some next) :
    next.m_pmtxServerStatusLock = next.reader.holdsLock := by
  unfold readerStep at stepTo
  grind [recvStep, setStatus, ReaderAt.holdsLock]

/-- The reader comes to a `recv` by taking the lock, or from the `recv` before
it with a byte that does not end the line. -/
theorem readerStep_recv {charIndex : Nat}
    (stepTo : server.readerStep succeeds = some next)
    (receiving : next.reader = .recv charIndex) :
    next.ended = server.ended ∧ next.heartbeat = server.heartbeat ∧
      ((server.reader = .lock ∧ charIndex = 0 ∧
          next.pending = server.pending) ∨
        ∃ before byte, server.reader = .recv before ∧
          charIndex = before + 1 ∧ charIndex < bufferSize ∧
          byte ≠ newline ∧ server.pending = byte :: next.pending) := by
  unfold readerStep at stepTo
  grind [recvStep, setStatus]

theorem readerStep_status (stepTo : server.readerStep succeeds = some next) :
    next.m_ssServerStatus = server.m_ssServerStatus ∨
      (server.reader = .setFree ∧ next.m_ssServerStatus = .free) ∨
      (server.reader = .setBreakdown ∧
        next.m_ssServerStatus = .breakdown) := by
  unfold readerStep at stepTo
  grind [recvStep, setStatus]

/-- The reader leaves the heartbeat alone, or starts it. -/
theorem readerStep_heartbeat (stepTo : server.readerStep succeeds = some next) :
    next.heartbeat = server.heartbeat ∨ next.heartbeat = .absent ∨
      ∃ heartbeat, next.heartbeat = .waiting heartbeat := by
  unfold readerStep at stepTo
  grind [recvStep, setStatus]

theorem readerStep_exited_of_failure
    (stepTo : server.readerStep false = some next)
    (allocating :
      server.reader = .newHeartbeat ∨ server.reader = .newRequest) :
    next.reader = .exited := by
  rcases allocating with allocatingAt | allocatingAt <;>
    simp only [readerStep, allocatingAt, Option.some.injEq] at stepTo <;>
    subst stepTo <;> rfl

/-- The reader exits on a failed allocation and on a loop test made before
`m_nRunning` is set. -/
theorem readerStep_exited (stepTo : server.readerStep succeeds = some next)
    (exited : next.reader = .exited) :
    next.m_ssServerStatus = server.m_ssServerStatus ∧
      ((succeeds = false ∧
          (server.reader = .newHeartbeat ∨ server.reader = .newRequest)) ∨
        (server.reader = .loopTest ∧ server.m_nRunning ≠ 1)) := by
  unfold readerStep at stepTo
  grind [recvStep, setStatus]

theorem Valid.readerStep (valid : server.Valid)
    (stepTo : server.readerStep succeeds = some next) : next.Valid := by
  obtain ⟨present, _, creatorEq, runningEq⟩ := readerStep_frame stepTo
  constructor
  · exact readerStep_lock valid.lock stepTo
  · intro charIndex receiving
    obtain ⟨-, -, ⟨-, rfl, -⟩ | ⟨before, byte, -, -, within, -⟩⟩ :=
      readerStep_recv stepTo receiving
    · decide
    · exact within
  · intro beforeStart
    rw [creatorEq] at beforeStart
    exact absurd (valid.unstarted beforeStart).1 present
  · intro _
    assumption
  · intro returned _
    rw [creatorEq] at returned
    rw [runningEq]
    exact valid.running returned present

end ReaderSteps

section HeartbeatSteps

variable {server next : Server} {result : WaitResult}

/-- The heartbeat comes back from its wait, or it sets the status. -/
theorem heartbeatStep_cases (stepTo : server.heartbeatStep result = some next) :
    (∃ heartbeat, server.heartbeat = .waiting heartbeat ∧
        next = { server with
          replyEvent := next.replyEvent
          heartbeat := next.heartbeat } ∧
        ((∃ waiting, next.heartbeat = .waiting waiting) ∨
          ∃ callback, next.heartbeat = .settingBreakdown callback ∧
            heartbeat.pass result = .ends callback)) ∨
      ∃ callback, server.heartbeat = .settingBreakdown callback ∧
        server.m_pmtxServerStatusLock = false ∧
        next = { server with
          m_ssServerStatus := .breakdown
          heartbeat := .finished callback } := by
  unfold heartbeatStep at stepTo
  grind [setStatus]

theorem Valid.heartbeatStep (valid : server.Valid)
    (stepTo : server.heartbeatStep result = some next) : next.Valid := by
  rcases heartbeatStep_cases stepTo with
    ⟨heartbeat, waiting, nextEq, -⟩ | ⟨callback, setting, -, rfl⟩
  · rw [nextEq]
    constructor
    · exact valid.lock
    · exact valid.index
    · intro beforeStart
      obtain ⟨-, absent, -⟩ := valid.unstarted beforeStart
      cases waiting.symm.trans absent
    · exact valid.started
    · exact valid.running
  · constructor
    · exact valid.lock
    · exact valid.index
    · intro beforeStart
      obtain ⟨-, absent, -⟩ := valid.unstarted beforeStart
      cases setting.symm.trans absent
    · exact valid.started
    · exact valid.running

end HeartbeatSteps

/-- What the other threads and the peer leave of the reader. -/
theorem Valid.frame_of_not_read {server after : Server} {action : ServerAction}
    (valid : server.Valid) (notRead : ∀ succeeds, action ≠ .read succeeds)
    (stepTo : serverStep server action = some after) :
    (after.reader = server.reader ∨
        (server.reader = .absent ∧ after.reader = .newHeartbeat)) ∧
      after.uncaRecvBuf = server.uncaRecvBuf ∧ after.sent = server.sent ∧
      (after.m_ssServerStatus = server.m_ssServerStatus ∨
        after.m_ssServerStatus = .breakdown) := by
  cases action with
  | read succeeds => exact absurd rfl (notRead succeeds)
  | create succeeds =>
      rcases valid.creatorStep_cases stepTo with
        ⟨-, -, -, -, afterEq⟩ | ⟨-, -, rfl⟩ | ⟨starting, -, rfl⟩ |
          ⟨-, rfl⟩ | ⟨-, rfl⟩
      · rw [afterEq]
        exact ⟨Or.inl rfl, rfl, rfl, Or.inl rfl⟩
      · exact ⟨Or.inl rfl, rfl, rfl, Or.inl rfl⟩
      · have absent : server.reader = .absent :=
          (valid.unstarted (by rw [starting]; rfl)).1
        exact ⟨Or.inr ⟨absent, rfl⟩, rfl, rfl, Or.inl rfl⟩
      · exact ⟨Or.inl rfl, rfl, rfl, Or.inl rfl⟩
      · exact ⟨Or.inl rfl, rfl, rfl, Or.inr rfl⟩
  | beat result =>
      rcases heartbeatStep_cases stepTo with
        ⟨heartbeat, -, afterEq, -⟩ | ⟨callback, -, -, rfl⟩
      · rw [afterEq]
        exact ⟨Or.inl rfl, rfl, rfl, Or.inl rfl⟩
      · exact ⟨Or.inl rfl, rfl, rfl, Or.inr rfl⟩
  | send bytes =>
      simp only [serverStep, Option.ite_none_left_eq_some,
        Option.some.injEq] at stepTo
      obtain ⟨-, rfl⟩ := stepTo
      exact ⟨Or.inl rfl, rfl, rfl, Or.inl rfl⟩
  | close =>
      obtain rfl := Option.some.inj stepTo
      exact ⟨Or.inl rfl, rfl, rfl, Or.inl rfl⟩
  | reset =>
      obtain rfl := Option.some.inj stepTo
      exact ⟨Or.inl rfl, rfl, rfl, Or.inl rfl⟩

/-- The peer changes nothing but the bytes on the way. -/
theorem Valid.withPeer {server : Server} (valid : server.Valid)
    (pending : Bytes) (ended : Bool) :
    Valid { server with pending := pending, ended := ended } :=
  ⟨valid.lock, valid.index, valid.unstarted, valid.started, valid.running⟩

theorem Valid.step {server next : Server} {action : ServerAction}
    (valid : server.Valid) (stepTo : serverStep server action = some next) :
    next.Valid := by
  cases action with
  | create succeeds => exact valid.creatorStep stepTo
  | read succeeds => exact valid.readerStep stepTo
  | beat result => exact valid.heartbeatStep stepTo
  | send bytes =>
      simp only [serverStep, Option.ite_none_left_eq_some,
        Option.some.injEq] at stepTo
      obtain ⟨-, rfl⟩ := stepTo
      exact valid.withPeer _ _
  | close =>
      obtain rfl := Option.some.inj stepTo
      exact valid.withPeer _ _
  | reset =>
      obtain rfl := Option.some.inj stepTo
      exact valid.withPeer _ _

end Server

end ArstQuote
