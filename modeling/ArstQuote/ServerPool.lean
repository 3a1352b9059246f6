import ArstQuote.ServerStartup

/-!
# The pool of quote servers

`StartUpServers` constructs one server for each entry of the configuration, and
`CheckClientVector` constructs a new one in place of each that has broken down.
Both run in the main thread; the threads of all the servers ever constructed go
on beside it.
-/

namespace ArstQuote

open GuardedRuns

structure ServerInfo where
  strHost : String
  strPara : String
  strName : String
  deriving DecidableEq

/-- `struct ARSTConfig`. -/
structure ServerConfig where
  nServerCount : Nat
  vServerInfo : List ServerInfo
  deriving DecidableEq

/-- An `ARSTServer` object with the entry it was constructed for. -/
structure QuoteServer where
  m_strHost : String
  m_strPara : String
  m_strName : String
  server : Server
  deriving DecidableEq

def QuoteServer.create (info : ServerInfo) : QuoteServer :=
  ⟨info.strHost, info.strPara, info.strName, .start⟩

/-- Where the main thread is: in the loop of `StartUpServers` at entry `j`, in
the constructor of the object `object` for it, between two passes of
`CheckClientVector`, in the outer loop of a pass at slot `i`, in its inner loop
at entry `j`, in the constructor for that, or out of the process's main loop
with an exception. -/
inductive MainAt
  | startUp (j : Nat)
  | adding (j object : Nat)
  | asleep
  | check (i : Nat)
  | replace (i j : Nat)
  | replacing (i j object : Nat)
  | aborted
  deriving DecidableEq

/-- The servers constructed so far, none of which is ever destroyed; the pool
holds pointers to some of them. -/
structure ServerPool where
  m_vServerConfig : ServerConfig
  servers : List QuoteServer
  m_vServerPool : List Nat
  main : MainAt
  deriving DecidableEq

inductive PoolAction
  | main
  | server (object : Nat) (action : ServerAction)
  deriving DecidableEq

namespace ServerPool

/-- The state in which `StartUpServers` is called. -/
def start (config : ServerConfig) : ServerPool :=
  ⟨config, [], [], .startUp 0⟩

/-- `new ARSTServer`, up to the body of the constructor. -/
def construct (pool : ServerPool) (info : ServerInfo) (main : Nat → MainAt) :
    ServerPool :=
  { pool with
    servers := pool.servers ++ [QuoteServer.create info]
    main := main pool.servers.length }

/-- The constructor of the object has returned. -/
def Built (pool : ServerPool) (object : Nat) : Prop :=
  ∃ quoteServer, pool.servers[object]? = some quoteServer ∧
    quoteServer.server.creator = .returned

instance (pool : ServerPool) (object : Nat) : Decidable (pool.Built object) :=
  match found : pool.servers[object]? with
  | none => isFalse (by simp [Built, found])
  | some quoteServer =>
      decidable_of_iff (quoteServer.server.creator = .returned)
        (by simp [Built, found])

/-- A step of the main thread. -/
def mainStep (pool : ServerPool) : Option ServerPool :=
  match pool.main with
  | .startUp j =>
      if j < pool.m_vServerConfig.nServerCount then
        match pool.m_vServerConfig.vServerInfo[j]? with
        | some info => some (pool.construct info (.adding j))
        -- `AddFreeServer` catches the exception of `at`.
        | none => some { pool with main := .startUp (j + 1) }
      else some { pool with main := .asleep }
  | .adding j object =>
      if pool.Built object then
        some { pool with
          m_vServerPool := pool.m_vServerPool ++ [object]
          main := .startUp (j + 1) }
      else none
  | .asleep => some { pool with main := .check 0 }
  | .check i =>
      match pool.m_vServerPool[i]? with
      | none => some { pool with main := .asleep }
      | some object =>
          pool.servers[object]?.map fun quoteServer =>
            { pool with
              main := if quoteServer.server.m_ssServerStatus = .breakdown then
                  .replace i 0
                else .check (i + 1) }
  | .replace i j =>
      if j < pool.m_vServerConfig.nServerCount then
        match pool.m_vServerConfig.vServerInfo[j]? with
        -- Nobody catches the exception of `at` here.
        | none => some { pool with main := .aborted }
        | some info =>
            if info.strName = "BITMEXFUND" then
              some { pool with main := .replace i (j + 1) }
            else do
              let object ← pool.m_vServerPool[i]?
              let quoteServer ← pool.servers[object]?
              return if info.strName = quoteServer.m_strName then
                  pool.construct info (.replacing i j)
                else { pool with main := .replace i (j + 1) }
      else some { pool with main := .check (i + 1) }
  | .replacing i j object =>
      if pool.Built object then
        some { pool with
          m_vServerPool := pool.m_vServerPool.set i object
          main := .replace i (j + 1) }
      else none
  | .aborted => none

/-- Every pooled server whose constructor has returned is attended. -/
def NoneSilentlyDead (pool : ServerPool) : Prop :=
  ∀ object ∈ pool.m_vServerPool, ∃ quoteServer,
    pool.servers[object]? = some quoteServer ∧
      quoteServer.server.AttendedOnceBuilt

/-- The steps of the servers meet the condition of a single server. -/
def KeepsAttended (pool : ServerPool) : PoolAction → Prop
  | .main => True
  | .server object action =>
      match pool.servers[object]? with
      | some quoteServer => quoteServer.server.KeepsAttended action
      | none => True

instance (pool : ServerPool) : DecidablePred pool.KeepsAttended
  | .main => isTrue trivial
  | .server object action => by
      dsimp only [KeepsAttended]
      cases pool.servers[object]? <;> infer_instance

end ServerPool

def poolStep (pool : ServerPool) : PoolAction → Option ServerPool
  | .main => pool.mainStep
  | .server object action => do
      let quoteServer ← pool.servers[object]?
      let server ← serverStep quoteServer.server action
      return { pool with
        servers := pool.servers.set object
          { quoteServer with server := server } }

namespace ServerPool

/-- The invariant: every server ever constructed is in order, and the pool
points to servers. -/
structure Kept (pool : ServerPool) : Prop where
  each : ∀ quoteServer ∈ pool.servers, quoteServer.server.Valid ∧
    quoteServer.server.AttendedOnceBuilt
  pointers : ∀ object ∈ pool.m_vServerPool, object < pool.servers.length

theorem start_kept (config : ServerConfig) : (start config).Kept := by
  constructor <;> intro _ member <;> cases member

theorem Kept.noneSilentlyDead {pool : ServerPool} (kept : pool.Kept) :
    pool.NoneSilentlyDead := by
  intro object member
  have within := kept.pointers object member
  refine ⟨pool.servers[object], List.getElem?_eq_getElem within, ?_⟩
  exact (kept.each _ (List.getElem_mem within)).2

section Steps

variable {pool next : ServerPool}

theorem Built.lt_length {object : Nat} (built : pool.Built object) :
    object < pool.servers.length := by
  obtain ⟨quoteServer, found, -⟩ := built
  exact (List.getElem?_eq_some_iff.mp found).1

theorem Kept.construct (kept : pool.Kept) (info : ServerInfo)
    (main : Nat → MainAt) : (pool.construct info main).Kept := by
  constructor
  · intro quoteServer member
    rcases List.mem_append.mp member with old | new
    · exact kept.each quoteServer old
    · obtain rfl := List.mem_singleton.mp new
      exact ⟨Server.start_valid, Server.start_attendedOnceBuilt⟩
  · intro object member
    have within := kept.pointers object member
    simp only [ServerPool.construct, List.length_append, List.length_singleton]
    omega

/-- What the statement that the main thread executes can do, and when. -/
inductive MainMove (pool : ServerPool) : ServerPool → Prop
  | addServer {j : Nat} {info : ServerInfo} (mainAt : pool.main = .startUp j)
      (more : j < pool.m_vServerConfig.nServerCount)
      (infoAt : pool.m_vServerConfig.vServerInfo[j]? = some info) :
      MainMove pool (pool.construct info (.adding j))
  | addThrows {j : Nat} (mainAt : pool.main = .startUp j)
      (more : j < pool.m_vServerConfig.nServerCount)
      (missing : pool.m_vServerConfig.vServerInfo[j]? = none) :
      MainMove pool { pool with main := .startUp (j + 1) }
  | allAdded {j : Nat} (mainAt : pool.main = .startUp j)
      (past : pool.m_vServerConfig.nServerCount ≤ j) :
      MainMove pool { pool with main := .asleep }
  | pushBack {j object : Nat} (mainAt : pool.main = .adding j object)
      (built : pool.Built object) :
      MainMove pool { pool with
        m_vServerPool := pool.m_vServerPool ++ [object]
        main := .startUp (j + 1) }
  | wake (mainAt : pool.main = .asleep) :
      MainMove pool { pool with main := .check 0 }
  | passEnds {i : Nat} (mainAt : pool.main = .check i)
      (past : pool.m_vServerPool[i]? = none) :
      MainMove pool { pool with main := .asleep }
  | slotBroken {i object : Nat} {quoteServer : QuoteServer}
      (mainAt : pool.main = .check i)
      (pooled : pool.m_vServerPool[i]? = some object)
      (serverAt : pool.servers[object]? = some quoteServer)
      (broken : quoteServer.server.m_ssServerStatus = .breakdown) :
      MainMove pool { pool with main := .replace i 0 }
  | slotSound {i object : Nat} {quoteServer : QuoteServer}
      (mainAt : pool.main = .check i)
      (pooled : pool.m_vServerPool[i]? = some object)
      (serverAt : pool.servers[object]? = some quoteServer)
      (sound : quoteServer.server.m_ssServerStatus ≠ .breakdown) :
      MainMove pool { pool with main := .check (i + 1) }
  | entryThrows {i j : Nat} (mainAt : pool.main = .replace i j)
      (more : j < pool.m_vServerConfig.nServerCount)
      (missing : pool.m_vServerConfig.vServerInfo[j]? = none) :
      MainMove pool { pool with main := .aborted }
  | entrySkipped {i j : Nat} {info : ServerInfo}
      (mainAt : pool.main = .replace i j)
      (more : j < pool.m_vServerConfig.nServerCount)
      (infoAt : pool.m_vServerConfig.vServerInfo[j]? = some info)
      (skipped : info.strName = "BITMEXFUND") :
      MainMove pool { pool with main := .replace i (j + 1) }
  | entryMatches {i j object : Nat} {info : ServerInfo}
      {quoteServer : QuoteServer} (mainAt : pool.main = .replace i j)
      (more : j < pool.m_vServerConfig.nServerCount)
      (infoAt : pool.m_vServerConfig.vServerInfo[j]? = some info)
      (served : info.strName ≠ "BITMEXFUND")
      (pooled : pool.m_vServerPool[i]? = some object)
      (serverAt : pool.servers[object]? = some quoteServer)
      (matched : info.strName = quoteServer.m_strName) :
      MainMove pool (pool.construct info (.replacing i j))
  | entryDiffers {i j object : Nat} {info : ServerInfo}
      {quoteServer : QuoteServer} (mainAt : pool.main = .replace i j)
      (more : j < pool.m_vServerConfig.nServerCount)
      (infoAt : pool.m_vServerConfig.vServerInfo[j]? = some info)
      (pooled : pool.m_vServerPool[i]? = some object)
      (serverAt : pool.servers[object]? = some quoteServer)
      (differs : info.strName ≠ quoteServer.m_strName) :
      MainMove pool { pool with main := .replace i (j + 1) }
  | entriesEnd {i j : Nat} (mainAt : pool.main = .replace i j)
      (past : pool.m_vServerConfig.nServerCount ≤ j) :
      MainMove pool { pool with main := .check (i + 1) }
  | store {i j object : Nat} (mainAt : pool.main = .replacing i j object)
      (built : pool.Built object) :
      MainMove pool { pool with
        m_vServerPool := pool.m_vServerPool.set i object
        main := .replace i (j + 1) }

theorem mainMove_of_mainStep (stepTo : pool.mainStep = some next) :
    pool.MainMove next := by
  cases mainAt : pool.main <;> simp only [mainStep, mainAt] at stepTo
  case startUp j =>
    split at stepTo
    · split at stepTo <;> obtain rfl := Option.some.inj stepTo
      · exact .addServer mainAt (by assumption) (by assumption)
      · exact .addThrows mainAt (by assumption) (by assumption)
    · obtain rfl := Option.some.inj stepTo
      exact .allAdded mainAt (by omega)
  case adding j object =>
    simp only [Option.ite_none_right_eq_some, Option.some.injEq] at stepTo
    obtain ⟨built, rfl⟩ := stepTo
    exact .pushBack mainAt built
  case asleep =>
    obtain rfl := Option.some.inj stepTo
    exact .wake mainAt
  case check i =>
    split at stepTo
    · obtain rfl := Option.some.inj stepTo
      exact .passEnds mainAt (by assumption)
    · rename_i object pooled
      obtain ⟨quoteServer, serverAt, rfl⟩ := Option.map_eq_some_iff.mp stepTo
      by_cases broken : quoteServer.server.m_ssServerStatus = .breakdown
      · simp only [if_pos broken]
        exact .slotBroken mainAt pooled serverAt broken
      · simp only [if_neg broken]
        exact .slotSound mainAt pooled serverAt broken
  case replace i j =>
    split at stepTo
    · rename_i more
      split at stepTo
      · obtain rfl := Option.some.inj stepTo
        exact .entryThrows mainAt more (by assumption)
      · rename_i info infoAt
        split at stepTo
        · obtain rfl := Option.some.inj stepTo
          exact .entrySkipped mainAt more infoAt (by assumption)
        · rename_i served
          simp only [Option.bind_eq_bind, Option.bind_eq_some_iff,
            Option.pure_def, Option.some.injEq] at stepTo
          obtain ⟨object, pooled, quoteServer, serverAt, rfl⟩ := stepTo
          split
          · exact .entryMatches mainAt more infoAt served pooled serverAt
              (by assumption)
          · exact .entryDiffers mainAt more infoAt pooled serverAt
              (by assumption)
    · obtain rfl := Option.some.inj stepTo
      exact .entriesEnd mainAt (by omega)
  case replacing i j object =>
    simp only [Option.ite_none_right_eq_some, Option.some.injEq] at stepTo
    obtain ⟨built, rfl⟩ := stepTo
    exact .store mainAt built
  case aborted => cases stepTo

/-- The main thread moves on, constructs a server, or puts one that is built
into the pool. -/
theorem mainStep_cases (stepTo : pool.mainStep = some next) :
    (∃ main, next = { pool with main := main }) ∨
      (∃ info main, next = pool.construct info main) ∨
      ∃ object main, pool.Built object ∧
        (next = { pool with
            m_vServerPool := pool.m_vServerPool ++ [object], main := main } ∨
          ∃ i, next = { pool with
            m_vServerPool := pool.m_vServerPool.set i object
            main := main }) := by
  cases mainMove_of_mainStep stepTo with
  | addServer | entryMatches => exact Or.inr (Or.inl ⟨_, _, rfl⟩)
  | pushBack _ built => exact Or.inr (Or.inr ⟨_, _, built, Or.inl rfl⟩)
  | store _ built => exact Or.inr (Or.inr ⟨_, _, built, Or.inr ⟨_, rfl⟩⟩)
  | addThrows | allAdded | wake | passEnds | slotBroken | slotSound
  | entryThrows | entrySkipped | entryDiffers | entriesEnd =>
      exact Or.inl ⟨_, rfl⟩

theorem Kept.mainStep (kept : pool.Kept)
    (stepTo : pool.mainStep = some next) : next.Kept := by
  rcases mainStep_cases stepTo with
    ⟨main, rfl⟩ | ⟨info, main, rfl⟩ | ⟨object, main, built, rfl | ⟨i, rfl⟩⟩
  · exact ⟨kept.each, kept.pointers⟩
  · exact kept.construct info main
  · refine ⟨kept.each, ?_⟩
    intro other member
    rcases List.mem_append.mp member with old | new
    · exact kept.pointers other old
    · obtain rfl := List.mem_singleton.mp new
      exact built.lt_length
  · refine ⟨kept.each, ?_⟩
    intro other member
    rcases List.mem_or_eq_of_mem_set member with old | rfl
    · exact kept.pointers other old
    · exact built.lt_length

theorem Kept.serverStep {object : Nat} {action : ServerAction}
    (kept : pool.Kept) (keeps : pool.KeepsAttended (.server object action))
    (stepTo : poolStep pool (.server object action) = some next) :
    next.Kept := by
  simp only [poolStep, Option.bind_eq_bind, Option.bind_eq_some_iff,
    Option.pure_def, Option.some.injEq] at stepTo
  obtain ⟨quoteServer, found, server, stepped, rfl⟩ := stepTo
  simp only [ServerPool.KeepsAttended, found] at keeps
  obtain ⟨valid, attended⟩ := kept.each _ (List.mem_of_getElem? found)
  constructor
  · intro other member
    rcases List.mem_or_eq_of_mem_set member with old | rfl
    · exact kept.each other old
    · exact ⟨valid.step stepped,
        (Server.attended_iff_of_serverStep valid attended stepped).mpr keeps⟩
  · intro other member
    rw [List.length_set]
    exact kept.pointers other member

end Steps

end ServerPool

/-- In every run in which no failure is left without a status, no pooled server
is silently dead in any state. -/
theorem serverPool_attended {config : ServerConfig}
    {actions : List PoolAction}
    (keeps : MeetsAlong poolStep ServerPool.KeepsAttended (.start config)
      actions) :
    HoldsAlong poolStep ServerPool.NoneSilentlyDead (.start config)
      actions := by
  apply holdsAlong_of_meetsAlong _ _ (ServerPool.start_kept config) keeps
  · intro pool kept
    exact kept.noneSilentlyDead
  · intro pool action next kept met stepTo
    cases action with
    | main => exact kept.mainStep stepTo
    | server object action => exact kept.serverStep met stepTo

/-- A step of the main thread that constructs a server, which fails to connect,
and the step that puts it into the pool. -/
def constructFailing (object : Nat) : List PoolAction :=
  [.main, .server object (.create true), .server object (.create false),
    .server object (.create true), .main]

/-- A configuration with one server. -/
def oneServer : ServerConfig :=
  ⟨1, [⟨"10.0.0.1", "8080", "BITMEX"⟩]⟩

/-- A step of the main thread that constructs a server, which connects and
starts its reader, the step that puts it into the pool, and the way of the
reader to its first `recv`. -/
def constructConnecting (object : Nat) : List PoolAction :=
  .main :: List.replicate 5 (.server object (.create true)) ++
    [.main] ++ List.replicate 7 (.server object (.read true))

/-- A server connects and breaks down when its peer closes the connection; the
next pass of the supervisor constructs one that connects in its place. -/
def breakdownReplaced : List PoolAction :=
  constructConnecting 0 ++ .main :: .server 0 .close ::
    List.replicate 3 (.server 0 (.read true)) ++ [.main, .main] ++
    constructConnecting 1

/-- Both servers are attended all along. -/
theorem serverPool_attended_replaced :
    HoldsAlong poolStep ServerPool.NoneSilentlyDead (.start oneServer)
        breakdownReplaced ∧
      (execute poolStep (.start oneServer) breakdownReplaced).map
          (fun pool => (pool.m_vServerPool,
            pool.servers.map fun quoteServer =>
              (quoteServer.server.m_ssServerStatus,
                quoteServer.server.reader))) =
        some ([1], [(.breakdown, .asleep), (.free, .recv 0)]) :=
  ⟨serverPool_attended (by decide +kernel), by decide +kernel⟩

/-- `pthread_create` fails, and the server enters the pool with no thread and
the status `ssNone`. -/
theorem serverPool_silentlyDead :
    ∃ pool, execute poolStep (.start oneServer)
        [.main, .server 0 (.create true), .server 0 (.create true),
          .server 0 (.create true), .server 0 (.create false), .main] =
            some pool ∧
      ¬ pool.NoneSilentlyDead := by
  refine ⟨_, rfl, ?_⟩
  intro attended
  obtain ⟨quoteServer, found, once⟩ := attended 0 (by decide)
  obtain rfl := Option.some.inj found
  revert once
  decide

end ArstQuote
