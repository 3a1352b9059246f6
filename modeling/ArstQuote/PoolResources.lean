import ArstQuote.ServerPool
import Mathlib.Algebra.Group.Action.Defs
import Mathlib.Algebra.Order.BigOperators.Group.List
import Mathlib.Algebra.Order.Ring.Nat

/-!
# What the server pool holds on to

Every server that is constructed keeps its object, up to three `ARSTThread`
objects and its socket: `CheckClientVector` overwrites the pointer to a server
that it replaces, and nothing is destroyed.  As long as no server is replaced,
the pool holds as much as the configuration has entries; each replacement adds
to that for good.
-/

namespace ArstQuote

open GuardedRuns

/-- What one server owns: the `ARSTThread` objects alive, namely the server
itself, its heartbeat and its request, and whether its socket is open.
`wasReset` tells that `recv` reports an error instead of the end of the
stream. -/
structure Owned where
  threads : Nat
  socketOpen : Bool
  wasReset : Bool
  deriving DecidableEq

def Owned.start : Owned :=
  ⟨1, false, false⟩

/-- What a step of the server makes of it. -/
def Owned.after (owned : Owned) (server : Server) : ServerAction → Owned
  | .create _ =>
      -- `Connect` opens the socket, and keeps it where `connect` fails.
      if server.creator = .connect then { owned with socketOpen := true }
      else owned
  | .read succeeds =>
      match server.reader with
      | .newHeartbeat | .newRequest =>
          if succeeds then { owned with threads := owned.threads + 1 }
          else owned
      | .recv _ =>
          -- `Recv` closes the socket at the end of the stream only.
          if server.pending = [] ∧ owned.wasReset = false then
            { owned with socketOpen := false }
          else owned
      | _ => owned
  | .reset => { owned with wasReset := true }
  | .beat _ | .send _ | .close => owned

/-- The pool with what each object owns. -/
structure ResourceTrace where
  pool : ServerPool
  owned : Nat → Owned

def ResourceTrace.start (config : ServerConfig) : ResourceTrace :=
  ⟨.start config, fun _ => .start⟩

def resourceStep (trace : ResourceTrace) :
    PoolAction → Option ResourceTrace
  | .main => (poolStep trace.pool .main).map fun pool =>
      { trace with pool := pool }
  | .server object action => do
      let quoteServer ← trace.pool.servers[object]?
      let pool ← poolStep trace.pool (.server object action)
      return {
        pool := pool
        owned := Function.update trace.owned object
          ((trace.owned object).after quoteServer.server action) }

namespace ResourceTrace

/-- The part of `num_of_thread_Current` that belongs to the servers. -/
def numOfThreadCurrent (trace : ResourceTrace) : Nat :=
  ((List.range trace.pool.servers.length).map fun object =>
    (trace.owned object).threads).sum

def openSockets (trace : ResourceTrace) : Nat :=
  (List.range trace.pool.servers.length).countP fun object =>
    (trace.owned object).socketOpen

/-- Between two passes there are as many servers as slots, and what the servers
own is bounded by the number of servers configured. -/
structure Contained (trace : ResourceTrace) : Prop where
  servers : trace.pool.main = .asleep →
    trace.pool.servers.length = trace.pool.m_vServerPool.length
  threads : trace.numOfThreadCurrent ≤
    3 * trace.pool.m_vServerConfig.nServerCount
  sockets : trace.openSockets ≤ trace.pool.m_vServerConfig.nServerCount

end ResourceTrace

/-- `CheckClientVector` is at an entry that has the name of the broken server
in the slot, and is not skipped. -/
def ServerPool.Replaces (pool : ServerPool) : Prop :=
  match pool.main with
  | .replace i j => j < pool.m_vServerConfig.nServerCount ∧
      ∃ info object quoteServer,
        pool.m_vServerConfig.vServerInfo[j]? = some info ∧
        info.strName ≠ "BITMEXFUND" ∧
        pool.m_vServerPool[i]? = some object ∧
        pool.servers[object]? = some quoteServer ∧
        info.strName = quoteServer.m_strName
  | _ => False

/-- No server is replaced. -/
def ResourceTrace.KeepsServers (trace : ResourceTrace) : PoolAction → Prop
  | .main => ¬ trace.pool.Replaces
  | .server _ _ => True

/-- A server is being added that has no slot yet. -/
def MainAt.unpooled : MainAt → Nat
  | .adding _ _ => 1
  | _ => 0

namespace ServerPool

/-- More servers than slots for them. -/
def Leaks (pool : ServerPool) : Prop :=
  pool.m_vServerPool.length + pool.main.unpooled < pool.servers.length

/-- The invariant of the runs that replace no server. -/
structure Level (pool : ServerPool) : Prop where
  count : pool.servers.length =
    pool.m_vServerPool.length + pool.main.unpooled
  within : match pool.main with
    | .startUp j => pool.m_vServerPool.length ≤ j ∧
        j ≤ pool.m_vServerConfig.nServerCount
    | .adding j _ => pool.m_vServerPool.length ≤ j ∧
        j < pool.m_vServerConfig.nServerCount
    | .replacing _ _ _ => False
    | _ => pool.m_vServerPool.length ≤ pool.m_vServerConfig.nServerCount

theorem start_level (config : ServerConfig) : (start config).Level :=
  ⟨rfl, le_rfl, Nat.zero_le _⟩

section Steps

variable {pool next : ServerPool}

theorem replaces_of_match {i j object : Nat} {info : ServerInfo}
    {quoteServer : QuoteServer} (mainAt : pool.main = .replace i j)
    (more : j < pool.m_vServerConfig.nServerCount)
    (infoAt : pool.m_vServerConfig.vServerInfo[j]? = some info)
    (served : info.strName ≠ "BITMEXFUND")
    (pooled : pool.m_vServerPool[i]? = some object)
    (serverAt : pool.servers[object]? = some quoteServer)
    (matched : info.strName = quoteServer.m_strName) : pool.Replaces := by
  simp only [Replaces, mainAt]
  exact ⟨more, info, object, quoteServer, infoAt, served, pooled, serverAt,
    matched⟩

theorem mainStep_of_replaces (replaces : pool.Replaces) :
    ∃ i j info, pool.main = .replace i j ∧
      pool.mainStep = some (pool.construct info (.replacing i j)) := by
  unfold Replaces at replaces
  split at replaces
  · rename_i i j mainAt
    obtain ⟨more, info, object, quoteServer, infoAt, served, pooled, serverAt,
      matched⟩ := replaces
    rw [matched] at served
    refine ⟨i, j, info, mainAt, ?_⟩
    simp [mainStep, mainAt, more, infoAt, matched, served, pooled, serverAt]
  · cases replaces

/-- A replacement adds a server and no slot; the other steps of the main thread
add as much to both. -/
theorem mainStep_balance (stepTo : pool.mainStep = some next) :
    (pool.Replaces ∧ next.servers.length = pool.servers.length + 1 ∧
        next.m_vServerPool.length + next.main.unpooled =
          pool.m_vServerPool.length + pool.main.unpooled) ∨
      next.servers.length +
          (pool.m_vServerPool.length + pool.main.unpooled) =
        pool.servers.length +
          (next.m_vServerPool.length + next.main.unpooled) := by
  cases mainMove_of_mainStep stepTo with
  | entryMatches mainAt more infoAt served pooled serverAt matched =>
      have replaces := replaces_of_match mainAt more infoAt served pooled
        serverAt matched
      left
      refine ⟨replaces, by simp [construct], ?_⟩
      rw [mainAt]
      rfl
  | addServer mainAt =>
      right
      simp [mainAt, construct, MainAt.unpooled]
      omega
  | addThrows mainAt | allAdded mainAt | wake mainAt | passEnds mainAt
  | slotBroken mainAt | slotSound mainAt | entryThrows mainAt
  | entrySkipped mainAt | entryDiffers mainAt | entriesEnd mainAt
  | pushBack mainAt | store mainAt =>
      right
      simp [mainAt, MainAt.unpooled]

/-- A leak is for good. -/
theorem Leaks.mainStep (leaks : pool.Leaks)
    (stepTo : pool.mainStep = some next) : next.Leaks := by
  unfold Leaks at leaks ⊢
  rcases mainStep_balance stepTo with ⟨-, more, same⟩ | balance
  · omega
  · omega

theorem Level.leaks_of_replaces (level : pool.Level)
    (replaces : pool.Replaces) (stepTo : pool.mainStep = some next) :
    next.Leaks := by
  have count := level.count
  obtain ⟨i, j, info, mainAt, stepped⟩ := mainStep_of_replaces replaces
  obtain rfl := Option.some.inj (stepped.symm.trans stepTo)
  rw [mainAt] at count
  simp only [MainAt.unpooled] at count
  simp only [Leaks, construct, MainAt.unpooled, List.length_append,
    List.length_singleton]
  omega

theorem Level.mainStep (level : pool.Level) (keeps : ¬ pool.Replaces)
    (stepTo : pool.mainStep = some next) : next.Level := by
  have within := level.within
  constructor
  · have count := level.count
    rcases mainStep_balance stepTo with ⟨replaces, -⟩ | balance
    · exact absurd replaces keeps
    · omega
  cases mainMove_of_mainStep stepTo with
  | entryMatches mainAt more infoAt served pooled serverAt matched =>
      exact absurd (replaces_of_match mainAt more infoAt served pooled
        serverAt matched) keeps
  | addServer mainAt more =>
      rw [mainAt] at within
      exact ⟨within.1, more⟩
  | addThrows mainAt more =>
      rw [mainAt] at within
      exact ⟨Nat.le_succ_of_le within.1, more⟩
  | allAdded mainAt =>
      rw [mainAt] at within
      exact within.1.trans within.2
  | pushBack mainAt =>
      rw [mainAt] at within
      simp only [List.length_append, List.length_singleton]
      exact ⟨Nat.succ_le_succ within.1, within.2⟩
  | store mainAt => simp only [mainAt] at within
  | wake mainAt | passEnds mainAt | slotBroken mainAt | slotSound mainAt
  | entryThrows mainAt | entrySkipped mainAt | entryDiffers mainAt
  | entriesEnd mainAt =>
      rw [mainAt] at within
      exact within

end Steps

end ServerPool

/-- The `ARSTThread` objects that a server may have by the time its reader is
here. -/
def ReaderAt.threads : ReaderAt → Nat
  | .absent | .newHeartbeat => 1
  | .startHeartbeat | .newRequest => 2
  | _ => 3

theorem ReaderAt.threads_le (reader : ReaderAt) : reader.threads ≤ 3 := by
  cases reader <;> simp [threads]

theorem Server.readerStep_threads {server next : Server} {succeeds : Bool}
    (stepTo : server.readerStep succeeds = some next) :
    server.reader.threads ≤ next.reader.threads ∧
      (server.reader = .newHeartbeat ∨ server.reader = .newRequest →
        server.reader.threads + 1 ≤ next.reader.threads) := by
  unfold Server.readerStep at stepTo
  grind [Server.recvStep, Server.setStatus, ReaderAt.threads]

/-- A server owns no more threads than its reader has come to create. -/
theorem Owned.after_threads_le {server next : Server} {action : ServerAction}
    {owned : Owned} (valid : server.Valid)
    (bounded : owned.threads ≤ server.reader.threads)
    (stepTo : serverStep server action = some next) :
    (owned.after server action).threads ≤ next.reader.threads := by
  rcases action.read_or_not with ⟨succeeds, rfl⟩ | notRead
  · obtain ⟨more, creates⟩ := Server.readerStep_threads stepTo
    have atMostOne : (owned.after server (.read succeeds)).threads ≤
        owned.threads +
          if server.reader = .newHeartbeat ∨ server.reader = .newRequest then 1
          else 0 := by
      simp only [after]
      grind
    split at atMostOne
    · rename_i creating
      have room := creates creating
      omega
    · omega
  · obtain ⟨readerEq, -⟩ := valid.frame_of_not_read notRead stepTo
    have same : (owned.after server action).threads = owned.threads := by
      cases action with
      | read succeeds => exact absurd rfl (notRead succeeds)
      | create succeeds =>
          simp only [after]
          split <;> rfl
      | beat _ | send _ | close | reset => rfl
    rcases readerEq with unchanged | ⟨absent, starting⟩
    · rw [same, unchanged]
      exact bounded
    · rw [same, starting]
      rw [absent] at bounded
      exact bounded

namespace ResourceTrace

/-- The invariant on what the servers own. -/
structure Accounted (trace : ResourceTrace) : Prop where
  each : ∀ object quoteServer,
    trace.pool.servers[object]? = some quoteServer →
      quoteServer.server.Valid ∧
        (trace.owned object).threads ≤ quoteServer.server.reader.threads
  fresh : ∀ object, trace.pool.servers.length ≤ object →
    trace.owned object = .start

theorem start_accounted (config : ServerConfig) :
    (start config).Accounted := by
  constructor
  · intro object quoteServer found
    cases found
  · intro object _
    rfl

/-- However many servers there are, each owns three threads and a socket at
most. -/
theorem Accounted.threads_le {trace : ResourceTrace}
    (accounted : trace.Accounted) :
    trace.numOfThreadCurrent ≤ 3 * trace.pool.servers.length := by
  have each : ∀ count ∈ (List.range trace.pool.servers.length).map
      (fun object => (trace.owned object).threads), count ≤ 3 := by
    intro count member
    obtain ⟨object, inRange, rfl⟩ := List.mem_map.mp member
    have found := List.getElem?_eq_getElem (List.mem_range.mp inRange)
    exact (accounted.each object _ found).2.trans (ReaderAt.threads_le _)
  have total := List.sum_le_card_nsmul _ 3 each
  rw [List.length_map, List.length_range, smul_eq_mul, Nat.mul_comm] at total
  exact total

theorem openSockets_le (trace : ResourceTrace) :
    trace.openSockets ≤ trace.pool.servers.length :=
  List.countP_le_length.trans_eq List.length_range

section Steps

variable {trace next : ResourceTrace}

theorem Accounted.main (accounted : trace.Accounted)
    (stepTo : resourceStep trace .main = some next) : next.Accounted := by
  obtain ⟨pool, stepped, rfl⟩ := Option.map_eq_some_iff.mp stepTo
  rcases ServerPool.mainStep_cases stepped with
    ⟨main, rfl⟩ | ⟨info, main, rfl⟩ | ⟨object, main, -, rfl | ⟨i, rfl⟩⟩
  · exact ⟨accounted.each, accounted.fresh⟩
  · constructor
    · intro object quoteServer found
      simp only [ServerPool.construct] at found
      rcases Nat.lt_or_ge object trace.pool.servers.length with old | new
      · rw [List.getElem?_append_left old] at found
        exact accounted.each object quoteServer found
      · rw [List.getElem?_append_right new, List.getElem?_singleton] at found
        split at found
        · obtain rfl := Option.some.inj found
          refine ⟨Server.start_valid, ?_⟩
          rw [accounted.fresh object new]
          exact le_rfl
        · cases found
    · intro object behind
      apply accounted.fresh
      simp only [ServerPool.construct, List.length_append] at behind
      omega
  · exact ⟨accounted.each, accounted.fresh⟩
  · exact ⟨accounted.each, accounted.fresh⟩

theorem Accounted.server (accounted : trace.Accounted) {object : Nat}
    {action : ServerAction}
    (stepTo : resourceStep trace (.server object action) = some next) :
    next.Accounted := by
  simp only [resourceStep, poolStep, Option.bind_eq_bind,
    Option.bind_eq_some_iff, Option.pure_def, Option.some.injEq] at stepTo
  obtain ⟨quoteServer, found, pool, ⟨same, foundSame, server, stepped, rfl⟩,
    rfl⟩ := stepTo
  obtain rfl := Option.some.inj (found.symm.trans foundSame)
  obtain ⟨valid, bounded⟩ := accounted.each object quoteServer found
  have inside := (List.getElem?_eq_some_iff.mp found).1
  constructor
  · intro other otherServer otherFound
    by_cases changed : other = object
    · subst changed
      rw [List.getElem?_set_self inside] at otherFound
      obtain rfl := Option.some.inj otherFound
      dsimp only
      rw [Function.update_self]
      exact ⟨valid.step stepped,
        Owned.after_threads_le valid bounded stepped⟩
    · rw [List.getElem?_set_ne (Ne.symm changed)] at otherFound
      dsimp only
      rw [Function.update_of_ne changed]
      exact accounted.each other otherServer otherFound
  · intro other behind
    dsimp only at behind ⊢
    rw [List.length_set] at behind
    rw [Function.update_of_ne (by omega)]
    exact accounted.fresh other behind

/-- The steps of the servers change neither their number nor the pool. -/
theorem frame_of_server {object : Nat} {action : ServerAction}
    (stepTo : resourceStep trace (.server object action) = some next) :
    next.pool.servers.length = trace.pool.servers.length ∧
      next.pool.m_vServerPool = trace.pool.m_vServerPool ∧
      next.pool.main = trace.pool.main ∧
      next.pool.m_vServerConfig = trace.pool.m_vServerConfig := by
  simp only [resourceStep, poolStep, Option.bind_eq_bind,
    Option.bind_eq_some_iff, Option.pure_def, Option.some.injEq] at stepTo
  obtain ⟨quoteServer, -, pool, ⟨same, -, server, -, rfl⟩, rfl⟩ := stepTo
  simp

end Steps

/-- The invariant of the runs that replace no server. -/
structure Kept (trace : ResourceTrace) : Prop where
  level : trace.pool.Level
  accounted : trace.Accounted

theorem start_kept (config : ServerConfig) : (start config).Kept :=
  ⟨ServerPool.start_level config, start_accounted config⟩

theorem Kept.contained {trace : ResourceTrace} (kept : trace.Kept) :
    trace.Contained := by
  have servers : trace.pool.servers.length ≤
      trace.pool.m_vServerConfig.nServerCount := by
    have count := kept.level.count
    have within := kept.level.within
    cases mainAt : trace.pool.main <;>
      simp only [mainAt, MainAt.unpooled] at count within <;> omega
  constructor
  · intro asleep
    have count := kept.level.count
    rw [asleep] at count
    exact count
  · have threads := kept.accounted.threads_le
    omega
  · exact trace.openSockets_le.trans servers

section Runs

variable {trace next : ResourceTrace}

theorem level_of_server (level : trace.pool.Level) {object : Nat}
    {action : ServerAction}
    (stepTo : resourceStep trace (.server object action) = some next) :
    next.pool.Level := by
  obtain ⟨serversEq, poolEq, mainEq, configEq⟩ := frame_of_server stepTo
  constructor
  · rw [serversEq, poolEq, mainEq]
    exact level.count
  · rw [poolEq, mainEq, configEq]
    exact level.within

theorem Kept.step {action : PoolAction} (kept : trace.Kept)
    (keeps : trace.KeepsServers action)
    (stepTo : resourceStep trace action = some next) : next.Kept := by
  cases action with
  | main =>
      have accounted := kept.accounted.main stepTo
      obtain ⟨pool, stepped, rfl⟩ := Option.map_eq_some_iff.mp stepTo
      exact ⟨kept.level.mainStep keeps stepped, accounted⟩
  | server object action =>
      exact ⟨level_of_server kept.level stepTo, kept.accounted.server stepTo⟩

/-- A step that replaces a server leaks it. -/
theorem Kept.leaks {action : PoolAction} (kept : trace.Kept)
    (replaces : ¬ trace.KeepsServers action)
    (stepTo : resourceStep trace action = some next) : next.pool.Leaks := by
  cases action with
  | main =>
      obtain ⟨pool, stepped, rfl⟩ := Option.map_eq_some_iff.mp stepTo
      exact kept.level.leaks_of_replaces (not_not.mp replaces) stepped
  | server object action => exact absurd trivial replaces

theorem leaks_step {action : PoolAction} (leaks : trace.pool.Leaks)
    (stepTo : resourceStep trace action = some next) : next.pool.Leaks := by
  cases action with
  | main =>
      obtain ⟨pool, stepped, rfl⟩ := Option.map_eq_some_iff.mp stepTo
      exact leaks.mainStep stepped
  | server object action =>
      obtain ⟨serversEq, poolEq, mainEq, -⟩ := frame_of_server stepTo
      unfold ServerPool.Leaks
      rw [serversEq, poolEq, mainEq]
      exact leaks

end Runs

end ResourceTrace

/-- A run that replaces no server stays within the bounds; and if it ends
between two passes, it stays within them only then. -/
theorem pool_contained_iff (config : ServerConfig)
    (actions : List PoolAction) :
    (MeetsAlong resourceStep ResourceTrace.KeepsServers (.start config)
        actions →
      HoldsAlong resourceStep ResourceTrace.Contained (.start config)
        actions) ∧
      ∀ last, execute resourceStep (.start config) actions = some last →
        last.pool.main = .asleep →
          (HoldsAlong resourceStep ResourceTrace.Contained (.start config)
              actions ↔
            MeetsAlong resourceStep ResourceTrace.KeepsServers
              (.start config) actions) := by
  have enough : MeetsAlong resourceStep ResourceTrace.KeepsServers
      (.start config) actions →
        HoldsAlong resourceStep ResourceTrace.Contained (.start config)
          actions := by
    intro met
    apply holdsAlong_of_meetsAlong _ _ (ResourceTrace.start_kept config) met
    · intro trace kept
      exact kept.contained
    · intro trace action next kept keeps stepTo
      exact kept.step keeps stepTo
  refine ⟨enough, ?_⟩
  intro last executed asleep
  refine ⟨?_, enough⟩
  intro contained
  have spared : ¬ last.pool.Leaks := by
    intro leaks
    have servers := (holds_of_execute contained executed).servers asleep
    unfold ServerPool.Leaks at leaks
    omega
  have each : ∀ before action after, ResourceTrace.Kept before →
      resourceStep before action = some after →
        (before.KeepsServers action ∧ after.Kept) ∨ after.pool.Leaks := by
    intro before action after kept stepTo
    by_cases keeps : before.KeepsServers action
    · exact Or.inl ⟨keeps, kept.step keeps stepTo⟩
    · exact Or.inr (kept.leaks keeps stepTo)
  exact meetsAlong_of_not_doomed each
    (fun _ _ _ leaks stepTo => ResourceTrace.leaks_step leaks stepTo)
    (ResourceTrace.start_kept config) executed spared

/-- The only server fails to connect, is replaced in the first pass, and stays
alive beside the new one. -/
theorem pool_leaks_server :
    ∃ trace, execute resourceStep (.start oneServer)
        (constructFailing 0 ++ [.main, .main, .main] ++ constructFailing 1 ++
          [.main, .main]) = some trace ∧
      trace.pool.main = .asleep ∧ trace.pool.servers.length = 2 ∧
      trace.pool.m_vServerPool.length = 1 ∧ trace.openSockets = 2 ∧
      ¬ trace.Contained := by
  have executed : ∃ trace, execute resourceStep (.start oneServer)
      (constructFailing 0 ++ [.main, .main, .main] ++ constructFailing 1 ++
        [.main, .main]) = some trace ∧
      trace.pool.main = .asleep ∧ trace.pool.servers.length = 2 ∧
      trace.pool.m_vServerPool.length = 1 ∧ trace.openSockets = 2 := by
    refine ⟨_, rfl, ?_⟩
    decide +kernel
  obtain ⟨trace, executed, asleep, servers, slots, sockets⟩ := executed
  refine ⟨trace, executed, asleep, servers, slots, sockets, ?_⟩
  intro contained
  have balance := contained.servers asleep
  omega

end ArstQuote
