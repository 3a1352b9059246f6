import ArstQuote.ServerPool
import Mathlib.Data.List.Nodup

/-!
# The slots of the server pool

`StartUpServers` fills the slots of `m_vServerPool` by index, while
`CheckClientVector` fills a slot again with every entry of the configuration
that has the name of the server in it.  Where each name is used once, a slot
keeps the entry it began with.  Entries that share a name take each other's
slots, and a server is constructed for each of them.
-/

namespace ArstQuote

open GuardedRuns

/-- `ReadConfigFile`, with what the key file holds under `IPnn`, `PORTnn` and
`NAMEnn`.  A negative `ServerCount` is as good as 0: the loops that compare with
it do not begin either way. -/
def readConfigFile (serverCount : Int) (entry : Nat → ServerInfo) :
    ServerConfig where
  nServerCount := serverCount.toNat
  vServerInfo := (List.range serverCount.toNat).map fun i => entry (i + 1)

/-- A pool with the slots that the pass under way, or else the last one, found
in `ssBreakdown`, and those it constructed a server for, one entry for each. -/
structure PassTrace where
  pool : ServerPool
  found : List Nat
  replaced : List Nat
  deriving DecidableEq

def PassTrace.start (config : ServerConfig) : PassTrace :=
  ⟨.start config, [], []⟩

/-- What a step of the main thread has found and replaced, by where it was and
where it went. -/
def PassTrace.after (trace : PassTrace) (pool : ServerPool) : PassTrace :=
  match trace.pool.main, pool.main with
  | .asleep, _ => ⟨pool, [], []⟩
  | .check i, .replace _ _ => ⟨pool, trace.found ++ [i], trace.replaced⟩
  | .replace i _, .replacing _ _ _ =>
      ⟨pool, trace.found, trace.replaced ++ [i]⟩
  | _, _ => ⟨pool, trace.found, trace.replaced⟩

@[simp]
theorem PassTrace.after_pool (trace : PassTrace) (pool : ServerPool) :
    (trace.after pool).pool = pool := by
  unfold PassTrace.after
  split <;> rfl

def passStep (trace : PassTrace) : PoolAction → Option PassTrace
  | .main => (poolStep trace.pool .main).map trace.after
  | .server object action =>
      (poolStep trace.pool (.server object action)).map fun pool =>
        { trace with pool := pool }

/-- `StartUpServers` has returned. -/
def MainAt.startedUp : MainAt → Bool
  | .startUp _ | .adding _ _ => false
  | _ => true

/-- The entry that an object was constructed for. -/
def ServerPool.entryOf (pool : ServerPool) (object : Nat) :
    Option ServerInfo :=
  pool.servers[object]?.map fun quoteServer =>
    ⟨quoteServer.m_strHost, quoteServer.m_strPara, quoteServer.m_strName⟩

/-- Once the servers are started up there is one slot for each entry, with a
server of that entry, and the pass has constructed at most one server for a
slot, and only for slots that it found in `ssBreakdown`. -/
structure PassTrace.KeepsSlots (trace : PassTrace) : Prop where
  count : trace.pool.main.startedUp → trace.pool.m_vServerPool.length =
    trace.pool.m_vServerConfig.nServerCount
  entries : ∀ i object : Nat, trace.pool.m_vServerPool[i]? = some object →
    ∃ info, trace.pool.m_vServerConfig.vServerInfo[i]? = some info ∧
      trace.pool.entryOf object = some info
  once : trace.replaced.Nodup
  broken : trace.replaced ⊆ trace.found

/-- Entries that share a name are the ones `CheckClientVector` skips. -/
def ServerConfig.DistinctNames (config : ServerConfig) : Prop :=
  ∀ i j : Nat, i < j → ∀ first second : ServerInfo,
    config.vServerInfo[i]? = some first →
      config.vServerInfo[j]? = some second →
      first.strName = second.strName → first.strName = "BITMEXFUND"

section Entries

variable {pool : ServerPool} {object : Nat} {info : ServerInfo}

/-- The steps of a server leave its entry. -/
theorem entryOf_set {quoteServer : QuoteServer} {changed : Nat}
    (found : pool.servers[changed]? = some quoteServer) (server : Server) :
    ServerPool.entryOf { pool with
      servers := pool.servers.set changed
        { quoteServer with server := server } } object =
      pool.entryOf object := by
  unfold ServerPool.entryOf
  rw [List.getElem?_set]
  by_cases same : changed = object
  · subst same
    have inside := (List.getElem?_eq_some_iff.mp found).1
    rw [if_pos rfl, if_pos inside, found]
    rfl
  · rw [if_neg same]

theorem entryOf_construct_of_some (new : ServerInfo) (main : Nat → MainAt)
    (known : pool.entryOf object = some info) :
    (pool.construct new main).entryOf object = some info := by
  obtain ⟨quoteServer, found, infoEq⟩ := Option.map_eq_some_iff.mp known
  have inside := (List.getElem?_eq_some_iff.mp found).1
  simp only [ServerPool.entryOf, ServerPool.construct,
    List.getElem?_append_left inside, found, Option.map_some, infoEq]

theorem entryOf_construct (new : ServerInfo) (main : Nat → MainAt) :
    (pool.construct new main).entryOf pool.servers.length = some new := by
  simp [ServerPool.entryOf, ServerPool.construct, QuoteServer.create]

/-- A new server leaves the entries of the pooled ones. -/
theorem map_entryOf_construct {pooled : List Nat} {infos : List ServerInfo}
    (known : pooled.map pool.entryOf = infos.map some) (new : ServerInfo)
    (main : Nat → MainAt) :
    pooled.map (pool.construct new main).entryOf = infos.map some := by
  rw [← known]
  apply List.map_congr_left
  intro object member
  have present : pool.entryOf object ∈ infos.map some :=
    known ▸ List.mem_map_of_mem member
  obtain ⟨info, -, infoEq⟩ := List.mem_map.mp present
  rw [← infoEq, entryOf_construct_of_some new main infoEq.symm]

end Entries

namespace PassTrace

/-- The pool and the ghosts, by where the main thread is. -/
def InPlace (trace : PassTrace) : Prop :=
  let slots := trace.pool.m_vServerPool.length
  let config := trace.pool.m_vServerConfig
  match trace.pool.main with
  | .startUp j => slots = j ∧ j ≤ config.nServerCount
  | .adding j object => slots = j ∧ ∃ info,
      config.vServerInfo[j]? = some info ∧
        trace.pool.entryOf object = some info
  | .asleep => slots = config.nServerCount
  | .check i => slots = config.nServerCount ∧ ∀ k ∈ trace.found, k < i
  | .replace i j => slots = config.nServerCount ∧ i ∈ trace.found ∧
      (∀ k ∈ trace.found, k ≤ i) ∧ (i ∈ trace.replaced → i < j)
  | .replacing i j object => slots = config.nServerCount ∧ i = j ∧
      i ∈ trace.found ∧ (∀ k ∈ trace.found, k ≤ i) ∧
        ∃ info, config.vServerInfo[i]? = some info ∧
          trace.pool.entryOf object = some info
  | .aborted => False

/-- The invariant: the slots filled so far hold servers of the first
entries. -/
structure Kept (trace : PassTrace) : Prop where
  read : trace.pool.m_vServerConfig.vServerInfo.length =
    trace.pool.m_vServerConfig.nServerCount
  distinct : trace.pool.m_vServerConfig.DistinctNames
  slots : trace.pool.m_vServerPool.map trace.pool.entryOf =
    (trace.pool.m_vServerConfig.vServerInfo.take
      trace.pool.m_vServerPool.length).map some
  inPlace : trace.InPlace
  once : trace.replaced.Nodup
  broken : trace.replaced ⊆ trace.found

theorem start_kept {config : ServerConfig}
    (read : config.vServerInfo.length = config.nServerCount)
    (distinct : config.DistinctNames) : (start config).Kept := by
  constructor
  · exact read
  · exact distinct
  · rfl
  · exact ⟨rfl, Nat.zero_le _⟩
  · exact List.nodup_nil
  · exact List.nil_subset _

theorem Kept.keepsSlots {trace : PassTrace} (kept : trace.Kept) :
    trace.KeepsSlots := by
  constructor
  · intro startedUp
    have inPlace := kept.inPlace
    cases mainAt : trace.pool.main <;>
      simp only [InPlace, mainAt, MainAt.startedUp] at inPlace startedUp
    case startUp => cases startedUp
    case adding => cases startedUp
    case asleep => exact inPlace
    all_goals exact inPlace.1
  · intro i object found
    have entry := congrArg (fun slots => slots[i]?) kept.slots
    simp only [List.getElem?_map, found, Option.map_some] at entry
    obtain ⟨info, infoAt, infoEq⟩ := Option.map_eq_some_iff.mp entry.symm
    rw [List.getElem?_take] at infoAt
    split at infoAt
    · exact ⟨info, infoAt, infoEq.symm⟩
    · cases infoAt
  · exact kept.once
  · exact kept.broken

section Steps

variable {trace next : PassTrace}

/-- The main thread moves on without a new server or slot. -/
theorem Kept.move (kept : trace.Kept) {main : MainAt}
    {found replaced : List Nat}
    (inPlace : InPlace ⟨{ trace.pool with main := main }, found, replaced⟩)
    (once : replaced.Nodup) (broken : replaced ⊆ found) :
    Kept ⟨{ trace.pool with main := main }, found, replaced⟩ :=
  ⟨kept.read, kept.distinct, kept.slots, inPlace, once, broken⟩

/-- A server is constructed. -/
theorem Kept.construct (kept : trace.Kept) (info : ServerInfo)
    (main : Nat → MainAt) {replaced : List Nat}
    (inPlace : InPlace ⟨trace.pool.construct info main, trace.found,
      replaced⟩)
    (once : replaced.Nodup) (broken : replaced ⊆ trace.found) :
    Kept ⟨trace.pool.construct info main, trace.found, replaced⟩ :=
  ⟨kept.read, kept.distinct, map_entryOf_construct kept.slots info main,
    inPlace, once, broken⟩

/-- The server in a slot has the name of the entry of that number. -/
theorem Kept.entryOf_slot (kept : trace.Kept) {i object : Nat}
    (pooled : trace.pool.m_vServerPool[i]? = some object) :
    ∃ info, trace.pool.m_vServerConfig.vServerInfo[i]? = some info ∧
      trace.pool.entryOf object = some info :=
  kept.keepsSlots.entries i object pooled

/-- With distinct names, the entry that matches the server in a slot is the
entry of that number. -/
theorem Kept.eq_of_match (kept : trace.Kept) {i j object : Nat}
    {info : ServerInfo} {quoteServer : QuoteServer}
    (infoAt : trace.pool.m_vServerConfig.vServerInfo[j]? = some info)
    (served : info.strName ≠ "BITMEXFUND")
    (pooled : trace.pool.m_vServerPool[i]? = some object)
    (serverAt : trace.pool.servers[object]? = some quoteServer)
    (matched : info.strName = quoteServer.m_strName) : i = j := by
  obtain ⟨own, ownAt, entry⟩ := kept.entryOf_slot pooled
  simp only [ServerPool.entryOf, serverAt, Option.map_some,
    Option.some.injEq] at entry
  have sameName : own.strName = info.strName := by
    rw [← entry, matched]
  rcases Nat.lt_trichotomy i j with before | same | behind
  · have skipped := kept.distinct i j before own info ownAt infoAt sameName
    exact absurd (sameName ▸ skipped) served
  · exact same
  · exact absurd (kept.distinct j i behind info own infoAt ownAt
      sameName.symm) served

/-- The new server gets the slot behind the others. -/
theorem Kept.pushBack (kept : trace.Kept) {j object : Nat}
    (mainAt : trace.pool.main = .adding j object) :
    Kept { trace with pool := { trace.pool with
      m_vServerPool := trace.pool.m_vServerPool ++ [object]
      main := .startUp (j + 1) } } := by
  have inPlace := kept.inPlace
  simp only [InPlace, mainAt] at inPlace
  obtain ⟨slotsEq, info, infoAt, entry⟩ := inPlace
  have within := (List.getElem?_eq_some_iff.mp infoAt).1
  refine ⟨kept.read, kept.distinct, ?_, ?_, kept.once, kept.broken⟩
  · have slots := kept.slots
    rw [slotsEq] at slots
    change (trace.pool.m_vServerPool ++ [object]).map trace.pool.entryOf =
      (trace.pool.m_vServerConfig.vServerInfo.take
        (trace.pool.m_vServerPool ++ [object]).length).map some
    rw [List.map_append, slots, List.length_append, slotsEq,
      List.length_singleton, List.take_add_one, infoAt, List.map_append,
      List.map_singleton, entry]
    rfl
  · rw [kept.read] at within
    change (trace.pool.m_vServerPool ++ [object]).length = j + 1 ∧ _
    rw [List.length_append, slotsEq]
    exact ⟨rfl, within⟩

/-- The new server takes its slot. -/
theorem Kept.store (kept : trace.Kept) {i j object : Nat}
    (mainAt : trace.pool.main = .replacing i j object) :
    Kept { trace with pool := { trace.pool with
      m_vServerPool := trace.pool.m_vServerPool.set i object
      main := .replace i (j + 1) } } := by
  have inPlace := kept.inPlace
  simp only [InPlace, mainAt] at inPlace
  obtain ⟨slotsEq, rfl, member, upTo, info, infoAt, entry⟩ := inPlace
  refine ⟨kept.read, kept.distinct, ?_, ?_, kept.once, kept.broken⟩
  · have ownSlot : ((trace.pool.m_vServerConfig.vServerInfo.take
        trace.pool.m_vServerPool.length).map some)[i]? =
          some (some info) := by
      rw [slotsEq, ← kept.read, List.take_length, List.getElem?_map, infoAt]
      rfl
    obtain ⟨inside, ownEq⟩ := List.getElem?_eq_some_iff.mp ownSlot
    change (trace.pool.m_vServerPool.set i object).map trace.pool.entryOf =
      (trace.pool.m_vServerConfig.vServerInfo.take
        (trace.pool.m_vServerPool.set i object).length).map some
    rw [List.map_set, kept.slots, entry, List.length_set, ← ownEq,
      List.set_getElem_self]
  · simp only [InPlace, List.length_set]
    exact ⟨slotsEq, member, upTo, fun _ => Nat.lt_succ_self i⟩

/-- A slot found broken is behind those found before, and not replaced yet. -/
theorem Kept.slotBroken (kept : trace.Kept) {i : Nat}
    (mainAt : trace.pool.main = .check i) :
    Kept ⟨{ trace.pool with main := .replace i 0 }, trace.found ++ [i],
      trace.replaced⟩ := by
  have inPlace := kept.inPlace
  simp only [InPlace, mainAt] at inPlace
  obtain ⟨slotsEq, earlier⟩ := inPlace
  apply kept.move _ kept.once
  · exact List.Subset.trans kept.broken (List.subset_append_left _ _)
  · refine ⟨slotsEq, by simp, ?_, ?_⟩
    · intro k member
      rcases List.mem_append.mp member with old | new
      · exact (earlier k old).le
      · exact (List.mem_singleton.mp new).le
    · intro member
      exact absurd (earlier i (kept.broken member)) (lt_irrefl i)

/-- The entry that matches is the slot's own, which has not been tried yet. -/
theorem Kept.entryMatches (kept : trace.Kept) {i j object : Nat}
    {info : ServerInfo} {quoteServer : QuoteServer}
    (mainAt : trace.pool.main = .replace i j)
    (infoAt : trace.pool.m_vServerConfig.vServerInfo[j]? = some info)
    (served : info.strName ≠ "BITMEXFUND")
    (pooled : trace.pool.m_vServerPool[i]? = some object)
    (serverAt : trace.pool.servers[object]? = some quoteServer)
    (matched : info.strName = quoteServer.m_strName) :
    Kept ⟨trace.pool.construct info (.replacing i j), trace.found,
      trace.replaced ++ [i]⟩ := by
  have inPlace := kept.inPlace
  simp only [InPlace, mainAt] at inPlace
  obtain ⟨slotsEq, member, upTo, passed⟩ := inPlace
  have own := kept.eq_of_match infoAt served pooled serverAt matched
  subst own
  have fresh : i ∉ trace.replaced := fun already =>
    lt_irrefl i (passed already)
  apply kept.construct info (.replacing i i)
  · exact ⟨slotsEq, rfl, member, upTo, info, infoAt,
      entryOf_construct info _⟩
  · rw [← List.concat_eq_append]
    exact List.Nodup.concat fresh kept.once
  · exact List.append_subset.mpr ⟨kept.broken, by simpa using member⟩

/-- An entry that does not match leaves the slot. -/
theorem Kept.entryPassed (kept : trace.Kept) {i j : Nat}
    (mainAt : trace.pool.main = .replace i j) :
    Kept ⟨{ trace.pool with main := .replace i (j + 1) }, trace.found,
      trace.replaced⟩ := by
  have inPlace := kept.inPlace
  simp only [InPlace, mainAt] at inPlace
  obtain ⟨slotsEq, member, upTo, passed⟩ := inPlace
  apply kept.move _ kept.once kept.broken
  exact ⟨slotsEq, member, upTo,
    fun already => (passed already).trans (Nat.lt_succ_self j)⟩

theorem Kept.main (kept : trace.Kept)
    (stepTo : passStep trace .main = some next) : next.Kept := by
  obtain ⟨pool, stepped, rfl⟩ := Option.map_eq_some_iff.mp stepTo
  have inPlace := kept.inPlace
  have read := kept.read
  cases ServerPool.mainMove_of_mainStep stepped with
  | addServer mainAt more infoAt =>
      simp only [InPlace, mainAt] at inPlace
      simp only [after, mainAt]
      apply kept.construct _ _ _ kept.once kept.broken
      exact ⟨inPlace.1, _, infoAt, entryOf_construct _ _⟩
  | addThrows mainAt more missing =>
      rw [List.getElem?_eq_none_iff] at missing
      omega
  | allAdded mainAt past =>
      simp only [InPlace, mainAt] at inPlace
      simp only [after, mainAt]
      apply kept.move _ kept.once kept.broken
      change trace.pool.m_vServerPool.length =
        trace.pool.m_vServerConfig.nServerCount
      omega
  | pushBack mainAt built =>
      simp only [after, mainAt]
      exact kept.pushBack mainAt
  | wake mainAt =>
      simp only [InPlace, mainAt] at inPlace
      simp only [after, mainAt]
      exact kept.move ⟨inPlace, by simp⟩ List.nodup_nil (List.nil_subset _)
  | passEnds mainAt past =>
      simp only [InPlace, mainAt] at inPlace
      simp only [after, mainAt]
      exact kept.move inPlace.1 kept.once kept.broken
  | slotBroken mainAt pooled serverAt broken =>
      simp only [after, mainAt]
      exact kept.slotBroken mainAt
  | slotSound mainAt pooled serverAt sound =>
      simp only [InPlace, mainAt] at inPlace
      simp only [after, mainAt]
      apply kept.move _ kept.once kept.broken
      exact ⟨inPlace.1,
        fun k member => (inPlace.2 k member).trans (Nat.lt_succ_self _)⟩
  | entryThrows mainAt more missing =>
      rw [List.getElem?_eq_none_iff] at missing
      omega
  | entrySkipped mainAt more infoAt skipped =>
      simp only [after, mainAt]
      exact kept.entryPassed mainAt
  | entryMatches mainAt more infoAt served pooled serverAt matched =>
      simp only [after, mainAt, ServerPool.construct]
      exact kept.entryMatches mainAt infoAt served pooled serverAt matched
  | entryDiffers mainAt more infoAt pooled serverAt differs =>
      simp only [after, mainAt]
      exact kept.entryPassed mainAt
  | entriesEnd mainAt past =>
      simp only [InPlace, mainAt] at inPlace
      simp only [after, mainAt]
      apply kept.move _ kept.once kept.broken
      exact ⟨inPlace.1,
        fun k found => Nat.lt_succ_of_le (inPlace.2.2.1 k found)⟩
  | store mainAt built =>
      simp only [after, mainAt]
      exact kept.store mainAt

theorem Kept.server (kept : trace.Kept) {object : Nat}
    {action : ServerAction}
    (stepTo : passStep trace (.server object action) = some next) :
    next.Kept := by
  obtain ⟨pool, stepped, rfl⟩ := Option.map_eq_some_iff.mp stepTo
  simp only [poolStep, Option.bind_eq_bind, Option.bind_eq_some_iff,
    Option.pure_def, Option.some.injEq] at stepped
  obtain ⟨quoteServer, found, server, -, rfl⟩ := stepped
  have same : ServerPool.entryOf { trace.pool with
      servers := trace.pool.servers.set object
        { quoteServer with server := server } } = trace.pool.entryOf := by
    funext other
    exact entryOf_set found server
  refine ⟨kept.read, kept.distinct, ?_, ?_, kept.once, kept.broken⟩
  · rw [same]
    exact kept.slots
  · have inPlace := kept.inPlace
    unfold InPlace at inPlace ⊢
    rw [same]
    exact inPlace

end Steps

/-- With distinct names every slot keeps its entry. -/
theorem keepsSlots_of_distinctNames {config : ServerConfig}
    (read : config.vServerInfo.length = config.nServerCount)
    (distinct : config.DistinctNames) {trace : PassTrace}
    (reaches : Reaches passStep (start config) trace) : trace.KeepsSlots := by
  have kept : trace.Kept := by
    apply invariant_of_reaches (start_kept read distinct) _ reaches
    intro before action after held stepTo
    cases action with
    | main => exact held.main stepTo
    | server object action => exact held.server stepTo
  exact kept.keepsSlots

section SharedName

variable {trace next : PassTrace}

/-- A server whose `connect` fails. -/
def failedServer : Server :=
  { Server.start with m_ssServerStatus := .breakdown, creator := .returned }

/-- The steps of one server, beside which the main thread stands still. -/
theorem execute_server {object : Nat} {quoteServer : QuoteServer}
    (found : trace.pool.servers[object]? = some quoteServer)
    {actions : List ServerAction} {server : Server}
    (executed : execute serverStep quoteServer.server actions = some server) :
    execute passStep trace (actions.map (PoolAction.server object)) =
      some { trace with pool := { trace.pool with
        servers := trace.pool.servers.set object
          { quoteServer with server := server } } } := by
  induction actions generalizing trace quoteServer with
  | nil =>
      obtain rfl := Option.some.inj executed
      obtain ⟨inside, rfl⟩ := List.getElem?_eq_some_iff.mp found
      change some trace = some { trace with pool := { trace.pool with
        servers := trace.pool.servers.set object trace.pool.servers[object] } }
      rw [List.set_getElem_self]
  | cons action actions ih =>
      obtain ⟨middle, stepTo, rest⟩ := Option.bind_eq_some_iff.mp executed
      have inside := (List.getElem?_eq_some_iff.mp found).1
      let after : PassTrace := { trace with pool := { trace.pool with
        servers := trace.pool.servers.set object
          { quoteServer with server := middle } } }
      have first : passStep trace (.server object action) = some after := by
        simp [passStep, poolStep, found, stepTo, after]
      have foundAfter : after.pool.servers[object]? =
          some { quoteServer with server := middle } :=
        List.getElem?_set_self inside
      rw [List.map_cons, execute, first, Option.bind_some, ih foundAfter rest]
      simp [after]

/-- A run in which every `connect` fails, at a step of the main thread. -/
structure AllFailed (config : ServerConfig) (main : MainAt)
    (trace : PassTrace) : Prop where
  reaches : Reaches passStep (start config) trace
  configEq : trace.pool.m_vServerConfig = config
  mainEq : trace.pool.main = main
  failed : ∀ quoteServer ∈ trace.pool.servers,
    quoteServer.server = failedServer

theorem start_allFailed (config : ServerConfig) :
    AllFailed config (.startUp 0) (start config) :=
  ⟨Relation.ReflTransGen.refl, rfl, rfl, by simp [start, ServerPool.start]⟩

theorem AllFailed.step {config : ServerConfig} {main : MainAt}
    (all : AllFailed config main trace) {pool : ServerPool}
    (stepped : trace.pool.mainStep = some pool) :
    Reaches passStep (start config) (trace.after pool) := by
  have stepTo : passStep trace .main = some (trace.after pool) := by
    simp [passStep, poolStep, stepped]
  exact all.reaches.trans (reachesWhen_single trivial stepTo)

/-- The main thread moves on without a new server. -/
theorem AllFailed.move {config : ServerConfig} {main : MainAt}
    (all : AllFailed config main trace) {m_vServerPool : List Nat}
    {after : MainAt}
    (stepped : trace.pool.mainStep = some { trace.pool with
      m_vServerPool := m_vServerPool, main := after }) :
    AllFailed config after (trace.after { trace.pool with
      m_vServerPool := m_vServerPool, main := after }) := by
  constructor
  · exact all.step stepped
  · rw [after_pool]
    exact all.configEq
  · rw [after_pool]
  · rw [after_pool]
    exact all.failed

/-- The constructor of a new server goes through its failed `connect`. -/
theorem AllFailed.construct {config : ServerConfig} {main : MainAt}
    (all : AllFailed config main trace) {info : ServerInfo}
    {after : Nat → MainAt}
    (stepped : trace.pool.mainStep = some (trace.pool.construct info after)) :
    ∃ built, AllFailed config (after trace.pool.servers.length) built ∧
      built.pool.Built trace.pool.servers.length ∧
      built.replaced =
        (trace.after (trace.pool.construct info after)).replaced := by
  let constructed := trace.after (trace.pool.construct info after)
  let object := trace.pool.servers.length
  let quoteServer : QuoteServer :=
    { QuoteServer.create info with server := failedServer }
  let built : PassTrace := { constructed with pool := { constructed.pool with
    servers := constructed.pool.servers.set object quoteServer } }
  have poolEq : constructed.pool = trace.pool.construct info after :=
    after_pool _ _
  have serversEq : constructed.pool.servers =
      trace.pool.servers ++ [QuoteServer.create info] := by
    rw [poolEq]
    rfl
  have found : constructed.pool.servers[object]? =
      some (QuoteServer.create info) := by
    rw [serversEq, List.getElem?_concat_length]
  have creation : execute serverStep (QuoteServer.create info).server
      [.create true, .create false, .create true] = some failedServer := rfl
  have reaches : Reaches passStep constructed built :=
    reaches_of_execute (execute_server found creation)
  refine ⟨built, ⟨(all.step stepped).trans reaches, ?_, ?_, ?_⟩, ?_, rfl⟩
  · change constructed.pool.m_vServerConfig = config
    rw [poolEq]
    exact all.configEq
  · change constructed.pool.main = after object
    rw [poolEq]
    rfl
  · intro other member
    have builtServers : constructed.pool.servers.set object quoteServer =
        trace.pool.servers ++ [quoteServer] := by
      simp [serversEq, object]
    change other ∈ constructed.pool.servers.set object quoteServer at member
    rw [builtServers] at member
    rcases List.mem_append.mp member with old | new
    · exact all.failed other old
    · rw [List.mem_singleton.mp new]
  · refine ⟨quoteServer, ?_, rfl⟩
    apply List.getElem?_set_self
    rw [serversEq, List.length_append]
    exact Nat.lt_succ_self object

theorem AllFailed.add {config : ServerConfig} {j : Nat}
    (read : config.vServerInfo.length = config.nServerCount)
    (all : AllFailed config (.startUp j) trace)
    (more : j < config.nServerCount) :
    ∃ next, AllFailed config (.startUp (j + 1)) next := by
  obtain ⟨info, infoAt⟩ : ∃ info, config.vServerInfo[j]? = some info :=
    ⟨_, List.getElem?_eq_getElem (read ▸ more)⟩
  have constructing : trace.pool.mainStep =
      some (trace.pool.construct info (.adding j)) := by
    simp [ServerPool.mainStep, all.mainEq, all.configEq, more, infoAt]
  obtain ⟨built, allBuilt, done, -⟩ := all.construct constructing
  have adding : built.pool.mainStep = some { built.pool with
      m_vServerPool := built.pool.m_vServerPool ++
        [trace.pool.servers.length]
      main := .startUp (j + 1) } := by
    simp [ServerPool.mainStep, allBuilt.mainEq, done]
  exact ⟨_, allBuilt.move adding⟩

theorem exists_startUp {config : ServerConfig}
    (read : config.vServerInfo.length = config.nServerCount) {j : Nat}
    (within : j ≤ config.nServerCount) :
    ∃ trace, AllFailed config (.startUp j) trace := by
  induction j with
  | zero => exact ⟨_, start_allFailed config⟩
  | succ j ih =>
      obtain ⟨trace, all⟩ := ih (Nat.le_of_succ_le within)
      exact all.add read within

/-- Supposing that the slots always keep their entries. -/
theorem AllFailed.slot {config : ServerConfig} {main : MainAt}
    (always : ∀ trace, Reaches passStep (start config) trace →
      trace.KeepsSlots)
    (all : AllFailed config main trace) (startedUp : main.startedUp)
    {i : Nat} (within : i < config.nServerCount) :
    ∃ object quoteServer info,
      trace.pool.m_vServerPool[i]? = some object ∧
      trace.pool.servers[object]? = some quoteServer ∧
      quoteServer.server = failedServer ∧
      config.vServerInfo[i]? = some info ∧
      quoteServer.m_strName = info.strName := by
  have keeps := always trace all.reaches
  have count := keeps.count (by rw [all.mainEq]; exact startedUp)
  rw [all.configEq] at count
  have pooled := List.getElem?_eq_getElem (count ▸ within)
  obtain ⟨info, infoAt, entry⟩ := keeps.entries i _ pooled
  rw [all.configEq] at infoAt
  obtain ⟨quoteServer, serverAt, rfl⟩ := Option.map_eq_some_iff.mp entry
  exact ⟨_, quoteServer, _, pooled, serverAt,
    all.failed _ (List.mem_of_getElem? serverAt), infoAt, rfl⟩

/-- The inner loop of a pass at one entry. -/
theorem AllFailed.tryEntry {config : ServerConfig} {i j : Nat}
    (always : ∀ trace, Reaches passStep (start config) trace →
      trace.KeepsSlots)
    (all : AllFailed config (.replace i j) trace)
    (slot : i < config.nServerCount) (more : j < config.nServerCount)
    {own entry : ServerInfo} (ownAt : config.vServerInfo[i]? = some own)
    (entryAt : config.vServerInfo[j]? = some entry) :
    ∃ next, AllFailed config (.replace i (j + 1)) next ∧
      next.replaced = trace.replaced ++
        if entry.strName ≠ "BITMEXFUND" ∧ entry.strName = own.strName then
          [i]
        else [] := by
  obtain ⟨object, quoteServer, info, pooled, serverAt, -, infoAt, nameEq⟩ :=
    all.slot always rfl slot
  obtain rfl := Option.some.inj (ownAt.symm.trans infoAt)
  by_cases replaces :
      entry.strName ≠ "BITMEXFUND" ∧ entry.strName = own.strName
  · have constructing : trace.pool.mainStep =
        some (trace.pool.construct entry (.replacing i j)) := by
      obtain ⟨served, matched⟩ := replaces
      rw [matched] at served
      simp [ServerPool.mainStep, all.mainEq, all.configEq, more, entryAt,
        served, pooled, serverAt, nameEq, matched]
    obtain ⟨built, allBuilt, done, replacedEq⟩ := all.construct constructing
    have storing : built.pool.mainStep = some { built.pool with
        m_vServerPool :=
          built.pool.m_vServerPool.set i trace.pool.servers.length
        main := .replace i (j + 1) } := by
      simp [ServerPool.mainStep, allBuilt.mainEq, done]
    refine ⟨_, allBuilt.move storing, ?_⟩
    rw [if_pos replaces]
    simp only [after, allBuilt.mainEq, all.mainEq, ServerPool.construct]
      at replacedEq ⊢
    exact replacedEq
  · have skipping : trace.pool.mainStep =
        some { trace.pool with main := .replace i (j + 1) } := by
      by_cases skipped : entry.strName = "BITMEXFUND"
      · simp [ServerPool.mainStep, all.mainEq, all.configEq, more, entryAt,
          skipped]
      · have differs : entry.strName ≠ own.strName :=
          fun same => replaces ⟨skipped, same⟩
        simp [ServerPool.mainStep, all.mainEq, all.configEq, more, entryAt,
          skipped, pooled, serverAt, nameEq, differs]
    refine ⟨_, all.move skipping, ?_⟩
    rw [if_neg replaces, List.append_nil]
    simp only [after, all.mainEq]

/-- The inner loop of a pass up to a later entry. -/
theorem AllFailed.tryEntries {config : ServerConfig} {i j : Nat}
    (read : config.vServerInfo.length = config.nServerCount)
    (always : ∀ trace, Reaches passStep (start config) trace →
      trace.KeepsSlots)
    (all : AllFailed config (.replace i j) trace)
    (slot : i < config.nServerCount) {count : Nat}
    (within : j + count ≤ config.nServerCount) :
    ∃ next, AllFailed config (.replace i (j + count)) next ∧
      trace.replaced ⊆ next.replaced := by
  induction count with
  | zero => exact ⟨trace, all, List.Subset.refl _⟩
  | succ count ih =>
      obtain ⟨middle, allMiddle, subset⟩ := ih (by omega)
      have more : j + count < config.nServerCount := by omega
      obtain ⟨next, allNext, replacedEq⟩ := allMiddle.tryEntry always slot
        more (List.getElem?_eq_getElem (read ▸ slot))
        (List.getElem?_eq_getElem (read ▸ more))
      refine ⟨next, allNext, List.Subset.trans subset ?_⟩
      rw [replacedEq]
      exact List.subset_append_left _ _

/-- A pass gets to every slot, all of which have broken down. -/
theorem exists_replace {config : ServerConfig}
    (read : config.vServerInfo.length = config.nServerCount)
    (always : ∀ trace, Reaches passStep (start config) trace →
      trace.KeepsSlots)
    {i : Nat} (slot : i < config.nServerCount) :
    ∃ trace, AllFailed config (.replace i 0) trace := by
  have enter : ∀ {i : Nat} {trace : PassTrace}, i < config.nServerCount →
      AllFailed config (.check i) trace →
        ∃ next, AllFailed config (.replace i 0) next := by
    intro i trace within all
    obtain ⟨object, quoteServer, info, pooled, serverAt, failed, -⟩ :=
      all.slot always rfl within
    have broken : trace.pool.mainStep =
        some { trace.pool with main := .replace i 0 } := by
      simp [ServerPool.mainStep, all.mainEq, pooled, serverAt, failed,
        failedServer]
    exact ⟨_, all.move broken⟩
  induction i with
  | zero =>
      obtain ⟨started, all⟩ := exists_startUp read le_rfl
      have returning : started.pool.mainStep =
          some { started.pool with main := .asleep } := by
        simp [ServerPool.mainStep, all.mainEq, all.configEq]
      obtain ⟨asleep, allAsleep⟩ :
          ∃ asleep, AllFailed config .asleep asleep :=
        ⟨_, all.move returning⟩
      have beginning : asleep.pool.mainStep =
          some { asleep.pool with main := .check 0 } := by
        simp [ServerPool.mainStep, allAsleep.mainEq]
      exact enter slot (allAsleep.move beginning)
  | succ i ih =>
      obtain ⟨first, all⟩ := ih (Nat.lt_of_succ_lt slot)
      have whole : 0 + config.nServerCount ≤ config.nServerCount := by omega
      obtain ⟨done, allDone, -⟩ :=
        all.tryEntries read always (Nat.lt_of_succ_lt slot) whole
      rw [Nat.zero_add] at allDone
      have leaving : done.pool.mainStep =
          some { done.pool with main := .check (i + 1) } := by
        simp [ServerPool.mainStep, allDone.mainEq, allDone.configEq]
      exact enter slot (allDone.move leaving)

/-- Of two entries with a name that is not skipped, the slot of the first is
replaced for both. -/
theorem distinctNames_of_keepsSlots {config : ServerConfig}
    (read : config.vServerInfo.length = config.nServerCount)
    (always : ∀ trace, Reaches passStep (start config) trace →
      trace.KeepsSlots) : config.DistinctNames := by
  intro i j before first second firstAt secondAt sameName
  by_contra served
  have more : j < config.nServerCount :=
    read ▸ (List.getElem?_eq_some_iff.mp secondAt).1
  have slot : i < config.nServerCount := before.trans more
  obtain ⟨atStart, allStart⟩ := exists_replace read always slot
  have toFirst : 0 + i ≤ config.nServerCount := by omega
  obtain ⟨atFirst, allFirst, -⟩ :=
    allStart.tryEntries read always slot toFirst
  rw [Nat.zero_add] at allFirst
  obtain ⟨behindFirst, allBehind, once⟩ :=
    allFirst.tryEntry always slot slot firstAt firstAt
  rw [if_pos ⟨served, rfl⟩] at once
  have toSecond : i + 1 + (j - (i + 1)) ≤ config.nServerCount := by omega
  obtain ⟨atSecond, allSecond, subset⟩ :=
    allBehind.tryEntries read always slot toSecond
  rw [show i + 1 + (j - (i + 1)) = j by omega] at allSecond
  obtain ⟨behindSecond, allEnd, twice⟩ :=
    allSecond.tryEntry always slot more firstAt secondAt
  rw [if_pos ⟨sameName ▸ served, sameName.symm⟩] at twice
  have already : i ∈ atSecond.replaced := by
    apply subset
    rw [once]
    exact List.mem_append_right _ (List.mem_singleton_self i)
  have nodup := (always behindSecond allEnd.reaches).once
  rw [twice, List.nodup_append] at nodup
  exact nodup.2.2 i already i (List.mem_singleton_self i) rfl

end SharedName

end PassTrace

/-- For every configuration that is read: in all runs each slot keeps serving
its own entry exactly if no two entries share a name, other than the one that
`CheckClientVector` skips. -/
theorem pool_keepsSlots_iff (serverCount : Int) (entry : Nat → ServerInfo) :
    (∀ trace, Reaches passStep (.start (readConfigFile serverCount entry))
        trace → trace.KeepsSlots) ↔
      (readConfigFile serverCount entry).DistinctNames := by
  have read : (readConfigFile serverCount entry).vServerInfo.length =
      (readConfigFile serverCount entry).nServerCount := by
    simp [readConfigFile]
  constructor
  · exact PassTrace.distinctNames_of_keepsSlots read
  · intro distinct trace reaches
    exact PassTrace.keepsSlots_of_distinctNames read distinct reaches

/-- Two sources under one name. -/
def sharedName : Nat → ServerInfo
  | 1 => ⟨"10.0.0.1", "8080", "BITMEX"⟩
  | _ => ⟨"10.0.0.2", "8081", "BITMEX"⟩

/-- The first pass constructs two servers for the first slot, and leaves the
second source in it. -/
theorem pool_loses_slot :
    ∃ trace, execute passStep (.start (readConfigFile 2 sharedName))
        (constructFailing 0 ++ constructFailing 1 ++ [.main, .main, .main] ++
          constructFailing 2 ++ constructFailing 3) = some trace ∧
      trace.replaced = [0, 0] ∧
      trace.pool.m_vServerPool[0]?.bind trace.pool.entryOf =
        some (sharedName 2) ∧
      ¬ trace.KeepsSlots := by
  have executed : ∃ trace, execute passStep
      (.start (readConfigFile 2 sharedName))
      (constructFailing 0 ++ constructFailing 1 ++ [.main, .main, .main] ++
        constructFailing 2 ++ constructFailing 3) = some trace ∧
      trace.replaced = [0, 0] ∧
      trace.pool.m_vServerPool[0]?.bind trace.pool.entryOf =
        some (sharedName 2) := by
    refine ⟨_, rfl, ?_, ?_⟩ <;> decide +kernel
  obtain ⟨trace, executed, replacedEq, entryEq⟩ := executed
  refine ⟨trace, executed, replacedEq, entryEq, ?_⟩
  intro keeps
  have once := keeps.once
  simp [replacedEq] at once

end ArstQuote
