import ArstQuote.RelayRuns
import Mathlib.Data.Fintype.Basic
import Mathlib.Data.List.Perm.Basic

/-!
# Several relay threads

Every `ARSTQueueDAO` starts a thread that executes `Run`, and all of them share
the static `hash_string`, the position saved by `strtok`, and `QueueLocal`.
Here each call of `strtok`, each append to the key, the membership test, the
push, the forwarding, the eviction and the clear is one step, and the steps of
the threads interleave in any way.
-/

namespace ArstQuote

open CString DelimitedTokens GuardedRuns

variable {Thread : Type*}

/-- Where a thread is in its iteration.  A token is a position in the token
buffer of some thread, not necessarily its own. -/
inductive RelayAt (Thread : Type*)
  | receive
  | firstToken
  | nextToken (gtaIndex : Nat)
  | append (gtaIndex : Nat) (token : Thread × Nat)
  | test
  | push
  | forward
  | evict
  | clear
  deriving DecidableEq

/-- From the first `strtok` of a message to its clear. -/
def RelayAt.inside : RelayAt Thread → Bool
  | .receive => false
  | .firstToken => false
  | _ => true

/-- The local variables of a thread, and the message it is handling. -/
structure RelayThread (Thread : Type*) where
  pc : RelayAt Thread
  queued : Bytes
  uncaRecvBufToken : Bytes
  uncaRecvBufPiece : Bytes
  uncaRecvBuf : Bytes
  readcount : Nat

/-- The threads with what they share.  `recorded` holds the messages whose
iterations have forwarded them or withheld them, and `forwarded` the texts
forwarded, both in order. -/
structure RelayThreads (Thread : Type*) where
  hashString : Bytes
  saved : Option (Thread × Nat)
  queueLocal : List Bytes
  threads : Thread → RelayThread Thread
  recorded : List (Thread × Bytes)
  forwarded : List Bytes

def RelayThread.start (Thread : Type*) : RelayThread Thread :=
  ⟨.receive, [], zeroed bufSize, zeroed bufSize, zeroed bufSize, 0⟩

def RelayThreads.start (Thread : Type*) : RelayThreads Thread :=
  ⟨[], none, [], fun _ => RelayThread.start Thread, [], []⟩

inductive RelayThreadsAction (Thread : Type*)
  | receive (thread : Thread) (queued : Bytes)
  | advance (thread : Thread)

section Step

variable [DecidableEq Thread]

def RelayThreads.setThread (relays : RelayThreads Thread) (thread : Thread)
    (locals : RelayThread Thread) : RelayThreads Thread :=
  { relays with threads := Function.update relays.threads thread locals }

def RelayThreads.goto (relays : RelayThreads Thread) (thread : Thread)
    (pc : RelayAt Thread) : RelayThreads Thread :=
  relays.setThread thread { relays.threads thread with pc := pc }

/-- A call of `strtok` changes the buffer it works on and the saved position. -/
def RelayThreads.afterStrtok (relays : RelayThreads Thread) (owner : Thread)
    (call : Strtok) : RelayThreads Thread :=
  { relays with saved := some (owner, call.saved) }.setThread owner
    { relays.threads owner with uncaRecvBufToken := call.array }

/-- `strtok(uncaRecvBufToken, ",")`. -/
def RelayThreads.firstToken (relays : RelayThreads Thread) (thread : Thread) :
    Option (RelayThreads Thread) :=
  (strtok (relays.threads thread).uncaRecvBufToken 0 comma).map fun call =>
    (relays.afterStrtok thread call).goto thread (.nextToken 0)

/-- `strtok(NULL, ",")` goes on where the last `strtok` of any thread
stopped. -/
def RelayThreads.nextToken (relays : RelayThreads Thread) (thread : Thread)
    (gtaIndex : Nat) : Option (RelayThreads Thread) :=
  relays.saved.bind fun (owner, position) =>
    (strtok (relays.threads owner).uncaRecvBufToken position comma).map
      fun call =>
        (relays.afterStrtok owner call).goto thread
          (match call.token with
            | none => .test
            | some token =>
                if isKeyPos (gtaIndex + 1) then
                  .append (gtaIndex + 1) (owner, token)
                else .nextToken (gtaIndex + 1))

/-- `hash_string += token`. -/
def RelayThreads.append (relays : RelayThreads Thread) (thread : Thread)
    (gtaIndex : Nat) (token : Thread × Nat) : Option (RelayThreads Thread) :=
  (stringAt (relays.threads token.1).uncaRecvBufToken token.2).map fun text =>
    { relays with hashString := relays.hashString ++ text }.goto thread
      (.nextToken gtaIndex)

/-- The accepted message goes into `uncaRecvBuf` and from there to the
clients. -/
def RelayThreads.forward (relays : RelayThreads Thread) (thread : Thread) :
    Option (RelayThreads Thread) :=
  let locals := relays.threads thread
  (gather locals.uncaRecvBuf locals.readcount locals.uncaRecvBufPiece).map
    fun gathered =>
      { relays with
        recorded := relays.recorded ++ [(thread, locals.queued)]
        forwarded := relays.forwarded ++ gathered.broadcast.toList }.setThread
          thread { locals with
            pc := .clear
            uncaRecvBuf := gathered.uncaRecvBuf
            readcount := gathered.readcount }

/-- The eviction loop, run for a message taken for a duplicate. -/
def RelayThreads.evict (relays : RelayThreads Thread) (thread : Thread) :
    Option (RelayThreads Thread) :=
  (evictQueueLocal relays.queueLocal).map fun kept =>
    { relays with
      queueLocal := kept
      recorded := relays.recorded ++
        [(thread, (relays.threads thread).queued)] }.goto thread .clear

/-- A message of positive length is handled; an empty one is passed over, and a
failed receive ends the process. -/
def RelayThreads.receive (relays : RelayThreads Thread) (thread : Thread)
    (queued : Bytes) : Option (RelayThreads Thread) :=
  (receiveMessage queued).bind fun (nGetMessage, token, piece) =>
    if nGetMessage < 0 then none
    else some (relays.setThread thread { relays.threads thread with
      pc := if 0 < nGetMessage then .firstToken else .receive
      queued := queued
      uncaRecvBufToken := token
      uncaRecvBufPiece := piece })

def relayThreadsStep (relays : RelayThreads Thread) :
    RelayThreadsAction Thread → Option (RelayThreads Thread)
  | .receive thread queued =>
      match (relays.threads thread).pc with
      | .receive => relays.receive thread queued
      | _ => none
  | .advance thread =>
      match (relays.threads thread).pc with
      | .receive => none
      | .firstToken => relays.firstToken thread
      | .nextToken gtaIndex => relays.nextToken thread gtaIndex
      | .append gtaIndex token => relays.append thread gtaIndex token
      | .test => some (relays.goto thread
          (if relays.hashString ∈ relays.queueLocal then .evict else .push))
      | .push => some ({ relays with
          queueLocal := relays.queueLocal ++ [relays.hashString] }.goto thread
            .forward)
      | .forward => relays.forward thread
      | .evict => relays.evict thread
      | .clear => some ({ relays with hashString := [] }.goto thread .receive)

end Step

/-- The key a thread tests is the key of its own message. -/
def RelayThreads.OwnKeys (relays : RelayThreads Thread) : Prop :=
  ∀ thread, (relays.threads thread).pc = .test →
    relays.hashString = dedupKey (payload (relays.threads thread).queued)

/-- The forwarded texts are those of the same messages handled one after the
other, those of each thread in its own order. -/
def RelayThreads.Serialisable [DecidableEq Thread]
    (relays : RelayThreads Thread) : Prop :=
  ∃ order : List (Thread × Bytes),
    (∀ thread, order.filter (·.1 = thread) =
      relays.recorded.filter (·.1 = thread)) ∧
    ∃ run, execute relayStep RelayRun.start (order.map Prod.snd) = some run ∧
      run.accepted.Perm relays.forwarded

/-- A thread begins to tokenise only while no other thread is between its first
`strtok` and its clear. -/
def Exclusive (relays : RelayThreads Thread) : RelayThreadsAction Thread → Prop
  | .receive _ _ => True
  | .advance thread => (relays.threads thread).pc = .firstToken →
      ∀ other, other ≠ thread → (relays.threads other).pc.inside = false

instance [Fintype Thread] [DecidableEq Thread]
    (relays : RelayThreads Thread) : DecidablePred (Exclusive relays)
  | .receive _ _ => isTrue trivial
  | .advance thread =>
      inferInstanceAs (Decidable ((relays.threads thread).pc = .firstToken →
        ∀ other, other ≠ thread → (relays.threads other).pc.inside = false))

/-- The buffers of a thread between two of its steps. -/
structure RelayThread.Valid (locals : RelayThread Thread) : Prop where
  uncaRecvBuf : locals.uncaRecvBuf = zeroed bufSize
  readcount : locals.readcount = 0
  loaded : locals.pc = .firstToken →
    locals.uncaRecvBufToken = received locals.queued
  taken : locals.pc ≠ .receive → locals.queued ≠ [] ∧ Fits locals.queued ∧
    locals.uncaRecvBufPiece = held (payload locals.queued)

/-- How far a thread has come with its message when the messages before it have
left the keys `window`. -/
def RelayThreads.Handling (relays : RelayThreads Thread) (thread : Thread)
    (window : List Bytes) : Prop :=
  let locals := relays.threads thread
  let key := dedupKey (payload locals.queued)
  match locals.pc with
  | .receive => False
  | .firstToken => False
  | .nextToken gtaIndex => relays.queueLocal = window ∧
      ∃ position rest, relays.saved = some (thread, position) ∧
        stringAt locals.uncaRecvBufToken position = some rest ∧
        relays.hashString ++ keyFrom (tokens comma rest) gtaIndex = key
  | .append gtaIndex token => relays.queueLocal = window ∧
      token.1 = thread ∧ ∃ position rest text,
        relays.saved = some (thread, position) ∧
        stringAt locals.uncaRecvBufToken token.2 = some text ∧
        stringAt locals.uncaRecvBufToken position = some rest ∧
        relays.hashString ++ text ++ keyFrom (tokens comma rest) gtaIndex = key
  | .test => relays.queueLocal = window ∧ relays.hashString = key
  | .push => relays.queueLocal = window ∧ relays.hashString = key ∧
      key ∉ window
  | .forward => relays.queueLocal = window ++ [key] ∧ key ∉ window
  | .evict => relays.queueLocal = window ∧ key ∈ window
  | .clear => relays.queueLocal = window

/-- No thread is handling a message, or exactly one is. -/
def RelayThreads.AtMostOne (relays : RelayThreads Thread)
    (window : List Bytes) : Prop :=
  ((∀ thread, (relays.threads thread).pc.inside = false) ∧
      relays.hashString = [] ∧ relays.queueLocal = window) ∨
    ∃ thread, (∀ other, other ≠ thread →
        (relays.threads other).pc.inside = false) ∧
      relays.Handling thread window

structure RelayThreads.Valid (relays : RelayThreads Thread) : Prop where
  locals : ∀ thread, (relays.threads thread).Valid
  serial : ∃ run,
    execute relayStep RelayRun.start (relays.recorded.map Prod.snd) =
        some run ∧
      run.accepted = relays.forwarded ∧
      relays.AtMostOne run.relay.queueLocal

section Handling

variable {relays next : RelayThreads Thread} {thread : Thread}
  {window : List Bytes}

theorem RelayThread.valid_of_receive {locals : RelayThread Thread}
    (uncaRecvBuf : locals.uncaRecvBuf = zeroed bufSize)
    (readcount : locals.readcount = 0) (place : locals.pc = .receive) :
    locals.Valid where
  uncaRecvBuf := uncaRecvBuf
  readcount := readcount
  loaded first := by simp [place] at first
  taken started := absurd place started

theorem RelayThreads.Handling.inside
    (handling : relays.Handling thread window) :
    (relays.threads thread).pc.inside = true := by
  unfold RelayThreads.Handling at handling
  cases place : (relays.threads thread).pc <;> simp [place] at handling <;> rfl

theorem RelayThreads.AtMostOne.handling (atMostOne : relays.AtMostOne window)
    (inside : (relays.threads thread).pc.inside = true) :
    (∀ other, other ≠ thread → (relays.threads other).pc.inside = false) ∧
      relays.Handling thread window := by
  rcases atMostOne with ⟨outside, -⟩ | ⟨own, others, handling⟩
  · rw [outside thread] at inside
    cases inside
  · by_cases same : thread = own
    · subst same
      exact ⟨others, handling⟩
    · rw [others thread same] at inside
      cases inside

theorem RelayThreads.AtMostOne.idle (atMostOne : relays.AtMostOne window)
    (outside : ∀ thread, (relays.threads thread).pc.inside = false) :
    relays.hashString = [] ∧ relays.queueLocal = window := by
  rcases atMostOne with ⟨-, idle⟩ | ⟨own, -, handling⟩
  · exact idle
  · have inside := handling.inside
    rw [outside own] at inside
    cases inside

theorem RelayThreads.Valid.ownKeys (valid : relays.Valid) :
    relays.OwnKeys := by
  intro thread atTest
  obtain ⟨run, -, -, atMostOne⟩ := valid.serial
  obtain ⟨-, handling⟩ := atMostOne.handling (by rw [atTest]; rfl)
  simp only [RelayThreads.Handling, atTest] at handling
  exact handling.2

theorem RelayThreads.Valid.serialisable [DecidableEq Thread]
    (valid : relays.Valid) : relays.Serialisable := by
  obtain ⟨run, executed, accepted, -⟩ := valid.serial
  exact ⟨relays.recorded, fun _ => rfl, run, executed, by rw [accepted]⟩

theorem RelayThreads.start_valid : (RelayThreads.start Thread).Valid where
  locals _ := ⟨rfl, rfl, by simp [start, RelayThread.start],
    by simp [start, RelayThread.start]⟩
  serial := ⟨RelayRun.start, rfl, rfl, Or.inl ⟨fun _ => rfl, rfl, rfl⟩⟩

/-- The local variables after a move within the iteration. -/
theorem RelayThread.Valid.move {locals : RelayThread Thread}
    (valid : locals.Valid) (started : locals.pc ≠ .receive)
    {pc : RelayAt Thread} (inside : pc.inside = true) (array : Bytes) :
    RelayThread.Valid
      { locals with pc := pc, uncaRecvBufToken := array } where
  uncaRecvBuf := valid.uncaRecvBuf
  readcount := valid.readcount
  loaded atFirst := by
    have first : pc = .firstToken := atFirst
    rw [first] at inside
    cases inside
  taken _ := valid.taken started

/-- A message is recorded once its iteration has done what a whole iteration
would have done at once. -/
theorem execute_record {recorded : List (Thread × Bytes)} {queued : Bytes}
    {run after : RelayRun}
    (executed : execute relayStep RelayRun.start (recorded.map Prod.snd) =
      some run) (stepTo : relayStep run queued = some after)
    (thread : Thread) :
    execute relayStep RelayRun.start
      ((recorded ++ [(thread, queued)]).map Prod.snd) = some after := by
  rw [List.map_append, execute_append, executed, Option.bind_some]
  simp [execute, stepTo]

variable [DecidableEq Thread]

theorem afterStrtok_goto (relays : RelayThreads Thread) (thread : Thread)
    (call : Strtok) (pc : RelayAt Thread) :
    (relays.afterStrtok thread call).goto thread pc = { relays with
      saved := some (thread, call.saved)
      threads := Function.update relays.threads thread
        { relays.threads thread with
          pc := pc
          uncaRecvBufToken := call.array } } := by
  simp [RelayThreads.afterStrtok, RelayThreads.goto, RelayThreads.setThread]

theorem locals_of_update (valid : relays.Valid)
    {locals : RelayThread Thread} (own : locals.Valid)
    (threads : next.threads = Function.update relays.threads thread locals) :
    ∀ other, (next.threads other).Valid := by
  intro other
  rw [threads]
  by_cases same : other = thread
  · subst same
    rw [Function.update_self]
    exact own
  · rw [Function.update_of_ne same]
    exact valid.locals other

theorem outside_of_update {locals : RelayThread Thread}
    (threads : next.threads = Function.update relays.threads thread locals)
    (others : ∀ other, other ≠ thread →
      (relays.threads other).pc.inside = false) :
    ∀ other, other ≠ thread → (next.threads other).pc.inside = false := by
  intro other different
  rw [threads, Function.update_of_ne different]
  exact others other different

/-- The thread is inside after a step that kept the others outside. -/
theorem RelayThreads.Valid.of_handling (valid : relays.Valid)
    {locals : RelayThread Thread} (own : locals.Valid)
    (threads : next.threads = Function.update relays.threads thread locals)
    (others : ∀ other, other ≠ thread →
      (relays.threads other).pc.inside = false)
    {run : RelayRun}
    (executed : execute relayStep RelayRun.start
      (next.recorded.map Prod.snd) = some run)
    (accepted : run.accepted = next.forwarded)
    (handling : next.Handling thread run.relay.queueLocal) : next.Valid where
  locals := locals_of_update valid own threads
  serial := ⟨run, executed, accepted,
    Or.inr ⟨thread, outside_of_update threads others, handling⟩⟩

/-- The thread goes on within its iteration. -/
theorem RelayThreads.Valid.moved (valid : relays.Valid)
    (inside : (relays.threads thread).pc.inside = true) {pc : RelayAt Thread}
    (stays : pc.inside = true) {array : Bytes}
    (threads : next.threads = Function.update relays.threads thread
      { relays.threads thread with pc := pc, uncaRecvBufToken := array })
    (recorded : next.recorded = relays.recorded)
    (forwarded : next.forwarded = relays.forwarded)
    (handling : ∀ window, relays.Handling thread window →
      next.Handling thread window) : next.Valid := by
  obtain ⟨run, executed, accepted, atMostOne⟩ := valid.serial
  obtain ⟨others, before⟩ := atMostOne.handling inside
  have started : (relays.threads thread).pc ≠ .receive := by
    intro place
    rw [place] at inside
    cases inside
  rw [← recorded] at executed
  rw [← forwarded] at accepted
  exact valid.of_handling ((valid.locals thread).move started stays array)
    threads others executed accepted (handling _ before)

theorem RelayThreads.Valid.firstToken (valid : relays.Valid)
    (place : (relays.threads thread).pc = .firstToken)
    (others : ∀ other, other ≠ thread →
      (relays.threads other).pc.inside = false)
    (stepTo : relays.firstToken thread = some next) : next.Valid := by
  obtain ⟨run, executed, accepted, atMostOne⟩ := valid.serial
  have own := valid.locals thread
  have started : (relays.threads thread).pc ≠ .receive := by simp [place]
  have outside : ∀ other, (relays.threads other).pc.inside = false := by
    intro other
    by_cases same : other = thread
    · rw [same, place]
      rfl
    · exact others other same
  obtain ⟨empty, window⟩ := atMostOne.idle outside
  have read := stringAt_received (own.taken started).2.1
  rw [← own.loaded place] at read
  obtain ⟨call, rest, called, restRead, -, key⟩ := strtok_first read
  simp only [RelayThreads.firstToken, called, Option.map_some,
    Option.some.injEq, afterStrtok_goto] at stepTo
  subst stepTo
  refine valid.of_handling (own.move started rfl call.array) rfl others
    executed accepted ?_
  simp only [RelayThreads.Handling, Function.update_self]
  exact ⟨window, call.saved, rest, rfl, restRead, by rw [empty]; exact key⟩

theorem RelayThreads.Valid.nextToken (valid : relays.Valid) {gtaIndex : Nat}
    (place : (relays.threads thread).pc = .nextToken gtaIndex)
    (stepTo : relays.nextToken thread gtaIndex = some next) : next.Valid := by
  have inside : (relays.threads thread).pc.inside = true := by rw [place]; rfl
  obtain ⟨run, -, -, atMostOne⟩ := valid.serial
  obtain ⟨-, now⟩ := atMostOne.handling inside
  simp only [RelayThreads.Handling, place] at now
  obtain ⟨-, position, text, saved, read, -⟩ := now
  obtain ⟨call, rest, called, restRead, outcome⟩ := strtok_next read gtaIndex
  simp only [RelayThreads.nextToken, saved, Option.bind_some, called,
    Option.map_some, Option.some.injEq, afterStrtok_goto] at stepTo
  -- The saved position is the thread's own, so the text read is the one the
  -- key is still to be completed from.
  have handled : ∀ window, relays.Handling thread window →
      relays.queueLocal = window ∧
        relays.hashString ++ keyFrom (tokens comma text) gtaIndex =
          dedupKey (payload (relays.threads thread).queued) := by
    intro window handling
    simp only [RelayThreads.Handling, place] at handling
    obtain ⟨window, position', text', saved', read', key⟩ := handling
    rw [saved, Option.some.injEq, Prod.mk.injEq] at saved'
    rw [← saved'.2, read, Option.some.injEq] at read'
    exact ⟨window, read' ▸ key⟩
  subst stepTo
  rcases outcome with ⟨token, complete⟩ |
    ⟨first, word, token, wordRead, -, further⟩
  · simp only [token]
    refine valid.moved inside rfl rfl rfl rfl ?_
    intro window handling
    obtain ⟨same, key⟩ := handled window handling
    simp only [RelayThreads.Handling, Function.update_self]
    rw [complete, List.append_nil] at key
    exact ⟨same, key⟩
  · simp only [token]
    by_cases keyPos : isKeyPos (gtaIndex + 1) = true
    · simp only [keyPos, if_true] at further ⊢
      refine valid.moved inside rfl rfl rfl rfl ?_
      intro window handling
      obtain ⟨same, key⟩ := handled window handling
      simp only [RelayThreads.Handling, Function.update_self]
      rw [further, ← List.append_assoc] at key
      exact ⟨same, trivial, call.saved, rest, word, rfl, wordRead, restRead,
        key⟩
    · simp only [keyPos] at further ⊢
      refine valid.moved inside rfl rfl rfl rfl ?_
      intro window handling
      obtain ⟨same, key⟩ := handled window handling
      simp only [RelayThreads.Handling, Function.update_self]
      rw [further] at key
      exact ⟨same, call.saved, rest, rfl, restRead, key⟩

theorem RelayThreads.Valid.append (valid : relays.Valid) {gtaIndex : Nat}
    {token : Thread × Nat}
    (place : (relays.threads thread).pc = .append gtaIndex token)
    (stepTo : relays.append thread gtaIndex token = some next) :
    next.Valid := by
  have inside : (relays.threads thread).pc.inside = true := by rw [place]; rfl
  obtain ⟨text, read, same⟩ := Option.map_eq_some_iff.mp stepTo
  subst same
  refine valid.moved inside rfl rfl rfl rfl ?_
  intro window handling
  simp only [RelayThreads.Handling, place] at handling
  obtain ⟨same, owner, position, rest, text', saved, read', restRead, key⟩ :=
    handling
  rw [owner, read', Option.some.injEq] at read
  simp only [RelayThreads.Handling, RelayThreads.goto, RelayThreads.setThread,
    Function.update_self]
  exact ⟨same, position, rest, saved, restRead, read ▸ key⟩

theorem RelayThreads.Valid.test (valid : relays.Valid)
    (place : (relays.threads thread).pc = .test) :
    (relays.goto thread (if relays.hashString ∈ relays.queueLocal then .evict
      else .push)).Valid := by
  have inside : (relays.threads thread).pc.inside = true := by rw [place]; rfl
  by_cases known : relays.hashString ∈ relays.queueLocal
  · rw [if_pos known]
    refine valid.moved inside rfl rfl rfl rfl ?_
    intro window handling
    simp only [RelayThreads.Handling, place] at handling
    obtain ⟨same, key⟩ := handling
    rw [key, same] at known
    simp only [RelayThreads.Handling, RelayThreads.goto,
      RelayThreads.setThread, Function.update_self]
    exact ⟨same, known⟩
  · rw [if_neg known]
    refine valid.moved inside rfl rfl rfl rfl ?_
    intro window handling
    simp only [RelayThreads.Handling, place] at handling
    obtain ⟨same, key⟩ := handling
    rw [key, same] at known
    simp only [RelayThreads.Handling, RelayThreads.goto,
      RelayThreads.setThread, Function.update_self]
    exact ⟨same, key, known⟩

theorem RelayThreads.Valid.push (valid : relays.Valid)
    (place : (relays.threads thread).pc = .push) :
    ({ relays with
      queueLocal := relays.queueLocal ++ [relays.hashString] }.goto thread
        .forward).Valid := by
  have inside : (relays.threads thread).pc.inside = true := by rw [place]; rfl
  refine valid.moved inside rfl rfl rfl rfl ?_
  intro window handling
  simp only [RelayThreads.Handling, place] at handling
  obtain ⟨same, key, fresh⟩ := handling
  simp only [RelayThreads.Handling, RelayThreads.goto, RelayThreads.setThread,
    Function.update_self]
  exact ⟨by rw [same, key], fresh⟩

theorem RelayThreads.Valid.forward (valid : relays.Valid)
    (place : (relays.threads thread).pc = .forward)
    (stepTo : relays.forward thread = some next) : next.Valid := by
  obtain ⟨run, executed, accepted, atMostOne⟩ := valid.serial
  have own := valid.locals thread
  have started : (relays.threads thread).pc ≠ .receive := by simp [place]
  obtain ⟨nonempty, fits, piece⟩ := own.taken started
  obtain ⟨others, handling⟩ := atMostOne.handling (by rw [place]; rfl)
  simp only [RelayThreads.Handling, place] at handling
  obtain ⟨window, fresh⟩ := handling
  have gathered := gather_zeroed (payload_clean (relays.threads thread).queued)
    (payload_lt fits)
  simp only [RelayThreads.forward, own.uncaRecvBuf, own.readcount, piece,
    gathered, Option.map_some, Option.some.injEq] at stepTo
  subst stepTo
  have ready := (RelayRun.valid_of_execute executed).ready
  have recorded := execute_record executed
    (relayStep_of_fresh ready nonempty fits fresh) thread
  refine valid.of_handling ⟨rfl, rfl, by simp, ?_⟩ rfl others recorded ?_ ?_
  · intro _
    exact ⟨nonempty, fits, rfl⟩
  · rw [accepted]
    rfl
  · simp only [RelayThreads.Handling, RelayThreads.setThread,
      Function.update_self]
    exact window

theorem RelayThreads.Valid.evict (valid : relays.Valid)
    (place : (relays.threads thread).pc = .evict)
    (stepTo : relays.evict thread = some next) : next.Valid := by
  obtain ⟨run, executed, accepted, atMostOne⟩ := valid.serial
  have own := valid.locals thread
  have started : (relays.threads thread).pc ≠ .receive := by simp [place]
  obtain ⟨nonempty, fits, -⟩ := own.taken started
  obtain ⟨others, handling⟩ := atMostOne.handling (by rw [place]; rfl)
  simp only [RelayThreads.Handling, place] at handling
  obtain ⟨window, known⟩ := handling
  obtain ⟨kept, evicted, same⟩ := Option.map_eq_some_iff.mp stepTo
  subst same
  rw [window] at evicted
  have ready := (RelayRun.valid_of_execute executed).ready
  have recorded := execute_record executed
    (relayStep_of_known ready nonempty fits known evicted) thread
  refine valid.of_handling (own.move started rfl _) rfl others recorded
    accepted ?_
  simp only [RelayThreads.Handling, RelayThreads.goto, RelayThreads.setThread,
    Function.update_self]
  rfl

theorem RelayThreads.Valid.clear (valid : relays.Valid)
    (place : (relays.threads thread).pc = .clear) :
    ({ relays with hashString := [] }.goto thread .receive).Valid := by
  obtain ⟨run, executed, accepted, atMostOne⟩ := valid.serial
  have own := valid.locals thread
  obtain ⟨others, handling⟩ := atMostOne.handling (by rw [place]; rfl)
  simp only [RelayThreads.Handling, place] at handling
  have after : RelayThread.Valid
      ({ relays.threads thread with pc := .receive } : RelayThread Thread) :=
    RelayThread.valid_of_receive own.uncaRecvBuf own.readcount rfl
  refine ⟨locals_of_update valid after rfl, run, executed, accepted,
    Or.inl ⟨?_, rfl, handling⟩⟩
  intro other
  by_cases same : other = thread
  · subst same
    simp [RelayThreads.goto, RelayThreads.setThread, RelayAt.inside]
  · exact outside_of_update rfl others other same

theorem RelayThreads.Handling.of_other {locals : RelayThread Thread}
    {other : Thread} (handling : relays.Handling other window)
    (different : other ≠ thread) :
    (relays.setThread thread locals).Handling other window := by
  simp only [RelayThreads.Handling, RelayThreads.setThread,
    Function.update_of_ne different]
  exact handling

/-- A thread that stays outside disturbs nobody. -/
theorem RelayThreads.Valid.of_outside (valid : relays.Valid)
    (outside : (relays.threads thread).pc.inside = false)
    {locals : RelayThread Thread} (own : locals.Valid)
    (stays : locals.pc.inside = false) :
    (relays.setThread thread locals).Valid := by
  obtain ⟨run, executed, accepted, atMostOne⟩ := valid.serial
  refine ⟨locals_of_update valid own rfl, run, executed, accepted, ?_⟩
  rcases atMostOne with ⟨idle, empty, window⟩ | ⟨busy, others, handling⟩
  · refine Or.inl ⟨?_, empty, window⟩
    intro other
    by_cases same : other = thread
    · subst same
      simpa [RelayThreads.setThread] using stays
    · exact outside_of_update rfl (fun other _ => idle other) other same
  · have different : busy ≠ thread := by
      rintro rfl
      rw [handling.inside] at outside
      cases outside
    refine Or.inr ⟨busy, ?_, handling.of_other different⟩
    intro other notBusy
    by_cases same : other = thread
    · subst same
      simpa [RelayThreads.setThread] using stays
    · simpa [RelayThreads.setThread, Function.update_of_ne same] using
        others other notBusy

theorem RelayThreads.Valid.receive (valid : relays.Valid) {queued : Bytes}
    (place : (relays.threads thread).pc = .receive)
    (stepTo : relays.receive thread queued = some next) : next.Valid := by
  have own := valid.locals thread
  have outside : (relays.threads thread).pc.inside = false := by
    rw [place]
    rfl
  by_cases fits : Fits queued
  · by_cases empty : queued = []
    · subst empty
      simp only [RelayThreads.receive, receiveMessage_nil, Option.bind_some,
        Int.lt_irrefl, if_false, Option.some.injEq] at stepTo
      subst stepTo
      exact valid.of_outside outside
        (RelayThread.valid_of_receive own.uncaRecvBuf own.readcount rfl) rfl
    · have positive := List.length_pos_iff.mpr empty
      have nonnegative : ¬ (queued.length : Int) < 0 := by omega
      have some' : 0 < (queued.length : Int) := by omega
      simp only [RelayThreads.receive, receiveMessage_of_fits empty fits,
        Option.bind_some, nonnegative, some', if_true, if_false,
        Option.some.injEq] at stepTo
      subst stepTo
      exact valid.of_outside outside ⟨own.uncaRecvBuf, own.readcount,
        fun _ => rfl, fun _ => ⟨empty, fits, rfl⟩⟩ rfl
  · rcases receiveMessage_of_not_fits fits with refused | overrun
    · simp [RelayThreads.receive, refused] at stepTo
    · simp [RelayThreads.receive, overrun] at stepTo

theorem RelayThreads.Valid.step {action : RelayThreadsAction Thread}
    (valid : relays.Valid) (exclusive : Exclusive relays action)
    (stepTo : relayThreadsStep relays action = some next) : next.Valid := by
  cases action with
  | receive thread queued =>
      simp only [relayThreadsStep] at stepTo
      split at stepTo
      · next place => exact valid.receive place stepTo
      · cases stepTo
  | advance thread =>
      simp only [relayThreadsStep] at stepTo
      split at stepTo
      · cases stepTo
      · next place => exact valid.firstToken place (exclusive place) stepTo
      · next place => exact valid.nextToken place stepTo
      · next place => exact valid.append place stepTo
      · next place =>
          cases stepTo
          exact valid.test place
      · next place =>
          cases stepTo
          exact valid.push place
      · next place => exact valid.forward place stepTo
      · next place => exact valid.evict place stepTo
      · next place =>
          cases stepTo
          exact valid.clear place

end Handling

/-- In every run in which a thread begins to tokenise only while no other thread
is between its first `strtok` and its clear, every key tested is that of the
thread's own message and the texts forwarded are those of a serial order. -/
theorem relayThreads_serialisable [DecidableEq Thread]
    {actions : List (RelayThreadsAction Thread)}
    (exclusive : MeetsAlong relayThreadsStep Exclusive
      (RelayThreads.start Thread) actions) :
    HoldsAlong relayThreadsStep
      (fun relays => relays.OwnKeys ∧ relays.Serialisable)
      (RelayThreads.start Thread) actions := by
  apply holdsAlong_of_meetsAlong _ _ RelayThreads.start_valid exclusive
  · intro relays valid
    exact ⟨valid.ownKeys, valid.serialisable⟩
  · intro relays action next valid met stepTo
    exact valid.step met stepTo

/-- `0,0,0,7`. -/
def tick : Bytes :=
  [48, 44, 48, 44, 48, 44, 55]

/-- `0,0,0,8`. -/
def laterTick : Bytes :=
  [48, 44, 48, 44, 48, 44, 56]

/-- Each of two threads receives its next message while the other is inside its
iteration, and waits with its first `strtok` until the other has cleared its
key. -/
def ticksInTurn : List (RelayThreadsAction Bool) :=
  [.receive false tick, .advance false, .receive true tick] ++
    List.replicate 9 (.advance false) ++
    [.advance true, .receive false laterTick] ++
    List.replicate 8 (.advance true) ++ List.replicate 10 (.advance false)

/-- The second thread's copy of the first tick is withheld. -/
theorem relayThreads_serialisable_inTurn :
    HoldsAlong relayThreadsStep
        (fun relays => relays.OwnKeys ∧ relays.Serialisable)
        (RelayThreads.start Bool) ticksInTurn ∧
      (execute relayThreadsStep (RelayThreads.start Bool) ticksInTurn).map
          (fun relays => (relays.recorded, relays.forwarded)) =
        some ([(false, tick), (true, tick), (false, laterTick)],
          [tick, laterTick]) :=
  ⟨relayThreads_serialisable (by decide +kernel), by decide +kernel⟩

theorem perm_of_filter_eq [DecidableEq Thread]
    {order recorded : List (Thread × Bytes)}
    (each : ∀ thread, order.filter (·.1 = thread) =
      recorded.filter (·.1 = thread)) : order.Perm recorded := by
  rw [List.perm_iff_count]
  intro entry
  have counts := congrArg (List.count entry) (each entry.1)
  rwa [List.count_filter (by simp), List.count_filter (by simp)] at counts

/-- Whatever the order, the second of two equal messages is withheld. -/
theorem not_serialisable_of_twice {relays : RelayThreads Bool}
    (recorded : relays.recorded = [(false, tick), (true, tick)])
    (forwarded : relays.forwarded = [tick, tick]) :
    ¬ relays.Serialisable := by
  rintro ⟨order, each, run, executed, accepted⟩
  have messages : (order.map Prod.snd).Perm (List.replicate 2 tick) := by
    have same := (perm_of_filter_eq each).map Prod.snd
    rwa [recorded] at same
  have once : (execute relayStep RelayRun.start [tick, tick]).map
      RelayRun.accepted = some [tick] := by
    decide +kernel
  rw [List.perm_replicate.mp messages] at executed
  rw [show [tick, tick] = List.replicate 2 tick from rfl, executed,
    Option.map_some, Option.some.injEq] at once
  rw [once, forwarded] at accepted
  have lengths := accepted.length_eq
  simp at lengths

/-- Two threads receive the same tick, and the second calls its first `strtok`
between the first `strtok` of the first and its next one.  The first thread then
builds its key from the second's buffer, the second finds no token left, and
both forward the tick. -/
theorem relayThreads_forward_twice :
    ∃ relays, execute relayThreadsStep (RelayThreads.start Bool)
        ([.receive false tick, .receive true tick, .advance false,
            .advance true] ++
          List.replicate 9 (.advance false) ++
          List.replicate 5 (.advance true)) = some relays ∧
      relays.forwarded = [tick, tick] ∧ ¬ relays.Serialisable := by
  have run : (execute relayThreadsStep (RelayThreads.start Bool)
      ([.receive false tick, .receive true tick, .advance false,
          .advance true] ++
        List.replicate 9 (.advance false) ++
        List.replicate 5 (.advance true))).map
          (fun relays => (relays.recorded, relays.forwarded)) =
        some ([(false, tick), (true, tick)], [tick, tick]) := by
    decide +kernel
  obtain ⟨relays, executed, same⟩ := Option.map_eq_some_iff.mp run
  rw [Prod.mk.injEq] at same
  exact ⟨relays, executed, same.2, not_serialisable_of_twice same.1 same.2⟩

end ArstQuote
