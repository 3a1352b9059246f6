import ArstQuote.DedupKey
import ArstQuote.EvictingWindow
import Mathlib.Tactic.Push

/-!
# One iteration of the relay loop

`ARSTQueueDAO::Run` takes a message from its queue, builds the key of the
message, and either broadcasts the message and remembers the key in
`QueueLocal`, or, when the key is there already, withholds the message and
shortens `QueueLocal`.  An iteration fails when a string function would leave
its buffer, and ends the process when the receive fails.
-/

namespace ArstQuote

open CString

def bufSize : Nat := 1500
def queueLocalSize : Nat := 1000
def mergeCount : Nat := 1

/-- `ARSTQueue::GetMessage`.  A queue message longer than `BUFSIZE` makes
`msgrcv` fail, since `MSG_NOERROR` is not given. -/
def getMessage (queued pBuf : Bytes) : Option (Int × Bytes) :=
  if queued.length ≤ bufSize then
    if 0 < queued.length then
      (memcpy pBuf 0 queued).map fun filled => (queued.length, filled)
    else some (0, pBuf)
  else some (-1, pBuf)

/-- The variables of the loop that live from one iteration to the next. -/
structure Relay where
  hashString : Bytes
  queueLocal : List Bytes
  uncaRecvBuf : Bytes
  readcount : Nat

/-- The variables as the loop is entered, with an empty `QueueLocal`. -/
def Relay.start : Relay where
  hashString := []
  queueLocal := []
  uncaRecvBuf := zeroed bufSize
  readcount := 0

/-- `while(QueueLocal.size() > (QUEUELOCALSIZE / 4 * 3))`, erasing 250 keys at
a time; `none` when an erase leaves the vector or the loop does not end. -/
def evictQueueLocal (queueLocal : List Bytes) : Option (List Bytes) :=
  EvictingWindow.evict (queueLocalSize / 4 * 3) 250 queueLocal.length
    queueLocal

/-- Why an iteration does not come to its end. -/
inductive Abort
  | exit
  | outOfBounds
  deriving DecidableEq

def checked {α : Type} : Option α → Except Abort α
  | none => .error .outOfBounds
  | some value => .ok value

/-- What an iteration did: the loop variables after it, the text handed to the
clients, and whether the message was taken for a duplicate. -/
structure Iterated where
  relay : Relay
  broadcast : Option Bytes
  duplicate : Bool

/-- What `GetMessage` returns for a message, with the token buffer it was read
into and the copy of that buffer. -/
def receiveMessage (queued : Bytes) : Option (Int × Bytes × Bytes) :=
  (getMessage queued (zeroed bufSize)).bind fun (nGetMessage, token) =>
    (strcpy (zeroed bufSize) 0 token).map fun piece =>
      (nGetMessage, token, piece)

/-- `uncaRecvBuf` and `readcount` once a message is accepted, and the text that
is broadcast. -/
structure Gathered where
  uncaRecvBuf : Bytes
  readcount : Nat
  broadcast : Option Bytes

/-- An accepted message is added to `uncaRecvBuf`, which is broadcast and
cleared when `MERGE_COUNT` messages are there. -/
def gather (uncaRecvBuf : Bytes) (readcount : Nat) (uncaRecvBufPiece : Bytes) :
    Option Gathered := do
  let filled ← strlen uncaRecvBuf
  let uncaRecvBuf ← strcpy uncaRecvBuf filled uncaRecvBufPiece
  let readcount := readcount + 1
  if mergeCount ≤ readcount then
    let length ← strlen uncaRecvBuf
    return ⟨zeroed bufSize, 0, some (uncaRecvBuf.take length)⟩
  else
    return ⟨uncaRecvBuf, readcount, none⟩

/-- The body of `while(m_pRecvQueue)`, for the message at the head of the
queue. -/
def runIteration (relay : Relay) (queued : Bytes) :
    Except Abort Iterated := do
  let (nGetMessage, uncaRecvBufToken, uncaRecvBufPiece) ←
    checked (receiveMessage queued)
  if 0 < nGetMessage then
    let hashString ← checked (appendKey uncaRecvBufToken relay.hashString)
    if hashString ∉ relay.queueLocal then
      let queueLocal := relay.queueLocal ++ [hashString]
      let gathered ← checked
        (gather relay.uncaRecvBuf relay.readcount uncaRecvBufPiece)
      return ⟨⟨[], queueLocal, gathered.uncaRecvBuf, gathered.readcount⟩,
        gathered.broadcast, false⟩
    else
      let queueLocal ← checked (evictQueueLocal relay.queueLocal)
      return ⟨⟨[], queueLocal, relay.uncaRecvBuf, relay.readcount⟩,
        none, true⟩
  else if nGetMessage < 0 then
    throw .exit
  else
    return ⟨relay, none, false⟩

/-- The text of a message: its bytes up to the first NUL. -/
def payload (queued : Bytes) : Bytes :=
  queued.takeWhile (· ≠ 0)

/-- The string functions stay inside the buffers that hold the message. -/
def Fits (queued : Bytes) : Prop :=
  queued.length < bufSize ∨ queued.length = bufSize ∧ 0 ∈ queued

/-- The variables that only this loop uses are clean, as at its top. -/
structure Relay.Cleared (relay : Relay) : Prop where
  uncaRecvBuf : relay.uncaRecvBuf = zeroed bufSize
  readcount : relay.readcount = 0

/-- The scratch variables are clean, as at the top of the loop. -/
structure Relay.Ready (relay : Relay) : Prop where
  hashString : relay.hashString = []
  uncaRecvBuf : relay.uncaRecvBuf = zeroed bufSize
  readcount : relay.readcount = 0

theorem Relay.start_ready : Relay.start.Ready :=
  ⟨rfl, rfl, rfl⟩

theorem Relay.start_cleared : Relay.start.Cleared :=
  ⟨rfl, rfl⟩

theorem Relay.Ready.cleared {relay : Relay} (ready : relay.Ready) :
    relay.Cleared :=
  ⟨ready.uncaRecvBuf, ready.readcount⟩

theorem payload_of_clean {queued : Bytes} (clean : 0 ∉ queued) :
    payload queued = queued := by
  unfold payload
  rw [List.takeWhile_eq_self_iff]
  intro byte member
  simpa using fun zero : byte = 0 => clean (zero ▸ member)

theorem payload_clean (queued : Bytes) : 0 ∉ payload queued := by
  intro member
  simpa using List.mem_takeWhile_imp member

theorem fits_of_lt {queued : Bytes} (short : queued.length < bufSize) :
    Fits queued :=
  Or.inl short

/-- The token buffer once a message has been received into it. -/
def received (queued : Bytes) : Bytes :=
  queued ++ zeroed (bufSize - queued.length)

/-- A buffer that holds a text, its NUL and zeros. -/
def held (text : Bytes) : Bytes :=
  text ++ 0 :: zeroed (bufSize - (text.length + 1))

theorem getMessage_eq {queued : Bytes} (nonempty : queued ≠ [])
    (bound : queued.length ≤ bufSize) :
    getMessage queued (zeroed bufSize) =
      some ((queued.length : Int), received queued) := by
  have positive := List.length_pos_iff.mpr nonempty
  simp [getMessage, memcpy, bound, positive, received, zeroed]

private theorem takeWhile_received (queued : Bytes) :
    (received queued).takeWhile (· ≠ 0) = payload queued := by
  unfold received payload
  rw [List.takeWhile_append]
  split
  case isTrue whole =>
    rw [(List.takeWhile_sublist _).eq_of_length whole]
    cases bufSize - queued.length <;> simp [zeroed, List.replicate_succ]
  case isFalse => rfl

theorem stringAt_received {queued : Bytes} (fits : Fits queued) :
    stringAt (received queued) 0 = some (payload queued) := by
  have zeroMem : 0 ∈ received queued := by
    rcases fits with short | ⟨-, member⟩
    · simp only [received, zeroed, List.mem_append, List.mem_replicate]
      exact Or.inr ⟨by omega, trivial⟩
    · exact List.mem_append_left _ member
  rw [stringAt, List.drop_zero, if_pos zeroMem, takeWhile_received]

theorem received_length {queued : Bytes} (bound : queued.length ≤ bufSize) :
    (received queued).length = bufSize := by
  simp [received]
  omega

theorem Fits.length_le {queued : Bytes} (fits : Fits queued) :
    queued.length ≤ bufSize := by
  rcases fits with short | ⟨full, -⟩ <;> omega

theorem payload_lt {queued : Bytes} (fits : Fits queued) :
    (payload queued).length < bufSize := by
  have bound := length_lt_of_stringAt (stringAt_received fits)
  rw [received_length fits.length_le] at bound
  omega

theorem stringAt_held (text : Bytes) (clean : 0 ∉ text) :
    stringAt (held text) 0 = some text :=
  stringAt_append clean [] _

/-- Copying a string into a zeroed buffer. -/
theorem strcpy_zeroed {source text : Bytes}
    (read : stringAt source 0 = some text) (short : text.length < bufSize) :
    strcpy (zeroed bufSize) 0 source = some (held text) := by
  rw [strcpy_of_stringAt read (by simpa using short)]
  simp [held, zeroed]

theorem strlen_zeroed : strlen (zeroed bufSize) = some 0 := by
  have read := stringAt_held [] List.not_mem_nil
  rw [strlen, show zeroed bufSize = held [] from rfl, read]
  rfl

/-- Eviction never leaves the vector, and it ends. -/
theorem exists_evictQueueLocal (queueLocal : List Bytes) :
    ∃ kept, evictQueueLocal queueLocal = some kept := by
  obtain ⟨kept, evicted, -⟩ :=
    EvictingWindow.evict_spec (show 0 < 250 by decide)
      (show 250 ≤ queueLocalSize / 4 * 3 + 1 by decide)
      (le_refl queueLocal.length)
  exact ⟨kept, evicted⟩

/-- The loop variables as the loop is entered, but for `QueueLocal`. -/
def Relay.withWindow (queueLocal : List Bytes) : Relay :=
  { Relay.start with queueLocal := queueLocal }

theorem Relay.withWindow_ready (queueLocal : List Bytes) :
    (Relay.withWindow queueLocal).Ready :=
  ⟨rfl, rfl, rfl⟩

@[simp]
theorem Relay.withWindow_queueLocal (queueLocal : List Bytes) :
    (Relay.withWindow queueLocal).queueLocal = queueLocal :=
  rfl

theorem receiveMessage_nil :
    receiveMessage [] = some (0, zeroed bufSize, held []) := by
  have copied : strcpy (zeroed bufSize) 0 (zeroed bufSize) =
      some (held []) :=
    strcpy_zeroed (stringAt_held [] List.not_mem_nil) (by decide)
  simp [receiveMessage, getMessage, copied]

theorem receiveMessage_of_fits {queued : Bytes} (nonempty : queued ≠ [])
    (fits : Fits queued) :
    receiveMessage queued = some ((queued.length : Int), received queued,
      held (payload queued)) := by
  have piece := strcpy_zeroed (stringAt_received fits) (payload_lt fits)
  simp [receiveMessage, getMessage_eq nonempty fits.length_le, piece]

/-- The queue refuses a message longer than the buffers. -/
theorem receiveMessage_of_long {queued : Bytes}
    (long : bufSize < queued.length) :
    receiveMessage queued = some (-1, zeroed bufSize, held []) := by
  have tooLong : getMessage queued (zeroed bufSize) =
      some (-1, zeroed bufSize) := by
    simp [getMessage, Nat.not_le.mpr long]
  have copied : strcpy (zeroed bufSize) 0 (zeroed bufSize) =
      some (held []) :=
    strcpy_zeroed (stringAt_held [] List.not_mem_nil) (by decide)
  simp [receiveMessage, tooLong, copied]

/-- Any other message is refused by the queue or runs over a buffer. -/
theorem receiveMessage_of_not_fits {queued : Bytes} (unfit : ¬ Fits queued) :
    receiveMessage queued = some (-1, zeroed bufSize, held []) ∨
      receiveMessage queued = none := by
  unfold Fits at unfit
  push Not at unfit
  by_cases long : bufSize < queued.length
  · exact Or.inl (receiveMessage_of_long long)
  · right
    have full : queued.length = bufSize := by omega
    have nonempty : queued ≠ [] := by
      rintro rfl
      cases full
    have unread : stringAt (received queued) 0 = none := by
      simp [stringAt, received, full, zeroed, unfit.2 full]
    simp [receiveMessage, getMessage_eq nonempty full.le, strcpy, unread]

/-- With a clean buffer the accepted text is broadcast at once. -/
theorem gather_zeroed {text : Bytes} (clean : 0 ∉ text)
    (short : text.length < bufSize) :
    gather (zeroed bufSize) 0 (held text) =
      some ⟨zeroed bufSize, 0, some text⟩ := by
  have read := stringAt_held text clean
  have copied := strcpy_zeroed read short
  have length : strlen (held text) = some text.length := by
    rw [strlen, read]
    rfl
  have whole : (held text).take text.length = text := List.take_left
  simp [gather, strlen_zeroed, copied, mergeCount, length, whole]

theorem runIteration_nil (relay : Relay) :
    runIteration relay [] = .ok ⟨relay, none, false⟩ := by
  simp [runIteration, receiveMessage_nil, checked, bind, Except.bind, pure,
    Except.pure]

section Received

variable {relay : Relay} {queued : Bytes}

/-- Whatever stands in `hash_string` goes in front of the key of the message;
a text whose key is not in the window then is broadcast. -/
theorem runIteration_of_new (cleared : relay.Cleared) (nonempty : queued ≠ [])
    (fits : Fits queued)
    (fresh : relay.hashString ++ dedupKey (payload queued) ∉
      relay.queueLocal) :
    runIteration relay queued = .ok
      ⟨Relay.withWindow (relay.queueLocal ++
          [relay.hashString ++ dedupKey (payload queued)]),
        some (payload queued), false⟩ := by
  have positive := List.length_pos_iff.mpr nonempty
  have gathered := gather_zeroed (payload_clean queued) (payload_lt fits)
  simp [runIteration, receiveMessage_of_fits nonempty fits, checked,
    appendKey_eq (stringAt_received fits), cleared.uncaRecvBuf,
    cleared.readcount, positive, fresh, gathered, Relay.withWindow,
    Relay.start, bind, Except.bind, pure, Except.pure]

/-- A text whose key is in the window is withheld and the window shortened. -/
theorem runIteration_of_old (cleared : relay.Cleared) (nonempty : queued ≠ [])
    (fits : Fits queued)
    (known : relay.hashString ++ dedupKey (payload queued) ∈ relay.queueLocal)
    {kept : List Bytes}
    (evicted : evictQueueLocal relay.queueLocal = some kept) :
    runIteration relay queued =
      .ok ⟨Relay.withWindow kept, none, true⟩ := by
  have positive := List.length_pos_iff.mpr nonempty
  simp [runIteration, receiveMessage_of_fits nonempty fits, checked,
    appendKey_eq (stringAt_received fits), cleared.uncaRecvBuf,
    cleared.readcount, positive, known, evicted, Relay.withWindow,
    Relay.start, bind, Except.bind, pure, Except.pure]

/-- A message whose key is not in the window is broadcast and its key
remembered. -/
theorem runIteration_of_fresh (ready : relay.Ready) (nonempty : queued ≠ [])
    (fits : Fits queued)
    (fresh : dedupKey (payload queued) ∉ relay.queueLocal) :
    runIteration relay queued = .ok
      ⟨Relay.withWindow (relay.queueLocal ++ [dedupKey (payload queued)]),
        some (payload queued), false⟩ := by
  have iterated := runIteration_of_new ready.cleared nonempty fits
    (by rw [ready.hashString]; exact fresh)
  rw [ready.hashString] at iterated
  exact iterated

/-- A message whose key is in the window is withheld and the window
shortened. -/
theorem runIteration_of_duplicate (ready : relay.Ready)
    (nonempty : queued ≠ []) (fits : Fits queued)
    (known : dedupKey (payload queued) ∈ relay.queueLocal)
    {kept : List Bytes}
    (evicted : evictQueueLocal relay.queueLocal = some kept) :
    runIteration relay queued =
      .ok ⟨Relay.withWindow kept, none, true⟩ := by
  apply runIteration_of_old ready.cleared nonempty fits _ evicted
  rw [ready.hashString]
  exact known

/-- An iteration that ends normally had a message that fits its buffers. -/
theorem fits_of_runIteration {result : Iterated}
    (ended : runIteration relay queued = .ok result) : Fits queued := by
  by_contra unfit
  rcases receiveMessage_of_not_fits unfit with refused | overrun
  · simp [runIteration, refused, checked, bind, Except.bind, throw, throwThe,
      MonadExceptOf.throw] at ended
  · simp [runIteration, overrun, checked, bind, Except.bind] at ended

end Received

end ArstQuote
