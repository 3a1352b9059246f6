import ArstQuote.CString
import ArstQuote.GuardedRuns
import ArstQuote.RelayIteration
import Mathlib.Data.Fintype.Basic
import Mathlib.Data.List.Perm.Basic

/-!
# Several callers of one message queue

`ARSTQueue::SendMessage` fills the member `m_QueueMessage` and hands it to
`msgsnd`.  The reader threads of several servers may share one queue object,
and nothing keeps a second caller from filling the member between the `memcpy`
and the `msgsnd` of a first.
-/

namespace ArstQuote

open CString GuardedRuns

variable {Thread : Type*}

/-- `struct ARSTQueueMessage`. -/
structure QueueMessage where
  lMessageType : Int
  uncaMessageBuf : Bytes

/-- The statement of `SendMessage` a caller is about to execute. -/
inductive SendMessageAt
  | setType
  | memset
  | memcpy
  | msgsnd
  deriving DecidableEq

/-- A call of `SendMessage` under way. -/
structure SendMessageCall where
  pBuf : Bytes
  nSize : Nat
  lType : Int
  next : SendMessageAt

/-- The text a caller passes. -/
def SendMessageCall.payload (call : SendMessageCall) : Bytes :=
  call.pBuf.take call.nSize

/-- One queue object with its callers.  `put` holds the messages that `msgsnd`
has put on the kernel queue, and `sent` the texts passed to those calls. -/
structure SendQueue (Thread : Type*) where
  message : QueueMessage
  calls : Thread → Option SendMessageCall
  put : List (Int × Bytes)
  sent : List Bytes

def SendQueue.start (Thread : Type*) : SendQueue Thread :=
  ⟨⟨0, zeroed bufSize⟩, fun _ => none, [], []⟩

inductive SendQueueAction (Thread : Type*)
  | call (thread : Thread) (pBuf : Bytes) (nSize : Nat) (lType : Int)
  | proceed (thread : Thread)
  | msgsnd (thread : Thread) (succeeds : Bool)

/-- `memcpy(m_QueueMessage.uncaMessageBuf, pBuf, nSize)`; `none` when it leaves
one of the buffers. -/
def SendMessageCall.fill (call : SendMessageCall) (buffer : Bytes) :
    Option Bytes :=
  if call.nSize ≤ call.pBuf.length then memcpy buffer 0 call.payload else none

/-- One of the three statements before `msgsnd`. -/
def SendMessageCall.proceed (call : SendMessageCall) (message : QueueMessage) :
    Option (SendMessageCall × QueueMessage) :=
  match call.next with
  | .setType =>
      some ({ call with next := .memset },
        { message with lMessageType := call.lType })
  | .memset =>
      some ({ call with next := .memcpy },
        { message with uncaMessageBuf := zeroed bufSize })
  | .memcpy =>
      (call.fill message.uncaMessageBuf).map fun buffer =>
        ({ call with next := .msgsnd },
          { message with uncaMessageBuf := buffer })
  | .msgsnd => none

def sendQueueStep [DecidableEq Thread] (queue : SendQueue Thread) :
    SendQueueAction Thread → Option (SendQueue Thread)
  | .call thread pBuf nSize lType =>
      match queue.calls thread with
      | some _ => none
      | none => some { queue with
          calls := Function.update queue.calls thread
            (some ⟨pBuf, nSize, lType, .setType⟩) }
  | .proceed thread =>
      match queue.calls thread with
      | none => none
      | some call =>
          (call.proceed queue.message).map fun (call, message) =>
            { queue with
              message := message
              calls := Function.update queue.calls thread (some call) }
  | .msgsnd thread succeeds =>
      match queue.calls thread with
      | none => none
      | some call =>
          if call.next = .msgsnd then
            if succeeds then
              some { queue with
                calls := Function.update queue.calls thread none
                put := queue.put ++ [(queue.message.lMessageType,
                  queue.message.uncaMessageBuf.take call.nSize)]
                sent := queue.sent ++ [call.payload] }
            else
              some { queue with
                calls := Function.update queue.calls thread none }
          else none

/-- A caller clears or fills the buffer only while no other caller is between
its `memcpy` and its `msgsnd`. -/
def BufferFree (queue : SendQueue Thread) : SendQueueAction Thread → Prop
  | .proceed thread => ∀ call, queue.calls thread = some call →
      call.next = .memset ∨ call.next = .memcpy →
      ∀ other, other ≠ thread → ∀ waiting,
        queue.calls other = some waiting → waiting.next ≠ .msgsnd
  | .call _ _ _ _ => True
  | .msgsnd _ _ => True

instance [Fintype Thread] [DecidableEq Thread] (queue : SendQueue Thread) :
    DecidablePred (BufferFree queue)
  | .proceed thread =>
      decidable_of_iff
        (∀ call ∈ queue.calls thread,
          call.next = .memset ∨ call.next = .memcpy →
            ∀ other, other ≠ thread → ∀ waiting ∈ queue.calls other,
              waiting.next ≠ .msgsnd)
        Iff.rfl
  | .call _ _ _ _ | .msgsnd _ _ => isTrue trivial

/-- The buffer holds the text of every caller that is about to send it. -/
structure SendQueue.Valid (queue : SendQueue Thread) : Prop where
  filled : ∀ thread call, queue.calls thread = some call →
    call.next = .msgsnd →
      queue.message.uncaMessageBuf.take call.nSize = call.payload
  delivered : queue.put.map Prod.snd = queue.sent

theorem take_of_fill {call : SendMessageCall} {buffer filled : Bytes}
    (fills : call.fill buffer = some filled) :
    filled.take call.nSize = call.payload := by
  unfold SendMessageCall.fill memcpy at fills
  split at fills
  case isFalse => cases fills
  case isTrue enough =>
    split at fills
    case isFalse => cases fills
    case isTrue =>
      have length : call.payload.length = call.nSize := by
        rw [SendMessageCall.payload, List.length_take]
        omega
      rw [Option.some.injEq, List.take_zero, List.nil_append] at fills
      rw [← fills, List.take_left' length]

/-- What a caller does before its `msgsnd`: set the type, or write the buffer,
which then holds its text if the call goes on to `msgsnd`. -/
theorem proceed_cases {call rest : SendMessageCall}
    {message filled : QueueMessage}
    (proceeds : call.proceed message = some (rest, filled)) :
    (filled.uncaMessageBuf = message.uncaMessageBuf ∨
        call.next = .memset ∨ call.next = .memcpy) ∧
      (rest.next = .msgsnd →
        filled.uncaMessageBuf.take rest.nSize = rest.payload) := by
  unfold SendMessageCall.proceed at proceeds
  split at proceeds
  · cases proceeds
    exact ⟨Or.inl rfl, fun next => by cases next⟩
  · next atMemset =>
      cases proceeds
      exact ⟨Or.inr (Or.inl atMemset), fun next => by cases next⟩
  · next atMemcpy =>
      obtain ⟨buffer, fills, same⟩ := Option.map_eq_some_iff.mp proceeds
      cases same
      exact ⟨Or.inr (Or.inr atMemcpy), fun _ => take_of_fill fills⟩
  · cases proceeds

theorem SendQueue.start_valid : (SendQueue.start Thread).Valid where
  filled := by simp [start]
  delivered := rfl

theorem SendQueue.Valid.step [DecidableEq Thread]
    {queue next : SendQueue Thread} {action : SendQueueAction Thread}
    (valid : queue.Valid) (free : BufferFree queue action)
    (stepTo : sendQueueStep queue action = some next) : next.Valid := by
  -- A caller waiting for its `msgsnd` after the step was waiting before, with
  -- the buffer unchanged, or is the one that has just filled the buffer.
  cases action with
  | call thread pBuf nSize lType =>
      simp only [sendQueueStep] at stepTo
      split at stepTo
      · cases stepTo
      · cases stepTo
        refine ⟨?_, valid.delivered⟩
        intro other call found waits
        rcases eq_some_of_update found with ⟨-, new⟩ | ⟨-, before⟩
        · rw [Option.some.injEq] at new
          subst new
          cases waits
        · exact valid.filled other call before waits
  | proceed thread =>
      simp only [sendQueueStep] at stepTo
      split at stepTo
      · cases stepTo
      · next call own =>
          obtain ⟨⟨rest, filled⟩, proceeds, same⟩ :=
            Option.map_eq_some_iff.mp stepTo
          cases same
          obtain ⟨writes, ready⟩ := proceed_cases proceeds
          refine ⟨?_, valid.delivered⟩
          intro other waiting found waits
          rcases eq_some_of_update found with ⟨-, new⟩ | ⟨different, before⟩
          · rw [Option.some.injEq] at new
            subst new
            exact ready waits
          · rcases writes with kept | atBuffer
            · have held := valid.filled other waiting before waits
              rwa [← kept] at held
            · exact absurd waits
                (free call own atBuffer other different waiting before)
  | msgsnd thread succeeds =>
      simp only [sendQueueStep] at stepTo
      split at stepTo
      · cases stepTo
      · next call own =>
          have held : ∀ other waiting,
              Function.update queue.calls thread none other = some waiting →
              waiting.next = .msgsnd →
              queue.message.uncaMessageBuf.take waiting.nSize =
                waiting.payload := by
            intro other waiting found waits
            exact valid.filled other waiting (eq_some_of_update_none found).2
              waits
          split at stepTo
          case isFalse => cases stepTo
          case isTrue atMsgsnd =>
            split at stepTo
            case isTrue =>
              cases stepTo
              refine ⟨held, ?_⟩
              rw [List.map_append, valid.delivered]
              simp [valid.filled thread call own atMsgsnd]
            case isFalse =>
              cases stepTo
              exact ⟨held, valid.delivered⟩

/-- In every run in which no caller writes the buffer while another is about to
send it, the texts on the kernel queue are those passed to the calls that
succeeded. -/
theorem sendMessage_delivers [DecidableEq Thread]
    {actions : List (SendQueueAction Thread)}
    (free : MeetsAlong sendQueueStep BufferFree (SendQueue.start Thread)
      actions) :
    HoldsAlong sendQueueStep
      (fun queue => (queue.put.map Prod.snd).Perm queue.sent)
      (SendQueue.start Thread) actions := by
  apply holdsAlong_of_meetsAlong _ _ SendQueue.start_valid free
  · intro queue valid
    rw [valid.delivered]
  · intro queue action next valid met stepTo
    exact valid.step met stepTo

/-- The caller whose step an action is. -/
def SendQueueAction.caller : SendQueueAction Thread → Thread
  | .call thread _ _ _ => thread
  | .proceed thread => thread
  | .msgsnd thread _ => thread

/-- Callers that make no step stay as they are. -/
theorem calls_of_sendQueueStep [DecidableEq Thread]
    {queue next : SendQueue Thread} {action : SendQueueAction Thread}
    (stepTo : sendQueueStep queue action = some next) {other : Thread}
    (different : other ≠ action.caller) :
    next.calls other = queue.calls other := by
  cases action with
  | call thread pBuf nSize lType =>
      simp only [sendQueueStep] at stepTo
      split at stepTo
      · cases stepTo
      · cases stepTo
        exact Function.update_of_ne different _ _
  | proceed thread =>
      simp only [sendQueueStep] at stepTo
      split at stepTo
      · cases stepTo
      · obtain ⟨result, -, same⟩ := Option.map_eq_some_iff.mp stepTo
        cases same
        exact Function.update_of_ne different _ _
  | msgsnd thread succeeds =>
      simp only [sendQueueStep] at stepTo
      split at stepTo
      · cases stepTo
      · split at stepTo
        · split at stepTo <;> cases stepTo <;>
            exact Function.update_of_ne different _ _
        · cases stepTo

/-- Two callers; the second sets its type between the `memcpy` and the `msgsnd`
of the first, and the third call is under way when the second sends. -/
def callsInTurn : List (SendQueueAction Bool) :=
  [.call false [49, 10] 2 1, .call true [50, 51, 10] 3 2, .proceed false,
    .proceed false, .proceed false, .proceed true, .msgsnd false true,
    .proceed true, .call false [52] 1 1, .proceed true, .proceed false,
    .msgsnd true true, .proceed false, .proceed false, .msgsnd false true]

/-- Three messages of two callers are put on the queue. -/
theorem sendMessage_delivers_inTurn :
    HoldsAlong sendQueueStep
        (fun queue => (queue.put.map Prod.snd).Perm queue.sent)
        (SendQueue.start Bool) callsInTurn ∧
      (execute sendQueueStep (SendQueue.start Bool) callsInTurn).map
          (fun queue => queue.put.map Prod.snd) =
        some [[49, 10], [50, 51, 10], [52]] :=
  ⟨sendMessage_delivers (by decide +kernel), by decide +kernel⟩

/-- A call up to its `msgsnd`, without interruption. -/
theorem execute_fill [DecidableEq Thread] {queue : SendQueue Thread}
    {thread : Thread} (idle : queue.calls thread = none) {pBuf : Bytes}
    (short : pBuf.length ≤ bufSize) :
    execute sendQueueStep queue
        [.call thread pBuf pBuf.length 1, .proceed thread, .proceed thread,
          .proceed thread] =
      some { queue with
        message := ⟨1, pBuf ++ zeroed (bufSize - pBuf.length)⟩
        calls := Function.update queue.calls thread
          (some ⟨pBuf, pBuf.length, 1, .msgsnd⟩) } := by
  have fills : memcpy (zeroed bufSize) 0 pBuf =
      some (pBuf ++ zeroed (bufSize - pBuf.length)) := by
    simp [memcpy, zeroed, short]
  simp [execute, sendQueueStep, idle, SendMessageCall.proceed,
    SendMessageCall.fill, SendMessageCall.payload, fills]

/-- When a second caller fills the buffer before the first has sent it, the
second text is what both put on the queue. -/
theorem put_of_overtaken [DecidableEq Thread] {first second : Thread}
    (different : first ≠ second) {firstBuf secondBuf : Bytes}
    (firstShort : firstBuf.length ≤ bufSize)
    (secondShort : secondBuf.length ≤ bufSize) :
    ∃ queue, execute sendQueueStep (SendQueue.start Thread)
        ([.call first firstBuf firstBuf.length 1, .proceed first,
            .proceed first, .proceed first] ++
          ([.call second secondBuf secondBuf.length 1, .proceed second,
            .proceed second, .proceed second] ++
          [.msgsnd first true, .msgsnd second true])) = some queue ∧
      queue.put.map Prod.snd =
        [(secondBuf ++ zeroed (bufSize - secondBuf.length)).take
          firstBuf.length, secondBuf] ∧
      queue.sent = [firstBuf, secondBuf] := by
  have idle : (Function.update (SendQueue.start Thread).calls first
      (some ⟨firstBuf, firstBuf.length, 1, .msgsnd⟩)) second = none :=
    Function.update_of_ne different.symm _ _
  rw [execute_append, execute_fill rfl firstShort, Option.bind_some,
    execute_append, execute_fill idle secondShort]
  simp [execute, sendQueueStep, SendMessageCall.payload, different,
    different.symm, SendQueue.start]

/-- Of two lines of one length, one is lost and the other one sent twice. -/
theorem sendMessage_mixes :
    ∃ queue, execute sendQueueStep (SendQueue.start Bool)
        [.call false [49, 10] 2 1, .proceed false, .proceed false,
          .proceed false, .call true [50, 10] 2 1, .proceed true,
          .proceed true, .proceed true, .msgsnd false true,
          .msgsnd true true] = some queue ∧
      queue.sent = [[49, 10], [50, 10]] ∧
      ¬ (queue.put.map Prod.snd).Perm queue.sent := by
  obtain ⟨queue, executed, put, sent⟩ := put_of_overtaken
    (show false ≠ true by decide) (show [49, 10].length ≤ bufSize by decide)
    (show [50, 10].length ≤ bufSize by decide)
  refine ⟨queue, executed, sent, ?_⟩
  rw [put, sent, List.take_append_of_le_length (by decide)]
  decide

end ArstQuote
