import ArstQuote.Clients
import ArstQuote.GuardedRuns
import ArstQuote.MessageFraming
import Mathlib.Data.Fintype.Basic

/-!
# Several relay threads and one client

Each `ARSTQueueDAO` runs its loop in a thread of its own, and all of them call
`SendAll` on the same clients.  `SendAll` keeps its offset in local variables
and takes no lock, so the `send` calls of two threads may alternate.  The
stream stays framed as long as no bytes are sent while another thread is in the
middle of a message.
-/

namespace ArstQuote

open GuardedRuns MessageFraming

variable {Thread : Type*}

/-- One client and the `SendAll` calls under way on it, each with the number of
its message among those accepted.  `abandoned` records that some call ended
with its message sent in part. -/
structure SharedClient (Thread : Type*) where
  client : Client
  calls : Thread → Option (Nat × SendCall)
  accepted : List Bytes
  abandoned : Bool

def SharedClient.start (Thread : Type*) (client : Client) :
    SharedClient Thread :=
  ⟨client, fun _ => none, [], false⟩

inductive SharedAction (Thread : Type*)
  | broadcast (thread : Thread) (text : Bytes)
  | send (thread : Thread) (nSend : Int)

/-- A thread comes to the client with a text it has accepted. -/
def SharedClient.broadcast [DecidableEq Thread]
    (shared : SharedClient Thread) (thread : Thread) (text : Bytes) :
    SharedClient Thread :=
  let accepted := shared.accepted ++ [text]
  if shared.client.gone then { shared with accepted := accepted }
  else if text.length = 0 then
    { shared with
      client := shared.client.afterSend ⟨[], false, [], true⟩
      accepted := accepted }
  else
    { shared with
      calls := Function.update shared.calls thread
        (some (shared.accepted.length,
          SendCall.start none text text.length))
      accepted := accepted }

/-- The thread goes through the loop of its `SendAll` once. -/
def SharedClient.send [DecidableEq Thread]
    (shared : SharedClient Thread) (thread : Thread) (number : Nat)
    (call : SendCall) (nSend : Int) : SharedClient Thread :=
  let done := sendPass call nSend
  match done.control with
  | .again rest =>
      { shared with
        client := shared.client.afterSend
          ⟨done.taken, done.offline, done.logged, false⟩
        calls := Function.update shared.calls thread (some (number, rest)) }
  | .returned result =>
      { shared with
        client := shared.client.afterSend
          ⟨done.taken, done.offline, done.logged, result⟩
        calls := Function.update shared.calls thread none
        abandoned :=
          shared.abandoned || (done.offline && decide (0 < call.nSended)) }

/-- A thread starts at most one broadcast at a time, and `send` returns an
error or at most what it was asked for. -/
def sharedStep [DecidableEq Thread] (shared : SharedClient Thread) :
    SharedAction Thread → Option (SharedClient Thread)
  | .broadcast thread text =>
      match shared.calls thread with
      | none => some (shared.broadcast thread text)
      | some _ => none
  | .send thread nSend =>
      match shared.calls thread with
      | none => none
      | some (number, call) =>
          if -1 ≤ nSend ∧ nSend ≤ call.requested then
            some (shared.send thread number call nSend)
          else none

/-- When bytes go out, no other thread is in the middle of a message, and no
message has been given up in the middle. -/
def WireFree (shared : SharedClient Thread) : SharedAction Thread → Prop
  | .broadcast _ _ => True
  | .send thread nSend => 0 < nSend →
      shared.abandoned = false ∧ ∀ other, other ≠ thread →
        ∀ number call, shared.calls other = some (number, call) →
          call.nSended = 0

instance [Fintype Thread] [DecidableEq Thread]
    (shared : SharedClient Thread) : DecidablePred (WireFree shared)
  | .broadcast _ _ => isTrue trivial
  | .send thread nSend =>
      decidable_of_iff
        (0 < nSend → shared.abandoned = false ∧ ∀ other, other ≠ thread →
          ∀ entry ∈ shared.calls other, entry.2.nSended = 0)
        (by simp [WireFree])

/-- A call under way sends a text that was accepted. -/
structure CallValid (accepted : List Bytes) (number : Nat) (call : SendCall) :
    Prop where
  pending : call.Pending
  whole : call.nSended + call.requested = call.pBuf.length
  text : accepted[number]? = some call.pBuf

/-- No two calls under way send the same accepted text. -/
structure CallsValid (accepted : List Bytes)
    (calls : Thread → Option (Nat × SendCall)) : Prop where
  each : ∀ thread number call, calls thread = some (number, call) →
    CallValid accepted number call
  distinct : ∀ first second number call other,
    calls first = some (number, call) →
    calls second = some (number, other) → first = second

/-- The stream ends with a whole message and no call has sent a part. -/
def SharedClient.Clear (shared : SharedClient Thread) (numbers : List Nat) :
    Prop :=
  shared.abandoned = false ∧
    shared.client.wire = spell shared.accepted numbers ∧
    ∀ thread number call, shared.calls thread = some (number, call) →
      call.nSended = 0

/-- The stream ends in the middle of the message of one call. -/
def SharedClient.Open (shared : SharedClient Thread) (numbers : List Nat) :
    Prop :=
  shared.abandoned = false ∧ ∃ thread number call,
    shared.calls thread = some (number, call) ∧ 0 < call.nSended ∧
    shared.client.wire =
      spell shared.accepted numbers ++ call.pBuf.take call.nSended.toNat ∧
    ∀ other, other ≠ thread → ∀ number call,
      shared.calls other = some (number, call) → call.nSended = 0

/-- The messages with these numbers have been sent, and no call under way
sends one of them. -/
structure SharedClient.Sent (shared : SharedClient Thread)
    (numbers : List Nat) : Prop where
  selects : Selects shared.accepted numbers
  unused : ∀ thread number call, shared.calls thread = some (number, call) →
    number ∉ numbers

/-- The calls are valid, and the stream is framed: it has no open message, or
one that is being sent, or one that was given up. -/
structure SharedClient.Valid (shared : SharedClient Thread) : Prop where
  calls : CallsValid shared.accepted shared.calls
  stream : (∃ numbers, shared.Sent numbers ∧
      (shared.Clear numbers ∨ shared.Open numbers)) ∨
    (shared.abandoned = true ∧ Framed shared.accepted shared.client.wire)

section Calls

variable {accepted : List Bytes} {calls : Thread → Option (Nat × SendCall)}
  {thread : Thread} {number : Nat} {call : SendCall}

theorem CallValid.push (valid : CallValid accepted number call)
    (text : Bytes) : CallValid (accepted ++ [text]) number call :=
  ⟨valid.pending, valid.whole, getElem?_push valid.text text⟩

theorem CallValid.start {text : Bytes} (nonempty : text.length ≠ 0) :
    CallValid (accepted ++ [text]) accepted.length
      (SendCall.start none text text.length) where
  pending := SendCall.start_pending (by omega) (le_refl _)
  whole := by simp [SendCall.start, SendCall.requested]
  text := by simp [SendCall.start]

theorem CallsValid.push (valid : CallsValid accepted calls) (text : Bytes) :
    CallsValid (accepted ++ [text]) calls where
  each thread number call found :=
    (valid.each thread number call found).push text
  distinct := valid.distinct

theorem CallsValid.finish [DecidableEq Thread]
    (valid : CallsValid accepted calls) (thread : Thread) :
    CallsValid accepted (Function.update calls thread none) := by
  constructor
  · intro other number call found
    exact valid.each other number call (eq_some_of_update_none found).2
  · intro first second number call other firstFound secondFound
    exact valid.distinct first second number call other
      (eq_some_of_update_none firstFound).2
      (eq_some_of_update_none secondFound).2

/-- A thread's entry is replaced by one whose number no other thread has. -/
theorem CallsValid.replace [DecidableEq Thread]
    (valid : CallsValid accepted calls) (entry : CallValid accepted number call)
    (own : ∀ other otherCall, other ≠ thread →
      calls other ≠ some (number, otherCall)) :
    CallsValid accepted
      (Function.update calls thread (some (number, call))) := by
  constructor
  · intro other otherNumber otherCall found
    rcases eq_some_of_update found with ⟨-, same⟩ | ⟨-, before⟩
    · rw [Option.some.injEq, Prod.mk.injEq] at same
      rw [← same.1, ← same.2]
      exact entry
    · exact valid.each other otherNumber otherCall before
  · intro first second sharedNumber firstCall secondCall firstFound secondFound
    rcases eq_some_of_update firstFound with
        ⟨rfl, firstSame⟩ | ⟨firstOther, firstOld⟩ <;>
      rcases eq_some_of_update secondFound with
        ⟨rfl, secondSame⟩ | ⟨secondOther, secondOld⟩
    · rfl
    · rw [Option.some.injEq, Prod.mk.injEq] at firstSame
      rw [← firstSame.1] at secondOld
      exact absurd secondOld (own second secondCall secondOther)
    · rw [Option.some.injEq, Prod.mk.injEq] at secondSame
      rw [← secondSame.1] at firstOld
      exact absurd firstOld (own first firstCall firstOther)
    · exact valid.distinct first second sharedNumber firstCall secondCall
        firstOld secondOld

theorem CallValid.remaining_eq (valid : CallValid accepted number call) :
    call.remaining = call.pBuf.drop call.nSended.toNat := by
  have started := valid.pending.started
  have whole := valid.whole
  apply List.take_of_length_le
  rw [List.length_drop]
  omega

end Calls

section Streams

variable {shared : SharedClient Thread} {thread : Thread} {number : Nat}
  {call : SendCall} {nSend : Int}

theorem SharedClient.start_valid {client : Client} (joined : client.wire = []) :
    (SharedClient.start Thread client).Valid where
  calls := ⟨by simp [start], by simp [start]⟩
  stream := by
    refine Or.inl ⟨[], ⟨Selects.nil _, by simp⟩, Or.inl ⟨rfl, joined, ?_⟩⟩
    simp [start]

theorem SharedClient.Valid.framed (valid : shared.Valid) :
    Framed shared.accepted shared.client.wire := by
  rcases valid.stream with ⟨numbers, sent, clear | openMessage⟩ | ⟨-, framed⟩
  · exact sent.selects.framed clear.2.1
  · obtain ⟨-, thread, number, call, found, started, wire, -⟩ := openMessage
    have own := valid.calls.each thread number call found
    refine ⟨numbers, call.pBuf.take call.nSended.toNat, sent.selects, wire,
      Or.inr ⟨number, call.pBuf, sent.unused thread number call found,
        own.text, List.take_prefix _ _, ?_⟩⟩
    intro same
    have lengths := congrArg List.length same
    rw [List.length_take] at lengths
    have unsent := own.pending.unsent
    have whole := own.whole
    omega
  · exact framed

/-- Before bytes go out the stream ends with the part of the message that is
sent already. -/
theorem SharedClient.Valid.wire_of_free (valid : shared.Valid)
    (positive : 0 < nSend) (free : WireFree shared (.send thread nSend))
    (found : shared.calls thread = some (number, call)) :
    ∃ numbers, shared.Sent numbers ∧ shared.client.wire =
      spell shared.accepted numbers ++ call.pBuf.take call.nSended.toNat := by
  obtain ⟨kept, others⟩ := free positive
  rcases valid.stream with ⟨numbers, sent, clear | openMessage⟩ | ⟨given, -⟩
  · refine ⟨numbers, sent, ?_⟩
    rw [clear.2.2 thread number call found]
    simpa using clear.2.1
  · refine ⟨numbers, sent, ?_⟩
    obtain ⟨-, owner, ownNumber, ownCall, owns, started, wire, -⟩ :=
      openMessage
    by_cases same : owner = thread
    · subst same
      rw [found, Option.some.injEq, Prod.mk.injEq] at owns
      rw [owns.2]
      exact wire
    · have idle := others owner same ownNumber ownCall owns
      omega
  · rw [kept] at given
    cases given

/-- A text is accepted and the stream stays as it is. -/
theorem SharedClient.Valid.push (valid : shared.Valid) (text : Bytes)
    {client : Client} (wire : client.wire = shared.client.wire) :
    SharedClient.Valid { shared with
      client := client
      accepted := shared.accepted ++ [text] } where
  calls := valid.calls.push text
  stream := by
    rcases valid.stream with ⟨numbers, sent, clear | openMessage⟩ |
      ⟨given, framed⟩
    · refine Or.inl ⟨numbers, ⟨sent.selects.push text, sent.unused⟩, Or.inl
        ⟨clear.1, ?_, clear.2.2⟩⟩
      rw [sent.selects.spell_push, wire]
      exact clear.2.1
    · obtain ⟨kept, owner, number, call, found, started, stream, others⟩ :=
        openMessage
      refine Or.inl ⟨numbers, ⟨sent.selects.push text, sent.unused⟩, Or.inr
        ⟨kept, owner, number, call, found, started, ?_, others⟩⟩
      rw [sent.selects.spell_push, wire]
      exact stream
    · refine Or.inr ⟨given, ?_⟩
      rw [wire]
      exact framed.push text

end Streams

section Steps

variable [DecidableEq Thread] {shared next : SharedClient Thread}
  {thread : Thread} {number : Nat} {call : SendCall} {nSend : Int}

/-- Everything one pass of a `SendAll` can do to the client. -/
theorem SharedClient.send_cases
    (valid : CallValid shared.accepted number call)
    (most : nSend ≤ call.requested)
    (sends : shared.send thread number call nSend = next) :
    next.accepted = shared.accepted ∧
      ((nSend ≤ 0 ∧ next.client.wire = shared.client.wire ∧
          next.calls = Function.update shared.calls thread none ∧
          next.abandoned =
            (shared.abandoned || decide (0 < call.nSended))) ∨
        (0 < nSend ∧ next.client.wire =
            shared.client.wire ++ call.pBuf.drop call.nSended.toNat ∧
          next.calls = Function.update shared.calls thread none ∧
          next.abandoned = shared.abandoned) ∨
        (0 < nSend ∧ next.abandoned = shared.abandoned ∧ ∃ rest taken,
          CallValid shared.accepted number rest ∧ 0 < rest.nSended ∧
          call.pBuf.take call.nSended.toNat ++ taken =
            rest.pBuf.take rest.nSended.toNat ∧
          next.client.wire = shared.client.wire ++ taken ∧
          next.calls =
            Function.update shared.calls thread (some (number, rest)))) := by
  have started := valid.pending.started
  have unsent := valid.pending.unsent
  have whole := valid.whole
  rcases sendPass_cases valid.pending most with
    ⟨failed, done⟩ | ⟨all, done⟩ | ⟨positive, part, rest, pending, -, sameBuf,
      sended, requested, -, done⟩
  · simp only [SharedClient.send, done] at sends
    subst sends
    refine ⟨rfl, Or.inl ⟨failed, ?_, rfl, ?_⟩⟩
    · exact List.append_nil _
    · simp
  · simp only [SharedClient.send, done] at sends
    subst sends
    refine ⟨rfl, Or.inr (Or.inl ⟨by omega, ?_, rfl, ?_⟩)⟩
    · exact congrArg _ valid.remaining_eq
    · simp
  · simp only [SharedClient.send, done] at sends
    subst sends
    refine ⟨rfl, Or.inr (Or.inr ⟨positive, rfl, rest,
      call.remaining.take nSend.toNat, ⟨pending, ?_, ?_⟩, ?_, ?_, rfl, rfl⟩)⟩
    · rw [sended, requested, sameBuf]
      omega
    · rw [sameBuf]
      exact valid.text
    · omega
    · have offset : rest.nSended.toNat =
          call.nSended.toNat + nSend.toNat := by omega
      rw [valid.remaining_eq, sameBuf, offset, List.take_add]

/-- A thread starts a call for the text just accepted. -/
theorem SharedClient.Valid.begin (valid : shared.Valid)
    (idle : shared.calls thread = none) {text : Bytes}
    (nonempty : text.length ≠ 0) :
    SharedClient.Valid { shared with
      calls := Function.update shared.calls thread
        (some (shared.accepted.length, SendCall.start none text text.length))
      accepted := shared.accepted ++ [text] } := by
  have old : ∀ other otherNumber otherCall,
      shared.calls other = some (otherNumber, otherCall) →
        otherNumber < shared.accepted.length := by
    intro other otherNumber otherCall found
    have own := valid.calls.each other otherNumber otherCall found
    exact (List.getElem?_eq_some_iff.mp own.text).1
  have fresh : ∀ numbers, shared.Sent numbers → ∀ other otherNumber otherCall,
      Function.update shared.calls thread (some (shared.accepted.length,
        SendCall.start none text text.length)) other =
          some (otherNumber, otherCall) → otherNumber ∉ numbers := by
    intro numbers sent other otherNumber otherCall found
    rcases eq_some_of_update found with ⟨-, same⟩ | ⟨-, before⟩
    · rw [Option.some.injEq, Prod.mk.injEq] at same
      intro member
      have known := sent.selects.known otherNumber member
      omega
    · exact sent.unused other otherNumber otherCall before
  have unsent : ∀ other otherNumber otherCall,
      Function.update shared.calls thread (some (shared.accepted.length,
        SendCall.start none text text.length)) other =
          some (otherNumber, otherCall) → otherCall.nSended = 0 ∨
            (other ≠ thread ∧
              shared.calls other = some (otherNumber, otherCall)) := by
    intro other otherNumber otherCall found
    rcases eq_some_of_update found with ⟨-, same⟩ | before
    · rw [Option.some.injEq, Prod.mk.injEq] at same
      rw [← same.2]
      exact Or.inl rfl
    · exact Or.inr before
  constructor
  · apply (valid.calls.push text).replace (CallValid.start nonempty)
    intro other otherCall _ found
    exact Nat.lt_irrefl _ (old other _ otherCall found)
  · rcases valid.stream with ⟨numbers, sent, clear | openMessage⟩ |
      ⟨given, framed⟩
    · refine Or.inl ⟨numbers, ⟨sent.selects.push text, fresh numbers sent⟩,
        Or.inl ⟨clear.1, ?_, ?_⟩⟩
      · rw [sent.selects.spell_push]
        exact clear.2.1
      · intro other otherNumber otherCall found
        rcases unsent other otherNumber otherCall found with none | ⟨-, before⟩
        · exact none
        · exact clear.2.2 other otherNumber otherCall before
    · obtain ⟨kept, owner, number, call, found, started, stream, others⟩ :=
        openMessage
      have different : owner ≠ thread := by
        rintro rfl
        rw [idle] at found
        cases found
      refine Or.inl ⟨numbers, ⟨sent.selects.push text, fresh numbers sent⟩,
        Or.inr ⟨kept, owner, number, call, ?_, started, ?_, ?_⟩⟩
      · exact (Function.update_of_ne different _ _).trans found
      · rw [sent.selects.spell_push]
        exact stream
      · intro other otherDifferent otherNumber otherCall entry
        rcases unsent other otherNumber otherCall entry with none | ⟨-, before⟩
        · exact none
        · exact others other otherDifferent otherNumber otherCall before
    · exact Or.inr ⟨given, framed.push text⟩

/-- A call ends without sending anything more: its message stays unsent, or is
given up in the middle. -/
theorem SharedClient.Valid.fail (valid : shared.Valid)
    (found : shared.calls thread = some (number, call))
    (accepted : next.accepted = shared.accepted)
    (wire : next.client.wire = shared.client.wire)
    (calls : next.calls = Function.update shared.calls thread none)
    (abandoned : next.abandoned =
      (shared.abandoned || decide (0 < call.nSended))) :
    next.Valid := by
  have old : ∀ other entry, next.calls other = some entry →
      other ≠ thread ∧ shared.calls other = some entry := by
    intro other entry found
    rw [calls] at found
    exact eq_some_of_update_none found
  constructor
  · rw [accepted, calls]
    exact valid.calls.finish thread
  by_cases part : 0 < call.nSended
  · right
    refine ⟨by simp [abandoned, part], ?_⟩
    rw [accepted, wire]
    exact valid.framed
  have same : next.abandoned = shared.abandoned := by simp [abandoned, part]
  rw [accepted, same, wire]
  rcases valid.stream with ⟨numbers, sent, clear | openMessage⟩ | stuck
  · refine Or.inl ⟨numbers, ⟨accepted ▸ sent.selects, ?_⟩, Or.inl
      ⟨same.trans clear.1, ?_, ?_⟩⟩
    · intro other otherNumber otherCall entry
      exact sent.unused other _ _ (old other _ entry).2
    · rw [wire, accepted]
      exact clear.2.1
    · intro other otherNumber otherCall entry
      exact clear.2.2 other _ _ (old other _ entry).2
  · obtain ⟨kept, owner, ownNumber, ownCall, owns, started, stream, others⟩ :=
      openMessage
    have different : owner ≠ thread := by
      rintro rfl
      rw [found, Option.some.injEq, Prod.mk.injEq] at owns
      rw [owns.2] at part
      exact part started
    refine Or.inl ⟨numbers, ⟨accepted ▸ sent.selects, ?_⟩, Or.inr
      ⟨same.trans kept, owner, ownNumber, ownCall, ?_, started, ?_, ?_⟩⟩
    · intro other otherNumber otherCall entry
      exact sent.unused other _ _ (old other _ entry).2
    · rw [calls, Function.update_of_ne different]
      exact owns
    · rw [wire, accepted]
      exact stream
    · intro other otherDifferent otherNumber otherCall entry
      exact others other otherDifferent _ _ (old other _ entry).2
  · exact Or.inr stuck

/-- A call sends the rest of its message. -/
theorem SharedClient.Valid.complete (valid : shared.Valid)
    (positive : 0 < nSend) (free : WireFree shared (.send thread nSend))
    (found : shared.calls thread = some (number, call))
    (accepted : next.accepted = shared.accepted)
    (wire : next.client.wire =
      shared.client.wire ++ call.pBuf.drop call.nSended.toNat)
    (calls : next.calls = Function.update shared.calls thread none)
    (abandoned : next.abandoned = shared.abandoned) : next.Valid := by
  have own := valid.calls.each thread number call found
  obtain ⟨numbers, sent, before⟩ := valid.wire_of_free positive free found
  obtain ⟨kept, others⟩ := free positive
  have old : ∀ other entry, next.calls other = some entry →
      other ≠ thread ∧ shared.calls other = some entry := by
    intro other entry found
    rw [calls] at found
    exact eq_some_of_update_none found
  refine ⟨?_, Or.inl ⟨numbers ++ [number], ⟨?_, ?_⟩, Or.inl
    ⟨abandoned.trans kept, ?_, ?_⟩⟩⟩
  · rw [accepted, calls]
    exact valid.calls.finish thread
  · rw [accepted]
    exact sent.selects.snoc (sent.unused thread number call found) own.text
  · intro other otherNumber otherCall entry member
    obtain ⟨different, earlier⟩ := old other _ entry
    rcases List.mem_append.mp member with whole | last
    · exact sent.unused other otherNumber otherCall earlier whole
    · rw [List.mem_singleton.mp last] at earlier
      exact different
        (valid.calls.distinct other thread number otherCall call earlier found)
  · rw [wire, before, accepted, spell_snoc own.text, List.append_assoc,
      List.take_append_drop]
  · intro other otherNumber otherCall entry
    obtain ⟨different, earlier⟩ := old other _ entry
    exact others other different otherNumber otherCall earlier

/-- A call sends a further part of its message. -/
theorem SharedClient.Valid.proceed (valid : shared.Valid)
    (positive : 0 < nSend) (free : WireFree shared (.send thread nSend))
    (found : shared.calls thread = some (number, call))
    {rest : SendCall} {taken : Bytes}
    (restValid : CallValid shared.accepted number rest)
    (started : 0 < rest.nSended)
    (extended : call.pBuf.take call.nSended.toNat ++ taken =
      rest.pBuf.take rest.nSended.toNat)
    (accepted : next.accepted = shared.accepted)
    (wire : next.client.wire = shared.client.wire ++ taken)
    (calls : next.calls =
      Function.update shared.calls thread (some (number, rest)))
    (abandoned : next.abandoned = shared.abandoned) : next.Valid := by
  obtain ⟨numbers, sent, before⟩ := valid.wire_of_free positive free found
  obtain ⟨kept, others⟩ := free positive
  refine ⟨?_, Or.inl ⟨numbers, ⟨accepted ▸ sent.selects, ?_⟩, Or.inr
    ⟨abandoned.trans kept, thread, number, rest, ?_, started, ?_, ?_⟩⟩⟩
  · rw [accepted, calls]
    apply valid.calls.replace restValid
    intro other otherCall different earlier
    exact different
      (valid.calls.distinct other thread number otherCall call earlier found)
  · intro other otherNumber otherCall entry
    rw [calls] at entry
    rcases eq_some_of_update entry with ⟨-, same⟩ | ⟨-, earlier⟩
    · rw [Option.some.injEq, Prod.mk.injEq] at same
      rw [← same.1]
      exact sent.unused thread number call found
    · exact sent.unused other otherNumber otherCall earlier
  · rw [calls, Function.update_self]
  · rw [wire, before, accepted, List.append_assoc, extended]
  · intro other different otherNumber otherCall entry
    rw [calls, Function.update_of_ne different] at entry
    exact others other different otherNumber otherCall entry

/-- A step that meets the condition keeps the stream framed. -/
theorem SharedClient.Valid.step {action : SharedAction Thread}
    (valid : shared.Valid) (free : WireFree shared action)
    (stepTo : sharedStep shared action = some next) : next.Valid := by
  cases action with
  | broadcast thread text =>
      cases idle : shared.calls thread with
      | some entry => simp [sharedStep, idle] at stepTo
      | none =>
          simp only [sharedStep, idle, Option.some.injEq] at stepTo
          subst stepTo
          unfold SharedClient.broadcast
          split
          · exact valid.push text rfl
          split
          · exact valid.push text (List.append_nil _)
          · exact valid.begin idle (by assumption)
  | send thread nSend =>
      cases found : shared.calls thread with
      | none => simp [sharedStep, found] at stepTo
      | some entry =>
          obtain ⟨number, call⟩ := entry
          simp only [sharedStep, found, Option.ite_none_right_eq_some,
            Option.some.injEq] at stepTo
          obtain ⟨⟨-, most⟩, sends⟩ := stepTo
          have own := valid.calls.each thread number call found
          obtain ⟨accepted, outcome⟩ := SharedClient.send_cases own most sends
          rcases outcome with ⟨-, wire, calls, abandoned⟩ |
            ⟨positive, wire, calls, abandoned⟩ |
            ⟨positive, abandoned, rest, taken, restValid, started, extended,
              wire, calls⟩
          · exact valid.fail found accepted wire calls abandoned
          · exact valid.complete positive free found accepted wire calls
              abandoned
          · exact valid.proceed positive free found restValid started extended
              accepted wire calls abandoned

/-- In every run in which no bytes are sent in the middle of another thread's
message, the stream of the client is framed in every state. -/
theorem sharedClient_framed {client : Client} (joined : client.wire = [])
    {actions : List (SharedAction Thread)}
    (free : MeetsAlong sharedStep WireFree
      (SharedClient.start Thread client) actions) :
    HoldsAlong sharedStep
      (fun shared => Framed shared.accepted shared.client.wire)
      (SharedClient.start Thread client) actions := by
  apply holdsAlong_of_meetsAlong _ _ (SharedClient.start_valid joined) free
  · intro shared valid
    exact valid.framed
  · intro shared action next valid met stepTo
    exact valid.step met stepTo

end Steps

def newClient : Client :=
  ⟨7, .none, 1, 0, 0, [], 0⟩

/-- Two threads that send byte by byte: each has a message waiting while the
other is in the middle of its own. -/
def sendsInTurn : List (SharedAction Bool) :=
  [.broadcast false [65, 10], .broadcast true [66, 10], .send false 1,
    .send false 1, .send true 1, .broadcast false [67, 10], .send true 1,
    .send false 2]

/-- The client reads `A\n`, `B\n` and `C\n`. -/
theorem sharedClient_framed_inTurn :
    HoldsAlong sharedStep
        (fun shared => Framed shared.accepted shared.client.wire)
        (SharedClient.start Bool newClient) sendsInTurn ∧
      (execute sharedStep (SharedClient.start Bool newClient) sendsInTurn).map
          (fun shared => shared.client.wire) =
        some [65, 10, 66, 10, 67, 10] :=
  ⟨sharedClient_framed rfl (by decide), by decide⟩

/-- Two threads send `A\n` and `B\n` byte by byte, and the client reads
`AB\n\n`. -/
theorem sharedClient_spliced :
    ∃ shared, execute sharedStep (SharedClient.start Bool newClient)
        [.broadcast false [65, 10], .broadcast true [66, 10],
          .send false 1, .send true 1, .send false 1, .send true 1] =
            some shared ∧
      ¬ Framed shared.accepted shared.client.wire := by
  refine ⟨_, rfl, ?_⟩
  intro framed
  have starts := framed.exists_prefix (by decide)
  revert starts
  decide

end ArstQuote
