import ArstQuote.CString

/-!
# Sending one text to a client

`ARSTClient::SendAll` calls `send` until the socket has taken the whole text
or a call takes nothing.  One pass of its loop is a step of its own, so that
several threads can send to one client; the whole call feeds the loop with the
results of its `send` calls.
-/

namespace ArstQuote

/-- A call of `FprintfStderrLog`, by its first two arguments. -/
structure LogCall where
  pCause : Option String
  nError : Int
  deriving DecidableEq

/-- The parameters and local variables of a running `SendAll`. -/
structure SendCall where
  pWhat : Option String
  pBuf : Bytes
  nToSend : Int
  nSend : Int
  nSended : Int
  deriving DecidableEq

def SendCall.start (pWhat : Option String) (pBuf : Bytes) (nToSend : Int) :
    SendCall :=
  ⟨pWhat, pBuf, nToSend, 0, 0⟩

/-- The length the next `send` asks for. -/
def SendCall.requested (call : SendCall) : Int :=
  call.nToSend - call.nSend

/-- Where the loop goes after a pass. -/
inductive SendControl
  | again (call : SendCall)
  | returned (result : Bool)
  deriving DecidableEq

/-- What one pass did: the bytes the socket took, whether the client was set
to `csOffline`, the lines logged, and where the loop goes. -/
structure SendPass where
  taken : Bytes
  offline : Bool
  logged : List LogCall
  control : SendControl
  deriving DecidableEq

/-- One pass of the loop of `SendAll`, whose `send` call returned `nSend`.
A socket that reports `nSend` bytes has taken that many. -/
def sendPass (call : SendCall) (nSend : Int) : SendPass :=
  let nToSend := call.nToSend - call.nSend
  let sent : Bytes := (call.pBuf.drop call.nSended.toNat).take nSend.toNat
  let returned := SendControl.returned (nSend == nToSend)
  if nSend ≤ 0 then
    ⟨[], true, [⟨some "SEND_ARST_ERROR", -1⟩], returned⟩
  else if nSend = nToSend then
    ⟨sent, false, [], returned⟩
  else if nSend < nToSend then
    -- The loop test `nSend != nToSend` holds here.
    ⟨sent, false, [⟨call.pWhat, -1⟩],
      .again { call with
        nToSend := nToSend
        nSend := nSend
        nSended := call.nSended + nSend }⟩
  else
    ⟨sent, false, [⟨some "SEND_ARST_ELSE_ERROR", -1⟩], returned⟩

/-- What a whole call did. -/
structure SentAll where
  taken : Bytes
  offline : Bool
  logged : List LogCall
  result : Bool
  deriving DecidableEq

/-- What `send` can return: an error, or as much as was asked for. -/
def sendResult (result requested : Int) : Int :=
  max (-1) (min result requested)

/-- The loop, with the results of its `send` calls from number `pass` on;
`none` when the fuel ends before the loop does. -/
def sendLoop (results : Nat → Int) : Nat → Nat → SendCall → Option SentAll
  | 0, _, _ => none
  | fuel + 1, pass, call =>
      let done := sendPass call (sendResult (results pass) call.requested)
      match done.control with
      | .returned result =>
          some ⟨done.taken, done.offline, done.logged, result⟩
      | .again call =>
          (sendLoop results fuel (pass + 1) call).map fun rest =>
            ⟨done.taken ++ rest.taken, done.offline || rest.offline,
              done.logged ++ rest.logged, rest.result⟩

/-- `ARSTClient::SendAll`, for given results of its `send` calls. -/
def sendAll (results : Nat → Int) (pWhat : Option String) (pBuf : Bytes)
    (nToSend : Nat) : Option SentAll :=
  if nToSend = 0 then some ⟨[], false, [], true⟩
  else sendLoop results nToSend 0 (SendCall.start pWhat pBuf nToSend)

/-- The call is about to ask `send` for the unsent part of its text. -/
structure SendCall.Pending (call : SendCall) : Prop where
  started : 0 ≤ call.nSended
  unsent : 0 < call.requested
  inside : call.nSended + call.requested ≤ call.pBuf.length

/-- The part of the text that is still to be sent. -/
def SendCall.remaining (call : SendCall) : Bytes :=
  (call.pBuf.drop call.nSended.toNat).take call.requested.toNat

theorem SendCall.start_pending {pWhat : Option String} {pBuf : Bytes}
    {nToSend : Nat} (positive : 0 < nToSend)
    (inside : nToSend ≤ pBuf.length) :
    (SendCall.start pWhat pBuf nToSend).Pending where
  started := Int.le_refl 0
  unsent := by simpa [SendCall.start, SendCall.requested] using positive
  inside := by simpa [SendCall.start, SendCall.requested] using inside

@[simp]
theorem SendCall.start_remaining (pWhat : Option String) (pBuf : Bytes)
    (nToSend : Nat) :
    (SendCall.start pWhat pBuf nToSend).remaining = pBuf.take nToSend := by
  simp [SendCall.start, SendCall.remaining, SendCall.requested]

theorem SendCall.Pending.remaining_length {call : SendCall}
    (pending : call.Pending) :
    (call.remaining.length : Int) = call.requested := by
  obtain ⟨started, unsent, inside⟩ := pending
  simp only [SendCall.remaining, List.length_take, List.length_drop]
  omega

/-- Everything one pass can do: fail and take nothing, end the text, or take
a part of it. -/
theorem sendPass_cases {call : SendCall} (pending : call.Pending)
    {nSend : Int} (most : nSend ≤ call.requested) :
    (nSend ≤ 0 ∧ sendPass call nSend =
        ⟨[], true, [⟨some "SEND_ARST_ERROR", -1⟩], .returned false⟩) ∨
      (nSend = call.requested ∧ sendPass call nSend =
        ⟨call.remaining, false, [], .returned true⟩) ∨
      (0 < nSend ∧ nSend < call.requested ∧ ∃ rest : SendCall,
        rest.Pending ∧ rest.pWhat = call.pWhat ∧ rest.pBuf = call.pBuf ∧
        rest.nSended = call.nSended + nSend ∧
        rest.requested = call.requested - nSend ∧
        rest.remaining = call.remaining.drop nSend.toNat ∧
        sendPass call nSend =
          ⟨call.remaining.take nSend.toNat, false, [⟨call.pWhat, -1⟩],
            .again rest⟩) := by
  obtain ⟨started, unsent, inside⟩ := pending
  unfold SendCall.requested at most unsent inside
  by_cases failed : nSend ≤ 0
  · left
    refine ⟨failed, ?_⟩
    have different : nSend ≠ call.nToSend - call.nSend := by omega
    simp [sendPass, failed, different]
  right
  by_cases whole : nSend = call.nToSend - call.nSend
  · left
    refine ⟨whole, ?_⟩
    rw [whole] at failed
    simp only [sendPass, SendCall.remaining, SendCall.requested, whole,
      failed, if_true, if_false, beq_self_eq_true]
  · right
    have positive : 0 < nSend := by omega
    have part : nSend < call.nToSend - call.nSend := by omega
    have fewer : min nSend.toNat (call.nToSend - call.nSend).toNat =
        nSend.toNat := by omega
    refine ⟨positive, part, ⟨call.pWhat, call.pBuf,
      call.nToSend - call.nSend, nSend, call.nSended + nSend⟩, ?_, rfl, rfl,
      rfl, rfl, ?_, ?_⟩
    · constructor <;> simp only [SendCall.requested] <;> omega
    · have offset : (call.nSended + nSend).toNat =
          call.nSended.toNat + nSend.toNat := by omega
      have less : (call.nToSend - call.nSend - nSend).toNat =
          (call.nToSend - call.nSend).toNat - nSend.toNat := by omega
      simp only [SendCall.remaining, SendCall.requested]
      rw [offset, less, List.drop_take, List.drop_drop]
    · simp only [sendPass, SendCall.remaining, SendCall.requested, failed,
        whole, part, if_true, if_false, List.take_take, fewer]

/-- The loop ends; it takes a prefix of what remains, the whole of it exactly
when it reports success, and otherwise it leaves the client offline. -/
theorem sendLoop_spec (results : Nat → Int) (fuel pass : Nat)
    {call : SendCall} (pending : call.Pending)
    (enough : call.requested ≤ fuel) :
    ∃ sent, sendLoop results fuel pass call = some sent ∧
      sent.taken <+: call.remaining ∧
      (sent.result = true ↔ sent.taken = call.remaining) ∧
      sent.offline = !sent.result := by
  induction fuel generalizing pass call with
  | zero =>
      have unsent := pending.unsent
      omega
  | succ fuel ih =>
      have unsent := pending.unsent
      have most : sendResult (results pass) call.requested ≤
          call.requested := by
        unfold sendResult
        omega
      rcases sendPass_cases pending most with
        ⟨-, done⟩ | ⟨-, done⟩ | ⟨positive, -, rest, restPending, -, -, -,
          lessRequested, lessRemaining, done⟩
      · refine ⟨⟨[], true, [⟨some "SEND_ARST_ERROR", -1⟩], false⟩, ?_, ?_, ?_,
          rfl⟩
        · simp [sendLoop, done]
        · exact List.nil_prefix
        · have length := pending.remaining_length
          have nonempty : call.remaining ≠ [] := by
            intro empty
            rw [empty, List.length_nil] at length
            omega
          simpa using nonempty.symm
      · refine ⟨⟨call.remaining, false, [], true⟩, ?_, ?_, ?_, rfl⟩
        · simp [sendLoop, done]
        · exact List.prefix_refl _
        · simp
      · obtain ⟨sent, ended, isPrefix, success, offline⟩ :=
          ih (pass + 1) restPending (by omega)
        let head := call.remaining.take
          (sendResult (results pass) call.requested).toNat
        have split : head ++ rest.remaining = call.remaining := by
          rw [lessRemaining]
          exact List.take_append_drop _ _
        refine ⟨⟨head ++ sent.taken, sent.offline,
          ⟨call.pWhat, -1⟩ :: sent.logged, sent.result⟩, ?_, ?_, ?_, offline⟩
        · simp [sendLoop, done, ended, head]
        · have extended : head ++ sent.taken <+: head ++ rest.remaining :=
            (List.prefix_append_right_inj head).mpr isPrefix
          rwa [split] at extended
        · have same : head ++ sent.taken = head ++ rest.remaining ↔
              sent.taken = rest.remaining := List.append_right_inj head
          rw [split] at same
          exact success.trans same.symm

/-- `SendAll` ends; it sends a prefix of the text, and all of it exactly when
it returns `true`; otherwise the client is offline. -/
theorem sendAll_spec (results : Nat → Int) (pWhat : Option String)
    {pBuf : Bytes} {nToSend : Nat} (inside : nToSend ≤ pBuf.length) :
    ∃ sent, sendAll results pWhat pBuf nToSend = some sent ∧
      sent.taken <+: pBuf.take nToSend ∧
      (sent.result = true ↔ sent.taken = pBuf.take nToSend) ∧
      sent.offline = !sent.result := by
  unfold sendAll
  split
  case isTrue none =>
    subst none
    exact ⟨⟨[], false, [], true⟩, rfl, by simp, by simp, rfl⟩
  case isFalse some =>
    have pending : (SendCall.start pWhat pBuf nToSend).Pending :=
      SendCall.start_pending (by omega) inside
    obtain ⟨sent, ended, isPrefix, success, offline⟩ :=
      sendLoop_spec results nToSend 0 pending
        (by simp [SendCall.start, SendCall.requested])
    rw [SendCall.start_remaining] at isPrefix success
    exact ⟨sent, ended, isPrefix, success, offline⟩

end ArstQuote
