import ArstQuote.SendAll
import Mathlib.Algebra.BigOperators.Group.Finset.Basic

/-!
# Receiving from a quote source

`ARSTServer::RecvAll` calls `Recv` until as many bytes have arrived as were
asked for.  Like `SendAll` it tells whether it succeeded from the last length
received and the last length missing, but it can also leave the loop before it
has received anything for that missing length.
-/

namespace ArstQuote

open CString Finset

/-- What an iteration finds: `m_pClientSocket` is NULL, `Recv` returns `-1`, or
it returns the number of the bytes that arrive, 0 when the connection is
closed. -/
inductive RecvOutcome
  | null
  | failed
  | received (bytes : Bytes)
  deriving DecidableEq

/-- The bytes that are there to be received. -/
def RecvOutcome.bytes : RecvOutcome → Bytes
  | .null | .failed => []
  | .received bytes => bytes

/-- The memory from `pBuf` on, the parameter and the local variables of a
running `RecvAll`, then the bytes received and the lines logged so far. -/
structure RecvCall where
  pBuf : Bytes
  nToRecv : Int
  nRecv : Int
  nRecved : Int
  received : Bytes
  logged : List LogCall
  deriving DecidableEq

namespace RecvCall

def start (pBuf : Bytes) (nToRecv : Int) : RecvCall :=
  ⟨pBuf, nToRecv, 0, 0, [], []⟩

/-- The value that `RecvAll` returns when it leaves the loop. -/
def result (call : RecvCall) : Bool :=
  call.nRecv == call.nToRecv

end RecvCall

/-- Where the loop goes after an iteration. -/
inductive RecvControl
  | again (call : RecvCall)
  | returned (call : RecvCall)
  deriving DecidableEq

/-- One iteration of the loop of `RecvAll`, and `none` when it writes past the
end of the memory. -/
def recvPass (call : RecvCall) (outcome : RecvOutcome) : Option RecvControl :=
  let nToRecv := call.nToRecv - call.nRecv
  let broken (nRecv : Int) (pCause : String) : RecvControl :=
    .returned { call with
      nToRecv := nToRecv
      nRecv := nRecv
      logged := call.logged ++ [⟨some pCause, -1⟩] }
  match outcome with
  | .null =>
      -- `nRecv` keeps the value of the iteration before.
      some (broken call.nRecv "SERVER_SOCKET_NULL_ERROR")
  | .failed => some (broken (-1) "SERVER_SOCKET_ERROR")
  | .received bytes =>
      let arrived := bytes.take nToRecv.toNat
      let nRecv : Int := arrived.length
      if nRecv > 0 then
        (memcpy call.pBuf call.nRecved.toNat arrived).map fun pBuf =>
          let next : RecvCall := { call with
            pBuf := pBuf
            nToRecv := nToRecv
            nRecv := nRecv
            nRecved := call.nRecved + nRecv
            received := call.received ++ arrived }
          if nRecv ≠ nToRecv then .again next else .returned next
      else some (broken nRecv "Quote:SERVER_SOCKET_CLOSE")

/-- The loop; `none` when the fuel ends before the loop does, or when an
iteration writes past the end of the memory. -/
def recvLoop : Nat → (Nat → RecvOutcome) → RecvCall → Option RecvCall
  | 0, _, _ => none
  | fuel + 1, outcomes, call =>
      match recvPass call (outcomes 0) with
      | none => none
      | some (.returned last) => some last
      | some (.again next) =>
          recvLoop fuel (fun pass => outcomes (pass + 1)) next

/-- `ARSTServer::RecvAll`, for given outcomes of its iterations: its variables
when it returns. -/
def recvAll (outcomes : Nat → RecvOutcome) (pBuf : Bytes) (nToRecv : Nat) :
    Option RecvCall :=
  recvLoop nToRecv outcomes (.start pBuf nToRecv)

/-- `RecvAll` returns `true` exactly when all bytes were received and stand at
the start of the memory in the order received. -/
def RecvCall.Exact (last : RecvCall) (nToRecv : Nat) : Prop :=
  last.result = true ↔
    last.received.length = nToRecv ∧ last.received <+: last.pBuf
  deriving Decidable

/-- `m_pClientSocket` is found NULL after `Recv` has brought bytes in all
iterations before, when exactly as many are missing as the last of these
brought. -/
def NullHalfway (outcomes : Nat → RecvOutcome) (nToRecv : Nat) : Prop :=
  ∃ pass, outcomes (pass + 1) = .null ∧
    (∀ earlier < pass + 1, (outcomes earlier).bytes ≠ []) ∧
    ∑ earlier ∈ range (pass + 1), (outcomes earlier).bytes.length +
      (outcomes pass).bytes.length = nToRecv

section Halfway

/-- The length that the iteration before received, which was `last` for the
first one. -/
def lengthBefore (outcomes : Nat → RecvOutcome) (last : Nat) : Nat → Nat
  | 0 => last
  | pass + 1 => (outcomes pass).bytes.length

/-- `NullHalfway` for the rest of a loop, when `last` bytes have just been
received and `missing` bytes have not. -/
def NullAfter (outcomes : Nat → RecvOutcome) (last missing : Nat) : Prop :=
  ∃ pass, outcomes pass = .null ∧
    (∀ earlier < pass, (outcomes earlier).bytes ≠ []) ∧
    ∑ earlier ∈ range pass, (outcomes earlier).bytes.length +
      lengthBefore outcomes last pass = missing

variable {outcomes : Nat → RecvOutcome} {last missing : Nat}

theorem nullAfter_zero_iff (positive : 0 < missing) :
    NullAfter outcomes 0 missing ↔ NullHalfway outcomes missing := by
  constructor
  · rintro ⟨pass, null, brought, total⟩
    cases pass with
    | zero => simp [lengthBefore] at total; omega
    | succ pass => exact ⟨pass, null, brought, total⟩
  · rintro ⟨pass, null, brought, total⟩
    exact ⟨pass + 1, null, brought, total⟩

theorem nullAfter_of_null (null : outcomes 0 = .null) :
    NullAfter outcomes last missing ↔ last = missing := by
  constructor
  · rintro ⟨pass, -, brought, total⟩
    cases pass with
    | zero => simpa [lengthBefore] using total
    | succ pass =>
        have nothing := brought 0 (Nat.succ_pos pass)
        simp [null, RecvOutcome.bytes] at nothing
  · rintro rfl
    exact ⟨0, null, by simp, by simp [lengthBefore]⟩

theorem not_nullAfter_of_nothing (present : outcomes 0 ≠ .null)
    (nothing : (outcomes 0).bytes = []) :
    ¬ NullAfter outcomes last missing := by
  rintro ⟨pass, null, brought, -⟩
  cases pass with
  | zero => exact present null
  | succ pass => exact brought 0 (Nat.succ_pos pass) nothing

theorem NullAfter.lt (nullAfter : NullAfter outcomes last missing)
    (positive : 0 < last) : 0 < missing := by
  obtain ⟨pass, -, brought, rfl⟩ := nullAfter
  cases pass with
  | zero => simpa [lengthBefore] using positive
  | succ pass =>
      have gained : 0 < (outcomes pass).bytes.length :=
        List.length_pos_iff.mpr (brought pass (Nat.lt_succ_self pass))
      simp only [lengthBefore]
      omega

/-- After an iteration that brought something the rest of the loop decides. -/
theorem nullAfter_of_brought (brought : (outcomes 0).bytes ≠ []) :
    NullAfter outcomes last missing ↔
      (outcomes 0).bytes.length ≤ missing ∧
        NullAfter (fun pass => outcomes (pass + 1))
          (outcomes 0).bytes.length
          (missing - (outcomes 0).bytes.length) := by
  have before (pass : Nat) : lengthBefore outcomes last (pass + 1) =
      lengthBefore (fun pass => outcomes (pass + 1))
        (outcomes 0).bytes.length pass := by
    cases pass <;> rfl
  constructor
  · rintro ⟨pass, null, others, total⟩
    cases pass with
    | zero => simp [null, RecvOutcome.bytes] at brought
    | succ pass =>
        rw [sum_range_succ', before] at total
        refine ⟨by omega, pass, null, ?_, ?_⟩
        · intro earlier less
          exact others (earlier + 1) (by omega)
        · beta_reduce
          omega
  · rintro ⟨most, pass, null, others, total⟩
    refine ⟨pass + 1, null, ?_, ?_⟩
    · intro earlier less
      cases earlier with
      | zero => exact brought
      | succ earlier => exact others earlier (by omega)
    · beta_reduce at total
      rw [sum_range_succ', before]
      omega

end Halfway

namespace RecvCall

/-- What was received stands in order at the start of the memory, and the rest
of the memory is as it was. -/
def Stored (call : RecvCall) (memory : Bytes) : Prop :=
  call.pBuf = call.received ++ memory.drop call.received.length

/-- The loop is about to ask for the bytes that are missing, and `last` bytes
came in the iteration before. -/
structure Underway (call : RecvCall) (memory : Bytes) (nToRecv last : Nat) :
    Prop where
  stored : call.Stored memory
  counted : call.nRecved = call.received.length
  missing : call.nToRecv - call.nRecv = nToRecv - call.received.length
  previous : call.nRecv = last
  short : call.received.length < nToRecv

theorem start_underway {memory : Bytes} {nToRecv : Nat}
    (positive : 0 < nToRecv) :
    (start memory nToRecv).Underway memory nToRecv 0 := by
  constructor <;> simp [start, Stored, positive]

variable {call : RecvCall} {memory : Bytes} {nToRecv last : Nat}

/-- Bytes that arrive are stored behind those received before. -/
theorem Underway.memcpy_eq (underway : call.Underway memory nToRecv last)
    (inside : nToRecv ≤ memory.length) {arrived : Bytes}
    (fits : call.received.length + arrived.length ≤ nToRecv) :
    memcpy call.pBuf call.nRecved.toNat arrived =
      some ((call.received ++ arrived) ++
        memory.drop (call.received ++ arrived).length) := by
  have short := underway.short
  have offset : call.nRecved.toNat = call.received.length := by
    rw [underway.counted, Int.toNat_natCast]
  rw [offset, underway.stored, memcpy, if_pos (by simp; omega)]
  simp [List.drop_append, List.drop_drop]

/-- The variables after an iteration in which these bytes were stored. -/
def storing (call : RecvCall) (memory arrived : Bytes) : RecvCall :=
  { call with
    pBuf := (call.received ++ arrived) ++
      memory.drop (call.received ++ arrived).length
    nToRecv := call.nToRecv - call.nRecv
    nRecv := arrived.length
    nRecved := call.nRecved + arrived.length
    received := call.received ++ arrived }

/-- An iteration that finds bytes stores as many as are missing. -/
theorem Underway.pass_of_brought (underway : call.Underway memory nToRecv last)
    (inside : nToRecv ≤ memory.length) {bytes arrived : Bytes}
    (brought : bytes ≠ [])
    (taken : arrived = bytes.take (nToRecv - call.received.length)) :
    recvPass call (.received bytes) =
      some (if (arrived.length : Int) ≠ call.nToRecv - call.nRecv
        then .again (call.storing memory arrived)
        else .returned (call.storing memory arrived)) := by
  have short := underway.short
  have missing := underway.missing
  have enough := List.length_pos_iff.mpr brought
  have count : (call.nToRecv - call.nRecv).toNat =
      nToRecv - call.received.length := by omega
  have length : arrived.length =
      min (nToRecv - call.received.length) bytes.length := by
    rw [taken, List.length_take]
  have stored := underway.memcpy_eq inside
    (show call.received.length + arrived.length ≤ nToRecv by omega)
  simp only [recvPass, count, ← taken]
  rw [if_pos (by omega), stored]
  rfl

/-- Everything an iteration can do: leave the loop with nothing received, leave
it with all that was missing, or go on with a part of it. -/
theorem Underway.pass_cases (underway : call.Underway memory nToRecv last)
    (inside : nToRecv ≤ memory.length) (outcome : RecvOutcome) :
    (∃ done, recvPass call outcome = some (.returned done) ∧
        done.Stored memory ∧ done.received = call.received ∧
        outcome.bytes = [] ∧
        (done.result = true ↔
          outcome = .null ∧ last = nToRecv - call.received.length)) ∨
      (∃ done, recvPass call outcome = some (.returned done) ∧
        done.Stored memory ∧ done.received.length = nToRecv ∧
        done.result = true ∧
        nToRecv - call.received.length ≤ outcome.bytes.length) ∨
      (∃ next, recvPass call outcome = some (.again next) ∧
        next.Underway memory nToRecv outcome.bytes.length ∧
        next.received = call.received ++ outcome.bytes ∧
        outcome.bytes ≠ []) := by
  have short := underway.short
  have missing := underway.missing
  have previous := underway.previous
  cases outcome with
  | null =>
      left
      refine ⟨_, rfl, underway.stored, rfl, rfl, ?_⟩
      simp only [result, beq_iff_eq, true_and]
      omega
  | failed =>
      left
      refine ⟨_, rfl, underway.stored, rfl, rfl, ?_⟩
      simp only [result, beq_iff_eq, reduceCtorEq, false_and, iff_false]
      omega
  | received bytes =>
      by_cases nothing : bytes = []
      · left
        subst nothing
        let closed : RecvCall := { call with
          nToRecv := call.nToRecv - call.nRecv
          nRecv := 0
          logged := call.logged ++ [⟨some "Quote:SERVER_SOCKET_CLOSE", -1⟩] }
        refine ⟨closed, by simp [recvPass, closed], underway.stored, rfl, rfl,
          ?_⟩
        simp only [closed, result, beq_iff_eq, reduceCtorEq, false_and,
          iff_false]
        omega
      right
      obtain ⟨arrived, taken⟩ :
          ∃ arrived, arrived = bytes.take (nToRecv - call.received.length) :=
        ⟨_, rfl⟩
      have passed := underway.pass_of_brought inside nothing taken
      have length : arrived.length =
          min (nToRecv - call.received.length) bytes.length := by
        rw [taken, List.length_take]
      by_cases whole : nToRecv - call.received.length ≤ bytes.length
      · left
        have same : (arrived.length : Int) = call.nToRecv - call.nRecv := by
          omega
        refine ⟨call.storing memory arrived, ?_, rfl, ?_, ?_, whole⟩
        · rw [passed, if_neg (not_not.mpr same)]
        · simp only [storing, List.length_append]
          omega
        · simpa [storing, result] using same
      · right
        have less : (arrived.length : Int) ≠ call.nToRecv - call.nRecv := by
          omega
        have all : arrived = bytes := by
          rw [taken, List.take_of_length_le (by omega)]
        refine ⟨call.storing memory arrived, ?_, ?_, ?_, nothing⟩
        · rw [passed, if_pos less]
        · refine ⟨rfl, ?_, ?_, ?_, ?_⟩ <;>
            simp only [storing, List.length_append, underway.counted,
              RecvOutcome.bytes, all] <;> omega
        · simp only [storing, all, RecvOutcome.bytes]

end RecvCall

/-- What is left of the loop: it stores what it receives, and either all has
arrived and it succeeds, or something is missing and it succeeds just when it
finds NULL halfway. -/
theorem recvLoop_spec (fuel : Nat) (outcomes : Nat → RecvOutcome)
    {call : RecvCall} {memory : Bytes} {nToRecv last : Nat}
    (underway : call.Underway memory nToRecv last)
    (inside : nToRecv ≤ memory.length)
    (enough : nToRecv ≤ call.received.length + fuel) :
    ∃ done, recvLoop fuel outcomes call = some done ∧ done.Stored memory ∧
      ((done.received.length = nToRecv ∧ done.result = true ∧
          ¬ NullAfter outcomes last (nToRecv - call.received.length)) ∨
        (done.received.length < nToRecv ∧
          (done.result = true ↔
            NullAfter outcomes last (nToRecv - call.received.length)))) := by
  induction fuel generalizing outcomes call last with
  | zero =>
      have short := underway.short
      omega
  | succ fuel ih =>
      rcases underway.pass_cases inside (outcomes 0) with
        ⟨done, passed, stored, same, nothing, result⟩ |
          ⟨done, passed, stored, all, result, enough⟩ |
          ⟨next, passed, nextUnderway, received, brought⟩
      · refine ⟨done, by simp [recvLoop, passed], stored, Or.inr ⟨?_, ?_⟩⟩
        · rw [same]
          exact underway.short
        · rw [result]
          by_cases null : outcomes 0 = .null
          · simp only [null, true_and, nullAfter_of_null null]
          · simp only [null, false_and,
              not_nullAfter_of_nothing null nothing]
      · refine ⟨done, by simp [recvLoop, passed], stored,
          Or.inl ⟨all, result, ?_⟩⟩
        intro nullAfter
        have brought : (outcomes 0).bytes ≠ [] := by
          have short := underway.short
          apply List.length_pos_iff.mp
          omega
        obtain ⟨most, rest⟩ := (nullAfter_of_brought brought).mp nullAfter
        have missing := rest.lt (List.length_pos_iff.mpr brought)
        omega
      · have length : next.received.length =
            call.received.length + (outcomes 0).bytes.length := by
          rw [received, List.length_append]
        have gained := List.length_pos_iff.mpr brought
        have short := nextUnderway.short
        have missing : nToRecv - next.received.length =
            nToRecv - call.received.length - (outcomes 0).bytes.length := by
          omega
        have most : (outcomes 0).bytes.length ≤
            nToRecv - call.received.length := by omega
        obtain ⟨done, ended, stored, outcome⟩ :=
          ih (fun pass => outcomes (pass + 1)) nextUnderway (by omega)
        refine ⟨done, by simpa [recvLoop, passed] using ended, stored, ?_⟩
        rw [missing] at outcome
        rw [nullAfter_of_brought brought]
        simpa only [most, true_and] using outcome

/-- `RecvAll` ends, and it returns `true` exactly when all bytes are received
and stored, if and only if `m_pClientSocket` is not found NULL halfway. -/
theorem recvAll_exact_iff (outcomes : Nat → RecvOutcome)
    (pBuf beyond : Bytes) (nonempty : 0 < pBuf.length) :
    ∃ last, recvAll outcomes (pBuf ++ beyond) pBuf.length = some last ∧
      (last.Exact pBuf.length ↔ ¬ NullHalfway outcomes pBuf.length) := by
  have underway : (RecvCall.start (pBuf ++ beyond) pBuf.length).Underway
      (pBuf ++ beyond) pBuf.length 0 := RecvCall.start_underway nonempty
  obtain ⟨last, ended, stored, outcome⟩ :=
    recvLoop_spec pBuf.length outcomes underway (by simp) (by simp)
  refine ⟨last, ended, ?_⟩
  rw [← nullAfter_zero_iff nonempty]
  have inOrder : last.received <+: last.pBuf := ⟨_, stored.symm⟩
  rcases outcome with ⟨all, result, absent⟩ | ⟨short, result⟩
  · simp only [RecvCall.Exact, result, all, inOrder, and_self, true_iff]
    exact absent
  · have missing : last.received.length ≠ pBuf.length := by omega
    simp only [RecvCall.Exact, result, missing, false_and, iff_false]
    rfl

/-- Three bytes, of which two arrive first. -/
def twoThenOne (pass : Nat) : RecvOutcome :=
  if pass = 0 then .received [72, 73] else .received [74]

/-- All three are received and stored, before the rest of the memory. -/
theorem recvAll_exact_twoThenOne :
    (∃ last, recvAll twoThenOne ([0, 0, 0] ++ [9]) 3 = some last ∧
        (last.Exact 3 ↔ ¬ NullHalfway twoThenOne 3)) ∧
      (recvAll twoThenOne ([0, 0, 0] ++ [9]) 3).map
          (fun last => (last.result, last.received, last.pBuf)) =
        some (true, [72, 73, 74], [72, 73, 74, 9]) :=
  ⟨recvAll_exact_iff twoThenOne [0, 0, 0] [9] (by decide), by decide⟩

/-- One byte of two arrives, and then `m_pClientSocket` is found NULL. -/
theorem recvAll_short :
    ¬ ∃ last, recvAll (fun pass => if pass = 0 then .received [72] else .null)
        [0, 0] 2 = some last ∧ last.Exact 2 := by
  rintro ⟨last, ended, exact⟩
  obtain rfl := Option.some.inj ended
  exact absurd exact (by decide)

/-- For a single byte, which is all that `ARSTServer::Run` asks for at a time,
there is no halfway. -/
theorem not_nullHalfway_one (outcomes : Nat → RecvOutcome) :
    ¬ NullHalfway outcomes 1 := by
  rintro ⟨pass, -, brought, total⟩
  have last := List.length_pos_iff.mpr (brought pass (Nat.lt_succ_self pass))
  rw [sum_range_succ] at total
  omega

end ArstQuote
