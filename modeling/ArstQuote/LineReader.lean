import ArstQuote.QuoteServer
import ArstQuote.RelayIteration

/-!
# The line reader of a quote server

`ARSTServer::Run` reads a line byte by byte into a zeroed array and passes it to
`SendData` with its `strlen`.  Before each call the array holds exactly the
bytes read since the call before it, followed by zeros.  A line of as many
bytes as the array leaves no zero, and `strlen` runs out of the array unless
the line brought a NUL with it.
-/

namespace ArstQuote

open CString GuardedRuns

/-- A server together with what its reader has taken from the socket: all of
it, and the part taken since the last call of `SendData`. -/
structure LineTrace where
  server : Server
  received : Bytes
  line : Bytes
  deriving DecidableEq

def LineTrace.start : LineTrace :=
  ⟨.start, [], []⟩

/-- What the step takes from the socket. -/
def Server.takes (server : Server) : ServerAction → Bytes
  | .read _ =>
      match server.reader with
      | .recv _ => server.pending.take 1
      | _ => []
  | _ => []

/-- The step is the call of `SendData`. -/
def Server.SendsData (server : Server) : ServerAction → Prop
  | .read _ => server.reader = .sendData
  | _ => False

instance (server : Server) : DecidablePred server.SendsData
  | .read _ => inferInstanceAs (Decidable (server.reader = .sendData))
  | .create _ | .beat _ | .send _ | .close | .reset => isFalse id

def lineTraceStep (trace : LineTrace) (action : ServerAction) :
    Option LineTrace :=
  (serverStep trace.server action).map fun server =>
    let taken := trace.server.takes action
    { server := server
      received := trace.received ++ taken
      line := if trace.server.SendsData action then []
        else trace.line ++ taken }

/-- The reader's array once a line has been read into it. -/
def filled (line : Bytes) : Bytes :=
  line ++ zeroed (bufferSize - line.length)

/-- The inner loop of `Run` ends after these bytes: with a newline, or with the
array full. -/
def EndsLine (line : Bytes) : Prop :=
  (∃ text, newline ∉ text ∧ text.length < bufferSize ∧
      line = text ++ [newline]) ∨
    (newline ∉ line ∧ line.length = bufferSize)

theorem filled_length {line : Bytes} (bound : line.length ≤ bufferSize) :
    (filled line).length = bufferSize := by
  simp [filled]
  omega

/-- Storing a byte behind the line. -/
theorem filled_set {line : Bytes} (room : line.length < bufferSize)
    (byte : UInt8) :
    (filled line).set line.length byte = filled (line ++ [byte]) := by
  obtain ⟨left, leftEq⟩ := Nat.exists_eq_add_of_lt room
  have zeros : bufferSize - line.length = left + 1 := by omega
  have fewer : bufferSize - (line ++ [byte]).length = left := by
    rw [List.length_append, List.length_singleton]
    omega
  rw [filled, filled, zeros, fewer, List.set_append_right _ _ le_rfl]
  simp [zeroed, List.replicate_succ]

theorem EndsLine.length_le {line : Bytes} (ends : EndsLine line) :
    line.length ≤ bufferSize := by
  rcases ends with ⟨text, -, short, rfl⟩ | ⟨-, full⟩
  · rw [List.length_append, List.length_singleton]
    omega
  · exact full.le

theorem mem_filled_of_lt {line : Bytes} (short : line.length < bufferSize) :
    0 ∈ filled line := by
  simp only [filled, zeroed, List.mem_append, List.mem_replicate]
  exact Or.inr ⟨by omega, trivial⟩

/-- Only a full array without a NUL among its bytes has no NUL. -/
theorem mem_filled_iff {line : Bytes} (bound : line.length ≤ bufferSize) :
    0 ∈ filled line ↔ ¬ (line.length = bufferSize ∧ 0 ∉ line) := by
  constructor
  · rintro member ⟨full, clean⟩
    rw [filled, full, Nat.sub_self] at member
    simp [zeroed, clean] at member
  · intro room
    by_cases full : line.length = bufferSize
    · have member : 0 ∈ line := by
        by_contra clean
        exact room ⟨full, clean⟩
      exact List.mem_append_left _ member
    · exact mem_filled_of_lt (by omega)

/-- `strlen` stops within the line that was read. -/
theorem exists_strlen_filled {line : Bytes} (room : 0 ∈ filled line) :
    ∃ nSize, strlen (filled line) = some nSize ∧ nSize ≤ line.length := by
  have read : stringAt (filled line) 0 =
      some ((filled line).takeWhile (· ≠ 0)) := by
    rw [stringAt, List.drop_zero, if_pos room]
  refine ⟨((filled line).takeWhile (· ≠ 0)).length, by rw [strlen, read]; rfl,
    ?_⟩
  rw [filled, List.takeWhile_append]
  split
  · rename_i whole
    cases bufferSize - line.length with
    | zero => simp [zeroed]
    | succ left => simp [zeroed, List.replicate_succ]
  · exact (List.takeWhile_sublist _).length_le

namespace LineTrace

/-- What the reader's array and the bytes of the current line have to do with
each other, by the statement the reader is at. -/
def InPlace (trace : LineTrace) : Prop :=
  match trace.server.reader with
  | .lock => trace.line = [] ∧ trace.server.uncaRecvBuf = filled []
  | .recv charIndex => trace.line.length = charIndex ∧
      newline ∉ trace.line ∧ trace.server.uncaRecvBuf = filled trace.line
  | .unlock true | .sendData =>
      trace.server.uncaRecvBuf = filled trace.line ∧ EndsLine trace.line
  | .unlock false | .setBreakdown | .asleep =>
      newline ∉ trace.line ∧ trace.line.length < bufferSize
  | .absent | .newHeartbeat | .startHeartbeat | .newRequest | .setFree
  | .loopTest | .statusTest | .exited => trace.line = []

/-- The invariant: the stream taken from the socket is the lines passed on so
far followed by the current one. -/
structure Consistent (trace : LineTrace) : Prop where
  valid : trace.server.Valid
  inPlace : trace.InPlace
  lines : ∃ lines : List Bytes,
    trace.received = lines.flatten ++ trace.line ∧
      trace.server.sent = lines.map (fun line => stringAt (filled line) 0) ∧
      ∀ line ∈ lines, EndsLine line

theorem start_consistent : start.Consistent := by
  constructor
  · exact Server.start_valid
  · rfl
  · exact ⟨[], rfl, rfl, by simp⟩

section Steps

variable {trace next : LineTrace}

/-- A step that takes nothing and passes nothing on. -/
theorem Consistent.move (consistent : trace.Consistent) {server : Server}
    (valid : server.Valid) (sentEq : server.sent = trace.server.sent)
    (inPlace : InPlace ⟨server, trace.received, trace.line⟩) :
    Consistent ⟨server, trace.received, trace.line⟩ := by
  constructor
  · exact valid
  · exact inPlace
  · rw [sentEq]
    exact consistent.lines

/-- A step that leaves the reader and its data alone. -/
theorem Consistent.frame (consistent : trace.Consistent) {server : Server}
    (valid : server.Valid) (sentEq : server.sent = trace.server.sent)
    (readerEq : server.reader = trace.server.reader)
    (bufferEq : server.uncaRecvBuf = trace.server.uncaRecvBuf) :
    Consistent ⟨server, trace.received, trace.line⟩ := by
  apply consistent.move valid sentEq
  unfold InPlace
  rw [readerEq, bufferEq]
  exact consistent.inPlace

/-- The other threads and the peer take nothing from the socket. -/
theorem eq_of_not_read {action : ServerAction}
    (notRead : ∀ succeeds, action ≠ .read succeeds)
    (stepTo : lineTraceStep trace action = some next) :
    ∃ server, serverStep trace.server action = some server ∧
      next = ⟨server, trace.received, trace.line⟩ := by
  obtain ⟨server, stepped, rfl⟩ := Option.map_eq_some_iff.mp stepTo
  refine ⟨server, stepped, ?_⟩
  cases action with
  | read succeeds => exact absurd rfl (notRead succeeds)
  | create _ | beat _ | send _ | close | reset =>
      simp [Server.takes, Server.SendsData]

/-- The byte that a `recv` takes is stored behind the line. -/
theorem Consistent.recv (consistent : trace.Consistent) {charIndex : Nat}
    (receiving : trace.server.reader = .recv charIndex)
    {succeeds : Bool}
    (stepTo : lineTraceStep trace (.read succeeds) = some next) :
    next.Consistent := by
  obtain ⟨server, stepped, nextEq⟩ := Option.map_eq_some_iff.mp stepTo
  have valid : server.Valid := consistent.valid.step stepped
  have room := consistent.valid.index charIndex receiving
  have inPlace := consistent.inPlace
  simp only [InPlace, receiving] at inPlace
  obtain ⟨lengthEq, inside, bufferEq⟩ := inPlace
  obtain ⟨lines, receivedEq, sentEq, ends⟩ := consistent.lines
  simp only [serverStep, Server.readerStep, receiving, Server.recvStep]
    at stepped
  simp only [Server.takes, Server.SendsData, receiving, reduceCtorEq,
    if_false] at nextEq
  cases pendingEq : trace.server.pending with
  | nil =>
      -- Nothing is left: the line stays as it is, unfinished.
      simp only [pendingEq, Option.ite_none_right_eq_some,
        Option.some.injEq] at stepped
      obtain ⟨-, rfl⟩ := stepped
      simp only [pendingEq, List.take_nil, List.append_nil] at nextEq
      subst nextEq
      exact consistent.move valid rfl ⟨inside, lengthEq ▸ room⟩
  | cons byte pending =>
      have stored : trace.server.uncaRecvBuf.set charIndex byte =
          filled (trace.line ++ [byte]) := by
        rw [bufferEq, ← lengthEq]
        exact filled_set (by omega) byte
      simp only [pendingEq, List.take_succ_cons, List.take_zero] at nextEq
      simp only [pendingEq] at stepped
      have longer : (trace.line ++ [byte]).length = charIndex + 1 := by
        rw [List.length_append, List.length_singleton, lengthEq]
      have nextLines : ∃ lines : List Bytes,
          trace.received ++ [byte] = lines.flatten ++ (trace.line ++ [byte]) ∧
            trace.server.sent =
              lines.map (fun line => stringAt (filled line) 0) ∧
            ∀ line ∈ lines, EndsLine line :=
        ⟨lines, by rw [receivedEq, List.append_assoc], sentEq, ends⟩
      by_cases stops : byte = newline
      · rw [if_pos stops, Option.some.injEq] at stepped
        subst stepped nextEq
        refine ⟨valid, ⟨stored, Or.inl ?_⟩, nextLines⟩
        exact ⟨trace.line, inside, by omega, by rw [stops]⟩
      · have stillInside : newline ∉ trace.line ++ [byte] := by
          simp [inside, Ne.symm stops]
        rw [if_neg stops, Option.some.injEq] at stepped
        subst stepped nextEq
        refine ⟨valid, ?_, nextLines⟩
        by_cases more : charIndex + 1 < bufferSize
        · simp only [InPlace, if_pos more]
          exact ⟨longer, stillInside, stored⟩
        · simp only [InPlace, if_neg more]
          exact ⟨stored, Or.inr ⟨stillInside, by omega⟩⟩

/-- The call of `SendData` adds the current line to the lines passed on. -/
theorem Consistent.sendData (consistent : trace.Consistent)
    (sending : trace.server.reader = .sendData) {succeeds : Bool}
    (stepTo : lineTraceStep trace (.read succeeds) = some next) :
    next.Consistent := by
  obtain ⟨server, stepped, nextEq⟩ := Option.map_eq_some_iff.mp stepTo
  have valid : server.Valid := consistent.valid.step stepped
  have inPlace := consistent.inPlace
  simp only [InPlace, sending] at inPlace
  obtain ⟨bufferEq, lineEnds⟩ := inPlace
  obtain ⟨lines, receivedEq, sentEq, ends⟩ := consistent.lines
  simp only [serverStep, Server.readerStep, sending, Option.some.injEq]
    at stepped
  simp only [Server.takes, Server.SendsData, sending, if_true,
    List.append_nil] at nextEq
  subst stepped nextEq
  refine ⟨valid, rfl, lines ++ [trace.line], ?_, ?_, ?_⟩
  · simp [receivedEq]
  · simp [sentEq, bufferEq]
  · intro line member
    rcases List.mem_append.mp member with old | new
    · exact ends line old
    · rw [List.mem_singleton.mp new]
      exact lineEnds

/-- The other statements of the reader take nothing and pass nothing on. -/
theorem Consistent.read (consistent : trace.Consistent) {succeeds : Bool}
    (stepTo : lineTraceStep trace (.read succeeds) = some next) :
    next.Consistent := by
  by_cases receiving : ∃ charIndex, trace.server.reader = .recv charIndex
  · obtain ⟨charIndex, receiving⟩ := receiving
    exact consistent.recv receiving stepTo
  by_cases sending : trace.server.reader = .sendData
  · exact consistent.sendData sending stepTo
  obtain ⟨server, stepped, nextEq⟩ := Option.map_eq_some_iff.mp stepTo
  have valid : server.Valid := consistent.valid.step stepped
  have takesNothing : trace.server.takes (.read succeeds) = [] := by
    simp only [Server.takes]
    split
    · exact absurd ⟨_, by assumption⟩ receiving
    · rfl
  have sendsNothing : ¬ trace.server.SendsData (.read succeeds) := sending
  simp only [takesNothing, List.append_nil, if_neg sendsNothing] at nextEq
  subst nextEq
  have inPlace := consistent.inPlace
  cases readerAt : trace.server.reader <;>
    simp only [serverStep, Server.readerStep, readerAt, reduceCtorEq] at stepped
  case recv charIndex => exact absurd ⟨charIndex, readerAt⟩ receiving
  case sendData => exact absurd readerAt sending
  all_goals simp only [InPlace, readerAt] at inPlace
  case newHeartbeat =>
    obtain rfl := Option.some.inj stepped
    apply consistent.move valid rfl
    cases succeeds <;> exact inPlace
  case startHeartbeat =>
    obtain rfl := Option.some.inj stepped
    exact consistent.move valid rfl inPlace
  case newRequest =>
    obtain rfl := Option.some.inj stepped
    apply consistent.move valid rfl
    cases succeeds <;> exact inPlace
  case setFree =>
    obtain ⟨free, set, rfl⟩ := Option.map_eq_some_iff.mp stepped
    obtain ⟨-, rfl⟩ := Server.setStatus_eq_some.mp set
    exact consistent.move valid rfl inPlace
  case loopTest =>
    obtain rfl := Option.some.inj stepped
    apply consistent.move valid rfl
    by_cases running : trace.server.m_nRunning = 1
    · simpa only [InPlace, if_pos running] using inPlace
    · simpa only [InPlace, if_neg running] using inPlace
  case statusTest =>
    split at stepped <;> obtain rfl := Option.some.inj stepped
    · exact consistent.move valid rfl ⟨inPlace, rfl⟩
    · exact consistent.move valid rfl inPlace
  case lock =>
    obtain ⟨empty, bufferEq⟩ := inPlace
    simp only [Option.ite_none_left_eq_some, Option.some.injEq] at stepped
    obtain ⟨-, rfl⟩ := stepped
    apply consistent.move valid rfl
    simp [InPlace, empty, bufferEq]
  case unlock bRecvAll =>
    obtain rfl := Option.some.inj stepped
    apply consistent.move valid rfl
    cases bRecvAll <;> exact inPlace
  case setBreakdown =>
    obtain ⟨broken, set, rfl⟩ := Option.map_eq_some_iff.mp stepped
    obtain ⟨-, rfl⟩ := Server.setStatus_eq_some.mp set
    exact consistent.move valid rfl inPlace

theorem Consistent.step {action : ServerAction}
    (consistent : trace.Consistent)
    (stepTo : lineTraceStep trace action = some next) : next.Consistent := by
  rcases action.read_or_not with ⟨succeeds, rfl⟩ | notRead
  · exact consistent.read stepTo
  · obtain ⟨server, stepped, rfl⟩ := eq_of_not_read notRead stepTo
    have valid : server.Valid := consistent.valid.step stepped
    obtain ⟨readerEq, bufferEq, sentEq, -⟩ :=
      consistent.valid.frame_of_not_read notRead stepped
    rcases readerEq with same | ⟨absent, starting⟩
    · exact consistent.frame valid sentEq same bufferEq
    · -- Where there was no reader, there is no line either.
      have inPlace := consistent.inPlace
      simp only [InPlace, absent] at inPlace
      apply consistent.move valid sentEq
      simp only [InPlace, starting]
      exact inPlace

end Steps

theorem consistent_of_reaches {trace : LineTrace}
    (reaches : Reaches lineTraceStep start trace) : trace.Consistent :=
  invariant_of_reaches start_consistent
    (fun _ _ _ consistent stepTo => consistent.step stepTo) reaches

/-- The length that `SendData` is called with is taken inside the reader's
array, and the copy in `SendMessage` stays inside the line and the message. -/
def StaysInside (trace : LineTrace) : Prop :=
  0 ∈ trace.server.uncaRecvBuf ∧
    ∃ nSize, strlen trace.server.uncaRecvBuf = some nSize ∧
      nSize < bufferSize ∧ nSize ≤ trace.line.length ∧ nSize ≤ bufSize

/-- The array is full and the peer sent no NUL. -/
def FillsArray (trace : LineTrace) : Prop :=
  trace.line.length = bufferSize ∧ 0 ∉ trace.line
  deriving Decidable

theorem staysInside_iff {trace : LineTrace}
    (bufferEq : trace.server.uncaRecvBuf = filled trace.line)
    (bound : trace.line.length ≤ bufferSize) :
    trace.StaysInside ↔ ¬ trace.FillsArray := by
  rw [StaysInside, bufferEq]
  constructor
  · rintro ⟨member, -⟩
    exact (mem_filled_iff bound).mp member
  · intro room
    have member := (mem_filled_iff bound).mpr room
    obtain ⟨nSize, length, within⟩ := exists_strlen_filled member
    refine ⟨member, nSize, length, ?_, within, ?_⟩
    · obtain ⟨text, read, rfl⟩ := Option.map_eq_some_iff.mp length
      have inside := length_lt_of_stringAt read
      rw [filled_length bound] at inside
      omega
    · exact within.trans (bound.trans (by decide))

end LineTrace

/-- Whenever `SendData` is called, `strlen` and the copy stay inside their
arrays exactly if the array is not full of bytes other than NUL. -/
theorem sendData_staysInside_iff {trace : LineTrace}
    (reaches : Reaches lineTraceStep LineTrace.start trace)
    (sending : trace.server.reader = .sendData) :
    trace.StaysInside ↔ ¬ trace.FillsArray := by
  have inPlace := (LineTrace.consistent_of_reaches reaches).inPlace
  simp only [LineTrace.InPlace, sending] at inPlace
  exact LineTrace.staysInside_iff inPlace.1 inPlace.2.length_le

/-- The server connects, its reader gets to the first `recv`, and the peer sends
these bytes. -/
def toFirstRecv (bytes : Bytes) : List ServerAction :=
  List.replicate 5 (.create true) ++ List.replicate 7 (.read true) ++
    [.send bytes]

/-- A line of two bytes. -/
theorem sendData_staysInside_short :
    ∃ trace, execute lineTraceStep LineTrace.start
        (toFirstRecv [65, newline] ++ List.replicate 3 (.read true)) =
          some trace ∧
      trace.StaysInside := by
  have executed : ∃ trace, execute lineTraceStep LineTrace.start
      (toFirstRecv [65, newline] ++ List.replicate 3 (.read true)) =
        some trace ∧
      trace.server.reader = .sendData ∧ ¬ trace.FillsArray := by
    refine ⟨_, rfl, ?_⟩
    decide +kernel
  obtain ⟨trace, executed, sending, room⟩ := executed
  exact ⟨trace, executed,
    (sendData_staysInside_iff (reaches_of_execute executed) sending).mpr room⟩

/-- Bytes that do not end the line are taken one after the other, until the
array is full. -/
theorem LineTrace.exists_reaches_recv {trace : LineTrace} {charIndex : Nat}
    {bytes : Bytes} (receiving : trace.server.reader = .recv charIndex)
    (pendingEq : trace.server.pending = bytes)
    (inside : newline ∉ bytes)
    (room : charIndex + bytes.length ≤ bufferSize)
    (within : charIndex < bufferSize) :
    ∃ last, Reaches lineTraceStep trace last ∧
      last.server.reader =
        (if charIndex + bytes.length < bufferSize then
          .recv (charIndex + bytes.length)
        else .unlock true) ∧
      last.line = trace.line ++ bytes ∧
      last.received = trace.received ++ bytes := by
  induction bytes generalizing trace charIndex with
  | nil =>
      refine ⟨trace, Relation.ReflTransGen.refl, ?_, by simp, by simp⟩
      simp [receiving, within]
  | cons byte bytes ih =>
      rw [List.mem_cons, not_or] at inside
      rw [List.length_cons] at room ⊢
      let server : Server := { trace.server with
        pending := bytes
        uncaRecvBuf := trace.server.uncaRecvBuf.set charIndex byte
        replyEvent := trace.server.replyEvent.trigger
        reader := if charIndex + 1 < bufferSize then .recv (charIndex + 1)
          else .unlock true }
      let next : LineTrace :=
        ⟨server, trace.received ++ [byte], trace.line ++ [byte]⟩
      have stepTo : lineTraceStep trace (.read true) = some next := by
        simp [lineTraceStep, serverStep, Server.readerStep, Server.recvStep,
          Server.takes, Server.SendsData, receiving, pendingEq,
          Ne.symm inside.1, next, server]
      have first : Reaches lineTraceStep trace next :=
        reachesWhen_single trivial stepTo
      by_cases more : charIndex + 1 < bufferSize
      · have receivingNext : next.server.reader = .recv (charIndex + 1) :=
          if_pos more
        obtain ⟨last, rest, readerEq, lineEq, receivedEq⟩ :=
          ih receivingNext rfl inside.2 (by omega) more
        refine ⟨last, first.trans rest, ?_, ?_, ?_⟩
        · rw [readerEq, show charIndex + 1 + bytes.length =
            charIndex + (bytes.length + 1) by omega]
        · simp [lineEq, next]
        · simp [receivedEq, next]
      · have whole : bytes = [] := by
          apply List.length_eq_zero_iff.mp
          omega
        refine ⟨next, first, ?_, by simp [next, whole],
          by simp [next, whole]⟩
        simp [next, server, whole, more]

/-- A full array without a newline or a NUL comes to `SendData`. -/
theorem LineTrace.exists_overrun {bytes : Bytes}
    (full : bytes.length = bufferSize) (inside : newline ∉ bytes)
    (clean : 0 ∉ bytes) :
    ∃ trace, Reaches lineTraceStep start trace ∧ trace.received = bytes ∧
      trace.server.reader = .sendData ∧
      strlen trace.server.uncaRecvBuf = none := by
  have arrives : ∃ trace, execute lineTraceStep start (toFirstRecv bytes) =
      some trace ∧ trace.server.reader = .recv 0 ∧
        trace.server.pending = bytes ∧ trace.received = [] ∧
        trace.line = [] :=
    ⟨_, rfl, rfl, rfl, rfl, rfl⟩
  obtain ⟨first, executed, receiving, pendingEq, receivedNone, lineNone⟩ :=
    arrives
  obtain ⟨filling, reads, readerEq, lineEq, receivedEq⟩ :=
    exists_reaches_recv receiving pendingEq inside
      (by rw [full, Nat.zero_add]) (by decide)
  rw [full, Nat.zero_add, if_neg (lt_irrefl _)] at readerEq
  rw [lineNone, List.nil_append] at lineEq
  rw [receivedNone, List.nil_append] at receivedEq
  let last : LineTrace :=
    ⟨{ filling.server with
        m_pmtxServerStatusLock := false, reader := .sendData },
      filling.received, filling.line⟩
  have unlocking : lineTraceStep filling (.read true) = some last := by
    simp [lineTraceStep, serverStep, Server.readerStep, Server.takes,
      Server.SendsData, readerEq, last]
  have reaches : Reaches lineTraceStep start last :=
    (reaches_of_execute executed).trans
      (reads.trans (reachesWhen_single trivial unlocking))
  have bufferEq : last.server.uncaRecvBuf = filled last.line :=
    (consistent_of_reaches reaches).inPlace.1
  have noNul : 0 ∉ filled last.line := by
    change 0 ∉ filled filling.line
    rw [lineEq, mem_filled_iff full.le, not_not]
    exact ⟨full, clean⟩
  refine ⟨last, reaches, receivedEq, rfl, ?_⟩
  rw [bufferEq, strlen, stringAt, List.drop_zero, if_neg noNul]
  rfl

/-- The peer sends 1024 bytes without a newline. -/
theorem sendData_overrun :
    ∃ trace, Reaches lineTraceStep LineTrace.start trace ∧
      trace.received = List.replicate 1024 65 ∧
      trace.server.reader = .sendData ∧
      strlen trace.server.uncaRecvBuf = none := by
  apply LineTrace.exists_overrun List.length_replicate
  · intro member
    cases List.eq_of_mem_replicate member
  · intro member
    cases List.eq_of_mem_replicate member

end ArstQuote
