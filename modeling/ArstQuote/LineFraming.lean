import ArstQuote.LineReader

/-!
# Line framing of a quote server

For a stream without NULs and without overlong lines, what the reader passes to
`SendData` is the sequence of complete lines it has received.  Once `recv` has
reported the end of the stream or an error, the rest of the current line is
dropped and the server is marked for replacement.
-/

namespace ArstQuote

open CString DelimitedTokens GuardedRuns

/-- A stream that the reader's array is meant for: no NUL, and every line, the
unfinished one included, leaves room for one. -/
structure Readable (stream : Bytes) : Prop where
  clean : 0 ∉ stream
  lines : ∀ line ∈ records newline stream, line.length < bufferSize
  rest : (remainder newline stream).length < bufferSize

/-- Behind its first lines a readable stream is readable. -/
theorem Readable.behind {lines : List Bytes} {rest : Bytes}
    (readable : Readable (lines.flatten ++ rest))
    (whole : ∀ line ∈ lines, ∃ text, newline ∉ text ∧
      line = text ++ [newline]) : Readable rest := by
  constructor
  · intro member
    exact readable.clean (List.mem_append_right _ member)
  · intro line member
    apply readable.lines
    rw [records_flatten_append whole]
    exact List.mem_append_right _ member
  · rw [← remainder_flatten_append whole]
    exact readable.rest

/-- A line at the front of a readable stream does not fill the array. -/
theorem Readable.endsLine {line rest : Bytes}
    (readable : Readable (line ++ rest)) (ends : EndsLine line) :
    ∃ text, newline ∉ text ∧ line = text ++ [newline] := by
  rcases ends with ⟨text, absent, -, lineEq⟩ | ⟨absent, full⟩
  · exact ⟨text, absent, lineEq⟩
  · rcases exists_length_le_of_not_mem absent rest with
      ⟨record, member, long⟩ | long
    · have short := readable.lines record member
      omega
    · have short := readable.rest
      omega

theorem Readable.endsLines {lines : List Bytes} {rest : Bytes}
    (readable : Readable (lines.flatten ++ rest))
    (ends : ∀ line ∈ lines, EndsLine line) :
    ∀ line ∈ lines, ∃ text, newline ∉ text ∧ line = text ++ [newline] := by
  induction lines with
  | nil => simp
  | cons line lines ih =>
      rw [List.flatten_cons, List.append_assoc] at readable
      have first := readable.endsLine (ends line (by simp))
      have front : Readable ([line].flatten ++ (lines.flatten ++ rest)) := by
        rw [List.flatten_singleton]
        exact readable
      have later := front.behind (by simpa using first)
      intro other member
      rcases List.mem_cons.mp member with rfl | old
      · exact first
      · exact ih later (fun each old => ends each (by simp [old])) other old

/-- A line that leaves room for its NUL is read back whole. -/
theorem stringAt_filled {line : Bytes} (clean : 0 ∉ line)
    (short : line.length < bufferSize) :
    stringAt (filled line) 0 = some line := by
  obtain ⟨left, zeros⟩ : ∃ left, bufferSize - line.length = left + 1 :=
    ⟨bufferSize - line.length - 1, by omega⟩
  rw [filled, zeros]
  exact stringAt_append clean [] (zeroed left)

namespace LineTrace

/-- The line that the reader has finished and not yet passed on. -/
def sending (trace : LineTrace) : List (Option Bytes) :=
  match trace.server.reader with
  | .unlock true | .sendData => [stringAt trace.server.uncaRecvBuf 0]
  | _ => []

/-- `RecvAll` has failed. -/
def Disconnected (trace : LineTrace) : Prop :=
  trace.server.reader = .unlock false ∨
    trace.server.reader = .setBreakdown ∨ trace.server.reader = .asleep
  deriving Decidable

/-- The reader waits to be replaced and the supervisor can see it. -/
def Abandoned (trace : LineTrace) : Prop :=
  trace.server.reader = .asleep ∧
    trace.server.m_ssServerStatus = .breakdown
  deriving Decidable

/-- The lines passed on are the complete lines received; and once the reader is
disconnected, no step passes anything on, and its own steps, whatever the
others do, end with a server marked for replacement that stays so. -/
structure Framed (trace : LineTrace) : Prop where
  passes : trace.server.sent ++ trace.sending =
    (records newline trace.received).map some
  silent : trace.Disconnected → ∀ later,
    Reaches lineTraceStep trace later → later.Disconnected ∧
      later.server.sent = trace.server.sent ∧
      (later.server.reader = .asleep →
        later.server.m_ssServerStatus = .breakdown) ∧
      ∃ last, ReachesWhen lineTraceStep (fun _ action => action = .read true)
        later last ∧ last.Abandoned

/-- The current line is on its way to `SendData` exactly if it is a record. -/
theorem Consistent.sending_eq {trace : LineTrace}
    (consistent : trace.Consistent) (readable : Readable trace.line) :
    trace.sending = (records newline trace.line).map some := by
  have inPlace := consistent.inPlace
  have finished : EndsLine trace.line →
      [stringAt (filled trace.line) 0] =
        (records newline trace.line).map some := by
    intro ends
    rw [← List.append_nil trace.line] at readable
    obtain ⟨text, absent, lineEq⟩ := readable.endsLine ends
    rw [List.append_nil] at readable
    have record : records newline trace.line = [trace.line] := by
      rw [lineEq, records_append_cons absent,
        records_of_not_mem List.not_mem_nil]
    have short := readable.lines trace.line (by simp [record])
    rw [stringAt_filled readable.clean short, record]
    rfl
  have unfinished : newline ∉ trace.line →
      [] = (records newline trace.line).map some := by
    intro inside
    rw [records_of_not_mem inside]
    rfl
  cases readerAt : trace.server.reader
  case unlock bRecvAll =>
    cases bRecvAll <;> simp only [InPlace, sending, readerAt] at inPlace ⊢
    · exact unfinished inPlace.1
    · rw [inPlace.1]
      exact finished inPlace.2
  all_goals simp only [InPlace, sending, readerAt] at inPlace ⊢
  case lock => exact unfinished (by simp [inPlace.1])
  case recv charIndex => exact unfinished inPlace.2.1
  case sendData =>
    rw [inPlace.1]
    exact finished inPlace.2
  case setBreakdown => exact unfinished inPlace.1
  case asleep => exact unfinished inPlace.1
  all_goals exact unfinished (by simp [inPlace])

/-- What has been passed on, and the line on its way, are the records of the
stream. -/
theorem Consistent.passes {trace : LineTrace} (consistent : trace.Consistent)
    (readable : Readable trace.received) :
    trace.server.sent ++ trace.sending =
      (records newline trace.received).map some := by
  obtain ⟨lines, receivedEq, sentEq, ends⟩ := consistent.lines
  rw [receivedEq] at readable ⊢
  have whole := readable.endsLines ends
  have sentLines : trace.server.sent = lines.map some := by
    rw [sentEq]
    apply List.map_congr_left
    intro line member
    apply stringAt_filled
    · intro zero
      apply readable.clean
      exact List.mem_append_left _ (List.mem_flatten_of_mem member zero)
    · apply readable.lines
      rw [records_flatten_append whole]
      exact List.mem_append_left _ member
  rw [sentLines, records_flatten_append whole, List.map_append,
    consistent.sending_eq (readable.behind whole)]

section Disconnected

variable {trace next : LineTrace}

/-- The reader of a server that is in order sleeps only when the supervisor can
see that it is broken. -/
structure Marked (trace : LineTrace) : Prop where
  valid : trace.server.Valid
  status : trace.server.reader = .asleep →
    trace.server.m_ssServerStatus = .breakdown

theorem start_marked : start.Marked :=
  ⟨Server.start_valid, by simp [start, Server.start]⟩

theorem Marked.step {action : ServerAction} (marked : trace.Marked)
    (stepTo : lineTraceStep trace action = some next) : next.Marked := by
  obtain ⟨server, stepped, rfl⟩ := Option.map_eq_some_iff.mp stepTo
  refine ⟨marked.valid.step stepped, ?_⟩
  intro asleep
  change server.reader = .asleep at asleep
  change server.m_ssServerStatus = .breakdown
  rcases action.read_or_not with ⟨succeeds, rfl⟩ | notRead
  · simp only [serverStep, Server.readerStep] at stepped
    grind [Server.recvStep, Server.setStatus]
  · obtain ⟨same | ⟨-, starting⟩, -, -, statusEq⟩ :=
      marked.valid.frame_of_not_read notRead stepped
    · rcases statusEq with kept | broken
      · rw [kept]
        exact marked.status (same ▸ asleep)
      · exact broken
    · cases starting.symm.trans asleep

/-- A disconnected reader passes nothing on and stays disconnected. -/
theorem Disconnected.step {action : ServerAction}
    (disconnected : trace.Disconnected) (valid : trace.server.Valid)
    (stepTo : lineTraceStep trace action = some next) :
    next.Disconnected ∧ next.server.sent = trace.server.sent := by
  obtain ⟨server, stepped, rfl⟩ := Option.map_eq_some_iff.mp stepTo
  rcases action.read_or_not with ⟨succeeds, rfl⟩ | notRead
  · rcases disconnected with unlocking | setting | asleep
    · simp only [serverStep, Server.readerStep, unlocking,
        Option.some.injEq] at stepped
      subst stepped
      exact ⟨Or.inr (Or.inl rfl), rfl⟩
    · simp only [serverStep, Server.readerStep, setting] at stepped
      obtain ⟨broken, set, rfl⟩ := Option.map_eq_some_iff.mp stepped
      obtain ⟨-, rfl⟩ := Server.setStatus_eq_some.mp set
      exact ⟨Or.inr (Or.inr rfl), rfl⟩
    · simp [serverStep, Server.readerStep, asleep] at stepped
  · obtain ⟨readerEq, -, sentEq, -⟩ := valid.frame_of_not_read notRead stepped
    rcases readerEq with same | ⟨absent, -⟩
    · refine ⟨?_, sentEq⟩
      unfold Disconnected
      rw [same]
      exact disconnected
    · simp [Disconnected, absent] at disconnected

/-- The reader's next step, and how many it is from its sleep. -/
def toSleep (trace : LineTrace) : Nat :=
  match trace.server.reader with
  | .unlock _ => 2
  | .setBreakdown => 1
  | _ => 0

/-- By its own steps a disconnected reader gets the server marked. -/
theorem Marked.exists_abandoned (marked : trace.Marked)
    (disconnected : trace.Disconnected) :
    ∃ last, ReachesWhen lineTraceStep (fun _ action => action = .read true)
      trace last ∧ last.Abandoned := by
  obtain ⟨last, reaches, -, abandoned⟩ :
      ∃ last, ReachesWhen lineTraceStep (fun _ action => action = .read true)
        trace last ∧ (last.Marked ∧ last.Disconnected) ∧ last.Abandoned := by
    apply exists_reachesWhen_of_rank toSleep _ ⟨marked, disconnected⟩
    rintro before ⟨held, atEnd⟩
    have advance : ∀ after,
        lineTraceStep before (.read true) = some after →
        after.toSleep < before.toSleep →
          ∃ action after, action = .read true ∧
            lineTraceStep before action = some after ∧
            (after.Marked ∧ after.Disconnected) ∧
            after.toSleep < before.toSleep := by
      intro after stepTo less
      exact ⟨_, after, rfl, stepTo, ⟨held.step stepTo,
        (atEnd.step held.valid stepTo).1⟩, less⟩
    rcases id atEnd with unlocking | setting | asleep
    · right
      apply advance
      · simp only [lineTraceStep, serverStep, Server.readerStep, unlocking]
        rfl
      · simp [toSleep, unlocking]
    · right
      have free : before.server.m_pmtxServerStatusLock = false := by
        rw [held.valid.lock, setting]
        rfl
      apply advance
      · simp only [lineTraceStep, serverStep, Server.readerStep, setting,
          Server.setStatus, free]
        rfl
      · simp [toSleep, setting]
    · left
      exact ⟨asleep, held.status asleep⟩
  exact ⟨last, reaches, abandoned⟩

theorem Marked.later (marked : trace.Marked)
    (disconnected : trace.Disconnected) {later : LineTrace}
    (reaches : Reaches lineTraceStep trace later) :
    later.Marked ∧ later.Disconnected ∧
      later.server.sent = trace.server.sent := by
  have preserved : ∀ before action after,
      before.Marked ∧ before.Disconnected ∧
        before.server.sent = trace.server.sent →
      lineTraceStep before action = some after →
      after.Marked ∧ after.Disconnected ∧
        after.server.sent = trace.server.sent := by
    rintro before action after ⟨held, atEnd, sentEq⟩ stepTo
    obtain ⟨stillAtEnd, nextSent⟩ := atEnd.step held.valid stepTo
    exact ⟨held.step stepTo, stillAtEnd, nextSent.trans sentEq⟩
  apply invariant_of_reaches _ preserved reaches
  exact ⟨marked, disconnected, rfl⟩

end Disconnected

end LineTrace

/-- For a readable stream, whatever happens around the reader: its payloads are
the complete lines received, and a disconnect ends them. -/
theorem lines_framed {trace : LineTrace}
    (reaches : Reaches lineTraceStep LineTrace.start trace)
    (readable : Readable trace.received) : trace.Framed := by
  have consistent := LineTrace.consistent_of_reaches reaches
  have marked : trace.Marked :=
    invariant_of_reaches LineTrace.start_marked
      (fun _ _ _ marked stepTo => marked.step stepTo) reaches
  constructor
  · exact consistent.passes readable
  · intro disconnected later further
    obtain ⟨laterMarked, stillAtEnd, sentEq⟩ :=
      marked.later disconnected further
    exact ⟨stillAtEnd, sentEq, laterMarked.status,
      laterMarked.exists_abandoned stillAtEnd⟩

/-- A line, and the connection closed inside the next one. -/
theorem lines_framed_disconnect :
    ∃ trace, execute lineTraceStep LineTrace.start
        (toFirstRecv [65, newline, 66] ++
          .close :: List.replicate 11 (.read true)) = some trace ∧
      trace.Disconnected ∧ trace.Framed := by
  have executed : ∃ trace, execute lineTraceStep LineTrace.start
      (toFirstRecv [65, newline, 66] ++
        .close :: List.replicate 11 (.read true)) = some trace ∧
      trace.Disconnected ∧ trace.received = [65, newline, 66] := by
    refine ⟨_, rfl, ?_⟩
    decide +kernel
  obtain ⟨trace, executed, disconnected, receivedEq⟩ := executed
  have readable : Readable [65, newline, 66] := by
    constructor <;> decide
  exact ⟨trace, executed, disconnected,
    lines_framed (reaches_of_execute executed) (receivedEq ▸ readable)⟩

end ArstQuote
