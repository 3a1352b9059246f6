import ArstQuote.ClientStreams
import ArstQuote.TextFormats

/-!
# The error log

Every part of the program logs through `FprintfStderrLog`, which writes to
`std::cerr`.  A stream that is handed a null `char` pointer fails and drops
everything from then on, and the broadcast loop gives `SendAll` a null cause.
-/

namespace ArstQuote

open GuardedRuns TextFormats

/-- `std::cerr`: whether `badbit` is set, and what it has put out. -/
structure ErrorStream where
  badbit : Bool
  output : Bytes
  deriving DecidableEq

/-- `<<` with a text, and with a null pointer. -/
def ErrorStream.insert (stream : ErrorStream) : Option Bytes → ErrorStream
  | none => { stream with badbit := true }
  | some text =>
      if stream.badbit then stream
      else { stream with output := stream.output ++ text }

/-- What a call of `FprintfStderrLog` finds besides its first two arguments: the
time, and the other arguments, with the bytes of its two messages. -/
structure LogDetails where
  tm_hour : Nat
  tm_min : Nat
  tm_sec : Nat
  tv_usec : Nat
  nData : Int
  pFile : Option Bytes
  nLine : Int
  message1 : Bytes
  message2 : Bytes
  deriving DecidableEq

/-- A byte of a message: the character, or its code between brackets. -/
def printedByte (byte : UInt8) : Bytes :=
  if 32 ≤ byte ∧ byte < 127 then [byte]
  else if byte = 0 then ascii "[0]".toList
  else ascii ("[0x".toList ++ Nat.toDigits 16 byte.toNat ++ "]".toList)

/-- What `FprintfStderrLog` inserts, in order. -/
def insertions (call : LogCall) (details : LogDetails) :
    List (Option Bytes) :=
  let text (characters : String) := some (ascii characters.toList)
  let message (bytes : Bytes) :=
    text "\x7b" :: bytes.map (fun byte => some (printedByte byte)) ++
      [text "\x7d"]
  [text "[", some (decimal 2 details.tm_hour), text ":",
      some (decimal 2 details.tm_min), text ":",
      some (decimal 2 details.tm_sec), text "'",
      some (decimal 6 details.tv_usec), text "]",
      text "[", call.pCause.map fun pCause => pCause.toUTF8.toList, text "][",
      some (decimal 0 call.nError), text ",",
      some (decimal 0 details.nData), text "]"] ++
    (match details.pFile with
      | some pFile => [some pFile, text ":", some (decimal 0 details.nLine)]
      | none => []) ++
    message details.message1 ++ message details.message2 ++ [text "\n"]

def fprintfStderrLog (stream : ErrorStream) (call : LogCall)
    (details : LogDetails) : ErrorStream :=
  (insertions call details).foldl ErrorStream.insert stream

/-- The line that a call is to produce. -/
def logLine (call : LogCall) (details : LogDetails) : Bytes :=
  (insertions call details).flatMap fun inserted => inserted.getD []

/-- The relay loop with its clients, `std::cerr`, and the calls of
`FprintfStderrLog` made so far. -/
structure LoggingService where
  service : Service
  stream : ErrorStream
  calls : List (LogCall × LogDetails)

namespace LoggingService

def start : LoggingService :=
  ⟨Service.start, ⟨false, []⟩, []⟩

/-- The state after some calls of `FprintfStderrLog`. -/
def log (logging : LoggingService) (calls : List (LogCall × LogDetails)) :
    LoggingService :=
  { logging with
    stream := calls.foldl
      (fun stream call => fprintfStderrLog stream call.1 call.2)
      logging.stream
    calls := logging.calls ++ calls }

/-- No cause was NULL, the stream has not failed, and every call has produced
its line. -/
structure Heard (logging : LoggingService) : Prop where
  causes : ∀ call ∈ logging.calls, call.1.pCause ≠ none
  good : logging.stream.badbit = false
  lines : logging.stream.output =
    logging.calls.flatMap fun call => logLine call.1 call.2

end LoggingService

/-- A step of the service with the lines that it logs, or a call of
`FprintfStderrLog` anywhere else, all of which have a cause. -/
inductive LoggingAction
  | serve (action : ServiceAction) (details : Nat → LogDetails)
  | log (pCause : String) (nError : Int) (details : LogDetails)

def loggingStep (logging : LoggingService) :
    LoggingAction → Option LoggingService
  | .serve action details =>
      (serviceStep logging.service action).map fun service =>
        { logging with service := service }.log
          ((service.logged.drop logging.service.logged.length).mapIdx
            fun position call => (call, details position))
  | .log pCause nError details =>
      some (logging.log [(⟨some pCause, nError⟩, details)])

/-- The text that the relay loop broadcasts for a message. -/
def Service.broadcastText (service : Service) (queued : Bytes) :
    Option Bytes :=
  match runIteration service.run.relay queued with
  | .error _ => none
  | .ok result => result.broadcast

/-- The first `send` of a broadcast to a client that is not gone takes nothing
or the whole text. -/
def TakesAllAtOnce (logging : LoggingService) : LoggingAction → Prop
  | .serve (.message queued results) _ =>
      ∀ text, logging.service.broadcastText queued = some text →
        ∀ client ∈ logging.service.vClient, client.gone = false →
          ¬ (0 < results client.arrival 0 ∧
            results client.arrival 0 < text.length)
  | .serve (.arrive _) _ | .serve .sweep _ | .log _ _ _ => True

section Stream

variable {stream : ErrorStream} {inserted : List (Option Bytes)}

/-- A good stream puts out all that is inserted, unless a pointer is null. -/
theorem foldl_insert (good : stream.badbit = false)
    (present : none ∉ inserted) :
    inserted.foldl ErrorStream.insert stream =
      { stream with
        output := stream.output ++
          inserted.flatMap fun text => text.getD [] } := by
  induction inserted generalizing stream with
  | nil => simp
  | cons text rest ih =>
      cases text with
      | none => simp at present
      | some text =>
          have later := List.not_mem_of_not_mem_cons present
          have stays : (stream.insert (some text)).badbit = false := by
            simp [ErrorStream.insert, good]
          rw [List.foldl_cons, ih stays later]
          simp [ErrorStream.insert, good]

/-- A stream that has failed puts out nothing more. -/
theorem foldl_insert_of_failed (failed : stream.badbit = true) :
    inserted.foldl ErrorStream.insert stream = stream := by
  induction inserted with
  | nil => rfl
  | cons text rest ih =>
      have same : stream.insert text = stream := by
        cases text with
        | none => simp [ErrorStream.insert, ← failed]
        | some text => simp [ErrorStream.insert, failed]
      rw [List.foldl_cons, same, ih]

theorem failed_of_null (null : none ∈ inserted) :
    (inserted.foldl ErrorStream.insert stream).badbit = true := by
  induction inserted generalizing stream with
  | nil => cases null
  | cons text rest ih =>
      rcases List.mem_cons.mp null with rfl | later
      · have failed : (stream.insert none).badbit = true := rfl
        rw [List.foldl_cons, foldl_insert_of_failed failed, failed]
      · exact ih later

theorem none_mem_insertions {call : LogCall} {details : LogDetails} :
    none ∈ insertions call details ↔ call.pCause = none := by
  cases file : details.pFile <;> simp [insertions, file]

theorem fprintfStderrLog_of_cause {call : LogCall} (details : LogDetails)
    (good : stream.badbit = false) (cause : call.pCause ≠ none) :
    fprintfStderrLog stream call details =
      { stream with output := stream.output ++ logLine call details } :=
  foldl_insert good (mt none_mem_insertions.mp cause)

/-- A call without a cause makes the stream fail. -/
theorem fprintfStderrLog_of_null {call : LogCall} (details : LogDetails)
    (null : call.pCause = none) :
    (fprintfStderrLog stream call details).badbit = true :=
  failed_of_null (none_mem_insertions.mpr null)

/-- After that no call produces its line. -/
theorem fprintfStderrLog_of_failed (call : LogCall) (details : LogDetails)
    (failed : stream.badbit = true) :
    fprintfStderrLog stream call details = stream :=
  foldl_insert_of_failed failed

end Stream

namespace LoggingService

variable {logging : LoggingService} {calls : List (LogCall × LogDetails)}

theorem foldl_log {stream : ErrorStream} (good : stream.badbit = false)
    (causes : ∀ call ∈ calls, call.1.pCause ≠ none) :
    calls.foldl
        (fun stream call => fprintfStderrLog stream call.1 call.2) stream =
      { stream with
        output := stream.output ++
          calls.flatMap fun call => logLine call.1 call.2 } := by
  induction calls generalizing stream with
  | nil => simp
  | cons call rest ih =>
      rw [List.forall_mem_cons] at causes
      rw [List.foldl_cons, fprintfStderrLog_of_cause call.2 good causes.1,
        ih ?_ causes.2]
      · simp
      · exact good

/-- The log stays heard just when each of the calls has a cause. -/
theorem Heard.log_iff (heard : logging.Heard) :
    (logging.log calls).Heard ↔ ∀ call ∈ calls, call.1.pCause ≠ none := by
  constructor
  · intro after call member
    exact after.causes call (List.mem_append_right _ member)
  · intro causes
    have written := foldl_log heard.good causes
    refine ⟨?_, ?_, ?_⟩
    · intro call member
      rcases List.mem_append.mp member with earlier | later
      · exact heard.causes call earlier
      · exact causes call later
    · simp only [log, written]
      exact heard.good
    · simp only [log, written, heard.lines, List.flatMap_append]

theorem foldl_log_of_failed {stream : ErrorStream}
    (failed : stream.badbit = true) :
    calls.foldl
        (fun stream call => fprintfStderrLog stream call.1 call.2) stream =
      stream := by
  induction calls with
  | nil => rfl
  | cons call rest ih =>
      rw [List.foldl_cons, fprintfStderrLog_of_failed _ _ failed, ih]

/-- One call without a cause is enough for the stream to fail. -/
theorem failed_of_log {call : LogCall × LogDetails} (member : call ∈ calls)
    (null : call.1.pCause = none) :
    (logging.log calls).stream.badbit = true := by
  obtain ⟨earlier, later, rfl⟩ := List.append_of_mem member
  have failed (stream : ErrorStream) :
      (fprintfStderrLog stream call.1 call.2).badbit = true :=
    fprintfStderrLog_of_null call.2 null
  simp only [log, List.foldl_append, List.foldl_cons]
  rw [foldl_log_of_failed (failed _), failed _]

/-- Once the stream has failed, no step of any run puts out anything. -/
theorem stream_of_failed {actions : List LoggingAction}
    {first last : LoggingService} (failed : first.stream.badbit = true)
    (executed : execute loggingStep first actions = some last) :
    last.stream = first.stream := by
  let silent (state : LoggingService) : Prop := state.stream = first.stream
  have initially : silent first := rfl
  have each : ∀ before action after, silent before →
      loggingStep before action = some after → silent after := by
    intro before action after same stepTo
    have failed : before.stream.badbit = true := same ▸ failed
    cases action with
    | log pCause nError details =>
        obtain rfl := Option.some.inj stepTo
        exact (foldl_log_of_failed failed).trans same
    | serve action details =>
        obtain ⟨service, -, rfl⟩ := Option.map_eq_some_iff.mp stepTo
        exact (foldl_log_of_failed failed).trans same
  have silenced : silent last :=
    invariant_of_execute initially each executed
  exact silenced

end LoggingService

/-- Without a cause the loop logs without a cause just when its next `send` takes
a part of the text. -/
theorem sendLoop_causes_iff (results : Nat → Int) (fuel pass : Nat)
    {call : SendCall} (pending : call.Pending) (silent : call.pWhat = none)
    {sent : SentAll}
    (ended : sendLoop results (fuel + 1) pass call = some sent) :
    (∀ logged ∈ sent.logged, logged.pCause ≠ none) ↔
      ¬ (0 < results pass ∧ results pass < call.requested) := by
  have unsent := pending.unsent
  have result : sendResult (results pass) call.requested =
      max (-1) (min (results pass) call.requested) := rfl
  have most : sendResult (results pass) call.requested ≤ call.requested := by
    omega
  rcases sendPass_cases pending most with
    ⟨nothing, done⟩ | ⟨whole, done⟩ |
      ⟨positive, part, rest, -, -, -, -, -, -, done⟩
  · simp only [sendLoop, done, Option.some.injEq] at ended
    apply iff_of_true
    · simp [← ended]
    · omega
  · simp only [sendLoop, done, Option.some.injEq] at ended
    apply iff_of_true
    · simp [← ended]
    · omega
  · simp only [sendLoop, done, Option.map_eq_some_iff] at ended
    obtain ⟨others, -, rfl⟩ := ended
    apply iff_of_false
    · simp [silent]
    · omega

theorem sendAll_causes_iff (results : Nat → Int) (text : Bytes)
    {sent : SentAll}
    (ended : sendAll results none text text.length = some sent) :
    (∀ logged ∈ sent.logged, logged.pCause ≠ none) ↔
      ¬ (0 < results 0 ∧ results 0 < text.length) := by
  unfold sendAll at ended
  split at ended
  case isTrue empty =>
    obtain rfl := Option.some.inj ended
    simp [empty]
    omega
  case isFalse nonempty =>
    have pending : (SendCall.start none text text.length).Pending :=
      SendCall.start_pending (by omega) (le_refl _)
    have requested : (SendCall.start none text text.length).requested =
        text.length := by
      simp [SendCall.start, SendCall.requested]
    rw [← requested]
    obtain ⟨fuel, enough⟩ := Nat.exists_eq_add_one_of_ne_zero nonempty
    apply sendLoop_causes_iff results fuel 0 pending rfl
    rw [← enough]
    exact ended

/-- All the lines of a broadcast have a cause just when every client that is not
gone takes nothing or the whole text at first. -/
theorem broadcast_causes_iff (text : Bytes) (results : Nat → Nat → Int)
    {clients last : List Client} {logged : List LogCall}
    (ended : broadcast text results clients = some (last, logged)) :
    (∀ call ∈ logged, call.pCause ≠ none) ↔
      ∀ client ∈ clients, client.gone = false →
        ¬ (0 < results client.arrival 0 ∧
          results client.arrival 0 < text.length) := by
  induction clients generalizing last logged with
  | nil =>
      simp only [broadcast, Option.some.injEq, Prod.mk.injEq] at ended
      simp [← ended.2]
  | cons client clients ih =>
      simp only [broadcast, Option.bind_eq_bind, Option.pure_def,
        Option.bind_eq_some_iff, Option.some.injEq, Prod.mk.injEq] at ended
      obtain ⟨⟨served, first⟩, sent, ⟨others, rest⟩, more, -, rfl⟩ := ended
      rw [List.forall_mem_append, List.forall_mem_cons, ih more]
      apply and_congr_left'
      unfold broadcastTo at sent
      cases gone : client.gone with
      | true =>
          simp only [gone, if_true, Option.some.injEq, Prod.mk.injEq] at sent
          simp [← sent.2]
      | false =>
          simp only [gone, Bool.false_eq_true, if_false,
            Option.map_eq_some_iff, Prod.mk.injEq] at sent
          obtain ⟨all, taken, -, rfl⟩ := sent
          rw [sendAll_causes_iff _ _ taken]
          simp

/-- A message either is not broadcast, and logs nothing, or its broadcast logs
all that the step logs. -/
theorem serviceStep_message_logged {service next : Service} {queued : Bytes}
    {results : Nat → Nat → Int}
    (stepTo : serviceStep service (.message queued results) = some next) :
    (service.broadcastText queued = none ∧ next.logged = service.logged) ∨
      ∃ text last logged, service.broadcastText queued = some text ∧
        broadcast text results service.vClient = some (last, logged) ∧
        next.logged = service.logged ++ logged := by
  unfold serviceStep at stepTo
  unfold Service.broadcastText
  cases ended : runIteration service.run.relay queued with
  | error abort => simp [ended] at stepTo
  | ok result =>
      cases text : result.broadcast with
      | none =>
          simp only [ended, text, Option.some.injEq] at stepTo
          left
          simp [text, ← stepTo]
      | some text =>
          simp only [ended, text, Option.map_eq_some_iff] at stepTo
          obtain ⟨⟨last, logged⟩, sent, rfl⟩ := stepTo
          right
          exact ⟨_, last, logged, text, sent, rfl⟩

theorem causes_mapIdx (calls : List LogCall) (details : Nat → LogDetails) :
    (∀ call ∈ calls.mapIdx fun position call => (call, details position),
        call.1.pCause ≠ none) ↔ ∀ call ∈ calls, call.pCause ≠ none := by
  constructor
  · intro each call member
    obtain ⟨position, inside, rfl⟩ := List.mem_iff_getElem.mp member
    exact each _ (List.mem_mapIdx.mpr ⟨position, inside, rfl⟩)
  · intro each call member
    obtain ⟨position, inside, rfl⟩ := List.mem_mapIdx.mp member
    exact each _ (List.getElem_mem inside)

/-- What the service logs in one step has a cause just when its broadcast sends
all at once. -/
theorem serve_causes_iff {logging : LoggingService} {next : Service}
    {action : ServiceAction} (details : Nat → LogDetails)
    (stepTo : serviceStep logging.service action = some next) :
    (∀ call ∈ next.logged.drop logging.service.logged.length,
        call.pCause ≠ none) ↔
      TakesAllAtOnce logging (.serve action details) := by
  cases action with
  | arrive nSocket =>
      obtain rfl := Option.some.inj stepTo
      simp [TakesAllAtOnce]
  | sweep =>
      obtain ⟨swept, -, rfl⟩ := Option.map_eq_some_iff.mp stepTo
      simp [TakesAllAtOnce]
  | message queued results =>
      rcases serviceStep_message_logged stepTo with
        ⟨withheld, logged⟩ | ⟨text, last, logged, sent, taken, appended⟩
      · simp [TakesAllAtOnce, withheld, logged]
      · rw [appended, List.drop_left, broadcast_causes_iff text results taken]
        simp [TakesAllAtOnce, sent]

/-- One step keeps the log heard just when it sends all at once. -/
theorem LoggingService.Heard.step_iff {before after : LoggingService}
    {action : LoggingAction} (heard : before.Heard)
    (stepTo : loggingStep before action = some after) :
    after.Heard ↔ TakesAllAtOnce before action := by
  cases action with
  | log pCause nError details =>
      obtain rfl := Option.some.inj stepTo
      rw [heard.log_iff]
      simp [TakesAllAtOnce]
  | serve action details =>
      obtain ⟨service, served, rfl⟩ := Option.map_eq_some_iff.mp stepTo
      have same : Heard { before with service := service } :=
        ⟨heard.causes, heard.good, heard.lines⟩
      rw [same.log_iff, ← serve_causes_iff details served]
      exact causes_mapIdx _ details

theorem LoggingService.start_heard : start.Heard := by
  constructor <;> simp [start]

/-- The log is heard in every state of a run just when, in every broadcast, the
first `send` to each client that is not gone takes nothing or the whole
text. -/
theorem errorLog_heard_iff (actions : List LoggingAction) :
    HoldsAlong loggingStep LoggingService.Heard .start actions ↔
      MeetsAlong loggingStep TakesAllAtOnce .start actions := by
  apply holdsAlong_iff_meetsAlong (fun _ _ _ _ _ => trivial) _ trivial
    LoggingService.start_heard
  intro before action after _ heard stepTo
  exact heard.step_iff stepTo

/-- The clock at noon and no other arguments. -/
def plainDetails : LogDetails :=
  ⟨12, 0, 0, 0, 0, none, 0, [], []⟩

/-- One client takes one byte of a tick at first. -/
theorem errorLog_silenced :
    ¬ HoldsAlong loggingStep LoggingService.Heard .start
      [.serve (.arrive 5) fun _ => plainDetails,
        .serve (.message [55, 44, 56] fun _ _ => 1) fun _ => plainDetails] := by
  rintro ⟨-, along⟩
  let service : Service := { Service.start with
    vClient := [Service.start.joining 5]
    arrived := 1 }
  have joins : serviceStep Service.start (.arrive 5) = some service := rfl
  have short : Fits [55, 44, 56] := fits_of_lt (by decide)
  have iterated : runIteration service.run.relay [55, 44, 56] =
      .ok ⟨Relay.withWindow [dedupKey [55, 44, 56]], some [55, 44, 56],
        false⟩ :=
    runIteration_of_fresh Relay.start_ready (by decide) short (by decide)
  obtain ⟨served, stepTo⟩ : ∃ served, serviceStep service
      (.message [55, 44, 56] fun _ _ => 1) = some served := by
    apply exists_serviceStep (Service.start_valid.step joins)
    rintro queued results ⟨⟩
    exact short
  let logging : LoggingService := { LoggingService.start with
    service := service }
  obtain ⟨heard, further⟩ : HoldsAlong loggingStep LoggingService.Heard logging
      [.serve (.message [55, 44, 56] fun _ _ => 1) fun _ => plainDetails] :=
    along logging rfl
  obtain ⟨after, stepAfter⟩ : ∃ after, loggingStep logging
      (.serve (.message [55, 44, 56] fun _ _ => 1) fun _ => plainDetails) =
        some after := by
    simp only [loggingStep, Option.map_eq_some_iff]
    exact ⟨_, served, stepTo, rfl⟩
  have sentAtOnce := (heard.step_iff stepAfter).mp (further after stepAfter)
  have text : service.broadcastText [55, 44, 56] = some [55, 44, 56] := by
    rw [Service.broadcastText, iterated]
  apply sentAtOnce [55, 44, 56] text (Service.start.joining 5) _ rfl
    (by decide)
  simp [logging, service]

end ArstQuote
