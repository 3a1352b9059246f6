import ArstQuote.QuoteProcess

/-!
# Every client hears lines of the exchanges

Each reader's account balances at every step: the texts that it has put on the
send queue and the one that it is in `SendMessage` with are what it passed to
`SendData`, in order, but for those whose `msgsnd` failed.  Together with the
accounts of the kernel queues, of the relay loop and of the clients' sockets
this takes every byte on a socket back to the line it came with, and every line
to the sockets or to what has kept it from them.
-/

namespace ArstQuote

open CString DelimitedTokens GuardedRuns LossyChannels

variable {Reader Key : Type*} [DecidableEq Reader]

/-- The texts broadcast are those of some of the messages taken, and the others
were withheld for what had been broadcast before. -/
def Relays (taken : List (Put Reader)) (accepted : List Bytes) : Prop :=
  ∃ relayed withheld, Sifted Repeats relayed withheld taken ∧
    accepted = relayed.map Put.shown

omit [DecidableEq Reader] in
/-- An iteration of the relay loop broadcasts its message or has a reason to
withhold it. -/
theorem Relays.step {taken : List (Put Reader)} {run next : RelayRun}
    {put : Put Reader} (relays : Relays taken run.accepted)
    (valid : run.Valid) (stepTo : relayStep run put.text = some next) :
    Relays (taken ++ [put]) next.accepted := by
  obtain ⟨relayed, withheld, sifted, accepted⟩ := relays
  rcases relayStep_cases valid.ready stepTo with
    ⟨empty, rfl⟩ | ⟨-, -, rfl⟩ | ⟨-, known, kept, -, rfl⟩
  · exact ⟨relayed, withheld ++ [put], sifted.hold (Or.inl empty), accepted⟩
  · refine ⟨relayed ++ [put], withheld, sifted.pass put, ?_⟩
    rw [accepted, List.map_append]
    rfl
  · refine ⟨relayed, withheld ++ [put], sifted.hold (Or.inr ?_), accepted⟩
    -- The keys in the window are keys of texts that were broadcast.
    have before := valid.remembers.subset known
    rw [accepted, List.map_map] at before
    exact List.mem_map.mp before

namespace QuoteProcess

/-- What holds in every run that keeps the buffer of `SendMessage`. -/
structure Valid (dao : QueueKeys Key) (process : QuoteProcess Reader Key) :
    Prop where
  reached : ∀ reader,
    Reaches lineTraceStep LineTrace.start (process.servers reader)
  sendQueue : process.sendQueue.Valid
  passed : ∀ reader, Thinned
    ((textsOf reader (process.queues dao.m_kSendKey).put ++
      process.inCall reader).map some)
    (process.servers reader).server.sent (process.failed reader)
  others : ∀ key, key ≠ dao.m_kSendKey →
    ∀ put ∈ (process.queues key).put, put.origin = none
  queues : ∀ key, (process.queues key).Accounted
  relays : Relays (process.queues dao.m_kRecvKey).taken
    process.service.run.accepted
  service : process.service.Valid

theorem start_valid (dao : QueueKeys Key) :
    (start Reader Key).Valid dao where
  reached _ := Relation.ReflTransGen.refl
  sendQueue := SendQueue.start_valid
  passed _ := Thinned.refl []
  others _ _ := by simp [start, Channel.empty]
  queues _ := Channel.empty_accounted
  relays := ⟨[], [], Sifted.empty, rfl⟩
  service := Service.start_valid

section Steps

variable [DecidableEq Key] {dao : QueueKeys Key}
  {process next : QuoteProcess Reader Key} {reader : Reader}

omit [DecidableEq Key] in
/-- Each server has been reached by its own steps, also after one moves on. -/
theorem Valid.reached_update (valid : process.Valid dao)
    {action : ServerAction} {trace : LineTrace}
    (stepTo : lineTraceStep (process.servers reader) action = some trace) :
    ∀ other, Reaches lineTraceStep LineTrace.start
      (Function.update process.servers reader trace other) := by
  have moved : Reaches lineTraceStep LineTrace.start trace :=
    (valid.reached reader).trans (reachesWhen_single trivial stepTo)
  exact (Function.forall_update_iff process.servers fun _ server =>
    Reaches lineTraceStep LineTrace.start server).mpr
      ⟨moved, fun other _ => valid.reached other⟩

omit [DecidableEq Key] in
/-- A server that moves on without a call of `SendData`. -/
theorem Valid.serverStep (valid : process.Valid dao) {action : ServerAction}
    (allowed : process.Allows reader action) {trace : LineTrace}
    (stepTo : lineTraceStep (process.servers reader) action = some trace) :
    Valid dao { process with
      servers := Function.update process.servers reader trace } := by
  have consistent := LineTrace.consistent_of_reaches (valid.reached reader)
  have sentEq : trace.server.sent =
      (process.servers reader).server.sent := by
    apply sent_of_lineTraceStep consistent.valid _ stepTo
    rintro succeeds rfl
    exact allowed.2
  refine ⟨valid.reached_update stepTo, valid.sendQueue, ?_, valid.others,
    valid.queues, valid.relays, valid.service⟩
  intro other
  by_cases same : other = reader
  · subst same
    simp only [Function.update_self, sentEq]
    exact valid.passed other
  · simp only [Function.update_of_ne same]
    exact valid.passed other

/-- The calls of `SendMessage` after one has begun. -/
theorem call_eq {queue sending : SendQueue Reader} {pBuf : Bytes}
    {nSize : Nat} {lType : Int}
    (called : sendQueueStep queue (.call reader pBuf nSize lType) =
      some sending) :
    queue.calls reader = none ∧ sending.calls = Function.update queue.calls
      reader (some ⟨pBuf, nSize, lType, .setType⟩) := by
  simp only [sendQueueStep] at called
  split at called
  · cases called
  · next idle =>
      cases called
      exact ⟨idle, rfl⟩

omit [DecidableEq Key] in
/-- A call that has begun holds the text that was passed. -/
theorem Valid.sendData (valid : process.Valid dao)
    (sending : (process.servers reader).server.reader = .sendData)
    (stepTo : process.sendData reader = some next) : next.Valid dao := by
  obtain ⟨nSize, length, stepTo⟩ := Option.bind_eq_some_iff.mp stepTo
  obtain ⟨sendQueue, called, stepTo⟩ := Option.bind_eq_some_iff.mp stepTo
  obtain ⟨trace, moved, rfl⟩ := Option.map_eq_some_iff.mp stepTo
  obtain ⟨idle, calls⟩ := call_eq called
  have sentEq := sent_of_sendData sending moved
  rw [stringAt_of_strlen length] at sentEq
  have sendValid : sendQueue.Valid := by
    refine valid.sendQueue.step ?_ called
    trivial
  refine ⟨valid.reached_update moved, sendValid, ?_, valid.others,
    valid.queues, valid.relays, valid.service⟩
  intro other
  have passed := valid.passed other
  by_cases same : other = reader
  · subst same
    simp only [inCall, idle, Option.map_none, Option.toList_none,
      List.append_nil] at passed
    simp only [inCall, calls, Function.update_self, sentEq,
      Option.map_some, Option.toList_some, List.map_append]
    exact passed.append _
  · simp only [inCall, calls, Function.update_of_ne same]
    exact passed

omit [DecidableEq Key] in
/-- The statements before `msgsnd` keep the texts of all calls. -/
theorem inCall_of_proceed {sendQueue : SendQueue Reader}
    (stepTo : sendQueueStep process.sendQueue (.proceed reader) =
      some sendQueue) (other : Reader) :
    inCall { process with sendQueue := sendQueue } other =
      process.inCall other := by
  by_cases same : other = reader
  · subst same
    simp only [sendQueueStep] at stepTo
    split at stepTo
    · cases stepTo
    · next call own =>
        obtain ⟨⟨rest, message⟩, proceeds, rfl⟩ :=
          Option.map_eq_some_iff.mp stepTo
        simp [inCall, own, payload_of_proceed proceeds]
  · simp only [inCall, calls_of_sendQueueStep stepTo same]

omit [DecidableEq Key] in
theorem Valid.proceed (valid : process.Valid dao)
    {sendQueue : SendQueue Reader}
    (free : BufferFree process.sendQueue (.proceed reader))
    (stepTo : sendQueueStep process.sendQueue (.proceed reader) =
      some sendQueue) :
    Valid dao { process with sendQueue := sendQueue } where
  reached := valid.reached
  sendQueue := valid.sendQueue.step free stepTo
  passed other := by
    rw [inCall_of_proceed stepTo]
    exact valid.passed other
  others := valid.others
  queues := valid.queues
  relays := valid.relays
  service := valid.service

/-- What `msgsnd` does to the queue object. -/
theorem msgsnd_eq {queue sending : SendQueue Reader} {call : SendMessageCall}
    {succeeds : Bool} (own : queue.calls reader = some call)
    (stepTo : sendQueueStep queue (.msgsnd reader succeeds) = some sending) :
    call.next = .msgsnd ∧ sending.message = queue.message ∧
      sending.calls = Function.update queue.calls reader none := by
  simp only [sendQueueStep, own] at stepTo
  split at stepTo
  case isFalse => cases stepTo
  case isTrue atMsgsnd =>
    cases succeeds <;> cases stepTo <;> exact ⟨atMsgsnd, rfl, rfl⟩

omit [DecidableEq Reader] in
/-- A message put on a queue changes the account of that queue alone. -/
theorem put_queues (process : QuoteProcess Reader Key) (key other : Key)
    (added : Put Reader) :
    ((process.put key added).queues other).put =
      (process.queues other).put ++ if other = key then [added] else [] := by
  by_cases same : other = key
  · subst same
    simp [put, Channel.push]
  · simp [put, same]

omit [DecidableEq Reader] in
theorem put_accounted (accounted : ∀ key, (process.queues key).Accounted)
    (key other : Key) (added : Put Reader) :
    ((process.put key added).queues other).Accounted := by
  by_cases same : other = key
  · subst same
    simp only [put, Function.update_self]
    exact (accounted other).push added
  · simp only [put, Function.update_of_ne same]
    exact accounted other

omit [DecidableEq Reader] in
theorem put_taken (process : QuoteProcess Reader Key) (key other : Key)
    (added : Put Reader) :
    ((process.put key added).queues other).taken =
      (process.queues other).taken := by
  by_cases same : other = key
  · subst same
    simp [put, Channel.push]
  · simp [put, same]

/-- The `msgsnd` of a call puts the text of the call on the send queue, or its
text is lost. -/
theorem Valid.msgsnd (valid : process.Valid dao) {call : SendMessageCall}
    {succeeds : Bool} (own : process.sendQueue.calls reader = some call)
    (stepTo : process.msgsnd dao reader call succeeds = some next) :
    next.Valid dao := by
  obtain ⟨sendQueue, sent, rfl⟩ := Option.map_eq_some_iff.mp stepTo
  obtain ⟨atMsgsnd, message, calls⟩ := msgsnd_eq own sent
  have sendValid : sendQueue.Valid := by
    refine valid.sendQueue.step ?_ sent
    trivial
  have inBuffer := valid.sendQueue.filled reader call own atMsgsnd
  have ownCall : process.inCall reader = [call.payload] := by
    simp [inCall, own]
  have otherCall : ∀ other, other ≠ reader →
      inCall { process with sendQueue := sendQueue } other =
        process.inCall other := by
    intro other different
    simp only [inCall, calls, Function.update_of_ne different]
  have noCall :
      inCall { process with sendQueue := sendQueue } reader = [] := by
    simp [inCall, calls]
  cases succeeds with
  | true =>
      rw [if_pos rfl, message, inBuffer]
      refine ⟨valid.reached, sendValid, ?_, ?_, ?_, ?_, valid.service⟩
      · intro other
        have passed := valid.passed other
        rw [put_queues, if_pos rfl, textsOf_append]
        by_cases same : other = reader
        · subst same
          rw [ownCall] at passed
          rw [textsOf_own]
          change Thinned (List.map some ((_ ++ _) ++
            inCall { process with sendQueue := sendQueue } other)) _ _
          rw [noCall, List.append_nil]
          exact passed
        · rw [textsOf_other (by simpa using Ne.symm same), List.append_nil]
          change Thinned (List.map some (_ ++
            inCall { process with sendQueue := sendQueue } other)) _ _
          rw [otherCall other same]
          exact passed
      · intro key different added member
        rw [put_queues, if_neg different, List.append_nil] at member
        exact valid.others key different added member
      · intro key
        apply put_accounted
        exact valid.queues
      · rw [put_taken]
        exact valid.relays
  | false =>
      rw [if_neg Bool.false_ne_true]
      refine ⟨valid.reached, sendValid, ?_, valid.others, valid.queues,
        valid.relays, valid.service⟩
      intro other
      have passed := valid.passed other
      by_cases same : other = reader
      · subst same
        rw [ownCall, List.map_append] at passed
        simp only [Function.update_self]
        change Thinned (List.map some (_ ++
          inCall { process with sendQueue := sendQueue } other)) _ _
        rw [noCall, List.map_append]
        exact passed.lose
      · simp only [Function.update_of_ne same]
        change Thinned (List.map some (_ ++
          inCall { process with sendQueue := sendQueue } other)) _ _
        rw [otherCall other same]
        exact passed

theorem Valid.othersPut (valid : process.Valid dao) (key : Key)
    (text : Bytes) : (process.put key ⟨none, text⟩).Valid dao := by
  refine ⟨valid.reached, valid.sendQueue, ?_, ?_, ?_, ?_, valid.service⟩
  · intro other
    rw [put_queues, textsOf_append]
    have nothing : textsOf other
        (if dao.m_kSendKey = key then [⟨none, text⟩] else []) = [] := by
      apply textsOf_nil_of_others
      split <;> simp
    rw [nothing, List.append_nil]
    exact valid.passed other
  · intro other different added member
    rw [put_queues] at member
    rcases List.mem_append.mp member with before | now
    · exact valid.others other different added before
    · split at now <;> simp_all
  · intro other
    exact put_accounted valid.queues key other _
  · rw [put_taken]
    exact valid.relays

/-- A message taken from a queue leaves the account of what was put on it. -/
theorem Valid.replace (valid : process.Valid dao) {key : Key}
    {queue : Channel (Put Reader)} {service : Service}
    (put : queue.put = (process.queues key).put)
    (accounted : queue.Accounted)
    (relays : Relays (Function.update process.queues key queue
      dao.m_kRecvKey).taken service.run.accepted)
    (served : service.Valid) :
    Valid dao { process with
      queues := Function.update process.queues key queue
      service := service } := by
  have putEq : ∀ other, (Function.update process.queues key queue other).put =
      (process.queues other).put :=
    (Function.forall_update_iff process.queues fun other queue =>
      queue.put = (process.queues other).put).mpr ⟨put, fun _ _ => rfl⟩
  refine ⟨valid.reached, valid.sendQueue, ?_, ?_, ?_, relays, served⟩
  · intro reader
    simp only [putEq]
    exact valid.passed reader
  · intro other different
    simp only [putEq]
    exact valid.others other different
  · exact (Function.forall_update_iff process.queues fun _ queue =>
      queue.Accounted).mpr ⟨accounted, fun other _ => valid.queues other⟩

theorem Valid.othersTake (valid : process.Valid dao) {key : Key}
    {position : Nat} {queue : Channel (Put Reader)}
    (lost : (process.queues key).lose position = some queue) :
    Valid dao { process with
      queues := Function.update process.queues key queue } := by
  obtain ⟨put, taken, -⟩ := Channel.lose_eq_some lost
  apply valid.replace put ((valid.queues key).lose lost) _ valid.service
  by_cases same : dao.m_kRecvKey = key
  · subst same
    simp only [Function.update_self, taken]
    exact valid.relays
  · simp only [Function.update_of_ne same]
    exact valid.relays

theorem Valid.relay (valid : process.Valid dao) {results : Nat → Nat → Int}
    (stepTo : process.relay dao results = some next) : next.Valid dao := by
  obtain ⟨⟨put, queue⟩, took, stepTo⟩ := Option.bind_eq_some_iff.mp stepTo
  obtain ⟨service, served, rfl⟩ := Option.map_eq_some_iff.mp stepTo
  obtain ⟨-, taken, putKept, -⟩ := Channel.take_eq_some took
  have relays := valid.relays.step valid.service.run
    (serviceStep_message served).1
  apply valid.replace putKept ((valid.queues _).take took) _
    (valid.service.step served)
  rw [Function.update_self, taken]
  exact relays

omit [DecidableEq Key] in
/-- Arrivals and sweeps leave the relay as it is. -/
theorem Valid.serve (valid : process.Valid dao) {action : ServiceAction}
    {service : Service}
    (stepTo : serviceStep process.service action = some service)
    (run : service.run = process.service.run) :
    Valid dao { process with service := service } where
  reached := valid.reached
  sendQueue := valid.sendQueue
  passed := valid.passed
  others := valid.others
  queues := valid.queues
  relays := by
    rw [run]
    exact valid.relays
  service := valid.service.step stepTo

theorem Valid.step (valid : process.Valid dao)
    {action : QuoteAction Reader Key} (keeps : KeepsBuffer process action)
    (stepTo : quoteStep dao process action = some next) : next.Valid dao := by
  cases action with
  | server reader action =>
      simp only [quoteStep, Option.ite_none_right_eq_some] at stepTo
      obtain ⟨allowed, stepTo⟩ := stepTo
      obtain ⟨trace, moved, rfl⟩ := Option.map_eq_some_iff.mp stepTo
      exact valid.serverStep allowed moved
  | sendData reader =>
      simp only [quoteStep, Option.ite_none_right_eq_some] at stepTo
      exact valid.sendData stepTo.1 stepTo.2
  | proceed reader =>
      obtain ⟨sendQueue, moved, rfl⟩ := Option.map_eq_some_iff.mp stepTo
      exact valid.proceed keeps moved
  | msgsnd reader succeeds =>
      simp only [quoteStep] at stepTo
      split at stepTo
      · cases stepTo
      · exact valid.msgsnd (by assumption) stepTo
  | othersPut key text =>
      cases stepTo
      exact valid.othersPut key text
  | othersTake key position =>
      obtain ⟨queue, lost, rfl⟩ := Option.map_eq_some_iff.mp stepTo
      exact valid.othersTake lost
  | relay results => exact valid.relay stepTo
  | arrive nSocket =>
      simp only [quoteStep, Option.map_eq_some_iff] at stepTo
      obtain ⟨service, arrives, rfl⟩ := stepTo
      exact valid.serve arrives (by rw [serviceStep_arrive arrives])
  | sweep =>
      obtain ⟨service, swept, rfl⟩ := Option.map_eq_some_iff.mp stepTo
      exact valid.serve swept (by rw [serviceStep_sweep swept])

end Steps

section Lines

variable {dao : QueueKeys Key} {process : QuoteProcess Reader Key}

/-- The lines of a readable stream have no NUL. -/
theorem clean_of_mem_records {stream line : Bytes} (readable : Readable stream)
    (member : line ∈ records newline stream) : 0 ∉ line := by
  intro zero
  apply readable.clean
  rw [← flatten_records_append stream]
  exact List.mem_append_left _ (List.mem_flatten_of_mem member zero)

/-- A reader's account in terms of the lines that its server received. -/
theorem Valid.lines (valid : process.Valid dao) {reader : Reader}
    (readable : Readable (process.servers reader).received) :
    Thinned
      ((textsOf reader (process.queues dao.m_kSendKey).put ++
          process.inCall reader).map some ++ (process.servers reader).sending)
      ((records newline (process.servers reader).received).map some)
      (process.failed reader) := by
  rw [← (lines_framed (valid.reached reader) readable).passes]
  exact (valid.passed reader).append _

/-- What a reader put on any queue are lines that its server received. -/
theorem Valid.textsOf_put (valid : process.Valid dao) {reader : Reader}
    (readable : Readable (process.servers reader).received) (key : Key) :
    (textsOf reader (process.queues key).put).Sublist
      (records newline (process.servers reader).received) := by
  by_cases own : key = dao.m_kSendKey
  · subst own
    have lines := (valid.lines readable).sublist
    rw [List.map_append, List.append_assoc] at lines
    have texts := (List.sublist_append_left _ _).trans lines
    exact sublist_of_map (fun _ _ => Option.some.inj) texts
  · rw [textsOf_nil_of_others (valid.others key own)]
    exact List.nil_sublist _

theorem Valid.taken_sublist (valid : process.Valid dao) :
    (process.queues dao.m_kRecvKey).taken.Sublist
      (process.queues dao.m_kRecvKey).put :=
  (List.sublist_append_left _ _).trans
    (valid.queues dao.m_kRecvKey).sublist

/-- The relay cuts a text at its first NUL, and the lines of a reader have
none. -/
theorem Valid.shown_eq (valid : process.Valid dao)
    (readable : ∀ reader, Readable (process.servers reader).received)
    {key : Key} {put : Put Reader} (member : put ∈ (process.queues key).put)
    (own : put.origin ≠ none) : put.shown = put.text := by
  obtain ⟨reader, origin⟩ := Option.ne_none_iff_exists'.mp own
  apply payload_of_clean
  apply clean_of_mem_records (readable reader)
  apply (valid.textsOf_put (readable reader) key).subset
  exact List.mem_filterMap.mpr ⟨put, member, by simp [origin]⟩

theorem Valid.intact (valid : process.Valid dao)
    (readable : ∀ reader, Readable (process.servers reader).received) :
    ∃ relayed withheld, process.Intact dao relayed withheld := by
  obtain ⟨relayed, withheld, sifted, accepted⟩ := valid.relays
  have put := sifted.sublist.trans valid.taken_sublist
  refine ⟨relayed, withheld, ?_⟩
  constructor
  · exact fun reader => valid.lines (readable reader)
  · exact valid.queues
  · exact sifted
  · exact fun reader => sifted.thinned_filterMap _
  · exact accepted
  · exact fun message member => valid.shown_eq readable (put.subset member)
  · intro reader
    exact (textsOf_sublist put).trans
      (valid.textsOf_put (readable reader) dao.m_kRecvKey)
  · intro different message member
    exact valid.others _ (Ne.symm different) message (put.subset member)
  · intro client member
    have streams := valid.service.streams client member
    rw [accepted] at streams
    have joined := streams.joined
    rw [List.length_map] at joined
    rw [Hears, List.map_drop]
    exact ⟨joined, streams.isPrefix, streams.whole⟩

/-- A reader whose `msgsnd` never failed has lost nothing. -/
theorem Intact.allLines {relayed withheld : List (Put Reader)}
    (intact : process.Intact dao relayed withheld)
    {reader : Reader} (faultless : process.failed reader = 0) :
    (textsOf reader (process.queues dao.m_kSendKey).put ++
        process.inCall reader).map some ++ (process.servers reader).sending =
      (records newline (process.servers reader).received).map some := by
  have lines := intact.lines reader
  rw [faultless] at lines
  exact lines.eq

end Lines

end QuoteProcess

section Runs

variable {Key : Type*} [DecidableEq Key]

/-- In every run that keeps the buffer of `SendMessage`, whatever the servers,
their peers, the clients and the other processes do: as long as the exchanges
send readable streams, no line is changed, split, merged, reordered or sent
more often than it came, and the lost and the withheld ones are counted. -/
theorem quotes_intact (dao : QueueKeys Key)
    {actions : List (QuoteAction Reader Key)}
    (keeps : MeetsAlong (quoteStep dao) KeepsBuffer
      (QuoteProcess.start Reader Key) actions) :
    HoldsAlong (quoteStep dao)
      (fun process =>
        (∀ reader, Readable (process.servers reader).received) →
          ∃ relayed withheld, process.Intact dao relayed withheld)
      (QuoteProcess.start Reader Key) actions := by
  apply holdsAlong_of_meetsAlong _ _ (QuoteProcess.start_valid dao) keeps
  · intro process valid readable
    exact valid.intact readable
  · intro process action next valid met stepTo
    exact valid.step met stepTo

/-- `A,A,A,` and a digit, which is the key of the line. -/
def quoteLine (digit : UInt8) : Bytes :=
  [65, 44, 65, 44, 65, 44, digit, newline]

/-- Two servers receive a line each, and the second one begins to send its line
between the `memcpy` and the `msgsnd` of the first; then the second one receives
the line of the first. -/
def linesInTurn : List (QuoteAction Bool Unit) :=
  .arrive 5 ::
    (toFirstRecv (quoteLine 49) ++
      List.replicate 9 (ServerAction.read true)).map (.server false) ++
    (toFirstRecv (quoteLine 50) ++
      List.replicate 9 (ServerAction.read true)).map (.server true) ++
    [.sendData false, .sendData true, .proceed false, .proceed false,
      .proceed false, .proceed true, .msgsnd false true, .proceed true,
      .proceed true, .msgsnd true true, .relay fun _ _ => 8,
      .relay fun _ _ => 3] ++
    (.send (quoteLine 49) ::
      List.replicate 12 (ServerAction.read true)).map (.server true) ++
    [.sendData true, .proceed true, .proceed true, .proceed true,
      .msgsnd true true, .relay fun _ _ => 8]

/-- The client hears both lines; the third one is withheld for the first. -/
theorem quotes_intact_inTurn :
    HoldsAlong (quoteStep ⟨(), ()⟩)
        (fun process =>
          (∀ reader, Readable (process.servers reader).received) →
            ∃ relayed withheld, process.Intact ⟨(), ()⟩ relayed withheld)
        (QuoteProcess.start Bool Unit) linesInTurn ∧
      (execute (quoteStep ⟨(), ()⟩) (QuoteProcess.start Bool Unit)
          linesInTurn).map
          (fun process => ((process.servers false).received,
            (process.servers true).received,
            process.service.vClient.map Client.wire)) =
        some (quoteLine 49, quoteLine 50 ++ quoteLine 49,
          [quoteLine 49 ++ quoteLine 50]) :=
  ⟨quotes_intact ⟨(), ()⟩ (by decide +kernel), by decide +kernel⟩

end Runs

end ArstQuote
