import ArstQuote.ClientStreams
import ArstQuote.LineFraming
import ArstQuote.LossyChannels
import ArstQuote.SendMessage

/-!
# The quote process from the exchanges to the clients

Each server's reader passes the lines it has read to one `ARSTQueueDAO`, whose
`SendMessage` puts them on the kernel queue of its send key; the relay thread
takes messages from the queue of the receive key and broadcasts them.  Other
processes may use the queues as well.  As long as no reader fills the buffer of
`SendMessage` while another is about to send it, every client is sent whole
lines, those of one exchange in the order of the exchange and none of them more
often than it came.  A line that the clients are not sent met a failing
`msgsnd`, was taken by another process, or was withheld by the relay, which
goes by the keys of the messages.
-/

namespace ArstQuote

open CString DelimitedTokens GuardedRuns LossyChannels

/-- A message of a kernel queue, and the server whose reader put it there;
`none` for a message of another process. -/
structure Put (Reader : Type*) where
  origin : Option Reader
  text : Bytes

/-- The text of a message as the relay broadcasts it. -/
def Put.shown {Reader : Type*} (put : Put Reader) : Bytes :=
  payload put.text

/-- Why the relay withholds a message: it is empty, or it has the key of a
message that was broadcast before. -/
def Repeats {Reader : Type*} (relayed : List (Put Reader))
    (put : Put Reader) : Prop :=
  put.text = [] ∨
    ∃ earlier ∈ relayed, dedupKey earlier.shown = dedupKey put.shown

/-- The two keys of an `ARSTQueueDAO`. -/
structure QueueKeys (Key : Type*) where
  m_kSendKey : Key
  m_kRecvKey : Key

/-- The servers with their readers, the buffer of `SendMessage` with the calls
under way, the kernel queues, the failed calls of `msgsnd` of each reader, and
the relay thread with the clients. -/
structure QuoteProcess (Reader Key : Type*) where
  servers : Reader → LineTrace
  sendQueue : SendQueue Reader
  queues : Key → Channel (Put Reader)
  failed : Reader → Nat
  service : Service

inductive QuoteAction (Reader Key : Type*)
  | server (reader : Reader) (action : ServerAction)
  | sendData (reader : Reader)
  | proceed (reader : Reader)
  | msgsnd (reader : Reader) (succeeds : Bool)
  | othersPut (key : Key) (text : Bytes)
  | othersTake (key : Key) (position : Nat)
  | relay (results : Nat → Nat → Int)
  | arrive (nSocket : Int)
  | sweep

namespace QuoteProcess

variable {Reader Key : Type*}

def start (Reader Key : Type*) : QuoteProcess Reader Key where
  servers _ := LineTrace.start
  sendQueue := SendQueue.start Reader
  queues _ := Channel.empty (Put Reader)
  failed _ := 0
  service := Service.start

/-- A reader inside `SendData` does nothing else, and `SendData` is a step of
its own. -/
def Allows (process : QuoteProcess Reader Key) (reader : Reader) :
    ServerAction → Prop
  | .read _ => (process.sendQueue.calls reader).isNone ∧
      (process.servers reader).server.reader ≠ .sendData
  | _ => True

instance (process : QuoteProcess Reader Key) (reader : Reader) :
    DecidablePred (process.Allows reader)
  | .read _ => inferInstanceAs (Decidable (_ ∧ _))
  | .create _ | .beat _ | .send _ | .close | .reset => isTrue trivial

variable [DecidableEq Reader] [DecidableEq Key]

/-- `msgsnd` of a message to the queue of a key. -/
def put (process : QuoteProcess Reader Key) (key : Key) (put : Put Reader) :
    QuoteProcess Reader Key :=
  { process with
    queues := Function.update process.queues key
      ((process.queues key).push put) }

/-- `SendData(uncaRecvBuf, strlen(uncaRecvBuf))` up to the first statement of
`SendMessage`; the types and flags are the defaults. -/
def sendData (process : QuoteProcess Reader Key) (reader : Reader) :
    Option (QuoteProcess Reader Key) :=
  let trace := process.servers reader
  (strlen trace.server.uncaRecvBuf).bind fun nSize =>
    (sendQueueStep process.sendQueue
        (.call reader trace.server.uncaRecvBuf nSize 1)).bind fun sendQueue =>
      (lineTraceStep trace (.read true)).map fun trace =>
        { process with
          servers := Function.update process.servers reader trace
          sendQueue := sendQueue }

/-- The `msgsnd` of a call under way; `Run` does not look at the result. -/
def msgsnd (dao : QueueKeys Key) (process : QuoteProcess Reader Key)
    (reader : Reader) (call : SendMessageCall) (succeeds : Bool) :
    Option (QuoteProcess Reader Key) :=
  (sendQueueStep process.sendQueue (.msgsnd reader succeeds)).map
    fun sendQueue =>
      let process := { process with sendQueue := sendQueue }
      if succeeds then
        process.put dao.m_kSendKey
          ⟨some reader, sendQueue.message.uncaMessageBuf.take call.nSize⟩
      else
        { process with
          failed := Function.update process.failed reader
            (process.failed reader + 1) }

/-- `GetMessage` with the type 0, which takes the first message, and the rest
of the iteration. -/
def relay (dao : QueueKeys Key) (process : QuoteProcess Reader Key)
    (results : Nat → Nat → Int) : Option (QuoteProcess Reader Key) :=
  (process.queues dao.m_kRecvKey).take.bind fun (put, queue) =>
    (serviceStep process.service (.message put.text results)).map
      fun service =>
        { process with
          queues := Function.update process.queues dao.m_kRecvKey queue
          service := service }

end QuoteProcess

section Steps

variable {Reader Key : Type*} [DecidableEq Reader] [DecidableEq Key]

def quoteStep (dao : QueueKeys Key) (process : QuoteProcess Reader Key) :
    QuoteAction Reader Key → Option (QuoteProcess Reader Key)
  | .server reader action =>
      if process.Allows reader action then
        (lineTraceStep (process.servers reader) action).map fun trace =>
          { process with
            servers := Function.update process.servers reader trace }
      else none
  | .sendData reader =>
      if (process.servers reader).server.reader = .sendData then
        process.sendData reader
      else none
  | .proceed reader =>
      (sendQueueStep process.sendQueue (.proceed reader)).map
        fun sendQueue => { process with sendQueue := sendQueue }
  | .msgsnd reader succeeds =>
      match process.sendQueue.calls reader with
      | none => none
      | some call => process.msgsnd dao reader call succeeds
  | .othersPut key text => some (process.put key ⟨none, text⟩)
  | .othersTake key position =>
      ((process.queues key).lose position).map fun queue =>
        { process with
          queues := Function.update process.queues key queue }
  | .relay results => process.relay dao results
  | .arrive nSocket =>
      (serviceStep process.service (.arrive nSocket)).map fun service =>
        { process with service := service }
  | .sweep =>
      (serviceStep process.service .sweep).map fun service =>
        { process with service := service }

/-- A reader clears or fills the buffer of `SendMessage` only while no other
reader is between its `memcpy` and its `msgsnd`. -/
def KeepsBuffer (process : QuoteProcess Reader Key) :
    QuoteAction Reader Key → Prop
  | .proceed reader => BufferFree process.sendQueue (.proceed reader)
  | _ => True

instance [Fintype Reader] (process : QuoteProcess Reader Key) :
    DecidablePred (KeepsBuffer process)
  | .proceed reader =>
      inferInstanceAs
        (Decidable (BufferFree process.sendQueue (.proceed reader)))
  | .server _ _ | .sendData _ | .msgsnd _ _ | .othersPut _ _ | .othersTake _ _
  | .relay _ | .arrive _ | .sweep => isTrue trivial

end Steps

section Accounts

variable {Reader Key : Type*} [DecidableEq Reader]

/-- The texts that one reader put on a queue. -/
def textsOf (reader : Reader) (puts : List (Put Reader)) : List Bytes :=
  puts.filterMap fun put =>
    if put.origin = some reader then some put.text else none

namespace QuoteProcess

/-- The text that a reader is in `SendMessage` with. -/
def inCall (process : QuoteProcess Reader Key) (reader : Reader) :
    List Bytes :=
  ((process.sendQueue.calls reader).map SendMessageCall.payload).toList

/-- The socket of a client has taken the texts that the relay has broadcast
since the client joined, one after the other; a client that is offline has taken
the beginning of them. -/
def Hears (relayed : List (Put Reader)) (client : Client) : Prop :=
  client.joinedAt ≤ relayed.length ∧
    client.wire <+: ((relayed.drop client.joinedAt).map Put.shown).flatten ∧
    (client.csClientStatus ≠ .offline →
      client.wire = ((relayed.drop client.joinedAt).map Put.shown).flatten)

/-- The account of all lines and of all clients.  Of the complete lines that a
server has received, each was put on the send queue, is on its way there, or
met a failing `msgsnd`; of the messages put on a queue, each was taken by the
relay, waits, or was taken by another process; of the messages that the relay
took, each was broadcast or withheld; and every client hears what was broadcast.
The broadcast texts of one server are complete lines that it received, in its
order and none more often than it came; and where the two keys differ there are
none. -/
structure Intact (dao : QueueKeys Key) (process : QuoteProcess Reader Key)
    (relayed withheld : List (Put Reader)) : Prop where
  lines : ∀ reader, Thinned
    ((textsOf reader (process.queues dao.m_kSendKey).put ++
        process.inCall reader).map some ++ (process.servers reader).sending)
    ((records newline (process.servers reader).received).map some)
    (process.failed reader)
  queues : ∀ key, (process.queues key).Accounted
  sifted : Sifted Repeats relayed withheld
    (process.queues dao.m_kRecvKey).taken
  counted : ∀ reader, Thinned (textsOf reader relayed)
    (textsOf reader (process.queues dao.m_kRecvKey).taken)
    (textsOf reader withheld).length
  broadcast : process.service.run.accepted = relayed.map Put.shown
  unchanged : ∀ put ∈ relayed, put.origin ≠ none → put.shown = put.text
  ordered : ∀ reader, (textsOf reader relayed).Sublist
    (records newline (process.servers reader).received)
  foreign : dao.m_kSendKey ≠ dao.m_kRecvKey →
    ∀ put ∈ relayed, put.origin = none
  clients : ∀ client ∈ process.service.everyone, Hears relayed client

end QuoteProcess

end Accounts

section TextsOf

variable {Reader : Type*} [DecidableEq Reader] {reader : Reader}
  {puts more : List (Put Reader)}

theorem textsOf_append (reader : Reader) (puts more : List (Put Reader)) :
    textsOf reader (puts ++ more) = textsOf reader puts ++ textsOf reader more :=
  List.filterMap_append

theorem textsOf_own (reader : Reader) (text : Bytes) :
    textsOf reader [⟨some reader, text⟩] = [text] := by
  simp [textsOf]

theorem textsOf_other {put : Put Reader} (other : put.origin ≠ some reader) :
    textsOf reader [put] = [] := by
  simp [textsOf, other]

theorem textsOf_sublist (sublist : puts.Sublist more) :
    (textsOf reader puts).Sublist (textsOf reader more) :=
  sublist.filterMap _

theorem textsOf_nil_of_others (others : ∀ put ∈ puts, put.origin = none) :
    textsOf reader puts = [] := by
  apply List.filterMap_eq_nil_iff.mpr
  intro put member
  simp [others put member]

end TextsOf

/-- What the `strlen` of an array counts is the string in it. -/
theorem stringAt_of_strlen {array : Bytes} {nSize : Nat}
    (length : strlen array = some nSize) :
    stringAt array 0 = some (array.take nSize) := by
  obtain ⟨text, read, rfl⟩ := Option.map_eq_some_iff.mp length
  obtain ⟨before, after, split, startEq, -⟩ := exists_of_stringAt read
  rw [List.length_eq_zero_iff.mp startEq, List.nil_append] at split
  rw [read, split, List.take_left]

/-- Only the call of `SendData` adds to what was passed on. -/
theorem sent_of_lineTraceStep {trace next : LineTrace} {action : ServerAction}
    (valid : trace.server.Valid)
    (elsewhere : ∀ succeeds, action = .read succeeds →
      trace.server.reader ≠ .sendData)
    (stepTo : lineTraceStep trace action = some next) :
    next.server.sent = trace.server.sent := by
  obtain ⟨server, stepped, rfl⟩ := Option.map_eq_some_iff.mp stepTo
  rcases action.read_or_not with ⟨succeeds, rfl⟩ | notRead
  · have elsewhere := elsewhere succeeds rfl
    simp only [serverStep, Server.readerStep] at stepped
    grind [Server.recvStep, Server.setStatus]
  · exact (valid.frame_of_not_read notRead stepped).2.2.1

/-- The call of `SendData` passes the string in the reader's array. -/
theorem sent_of_sendData {trace next : LineTrace} {succeeds : Bool}
    (sending : trace.server.reader = .sendData)
    (stepTo : lineTraceStep trace (.read succeeds) = some next) :
    next.server.sent =
      trace.server.sent ++ [stringAt trace.server.uncaRecvBuf 0] := by
  obtain ⟨server, stepped, rfl⟩ := Option.map_eq_some_iff.mp stepTo
  simp only [serverStep, Server.readerStep, sending, Option.some.injEq]
    at stepped
  rw [← stepped]

/-- A call keeps its text up to the `msgsnd`. -/
theorem payload_of_proceed {call rest : SendMessageCall}
    {message filled : QueueMessage}
    (proceeds : call.proceed message = some (rest, filled)) :
    rest.payload = call.payload := by
  unfold SendMessageCall.proceed at proceeds
  split at proceeds
  case h_3 =>
    obtain ⟨buffer, -, same⟩ := Option.map_eq_some_iff.mp proceeds
    cases same
    rfl
  all_goals cases proceeds
  all_goals rfl

end ArstQuote
