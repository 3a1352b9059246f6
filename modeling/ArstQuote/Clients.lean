import ArstQuote.SendAll

/-!
# The clients and the two loops over them

`m_vClient` is walked by the broadcast of `ARSTQueueDAO::Run`, which sends one
text to every client, and by `ARSTClients::CheckClientVector`, which shuts down
and erases the clients that are gone.  Here each loop runs without
interruption.
-/

namespace ArstQuote

inductive ClientStatus
  | none
  | logoning
  | online
  | offline
  deriving DecidableEq

/-- An element of `m_vClient`: the socket and the status of the client and the
use count of its `shared_ptr`, then its history, namely which arrival it was,
how many texts had been broadcast by then, the bytes its socket has taken, and
how often the reply event of its heartbeat was set. -/
structure Client where
  nSocket : Int
  csClientStatus : ClientStatus
  useCount : Nat
  arrival : Nat
  joinedAt : Nat
  wire : Bytes
  replyEvents : Nat
  deriving DecidableEq

/-- `GetStatus() == csOffline && unique()`. -/
def Client.gone (client : Client) : Bool :=
  client.csClientStatus = .offline ∧ client.useCount = 1

/-- The client once a `SendAll` and, if it succeeded, the
`TriggerGetReplyEvent` after it are done. -/
def Client.afterSend (client : Client) (sent : SentAll) : Client :=
  { client with
    csClientStatus := if sent.offline then .offline else client.csClientStatus
    wire := client.wire ++ sent.taken
    replyEvents := client.replyEvents + if sent.result then 1 else 0 }

/-- The body of the broadcast loop for one client, with the results of the
`send` calls on its socket. -/
def broadcastTo (text : Bytes) (results : Nat → Int) (client : Client) :
    Option (Client × List LogCall) :=
  if client.gone then some (client, [])
  else (sendAll results none text text.length).map fun sent =>
    (client.afterSend sent, sent.logged)

/-- The broadcast loop; `results` gives the results of the `send` calls for
each client. -/
def broadcast (text : Bytes) (results : Nat → Nat → Int) :
    List Client → Option (List Client × List LogCall)
  | [] => some ([], [])
  | client :: clients => do
      let (served, logged) ← broadcastTo text (results client.arrival) client
      let (others, more) ← broadcast text results clients
      return (served :: others, logged ++ more)

/-- `ARSTClients::CheckClientVector` from position `iter` on: the vector it
leaves and the clients it shuts down and erases, in order.  The erased position
denotes the next element afterwards. -/
def checkClientVector : Nat → Nat → List Client →
    Option (List Client × List Client)
  | 0, _, _ => none
  | fuel + 1, iter, vClient =>
      match vClient[iter]? with
      | none => some (vClient, [])
      | some client =>
          if client.gone then
            (checkClientVector fuel iter (vClient.eraseIdx iter)).map
              fun (rest, erased) => (rest, client :: erased)
          else checkClientVector fuel (iter + 1) vClient

/-- What `CheckClientVector` does to clients that it finds gone. -/
inductive SweepEvent
  | shutdownClient (nSocket : Int)
  | destroyed (client : Client)
  deriving DecidableEq

/-- `EraseClientFromVector`, with the end of a client whose last `shared_ptr`
it erases. -/
def eraseClientFromVector (vClient : List Client) (iter : Nat) :
    List Client × List SweepEvent :=
  (vClient.eraseIdx iter,
    match vClient[iter]? with
    | some client => if client.useCount = 1 then [.destroyed client] else []
    | none => [])

/-- `ARSTClients::CheckClientVector` from position `iter` on, with all it does
to the clients, in order. -/
def sweepClientVector : Nat → Nat → List Client →
    Option (List Client × List SweepEvent)
  | 0, _, _ => none
  | fuel + 1, iter, vClient =>
      match vClient[iter]? with
      | none => some (vClient, [])
      | some client =>
          if client.gone then
            let (kept, ended) := eraseClientFromVector vClient iter
            (sweepClientVector fuel iter kept).map fun (rest, events) =>
              (rest, .shutdownClient client.nSocket :: ended ++ events)
          else sweepClientVector fuel (iter + 1) vClient

/-- A client that is gone is shut down, then destroyed. -/
def Client.swept (client : Client) : List SweepEvent :=
  [.shutdownClient client.nSocket, .destroyed client]

theorem Client.gone_iff {client : Client} :
    client.gone = true ↔
      client.csClientStatus = .offline ∧ client.useCount = 1 := by
  simp [gone]

@[simp]
theorem Client.afterSend_arrival (client : Client) (sent : SentAll) :
    (client.afterSend sent).arrival = client.arrival :=
  rfl

@[simp]
theorem Client.afterSend_joinedAt (client : Client) (sent : SentAll) :
    (client.afterSend sent).joinedAt = client.joinedAt :=
  rfl

@[simp]
theorem Client.afterSend_useCount (client : Client) (sent : SentAll) :
    (client.afterSend sent).useCount = client.useCount :=
  rfl

/-- `SendAll` ends; the socket takes a prefix of the text, each byte once and in
order, and the whole text exactly when the call returns `true`, which leaves
the status alone; otherwise the client is offline. -/
theorem sendAll_exact (results : Nat → Int) (pWhat : Option String)
    (client : Client) (text rest : Bytes) :
    ∃ sent, sendAll results pWhat (text ++ rest) text.length = some sent ∧
      sent.taken <+: text ∧ (sent.result = true ↔ sent.taken = text) ∧
      (client.afterSend sent).csClientStatus =
        if sent.result then client.csClientStatus else .offline := by
  have inside : text.length ≤ (text ++ rest).length := by simp
  obtain ⟨sent, ended, isPrefix, success, offline⟩ :=
    sendAll_spec results pWhat inside
  rw [List.take_left] at isPrefix success
  refine ⟨sent, ended, isPrefix, success, ?_⟩
  cases result : sent.result <;> simp [Client.afterSend, offline, result]

/-- The client a broadcast leaves, which depends on nothing but the text, the
results for this client and the client itself. -/
def served (text : Bytes) (results : Nat → Nat → Int) (client : Client) :
    Client :=
  ((broadcastTo text (results client.arrival) client).map Prod.fst).getD client

theorem exists_broadcastTo (text : Bytes) (results : Nat → Nat → Int)
    (client : Client) :
    ∃ logged, broadcastTo text (results client.arrival) client =
      some (served text results client, logged) := by
  obtain ⟨sent, ended, -⟩ := sendAll_spec (results client.arrival) none
    (le_refl text.length)
  unfold served broadcastTo
  by_cases gone : client.gone
  · simp [gone]
  · simp [gone, ended]

theorem exists_broadcast (text : Bytes) (results : Nat → Nat → Int)
    (clients : List Client) :
    ∃ logged, broadcast text results clients =
      some (clients.map (served text results), logged) := by
  induction clients with
  | nil => exact ⟨[], rfl⟩
  | cons client clients ih =>
      obtain ⟨logged, first⟩ := exists_broadcastTo text results client
      obtain ⟨more, others⟩ := ih
      exact ⟨logged ++ more, by simp [broadcast, first, others]⟩

theorem served_of_gone (text : Bytes) (results : Nat → Nat → Int)
    {client : Client} (gone : client.gone = true) :
    served text results client = client := by
  simp [served, broadcastTo, gone]

/-- What a broadcast does to a client that is not gone: it sends a prefix of
the text, and all of it unless it leaves the client offline. -/
theorem served_of_present (text : Bytes) (results : Nat → Nat → Int)
    {client : Client} (present : client.gone = false) :
    ∃ sent : SentAll, served text results client = client.afterSend sent ∧
      sent.taken <+: text ∧ (sent.offline = false → sent.taken = text) := by
  obtain ⟨sent, ended, isPrefix, success, offline⟩ := sendAll_spec
    (results client.arrival) none (le_refl text.length)
  rw [List.take_length] at isPrefix success
  refine ⟨sent, ?_, isPrefix, ?_⟩
  · simp [served, broadcastTo, present, ended]
  · intro online
    apply success.mp
    simpa [offline] using online

theorem served_arrival (text : Bytes) (results : Nat → Nat → Int)
    (client : Client) :
    (served text results client).arrival = client.arrival := by
  cases gone : client.gone with
  | true => rw [served_of_gone text results gone]
  | false =>
      obtain ⟨sent, after, -⟩ := served_of_present text results gone
      rw [after, Client.afterSend_arrival]

theorem served_congr {text : Bytes} {results others : Nat → Nat → Int}
    {client : Client}
    (agree : results client.arrival = others client.arrival) :
    served text results client = served text others client := by
  rw [served, served, agree]

private theorem drop_of_getElem? {clients : List Client} {iter : Nat}
    {client : Client} (found : clients[iter]? = some client) :
    clients.drop iter = client :: clients.drop (iter + 1) := by
  obtain ⟨bound, rfl⟩ := List.getElem?_eq_some_iff.mp found
  exact List.drop_eq_getElem_cons bound

/-- From position `iter` on the sweep keeps the clients that are not gone and
shuts down the others, in order. -/
theorem checkClientVector_from (fuel iter : Nat) (vClient : List Client)
    (within : iter ≤ vClient.length)
    (enough : vClient.length < iter + fuel) :
    checkClientVector fuel iter vClient =
      some (vClient.take iter ++ (vClient.drop iter).filter (!·.gone),
        (vClient.drop iter).filter (·.gone)) := by
  induction fuel generalizing iter vClient with
  | zero => omega
  | succ fuel ih =>
      unfold checkClientVector
      cases found : vClient[iter]? with
      | none =>
          have past := List.getElem?_eq_none_iff.mp found
          simp [List.drop_eq_nil_of_le past, List.take_of_length_le past]
      | some client =>
          have inside : iter < vClient.length :=
            (List.getElem?_eq_some_iff.mp found).1
          have rest := drop_of_getElem? found
          cases gone : client.gone with
          | true =>
              have erased : vClient.eraseIdx iter =
                  vClient.take iter ++ vClient.drop (iter + 1) :=
                List.eraseIdx_eq_take_drop_succ vClient iter
              have length : (vClient.take iter).length = iter := by
                rw [List.length_take]
                omega
              have oneLess := List.length_eraseIdx_of_lt inside
              have stays : iter ≤ (vClient.eraseIdx iter).length := by omega
              have shorter : (vClient.eraseIdx iter).length < iter + fuel := by
                omega
              simp only [ih iter _ stays shorter, Option.map_some]
              rw [erased, rest, List.take_left' length,
                List.drop_left' length]
              simp [gone]
          | false =>
              have next : vClient.take (iter + 1) =
                  vClient.take iter ++ [client] := by
                rw [List.take_add_one, found, Option.toList_some]
              simp only [ih (iter + 1) vClient inside (by omega)]
              rw [rest, next]
              simp [gone]

/-- The sweep ends; it keeps the clients that are not gone, in order, and shuts
down each of the others once. -/
theorem checkClientVector_eq (vClient : List Client) :
    checkClientVector (vClient.length + 1) 0 vClient =
      some (vClient.filter (!·.gone), vClient.filter (·.gone)) := by
  rw [checkClientVector_from _ _ _ (Nat.zero_le _) (by omega)]
  simp

/-- The sweep treats each client it erases alike. -/
theorem sweepClientVector_eq_map (fuel iter : Nat) (vClient : List Client) :
    sweepClientVector fuel iter vClient =
      (checkClientVector fuel iter vClient).map fun (rest, erased) =>
        (rest, erased.flatMap Client.swept) := by
  induction fuel generalizing iter vClient with
  | zero => rfl
  | succ fuel ih =>
      unfold sweepClientVector checkClientVector
      cases found : vClient[iter]? with
      | none => rfl
      | some client =>
          cases gone : client.gone with
          | true =>
              have unique := (Client.gone_iff.mp gone).2
              simp only [gone, if_true, eraseClientFromVector, found, unique,
                ih, Option.map_map]
              rfl
          | false => simp only [gone, Bool.false_eq_true, if_false, ih]

/-- The sweep ends; it leaves the clients that are not gone, in order, and for
each of the others it calls `ShutdownClient` once, with its socket, before the
client is destroyed. -/
theorem sweepClientVector_exact (vClient : List Client) :
    sweepClientVector (vClient.length + 1) 0 vClient =
      some (vClient.filter (!·.gone),
        (vClient.filter (·.gone)).flatMap Client.swept) := by
  rw [sweepClientVector_eq_map, checkClientVector_eq, Option.map_some]

end ArstQuote
