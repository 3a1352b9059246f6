import ArstQuote.ReleaseLedger

/-!
# The two kinds of sockets

`ARSTClientSocket` connects to a quote source and `ARSTServerSocket` listens
for clients.  Both resolve an address, open a socket and go on whatever came of
it; what they own is told by a status, `m_nSocket` and `m_AddrRes`.  The
outcomes of the system calls are given, and the descriptors and address lists
are numbered in the order in which they were obtained, since the system uses
its numbers again.
-/

namespace ArstQuote

open ReleaseLedger

/-- `CONNECT_TCP`. -/
def connectTcp : Int := 1

/-- `CONNECT_WEBSOCK`. -/
def connectWebsock : Int := 2

/-- The value of `m_nSocket`: the 0 it is reset to, the `-1` of a `socket` that
failed, or a descriptor. -/
inductive SocketNumber
  | zero
  | failed
  | descriptor (opened : Nat)
  deriving DecidableEq

/-- What was obtained from the system: the descriptors, with the calls of
`close` on each, and the address lists, with those of `freeaddrinfo`. -/
structure SocketHandles where
  sockets : Ledger
  addrLists : Ledger
  deriving DecidableEq

namespace SocketHandles

/-- `socket`. -/
def openSocket (handles : SocketHandles) (succeeds : Bool) :
    SocketNumber × SocketHandles :=
  if succeeds then
    (.descriptor handles.sockets.length,
      { handles with sockets := afterObtain handles.sockets })
  else (.failed, handles)

def close (handles : SocketHandles) : SocketNumber → SocketHandles
  | .descriptor opened =>
      { handles with sockets := afterRelease handles.sockets opened }
  | .zero | .failed => handles

/-- The address list of a `getaddrinfo` that succeeded. -/
def obtainAddrs (handles : SocketHandles) : Nat × SocketHandles :=
  (handles.addrLists.length,
    { handles with addrLists := afterObtain handles.addrLists })

/-- `freeaddrinfo`, which does nothing with a null pointer. -/
def freeAddrs (handles : SocketHandles) : Option Nat → SocketHandles
  | some list =>
      { handles with addrLists := afterRelease handles.addrLists list }
  | none => handles

end SocketHandles

inductive ClientSocketStatus
  | none
  | connecting
  | connected
  | disconnect
  deriving DecidableEq

/-- The calls that an `ARSTClientSocketCallback` receives. -/
inductive ClientSocketCallback
  | onConnect
  | onDisconnect
  deriving DecidableEq

/-- An `ARSTClientSocket`, with whether it was given a callback, the calls made
of it, and what the object has obtained. -/
structure ClientSocket where
  m_pClientSocketCallback : Bool
  m_nSocket : SocketNumber
  m_cssClientSocketStatus : ClientSocketStatus
  m_AddrRes : Option Nat
  callbacks : List ClientSocketCallback
  handles : SocketHandles
  deriving DecidableEq

/-- The outcomes of the system calls in `Connect`.  A `connect` on the `-1` of
a failed `socket` fails. -/
structure ConnectCalls where
  getaddrinfo : String → String → Bool
  socket : Bool
  connect : Bool

def ConnectCalls.connects (calls : ConnectCalls) : Bool :=
  calls.socket && calls.connect

namespace ClientSocket

/-- The two constructors. -/
def create (m_pClientSocketCallback : Bool) : ClientSocket where
  m_pClientSocketCallback := m_pClientSocketCallback
  m_nSocket := .zero
  m_cssClientSocketStatus := .none
  m_AddrRes := none
  callbacks := []
  handles := ⟨[], []⟩

/-- A call of `m_pClientSocketCallback`, where there is one. -/
def calling (client : ClientSocket) (callback : ClientSocketCallback) :
    List ClientSocketCallback :=
  client.callbacks ++ if client.m_pClientSocketCallback then [callback] else []

/-- `Connect`, and `none` where it goes through a pointer that points to
nothing: the address result of a `getaddrinfo` that failed, or the missing
callback of a web socket. -/
def connect (client : ClientSocket) (strHost strPara : String) (type : Int)
    (calls : ConnectCalls) : Option ClientSocket :=
  if type = connectTcp then
    if calls.getaddrinfo strHost strPara then
      let (list, listed) := client.handles.obtainAddrs
      let (number, opened) := listed.openSocket calls.socket
      let connecting : ClientSocket := { client with
        m_nSocket := number
        m_cssClientSocketStatus := .connecting
        m_AddrRes := some list
        handles := opened }
      if calls.connects then
        some { connecting with
          m_cssClientSocketStatus := .connected
          callbacks := connecting.calling .onConnect }
      else
        some { connecting with
          m_cssClientSocketStatus := .disconnect
          callbacks := connecting.calling .onDisconnect }
    else none
  else if type = connectWebsock then
    if client.m_pClientSocketCallback then
      some { client with callbacks := client.calling .onConnect }
    else none
  else some client

/-- `Close`, which is all that `Disconnect` does. -/
def close (client : ClientSocket) : ClientSocket :=
  let closed : ClientSocket :=
    if client.m_cssClientSocketStatus = .connected then
      { client with
        m_nSocket := .zero
        m_cssClientSocketStatus := .disconnect
        handles := client.handles.close client.m_nSocket }
    else client
  { closed with
    m_AddrRes := none
    handles := closed.handles.freeAddrs closed.m_AddrRes }

/-- What `Send` and `Recv` do with the result of their system call, and what
they return. -/
def transfer (client : ClientSocket) (result : Int) : ClientSocket × Int :=
  if client.m_cssClientSocketStatus = .connected then
    (if result = 0 then client.close else client, result)
  else (client, 0)

def send (client : ClientSocket) (nSend : Int) : ClientSocket × Int :=
  client.transfer nSend

def recv (client : ClientSocket) (nRecv : Int) : ClientSocket × Int :=
  client.transfer nRecv

end ClientSocket

inductive ServerSocketStatus
  | none
  | listening
  | shutdown
  deriving DecidableEq

/-- An `ARSTServerSocket`, with the number of calls of `OnListening`. -/
structure ServerSocket where
  m_pSocketCallback : Bool
  m_nSocket : SocketNumber
  m_ServerSocketStatus : ServerSocketStatus
  m_AddrRes : Option Nat
  onListening : Nat
  handles : SocketHandles
  deriving DecidableEq

/-- The outcomes of the system calls in `Listen`; that of `setsockopt` is not
looked at.  `bind` and `listen` fail on the `-1` of a failed `socket`, and
`listen` takes a port of its own choice on a socket that is not bound. -/
structure ListenCalls where
  getaddrinfo : String → Bool
  socket : Bool
  bind : Bool
  listen : Bool

def ListenCalls.binds (calls : ListenCalls) : Bool :=
  calls.socket && calls.bind

def ListenCalls.listens (calls : ListenCalls) : Bool :=
  calls.socket && calls.listen

namespace ServerSocket

def create (m_pSocketCallback : Bool) : ServerSocket where
  m_pSocketCallback := m_pSocketCallback
  m_nSocket := .zero
  m_ServerSocketStatus := .none
  m_AddrRes := none
  onListening := 0
  handles := ⟨[], []⟩

/-- `Listen`, and `none` where it goes through the address result of a
`getaddrinfo` that failed.  A `bind` that failed is reported and passed over. -/
def listen (server : ServerSocket) (strPort : String) (calls : ListenCalls) :
    Option ServerSocket :=
  if calls.getaddrinfo strPort then
    let (list, listed) := server.handles.obtainAddrs
    let (number, opened) := listed.openSocket calls.socket
    let bound : ServerSocket := { server with
      m_nSocket := number
      m_AddrRes := some list
      handles := opened }
    if calls.listens then
      some { bound with
        m_ServerSocketStatus := .listening
        onListening := bound.onListening + if bound.m_pSocketCallback then 1
          else 0 }
    else some { bound with m_ServerSocketStatus := .shutdown }
  else none

/-- `Close`, which is all that `ShutdownServer` does; `m_AddrRes` keeps its
value. -/
def close (server : ServerSocket) : ServerSocket :=
  let closed : ServerSocket :=
    if server.m_ServerSocketStatus = .listening then
      { server with
        m_nSocket := .zero
        m_ServerSocketStatus := .shutdown
        handles := server.handles.close server.m_nSocket }
    else server
  { closed with handles := closed.handles.freeAddrs closed.m_AddrRes }

end ServerSocket

/-- `Connect` with `CONNECT_TCP` stays inside its data and ends connected, with
one call of `OnConnect` after a `connect` that succeeded, or disconnected, with
one of `OnDisconnect`. -/
def ClientSocket.Reports (client : ClientSocket) (calls : ConnectCalls)
    (result : Option ClientSocket) : Prop :=
  ∃ after, result = some after ∧
    ((after.m_cssClientSocketStatus = .connected ∧
        after.callbacks = client.callbacks ++ [.onConnect] ∧
        calls.connects) ∨
      (after.m_cssClientSocketStatus = .disconnect ∧
        after.callbacks = client.callbacks ++ [.onDisconnect]))

/-- `Listen` stays inside its data, and says that it is listening only after
`bind` and `listen` have both succeeded. -/
def ServerSocket.Reports (server : ServerSocket) (calls : ListenCalls)
    (result : Option ServerSocket) : Prop :=
  ∃ after, result = some after ∧
    (after.m_ServerSocketStatus = .listening ∨
        after.onListening ≠ server.onListening →
      calls.binds ∧ calls.listens)

theorem ClientSocket.connect_reports_iff (client : ClientSocket)
    (strHost strPara : String) (calls : ConnectCalls) :
    client.Reports calls (client.connect strHost strPara connectTcp calls) ↔
      calls.getaddrinfo strHost strPara ∧ client.m_pClientSocketCallback := by
  cases resolved : calls.getaddrinfo strHost strPara with
  | false => simp [Reports, connect, resolved]
  | true =>
      cases called : client.m_pClientSocketCallback <;>
        cases connected : calls.connects <;>
          simp [Reports, connect, calling, resolved, called, connected]

theorem ServerSocket.listen_reports_iff (server : ServerSocket)
    (strPort : String) (calls : ListenCalls) :
    server.Reports calls (server.listen strPort calls) ↔
      calls.getaddrinfo strPort ∧ (calls.binds ∨ ¬ calls.listens) := by
  cases resolved : calls.getaddrinfo strPort with
  | false => simp [Reports, listen, resolved]
  | true =>
      cases bound : calls.binds <;> cases listening : calls.listens <;>
        simp [Reports, listen, resolved, bound, listening]

/-- `Connect` reports the truth when the address resolves and there is a
callback to report to, and `Listen` when the port resolves and no `bind` that
failed is followed by a `listen` that succeeded; and only then. -/
theorem setUp_reports_iff (client : ClientSocket) (server : ServerSocket)
    (strHost strPara strPort : String) (connecting : ConnectCalls)
    (listening : ListenCalls) :
    (client.Reports connecting
        (client.connect strHost strPara connectTcp connecting) ↔
      connecting.getaddrinfo strHost strPara ∧
        client.m_pClientSocketCallback) ∧
    (server.Reports listening (server.listen strPort listening) ↔
      listening.getaddrinfo strPort ∧
        (listening.binds ∨ ¬ listening.listens)) :=
  ⟨client.connect_reports_iff strHost strPara connecting,
    server.listen_reports_iff strPort listening⟩

/-- A host that does not resolve, and a port that another program has bound. -/
theorem setUp_misreports :
    ¬ (ClientSocket.create true).Reports ⟨fun _ _ => false, true, true⟩
        ((ClientSocket.create true).connect "quotes.invalid" "8080" connectTcp
          ⟨fun _ _ => false, true, true⟩) ∧
      ¬ (ServerSocket.create true).Reports ⟨fun _ => true, true, false, true⟩
        ((ServerSocket.create true).listen "9000"
          ⟨fun _ => true, true, false, true⟩) := by
  constructor
  · rintro ⟨after, connected, -⟩
    cases connected
  · rintro ⟨after, listening, reports⟩
    obtain rfl := Option.some.inj listening
    have bound := (reports (Or.inl rfl)).1
    cases bound

end ArstQuote
