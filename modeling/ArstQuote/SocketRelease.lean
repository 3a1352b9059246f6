import ArstQuote.GuardedRuns
import ArstQuote.Sockets

/-!
# What the sockets release

Neither kind of socket releases anything in its destructor, `Close` looks at
the status before it closes a descriptor, and a second `Connect` or `Listen`
overwrites what the first one left.  Whether everything is released once can be
told from the calls and the outcomes of their system calls.
-/

namespace ArstQuote

open GuardedRuns ReleaseLedger

namespace SocketHandles

/-- Nothing is released twice, and once the object is destroyed, everything it
obtained is released. -/
def Released (handles : SocketHandles) (destroyed : Bool) : Prop :=
  Once handles.sockets ∧ Once handles.addrLists ∧
    (destroyed = true →
      Settled handles.sockets ∧ Settled handles.addrLists)
  deriving Decidable

/-- From here no life of the object ends well.  `closable` is the descriptor
that `Close` would close, and `known` the list in `m_AddrRes`. -/
inductive Doomed (handles : SocketHandles) (closable known : Option Nat)
    (destroyed : Bool) : Prop
  | sockets (spoiled : Spoiled handles.sockets closable)
  | addrLists (spoiled : Spoiled handles.addrLists known)
  | leaked (ended : destroyed = true)
      (unsettled : ¬ (Settled handles.sockets ∧ Settled handles.addrLists))

/-- What one call does to what the object has obtained. -/
structure Moves (before : SocketHandles) (closable known : Option Nat)
    (after : SocketHandles) (nextClosable nextKnown : Option Nat) : Prop where
  sockets : Move before.sockets closable after.sockets nextClosable
  addrLists : Move before.addrLists known after.addrLists nextKnown

theorem Doomed.moves {before after : SocketHandles}
    {closable known nextClosable nextKnown : Option Nat} {ended : Bool}
    (doomed : before.Doomed closable known false)
    (moves : before.Moves closable known after nextClosable nextKnown) :
    after.Doomed nextClosable nextKnown ended := by
  cases doomed with
  | sockets spoiled => exact .sockets (spoiled.move moves.sockets)
  | addrLists spoiled => exact .addrLists (spoiled.move moves.addrLists)
  | leaked ended => cases ended

theorem Doomed.not_released {handles : SocketHandles}
    {closable known : Option Nat}
    (doomed : handles.Doomed closable known true) :
    ¬ handles.Released true := by
  rintro ⟨-, -, settled⟩
  obtain ⟨sockets, addrLists⟩ := settled rfl
  cases doomed with
  | sockets spoiled => exact spoiled.not_settled sockets
  | addrLists spoiled => exact spoiled.not_settled addrLists
  | leaked _ unsettled => exact unsettled ⟨sockets, addrLists⟩

end SocketHandles

/-- The descriptor in `m_nSocket`. -/
def SocketNumber.opened : SocketNumber → Option Nat
  | .descriptor opened => some opened
  | .zero | .failed => none

namespace SocketHandles

variable {handles : SocketHandles}

@[simp]
theorem freeAddrs_sockets {known : Option Nat} :
    (handles.freeAddrs known).sockets = handles.sockets := by
  cases known <;> rfl

@[simp]
theorem close_addrLists {number : SocketNumber} :
    (handles.close number).addrLists = handles.addrLists := by
  cases number <;> rfl

theorem freeAddrs_move {known next : Option Nat}
    (same : next = none ∨ next = known) :
    Move handles.addrLists known (handles.freeAddrs known).addrLists next := by
  cases known with
  | none =>
      obtain rfl : next = none := by simpa using same
      exact .keep none
  | some list => exact .release list next same

theorem close_move {number : SocketNumber} :
    Move handles.sockets number.opened (handles.close number).sockets
      none := by
  cases number with
  | descriptor opened => exact .release opened none (Or.inl rfl)
  | zero | failed => exact .keep none

theorem freeAddrs_holds {known : Option Nat}
    (holds : Holds handles.addrLists known) :
    Holds (handles.freeAddrs known).addrLists none := by
  cases known with
  | none => exact holds
  | some list => exact holds.released

theorem close_holds {number : SocketNumber}
    (holds : Holds handles.sockets number.opened) :
    Holds (handles.close number).sockets none := by
  cases number with
  | descriptor opened => exact holds.released
  | zero | failed => exact holds

end SocketHandles

section ClientSockets

/-- A client socket and whether it is destroyed. -/
structure ClientSocketLife where
  socket : ClientSocket
  destroyed : Bool
  deriving DecidableEq

/-- The calls on an `ARSTClientSocket`, with the outcomes of their system
calls. -/
inductive ClientSocketAction
  | connect (strHost strPara : String) (type : Int) (calls : ConnectCalls)
  | send (nSend : Int)
  | recv (nRecv : Int)
  | disconnect
  | destroy

namespace ClientSocketLife

def start (m_pClientSocketCallback : Bool) : ClientSocketLife :=
  ⟨.create m_pClientSocketCallback, false⟩

/-- The descriptor that `Close` would close. -/
def closable (life : ClientSocketLife) : Option Nat :=
  if life.socket.m_cssClientSocketStatus = .connected then
    life.socket.m_nSocket.opened
  else none

def Released (life : ClientSocketLife) : Prop :=
  life.socket.handles.Released life.destroyed
  deriving Decidable

def Doomed (life : ClientSocketLife) : Prop :=
  life.socket.handles.Doomed life.closable life.socket.m_AddrRes life.destroyed

end ClientSocketLife

/-- The destructor does nothing. -/
def clientSocketStep (life : ClientSocketLife)
    (action : ClientSocketAction) : Option ClientSocketLife :=
  if life.destroyed then none
  else match action with
    | .connect strHost strPara type calls =>
        (life.socket.connect strHost strPara type calls).map fun socket =>
          { life with socket := socket }
    | .send nSend => some { life with socket := (life.socket.send nSend).1 }
    | .recv nRecv => some { life with socket := (life.socket.recv nRecv).1 }
    | .disconnect => some { life with socket := life.socket.close }
    | .destroy => some { life with destroyed := true }

/-- What a client socket owns, going by the calls on it. -/
inductive ClientSocketOwns
  | nothing
  | addrList
  | connection
  deriving DecidableEq

/-- The calls that keep track of what the socket owns: it connects when it owns
nothing, no `connect` fails on a socket that was opened, and it is destroyed
when it owns nothing. -/
def ClientSocketOwns.step (owns : ClientSocketOwns) :
    ClientSocketAction → Option ClientSocketOwns
  | .connect _ _ type calls =>
      if type = connectTcp then
        if owns = .nothing then
          if calls.connects then some .connection
          else if calls.socket then none
          else some .addrList
        else none
      else some owns
  | .send result | .recv result =>
      if owns = .connection ∧ result = 0 then some .nothing else some owns
  | .disconnect => some .nothing
  | .destroy => if owns = .nothing then some .nothing else none

/-- The calls on a client socket, with the outcomes of their system calls, are
in order. -/
def ClientSocketInOrder (actions : List ClientSocketAction) : Prop :=
  (execute ClientSocketOwns.step .nothing actions).isSome
  deriving Decidable

/-- The socket owns what its calls, all in order, make it own. -/
structure ClientSocketOwns.Describes (owns : ClientSocketOwns)
    (life : ClientSocketLife) : Prop where
  sockets : Holds life.socket.handles.sockets life.closable
  addrLists : Holds life.socket.handles.addrLists life.socket.m_AddrRes
  connected : owns = .connection ↔
    life.socket.m_cssClientSocketStatus = .connected
  descriptor : owns = .connection ↔ life.closable ≠ none
  listed : owns = .nothing ↔ life.socket.m_AddrRes = none
  destroyed : life.destroyed = true → owns = .nothing

namespace ClientSocketLife

theorem start_describes (m_pClientSocketCallback : Bool) :
    ClientSocketOwns.nothing.Describes (start m_pClientSocketCallback) := by
  constructor <;>
    simp [start, ClientSocket.create, closable, empty_holds]

variable {life next : ClientSocketLife}

/-- Everything `Connect` can do to what the socket owns. -/
theorem connect_cases {client after : ClientSocket} {strHost strPara : String}
    {type : Int} {calls : ConnectCalls}
    (connected : client.connect strHost strPara type calls = some after) :
    (type ≠ connectTcp ∧ after.handles = client.handles ∧
        after.m_nSocket = client.m_nSocket ∧
        after.m_cssClientSocketStatus = client.m_cssClientSocketStatus ∧
        after.m_AddrRes = client.m_AddrRes) ∨
      (type = connectTcp ∧
        after.m_AddrRes = some client.handles.addrLists.length ∧
        after.handles.addrLists = afterObtain client.handles.addrLists ∧
        ((calls.connects = true ∧
            after.m_cssClientSocketStatus = .connected ∧
            after.m_nSocket = .descriptor client.handles.sockets.length ∧
            after.handles.sockets = afterObtain client.handles.sockets) ∨
          (calls.connects = false ∧
            after.m_cssClientSocketStatus = .disconnect ∧
            after.handles.sockets =
              if calls.socket then afterObtain client.handles.sockets
              else client.handles.sockets))) := by
  unfold ClientSocket.connect at connected
  by_cases tcp : type = connectTcp
  · right
    cases opened : calls.socket <;> cases reached : calls.connect <;>
      simp [tcp, opened, reached, ConnectCalls.connects,
        SocketHandles.openSocket, SocketHandles.obtainAddrs] at connected ⊢ <;>
      simp [← connected.2]
  · left
    simp only [tcp, if_false] at connected
    split at connected
    · simp only [Option.ite_none_right_eq_some, Option.some.injEq] at connected
      obtain ⟨-, rfl⟩ := connected
      exact ⟨tcp, rfl, rfl, rfl, rfl⟩
    · obtain rfl := Option.some.inj connected
      exact ⟨tcp, rfl, rfl, rfl, rfl⟩

/-- What `Close` does to what the socket has obtained. -/
theorem close_moves (life : ClientSocketLife) :
    life.socket.handles.Moves life.closable life.socket.m_AddrRes
      life.socket.close.handles none none := by
  unfold closable ClientSocket.close
  by_cases connected : life.socket.m_cssClientSocketStatus = .connected
  · simp only [connected, if_true]
    constructor
    · rw [SocketHandles.freeAddrs_sockets]
      exact SocketHandles.close_move
    · rw [← SocketHandles.close_addrLists]
      exact SocketHandles.freeAddrs_move (Or.inl rfl)
  · simp only [connected, if_false]
    constructor
    · rw [SocketHandles.freeAddrs_sockets]
      exact .keep none
    · exact SocketHandles.freeAddrs_move (Or.inl rfl)

theorem connect_moves {strHost strPara : String} {type : Int}
    {calls : ConnectCalls} {socket : ClientSocket}
    (connected : life.socket.connect strHost strPara type calls =
      some socket) (destroyed : Bool) :
    life.socket.handles.Moves life.closable life.socket.m_AddrRes
      socket.handles (closable ⟨socket, destroyed⟩) socket.m_AddrRes := by
  rcases connect_cases connected with
    ⟨-, handles, number, status, list⟩ |
      ⟨-, list, lists, ⟨-, status, number, sockets⟩ | ⟨-, status, sockets⟩⟩
  · have same : closable ⟨socket, destroyed⟩ = life.closable := by
      simp [closable, number, status]
    rw [same, handles, list]
    exact ⟨.keep _, .keep _⟩
  · have opened : closable ⟨socket, destroyed⟩ =
        some life.socket.handles.sockets.length := by
      simp [closable, number, status, SocketNumber.opened]
    rw [opened, list]
    refine ⟨?_, ?_⟩
    · rw [sockets]
      exact .obtain _ _ (Or.inr rfl)
    · rw [lists]
      exact .obtain _ _ (Or.inr rfl)
  · have none : closable ⟨socket, destroyed⟩ = none := by
      simp [closable, status]
    rw [none, list]
    refine ⟨?_, ?_⟩
    · rw [sockets]
      split
      · exact .obtain _ _ (Or.inl rfl)
      · exact .forget _
    · rw [lists]
      exact .obtain _ _ (Or.inr rfl)

theorem close_disconnects (client : ClientSocket) :
    client.close.m_cssClientSocketStatus ≠ .connected ∧
      client.close.m_AddrRes = none := by
  unfold ClientSocket.close
  by_cases connected : client.m_cssClientSocketStatus = .connected
  · simp [connected]
  · simp [connected]

theorem closable_close (client : ClientSocket) (destroyed : Bool) :
    closable ⟨client.close, destroyed⟩ = none := by
  rw [closable, if_neg (close_disconnects client).1]

end ClientSocketLife

namespace ClientSocketOwns.Describes

open ClientSocketLife

variable {owns : ClientSocketOwns} {life : ClientSocketLife}

/-- After `Close` the socket owns nothing. -/
theorem close (describes : owns.Describes life) (destroyed : Bool) :
    nothing.Describes ⟨life.socket.close, destroyed⟩ := by
  obtain ⟨disconnected, unlisted⟩ := close_disconnects life.socket
  have closed := closable_close life.socket destroyed
  have sockets := describes.sockets
  have addrLists := describes.addrLists
  have holds : Holds life.socket.close.handles.sockets none ∧
      Holds life.socket.close.handles.addrLists none := by
    unfold ClientSocket.close
    unfold closable at sockets
    by_cases connected : life.socket.m_cssClientSocketStatus = .connected
    · simp only [connected, if_true, SocketHandles.freeAddrs_sockets]
        at sockets ⊢
      refine ⟨SocketHandles.close_holds sockets, ?_⟩
      apply SocketHandles.freeAddrs_holds
      rwa [SocketHandles.close_addrLists]
    · simp only [connected, if_false, SocketHandles.freeAddrs_sockets]
        at sockets ⊢
      exact ⟨sockets, SocketHandles.freeAddrs_holds addrLists⟩
  refine ⟨closed ▸ holds.1, unlisted ▸ holds.2, ?_, ?_, ?_, fun _ => rfl⟩
  · simp [disconnected]
  · simp [closed]
  · simp [unlisted]

/-- A transfer that ends the connection closes the socket. -/
theorem transfer (describes : owns.Describes life) (result : Int) :
    Describes (if owns = .connection ∧ result = 0 then .nothing else owns)
      { life with socket := (life.socket.transfer result).1 } := by
  unfold ClientSocket.transfer
  by_cases connected : life.socket.m_cssClientSocketStatus = .connected
  · have connection := describes.connected.mpr connected
    by_cases ended : result = 0
    · simp only [connected, connection, ended, and_self, if_true]
      exact describes.close life.destroyed
    · simpa only [connected, ended, and_false, if_true, if_false]
        using describes
  · have other : owns ≠ .connection := mt describes.connected.mp connected
    simpa only [connected, other, false_and, if_false] using describes

theorem connect {strHost strPara : String} {type : Int} {calls : ConnectCalls}
    {socket : ClientSocket} {after : ClientSocketOwns}
    (describes : owns.Describes life) (alive : life.destroyed = false)
    (inOrder : owns.step (.connect strHost strPara type calls) = some after)
    (connected : life.socket.connect strHost strPara type calls =
      some socket) : after.Describes { life with socket := socket } := by
  simp only [ClientSocketOwns.step] at inOrder
  rcases connect_cases connected with
    ⟨other, handles, number, status, list⟩ |
      ⟨tcp, list, lists, outcome⟩
  · rw [if_neg other] at inOrder
    obtain rfl := Option.some.inj inOrder
    have same : closable { life with socket := socket } = life.closable := by
      simp [closable, number, status]
    refine ⟨?_, ?_, ?_, ?_, ?_, describes.destroyed⟩
    · rw [same, handles]
      exact describes.sockets
    · rw [handles, list]
      exact describes.addrLists
    · rw [status]
      exact describes.connected
    · rw [same]
      exact describes.descriptor
    · rw [list]
      exact describes.listed
  · simp only [tcp, if_true, Option.ite_none_right_eq_some] at inOrder
    obtain ⟨rfl, inOrder⟩ := inOrder
    have unopened : life.closable = none := by
      simpa using describes.descriptor
    have unlisted := describes.listed.mp rfl
    have noSockets := unopened ▸ describes.sockets
    have noLists := unlisted ▸ describes.addrLists
    have addrLists : Holds socket.handles.addrLists socket.m_AddrRes := by
      rw [lists, list]
      exact noLists.obtained
    rcases outcome with
      ⟨connects, status, number, sockets⟩ | ⟨fails, status, sockets⟩
    · obtain rfl : .connection = after := by simpa [connects] using inOrder
      have opened : closable { life with socket := socket } =
          some life.socket.handles.sockets.length := by
        simp [closable, number, status, SocketNumber.opened]
      refine ⟨?_, addrLists, ?_, ?_, ?_, ?_⟩
      · rw [opened, sockets]
        exact noSockets.obtained
      · simp [status]
      · simp [opened]
      · simp [list]
      · simp [alive]
    · simp only [fails, Bool.false_eq_true, if_false,
        Option.ite_none_left_eq_some, Option.some.injEq] at inOrder
      obtain ⟨noSocket, rfl⟩ := inOrder
      have closed : closable { life with socket := socket } = none := by
        simp [closable, status]
      refine ⟨?_, addrLists, ?_, ?_, ?_, ?_⟩
      · rw [closed, sockets, if_neg noSocket]
        exact noSockets
      · simp [status]
      · simp [closed]
      · simp [list]
      · simp [alive]

theorem step {action : ClientSocketAction} {after : ClientSocketOwns}
    {next : ClientSocketLife} (describes : owns.Describes life)
    (inOrder : owns.step action = some after)
    (stepTo : clientSocketStep life action = some next) :
    after.Describes next := by
  simp only [clientSocketStep, Option.ite_none_left_eq_some] at stepTo
  obtain ⟨alive, stepTo⟩ := stepTo
  rw [Bool.not_eq_true] at alive
  cases action with
  | connect strHost strPara type calls =>
      obtain ⟨socket, connected, rfl⟩ := Option.map_eq_some_iff.mp stepTo
      exact describes.connect alive inOrder connected
  | send result | recv result =>
      obtain rfl := Option.some.inj stepTo
      obtain rfl : _ = after := by
        simpa only [ClientSocketOwns.step, ← apply_ite some,
          Option.some.injEq] using inOrder
      exact describes.transfer result
  | disconnect =>
      obtain rfl := Option.some.inj stepTo
      obtain rfl := Option.some.inj inOrder
      exact describes.close life.destroyed
  | destroy =>
      obtain rfl := Option.some.inj stepTo
      simp only [ClientSocketOwns.step, Option.ite_none_right_eq_some,
        Option.some.injEq] at inOrder
      obtain ⟨rfl, rfl⟩ := inOrder
      exact ⟨describes.sockets, describes.addrLists, describes.connected,
        describes.descriptor, describes.listed, fun _ => rfl⟩

theorem released (describes : owns.Describes life) : life.Released := by
  refine ⟨describes.sockets.once, describes.addrLists.once, ?_⟩
  intro destroyed
  obtain rfl := describes.destroyed destroyed
  have unopened : life.closable = none := by
    simpa using describes.descriptor
  have unlisted := describes.listed.mp rfl
  exact ⟨(unopened ▸ describes.sockets).settled,
    (unlisted ▸ describes.addrLists).settled⟩

/-- A socket that owns something keeps it when it is destroyed or connects
again, and a descriptor is lost when its `connect` fails. -/
theorem doomed_of_step {action : ClientSocketAction} {next : ClientSocketLife}
    (describes : owns.Describes life) (outOfOrder : owns.step action = none)
    (stepTo : clientSocketStep life action = some next) : next.Doomed := by
  simp only [clientSocketStep, Option.ite_none_left_eq_some] at stepTo
  obtain ⟨-, stepTo⟩ := stepTo
  have held (owned : owns ≠ .nothing) : ∃ list,
      life.socket.m_AddrRes = some list ∧
        Holds life.socket.handles.addrLists (some list) := by
    obtain ⟨list, listed⟩ := Option.ne_none_iff_exists'.mp
      (mt describes.listed.mpr owned)
    exact ⟨list, listed, listed ▸ describes.addrLists⟩
  cases action with
  | connect strHost strPara type calls =>
      obtain ⟨socket, connected, rfl⟩ := Option.map_eq_some_iff.mp stepTo
      simp only [ClientSocketOwns.step] at outOfOrder
      rcases connect_cases connected with
        ⟨other, -⟩ | ⟨tcp, list, lists, outcome⟩
      · simp [other] at outOfOrder
      · by_cases owned : owns = .nothing
        · rcases outcome with ⟨connects, -⟩ | ⟨fails, status, sockets⟩
          · simp [tcp, owned, connects] at outOfOrder
          · have opened : calls.socket = true := by
              simpa [tcp, owned, fails] using outOfOrder
            subst owned
            have unopened : life.closable = none := by
              simpa using describes.descriptor
            have holds := (unopened ▸ describes.sockets).obtained
            have closed : closable { life with socket := socket } = none := by
              simp [closable, status]
            apply SocketHandles.Doomed.sockets
            rw [closed, sockets, if_pos opened]
            exact holds.spoiled_of_forgotten (by simp)
        · obtain ⟨old, listed, holds⟩ := held owned
          apply SocketHandles.Doomed.addrLists
          rw [lists, list]
          exact holds.spoiled_of_obtain (Or.inr rfl)
  | send result | recv result =>
      simp only [ClientSocketOwns.step] at outOfOrder
      split at outOfOrder <;> cases outOfOrder
  | disconnect => cases outOfOrder
  | destroy =>
      obtain rfl := Option.some.inj stepTo
      have owned : owns ≠ .nothing := by
        simpa [ClientSocketOwns.step] using outOfOrder
      obtain ⟨list, -, holds⟩ := held owned
      exact .leaked rfl fun settled => holds.not_settled settled.2

end ClientSocketOwns.Describes

namespace ClientSocketLife

variable {life next : ClientSocketLife}

theorem Doomed.step {action : ClientSocketAction} (doomed : life.Doomed)
    (stepTo : clientSocketStep life action = some next) : next.Doomed := by
  simp only [clientSocketStep, Option.ite_none_left_eq_some] at stepTo
  obtain ⟨alive, stepTo⟩ := stepTo
  rw [Bool.not_eq_true] at alive
  have closed : Doomed { life with socket := life.socket.close } := by
    unfold Doomed at doomed ⊢
    rw [alive] at doomed
    rw [closable_close, (close_disconnects life.socket).2]
    exact doomed.moves life.close_moves
  cases action with
  | connect strHost strPara type calls =>
      obtain ⟨socket, connected, rfl⟩ := Option.map_eq_some_iff.mp stepTo
      unfold Doomed at doomed
      rw [alive] at doomed
      exact doomed.moves (connect_moves connected _)
  | send result | recv result =>
      obtain rfl := Option.some.inj stepTo
      simp only [ClientSocket.send, ClientSocket.recv, ClientSocket.transfer]
      by_cases connected : life.socket.m_cssClientSocketStatus = .connected
      · by_cases ended : result = 0
        · simpa only [connected, ended, if_true] using closed
        · simpa only [connected, ended, if_true, if_false] using doomed
      · simpa only [connected, if_false] using doomed
  | disconnect =>
      obtain rfl := Option.some.inj stepTo
      exact closed
  | destroy =>
      obtain rfl := Option.some.inj stepTo
      unfold Doomed at doomed
      rw [alive] at doomed
      exact doomed.moves ⟨.keep _, .keep _⟩

theorem Doomed.not_released (doomed : life.Doomed)
    (destroyed : life.destroyed = true) : ¬ life.Released := by
  unfold Doomed at doomed
  unfold Released
  rw [destroyed] at doomed ⊢
  exact SocketHandles.Doomed.not_released doomed

end ClientSocketLife

end ClientSockets

section ServerSockets

/-- A server socket and whether it is destroyed. -/
structure ServerSocketLife where
  socket : ServerSocket
  destroyed : Bool
  deriving DecidableEq

/-- The calls on an `ARSTServerSocket`, with the outcomes of their system
calls. -/
inductive ServerSocketAction
  | listen (strPort : String) (calls : ListenCalls)
  | shutdownServer
  | destroy

namespace ServerSocketLife

def start (m_pSocketCallback : Bool) : ServerSocketLife :=
  ⟨.create m_pSocketCallback, false⟩

/-- The descriptor that `Close` would close. -/
def closable (life : ServerSocketLife) : Option Nat :=
  if life.socket.m_ServerSocketStatus = .listening then
    life.socket.m_nSocket.opened
  else none

def Released (life : ServerSocketLife) : Prop :=
  life.socket.handles.Released life.destroyed
  deriving Decidable

def Doomed (life : ServerSocketLife) : Prop :=
  life.socket.handles.Doomed life.closable life.socket.m_AddrRes life.destroyed

end ServerSocketLife

/-- The destructor does nothing. -/
def serverSocketStep (life : ServerSocketLife)
    (action : ServerSocketAction) : Option ServerSocketLife :=
  if life.destroyed then none
  else match action with
    | .listen strPort calls =>
        (life.socket.listen strPort calls).map fun socket =>
          { life with socket := socket }
    | .shutdownServer => some { life with socket := life.socket.close }
    | .destroy => some { life with destroyed := true }

/-- What a server socket owns, going by the calls on it.  A list that is freed
stays in `m_AddrRes`. -/
inductive ServerSocketOwns
  | nothing
  | addrList
  | port
  | freed
  deriving DecidableEq

/-- The calls that keep track of what the socket owns: it listens when it owns
nothing, no `listen` fails on a socket that was opened, it is shut down once,
and it is destroyed when it owns nothing. -/
def ServerSocketOwns.step (owns : ServerSocketOwns) :
    ServerSocketAction → Option ServerSocketOwns
  | .listen _ calls =>
      match owns with
      | .nothing | .freed =>
          if calls.listens then some .port
          else if calls.socket then none
          else some .addrList
      | .addrList | .port => none
  | .shutdownServer =>
      match owns with
      | .nothing => some .nothing
      | .addrList | .port => some .freed
      | .freed => none
  | .destroy =>
      match owns with
      | .nothing | .freed => some owns
      | .addrList | .port => none

/-- The calls on a server socket, with the outcomes of their system calls, are
in order. -/
def ServerSocketInOrder (actions : List ServerSocketAction) : Prop :=
  (execute ServerSocketOwns.step .nothing actions).isSome
  deriving Decidable

/-- The list that is still to be freed. -/
def ServerSocketOwns.held (m_AddrRes : Option Nat) :
    ServerSocketOwns → Option Nat
  | .addrList | .port => m_AddrRes
  | .nothing | .freed => none

/-- The socket owns what its calls, all in order, make it own. -/
structure ServerSocketOwns.Describes (owns : ServerSocketOwns)
    (life : ServerSocketLife) : Prop where
  sockets : Holds life.socket.handles.sockets life.closable
  addrLists : Holds life.socket.handles.addrLists
    (owns.held life.socket.m_AddrRes)
  listening : owns = .port ↔ life.socket.m_ServerSocketStatus = .listening
  descriptor : owns = .port ↔ life.closable ≠ none
  listed : owns = .nothing ↔ life.socket.m_AddrRes = none
  inside : ∀ list, life.socket.m_AddrRes = some list →
    list < life.socket.handles.addrLists.length
  destroyed : life.destroyed = true → owns = .nothing ∨ owns = .freed

namespace ServerSocketLife

theorem start_describes (m_pSocketCallback : Bool) :
    ServerSocketOwns.nothing.Describes (start m_pSocketCallback) := by
  constructor <;>
    simp [start, ServerSocket.create, closable, empty_holds,
      ServerSocketOwns.held]

variable {life next : ServerSocketLife}

/-- Everything `Listen` can do to what the socket owns. -/
theorem listen_cases {server after : ServerSocket} {strPort : String}
    {calls : ListenCalls} (listened : server.listen strPort calls = some after) :
    after.m_AddrRes = some server.handles.addrLists.length ∧
      after.handles.addrLists = afterObtain server.handles.addrLists ∧
      ((calls.listens = true ∧
          after.m_ServerSocketStatus = .listening ∧
          after.m_nSocket = .descriptor server.handles.sockets.length ∧
          after.handles.sockets = afterObtain server.handles.sockets) ∨
        (calls.listens = false ∧
          after.m_ServerSocketStatus = .shutdown ∧
          after.handles.sockets =
            if calls.socket then afterObtain server.handles.sockets
            else server.handles.sockets)) := by
  unfold ServerSocket.listen at listened
  cases opened : calls.socket <;> cases listening : calls.listen <;>
    simp [opened, listening, ListenCalls.listens, SocketHandles.openSocket,
      SocketHandles.obtainAddrs] at listened ⊢ <;>
    simp [← listened.2]

theorem listen_moves {strPort : String} {calls : ListenCalls}
    {socket : ServerSocket}
    (listened : life.socket.listen strPort calls = some socket)
    (destroyed : Bool) :
    life.socket.handles.Moves life.closable life.socket.m_AddrRes
      socket.handles (closable ⟨socket, destroyed⟩) socket.m_AddrRes := by
  obtain ⟨list, lists, outcome⟩ := listen_cases listened
  have addrLists : Move life.socket.handles.addrLists life.socket.m_AddrRes
      socket.handles.addrLists socket.m_AddrRes := by
    rw [list, lists]
    exact .obtain _ _ (Or.inr rfl)
  rcases outcome with ⟨-, status, number, sockets⟩ | ⟨-, status, sockets⟩
  · refine ⟨?_, addrLists⟩
    have opened : closable ⟨socket, destroyed⟩ =
        some life.socket.handles.sockets.length := by
      simp [closable, number, status, SocketNumber.opened]
    rw [opened, sockets]
    exact .obtain _ _ (Or.inr rfl)
  · refine ⟨?_, addrLists⟩
    have closed : closable ⟨socket, destroyed⟩ = none := by
      simp [closable, status]
    rw [closed, sockets]
    split
    · exact .obtain _ _ (Or.inl rfl)
    · exact .forget _

theorem close_shutsDown (server : ServerSocket) :
    server.close.m_ServerSocketStatus ≠ .listening ∧
      server.close.m_AddrRes = server.m_AddrRes ∧
      server.close.handles.addrLists =
        (server.handles.freeAddrs server.m_AddrRes).addrLists := by
  unfold ServerSocket.close
  by_cases listening : server.m_ServerSocketStatus = .listening
  · cases list : server.m_AddrRes <;>
      simp [listening, SocketHandles.freeAddrs]
  · simp [listening]

theorem closable_close (server : ServerSocket) (destroyed : Bool) :
    closable ⟨server.close, destroyed⟩ = none := by
  rw [closable, if_neg (close_shutsDown server).1]

theorem close_moves (life : ServerSocketLife) :
    life.socket.handles.Moves life.closable life.socket.m_AddrRes
      life.socket.close.handles none life.socket.m_AddrRes := by
  constructor
  · unfold closable ServerSocket.close
    by_cases listening : life.socket.m_ServerSocketStatus = .listening
    · simp only [listening, if_true, SocketHandles.freeAddrs_sockets]
      exact SocketHandles.close_move
    · simp only [listening, if_false, SocketHandles.freeAddrs_sockets]
      exact .keep none
  · rw [(close_shutsDown life.socket).2.2]
    exact SocketHandles.freeAddrs_move (Or.inr rfl)

end ServerSocketLife

namespace ServerSocketOwns.Describes

open ServerSocketLife

variable {owns after : ServerSocketOwns} {life next : ServerSocketLife}

/-- A socket that owns no list has every list freed. -/
theorem unlisted (describes : owns.Describes life)
    (free : owns = .nothing ∨ owns = .freed) :
    Holds life.socket.handles.addrLists none ∧ life.closable = none := by
  have addrLists := describes.addrLists
  have descriptor := describes.descriptor
  rcases free with rfl | rfl
  · exact ⟨addrLists, by simpa using descriptor⟩
  · exact ⟨addrLists, by simpa using descriptor⟩

theorem held_list (describes : owns.Describes life)
    (held : owns = .addrList ∨ owns = .port) : ∃ list,
      life.socket.m_AddrRes = some list ∧
        Holds life.socket.handles.addrLists (some list) := by
  have owned : owns ≠ .nothing := by
    rcases held with rfl | rfl <;> simp
  obtain ⟨list, listed⟩ := Option.ne_none_iff_exists'.mp
    (mt describes.listed.mpr owned)
  have addrLists := describes.addrLists
  refine ⟨list, listed, ?_⟩
  rcases held with rfl | rfl <;> exact listed ▸ addrLists

theorem listen {strPort : String} {calls : ListenCalls}
    {socket : ServerSocket} (describes : owns.Describes life)
    (alive : life.destroyed = false)
    (inOrder : owns.step (.listen strPort calls) = some after)
    (listened : life.socket.listen strPort calls = some socket) :
    after.Describes { life with socket := socket } := by
  obtain ⟨list, lists, outcome⟩ := listen_cases listened
  have free : owns = .nothing ∨ owns = .freed := by
    cases owns <;> simp [ServerSocketOwns.step] at inOrder ⊢
  obtain ⟨noLists, unopened⟩ := describes.unlisted free
  have noSockets := unopened ▸ describes.sockets
  have addrLists : Holds socket.handles.addrLists socket.m_AddrRes := by
    rw [lists, list]
    exact noLists.obtained
  have inside : ∀ other, socket.m_AddrRes = some other →
      other < socket.handles.addrLists.length := by
    intro other same
    rw [list, Option.some.injEq] at same
    simp [lists, afterObtain, ← same]
  have chosen : (if calls.listens then some ServerSocketOwns.port
      else if calls.socket then none else some .addrList) = some after := by
    rcases free with rfl | rfl <;> exact inOrder
  rcases outcome with
    ⟨listens, status, number, sockets⟩ | ⟨fails, status, sockets⟩
  · obtain rfl : .port = after := by simpa [listens] using chosen
    have opened : closable { life with socket := socket } =
        some life.socket.handles.sockets.length := by
      simp [closable, number, status, SocketNumber.opened]
    refine ⟨?_, addrLists, ?_, ?_, ?_, inside, ?_⟩
    · rw [opened, sockets]
      exact noSockets.obtained
    · simp [status]
    · simp [opened]
    · simp [list]
    · simp [alive]
  · simp only [fails, Bool.false_eq_true, if_false,
      Option.ite_none_left_eq_some, Option.some.injEq] at chosen
    obtain ⟨noSocket, rfl⟩ := chosen
    have closed : closable { life with socket := socket } = none := by
      simp [closable, status]
    refine ⟨?_, addrLists, ?_, ?_, ?_, inside, ?_⟩
    · rw [closed, sockets, if_neg noSocket]
      exact noSockets
    · simp [status]
    · simp [closed]
    · simp [list]
    · simp [alive]

theorem close_sockets (describes : owns.Describes life) :
    Holds life.socket.close.handles.sockets none := by
  have sockets := describes.sockets
  unfold ServerSocket.close
  unfold closable at sockets
  by_cases listening : life.socket.m_ServerSocketStatus = .listening
  · simp only [listening, if_true, SocketHandles.freeAddrs_sockets]
      at sockets ⊢
    exact SocketHandles.close_holds sockets
  · simpa only [listening, if_false, SocketHandles.freeAddrs_sockets]
      using sockets

theorem shutdownServer (describes : owns.Describes life)
    (inOrder : owns.step .shutdownServer = some after) :
    after.Describes { life with socket := life.socket.close } := by
  obtain ⟨stopped, same, lists⟩ := close_shutsDown life.socket
  have closed := closable_close life.socket life.destroyed
  have sockets : Holds life.socket.close.handles.sockets
      (closable { life with socket := life.socket.close }) := by
    rw [closed]
    exact describes.close_sockets
  have listed := describes.listed
  have inside : ∀ list, life.socket.close.m_AddrRes = some list →
      list < life.socket.close.handles.addrLists.length := by
    intro list found
    rw [same] at found
    have before := describes.inside list found
    rw [lists, found]
    simpa [SocketHandles.freeAddrs, afterRelease] using before
  cases owns with
  | nothing =>
      obtain rfl := Option.some.inj inOrder
      have unlisted := listed.mp rfl
      refine ⟨sockets, ?_, ?_, ?_, ?_, inside, fun _ => Or.inl rfl⟩
      · rw [lists, unlisted]
        exact describes.addrLists
      · simp [stopped]
      · simp [closed]
      · simp [same, unlisted]
  | addrList | port =>
      obtain rfl := Option.some.inj inOrder
      refine ⟨sockets, ?_, ?_, ?_, ?_, inside, fun _ => Or.inr rfl⟩
      · rw [lists]
        exact SocketHandles.freeAddrs_holds describes.addrLists
      · simp [stopped]
      · simp [closed]
      · simpa [same] using listed
  | freed => cases inOrder

theorem step {action : ServerSocketAction} (describes : owns.Describes life)
    (inOrder : owns.step action = some after)
    (stepTo : serverSocketStep life action = some next) :
    after.Describes next := by
  simp only [serverSocketStep, Option.ite_none_left_eq_some] at stepTo
  obtain ⟨alive, stepTo⟩ := stepTo
  rw [Bool.not_eq_true] at alive
  cases action with
  | listen strPort calls =>
      obtain ⟨socket, listened, rfl⟩ := Option.map_eq_some_iff.mp stepTo
      exact describes.listen alive inOrder listened
  | shutdownServer =>
      obtain rfl := Option.some.inj stepTo
      exact describes.shutdownServer inOrder
  | destroy =>
      obtain rfl := Option.some.inj stepTo
      obtain ⟨rfl, free⟩ : owns = after ∧ (owns = .nothing ∨ owns = .freed) := by
        cases owns <;> simp_all [ServerSocketOwns.step]
      exact ⟨describes.sockets, describes.addrLists, describes.listening,
        describes.descriptor, describes.listed, describes.inside,
        fun _ => free⟩

theorem released (describes : owns.Describes life) : life.Released := by
  refine ⟨describes.sockets.once, describes.addrLists.once, ?_⟩
  intro destroyed
  obtain ⟨noLists, unopened⟩ := describes.unlisted
    (describes.destroyed destroyed)
  exact ⟨(unopened ▸ describes.sockets).settled, noLists.settled⟩

/-- A socket that owns something keeps it when it is destroyed or listens
again, a descriptor is lost when its `listen` fails, and a list that is freed
is freed again when the socket is shut down again. -/
theorem doomed_of_step {action : ServerSocketAction}
    (describes : owns.Describes life) (outOfOrder : owns.step action = none)
    (stepTo : serverSocketStep life action = some next) : next.Doomed := by
  simp only [serverSocketStep, Option.ite_none_left_eq_some] at stepTo
  obtain ⟨-, stepTo⟩ := stepTo
  cases action with
  | listen strPort calls =>
      obtain ⟨socket, listened, rfl⟩ := Option.map_eq_some_iff.mp stepTo
      obtain ⟨list, lists, outcome⟩ := listen_cases listened
      by_cases held : owns = .addrList ∨ owns = .port
      · obtain ⟨old, -, holds⟩ := describes.held_list held
        apply SocketHandles.Doomed.addrLists
        rw [lists, list]
        exact holds.spoiled_of_obtain (Or.inr rfl)
      · have free : owns = .nothing ∨ owns = .freed := by
          cases owns <;> simp at held ⊢
        have chosen : (if calls.listens then some ServerSocketOwns.port
            else if calls.socket then none else some .addrList) = none := by
          rcases free with rfl | rfl <;> exact outOfOrder
        rcases outcome with ⟨listens, -⟩ | ⟨fails, status, sockets⟩
        · simp [listens] at chosen
        · have opened : calls.socket = true := by simpa [fails] using chosen
          obtain ⟨-, unopened⟩ := describes.unlisted free
          have holds := (unopened ▸ describes.sockets).obtained
          have closed : closable { life with socket := socket } = none := by
            simp [closable, status]
          apply SocketHandles.Doomed.sockets
          rw [closed, sockets, if_pos opened]
          exact holds.spoiled_of_forgotten (by simp)
  | shutdownServer =>
      obtain rfl := Option.some.inj stepTo
      obtain rfl : owns = .freed := by
        cases owns <;> simp [ServerSocketOwns.step] at outOfOrder ⊢
      obtain ⟨list, listed⟩ := Option.ne_none_iff_exists'.mp
        (mt describes.listed.mpr (by simp))
      obtain ⟨noLists, -⟩ := describes.unlisted (Or.inr rfl)
      apply SocketHandles.Doomed.addrLists
      rw [(close_shutsDown life.socket).2.2, listed]
      exact noLists.spoiled_of_release (describes.inside list listed)
  | destroy =>
      obtain rfl := Option.some.inj stepTo
      have held : owns = .addrList ∨ owns = .port := by
        cases owns <;> simp [ServerSocketOwns.step] at outOfOrder ⊢
      obtain ⟨list, -, holds⟩ := describes.held_list held
      exact .leaked rfl fun settled => holds.not_settled settled.2

end ServerSocketOwns.Describes

namespace ServerSocketLife

variable {life next : ServerSocketLife}

theorem Doomed.step {action : ServerSocketAction} (doomed : life.Doomed)
    (stepTo : serverSocketStep life action = some next) : next.Doomed := by
  simp only [serverSocketStep, Option.ite_none_left_eq_some] at stepTo
  obtain ⟨alive, stepTo⟩ := stepTo
  rw [Bool.not_eq_true] at alive
  unfold Doomed at doomed
  rw [alive] at doomed
  cases action with
  | listen strPort calls =>
      obtain ⟨socket, listened, rfl⟩ := Option.map_eq_some_iff.mp stepTo
      exact doomed.moves (listen_moves listened _)
  | shutdownServer =>
      obtain rfl := Option.some.inj stepTo
      unfold Doomed
      rw [closable_close, (close_shutsDown life.socket).2.1]
      exact doomed.moves life.close_moves
  | destroy =>
      obtain rfl := Option.some.inj stepTo
      exact doomed.moves ⟨.keep _, .keep _⟩

theorem Doomed.not_released (doomed : life.Doomed)
    (destroyed : life.destroyed = true) : ¬ life.Released := by
  unfold Doomed at doomed
  unfold Released
  rw [destroyed] at doomed ⊢
  exact SocketHandles.Doomed.not_released doomed

end ServerSocketLife

end ServerSockets

/-- With the calls in order, both kinds of sockets release everything once; and
a whole life of either of them does so with no other calls. -/
theorem sockets_released_iff (m_pClientSocketCallback m_pSocketCallback : Bool)
    (clientActions : List ClientSocketAction)
    (serverActions : List ServerSocketAction) :
    ((ClientSocketInOrder clientActions →
        HoldsAlong clientSocketStep ClientSocketLife.Released
          (.start m_pClientSocketCallback) clientActions) ∧
      ∀ last, execute clientSocketStep (.start m_pClientSocketCallback)
          clientActions = some last → last.destroyed = true →
        HoldsAlong clientSocketStep ClientSocketLife.Released
          (.start m_pClientSocketCallback) clientActions →
          ClientSocketInOrder clientActions) ∧
    ((ServerSocketInOrder serverActions →
        HoldsAlong serverSocketStep ServerSocketLife.Released
          (.start m_pSocketCallback) serverActions) ∧
      ∀ last, execute serverSocketStep (.start m_pSocketCallback)
          serverActions = some last → last.destroyed = true →
        HoldsAlong serverSocketStep ServerSocketLife.Released
          (.start m_pSocketCallback) serverActions →
          ServerSocketInOrder serverActions) := by
  constructor
  · apply accepted_decides ClientSocketLife.Doomed _ _ _ _ _
      (ClientSocketLife.start_describes m_pClientSocketCallback)
    · intro owns life describes
      exact describes.released
    · intro owns life action after next describes inOrder stepTo
      exact describes.step inOrder stepTo
    · intro owns life action next describes outOfOrder stepTo
      exact describes.doomed_of_step outOfOrder stepTo
    · intro life action next doomed stepTo
      exact doomed.step stepTo
    · intro last doomed destroyed
      exact doomed.not_released destroyed
  · apply accepted_decides ServerSocketLife.Doomed _ _ _ _ _
      (ServerSocketLife.start_describes m_pSocketCallback)
    · intro owns life describes
      exact describes.released
    · intro owns life action after next describes inOrder stepTo
      exact describes.step inOrder stepTo
    · intro owns life action next describes outOfOrder stepTo
      exact describes.doomed_of_step outOfOrder stepTo
    · intro life action next doomed stepTo
      exact doomed.step stepTo
    · intro last doomed destroyed
      exact doomed.not_released destroyed

/-- A descriptor whose `connect` failed stays open, and a second
`ShutdownServer` frees the address list again. -/
theorem sockets_unreleased :
    ¬ HoldsAlong clientSocketStep ClientSocketLife.Released (.start true)
        [.connect "quotes" "8080" connectTcp ⟨fun _ _ => true, true, false⟩,
          .disconnect, .destroy] ∧
      ¬ HoldsAlong serverSocketStep ServerSocketLife.Released (.start true)
        [.listen "9000" ⟨fun _ => true, true, true, true⟩, .shutdownServer,
          .shutdownServer] := by
  decide

end ArstQuote
