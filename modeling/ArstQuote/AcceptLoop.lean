import ArstQuote.Clients
import ArstQuote.GuardedRuns
import Mathlib.Data.List.Perm.Basic
import Mathlib.Data.List.Sigma

/-!
# The accept loop of the clients

`ARSTClients::Run` makes a client of every result of `accept`, while relay
threads broadcast and the main thread sweeps.  The descriptor of a client goes
to `close` once, when the sweep takes the client out of the vector; but a
failed `accept` leaves a client as well, with `-1` for its descriptor.  A
broadcast and a sweep run to their ends here before anything else happens, and
an erased iterator denotes the next element.
-/

namespace ArstQuote

open GuardedRuns

/-- `ARSTClients` with its history: the results of `accept`, in order, the
clients erased, and the descriptors passed to `close`, each with the arrival of
its client.  `sweeping` is the iterator of `CheckClientVector` and whether the
client there is shut down and about to be erased. -/
structure Clients where
  vClient : List Client
  accepted : List Int
  departed : List Client
  closed : List (Int × Nat)
  sweeping : Option (Nat × Bool)
  deriving DecidableEq

def Clients.start : Clients :=
  ⟨[], [], [], [], none⟩

/-- `broadcast` is the loop of one of the relay threads over all clients, and
`beginSweep`, `sweep` and `erase` are the steps of `CheckClientVector`. -/
inductive ClientsAction
  | accept (nSocket : Int)
  | broadcast (text : Bytes) (results : Nat → Nat → Int)
  | beginSweep
  | sweep
  | erase

namespace Clients

/-- `make_shared<ARSTClient>` with what `Accept` returned. -/
def pushBack (clients : Clients) (nSocket : Int) : Clients :=
  { clients with
    vClient := clients.vClient ++
      [⟨nSocket, .none, 1, clients.accepted.length, 0, [], 0⟩]
    accepted := clients.accepted ++ [nSocket] }

/-- An iteration of `CheckClientVector`, up to the call of
`EraseClientFromVector`. -/
def sweepStep (clients : Clients) (position : Nat) : Clients :=
  match clients.vClient[position]? with
  | none => { clients with sweeping := none }
  | some client =>
      if client.gone then
        { clients with
          closed := clients.closed ++ [(client.nSocket, client.arrival)]
          sweeping := some (position, true) }
      else { clients with sweeping := some (position + 1, false) }

end Clients

def clientsStep (clients : Clients) : ClientsAction → Option Clients
  -- `accept` returns a descriptor or `-1`.
  | .accept nSocket =>
      if clients.sweeping = none ∧ -1 ≤ nSocket then
        some (clients.pushBack nSocket)
      else none
  | .broadcast text results =>
      if clients.sweeping = none then
        (broadcast text results clients.vClient).map fun (vClient, _) =>
          { clients with vClient := vClient }
      else none
  | .beginSweep =>
      if clients.sweeping = none then
        some { clients with sweeping := some (0, false) }
      else none
  | .sweep =>
      match clients.sweeping with
      | some (position, false) => some (clients.sweepStep position)
      | _ => none
  | .erase =>
      match clients.sweeping with
      | some (position, true) =>
          some { clients with
            vClient := clients.vClient.eraseIdx position
            departed := clients.departed ++ clients.vClient[position]?.toList
            sweeping := some (position, false) }
      | _ => none

namespace Clients

/-- Every client ever pushed. -/
def everyone (clients : Clients) : List Client :=
  clients.vClient ++ clients.departed

/-- Every client wraps a descriptor that `accept` returned, there are as many
clients as such descriptors, and a descriptor is closed at most once, and once
when its client is no longer in the vector. -/
structure OnlyConnections (clients : Clients) : Prop where
  wraps : ∀ client ∈ clients.everyone, 0 ≤ client.nSocket
  created : clients.everyone.length =
    (clients.accepted.filter (0 ≤ ·)).length
  closes : ∀ descriptor arrival,
    clients.accepted[arrival]? = some descriptor →
      clients.closed.count (descriptor, arrival) ≤ 1 ∧
        ((∀ client ∈ clients.vClient, client.arrival ≠ arrival) →
          clients.closed.count (descriptor, arrival) = 1)

/-- `accept` does not fail. -/
def AcceptSucceeds (_ : Clients) : ClientsAction → Prop
  | .accept nSocket => 0 ≤ nSocket
  | _ => True

end Clients

instance (clients : Clients) : DecidablePred clients.AcceptSucceeds
  | .accept nSocket => inferInstanceAs (Decidable (0 ≤ nSocket))
  | .broadcast _ _ | .beginSweep | .sweep | .erase => isTrue trivial

/-- The descriptor of a client with its arrival. -/
def Client.connection (client : Client) : Int × Nat :=
  (client.nSocket, client.arrival)

theorem served_connection (text : Bytes) (results : Nat → Nat → Int)
    (client : Client) :
    (served text results client).connection = client.connection := by
  cases gone : client.gone with
  | true => rw [served_of_gone text results gone]
  | false =>
      obtain ⟨sent, after, -⟩ := served_of_present text results gone
      rw [after]
      rfl

namespace Clients

/-- The client shut down and not yet erased. -/
def shutDown (clients : Clients) : List Client :=
  match clients.sweeping with
  | some (position, true) => clients.vClient[position]?.toList
  | _ => []

/-- The invariant: the clients are the results of `accept`, and `close` was
called for the clients erased and the one about to be. -/
structure Valid (clients : Clients) : Prop where
  connections : (clients.everyone.map Client.connection).Perm
    clients.accepted.zipIdx
  closed : clients.closed =
    (clients.departed ++ clients.shutDown).map Client.connection
  erasing : ∀ position, clients.sweeping = some (position, true) →
    position < clients.vClient.length

theorem start_valid : start.Valid :=
  ⟨List.Perm.refl _, rfl, by simp [start]⟩

section Counts

variable {clients : Clients}

theorem shutDown_sublist (clients : Clients) :
    clients.shutDown.Sublist clients.vClient := by
  unfold shutDown
  split
  · rename_i position _
    cases found : clients.vClient[position]? with
    | none => exact List.nil_sublist _
    | some client =>
        rw [Option.toList_some, List.singleton_sublist]
        exact List.mem_of_getElem? found
  · exact List.nil_sublist _

/-- Every result of `accept` has one client. -/
theorem Valid.count_connection (valid : clients.Valid) {descriptor : Int}
    {arrival : Nat}
    (found : clients.accepted[arrival]? = some descriptor) :
    (clients.vClient.map Client.connection).count (descriptor, arrival) +
      (clients.departed.map Client.connection).count (descriptor, arrival) =
        1 := by
  have nodup : clients.accepted.zipIdx.Nodup :=
    List.Nodup.of_map Prod.snd (List.nodup_zipIdx_map_snd _)
  have once := List.nodup_iff_count_eq_one.mp nodup (descriptor, arrival)
    (List.mk_mem_zipIdx_iff_getElem?.mpr found)
  rw [← valid.connections.count_eq, everyone, List.map_append,
    List.count_append] at once
  exact once

theorem Valid.closes (valid : clients.Valid) {descriptor : Int}
    {arrival : Nat}
    (found : clients.accepted[arrival]? = some descriptor) :
    clients.closed.count (descriptor, arrival) ≤ 1 ∧
      ((∀ client ∈ clients.vClient, client.arrival ≠ arrival) →
        clients.closed.count (descriptor, arrival) = 1) := by
  have once := valid.count_connection found
  have fewer := (clients.shutDown_sublist.map Client.connection).count_le
    (descriptor, arrival)
  rw [valid.closed, List.map_append, List.count_append]
  constructor
  · omega
  · intro left
    have absent : (clients.vClient.map Client.connection).count
        (descriptor, arrival) = 0 := by
      rw [List.count_eq_zero]
      intro member
      obtain ⟨client, inside, connectionEq⟩ := List.mem_map.mp member
      exact left client inside (Prod.mk.inj connectionEq).2
    omega

/-- With the clients in order, what can be wrong is a result of `accept`. -/
theorem Valid.onlyConnections_iff (valid : clients.Valid) :
    clients.OnlyConnections ↔ ∀ nSocket ∈ clients.accepted, 0 ≤ nSocket := by
  have sockets : (clients.everyone.map Client.nSocket).Perm
      clients.accepted := by
    have firsts := valid.connections.map Prod.fst
    rw [List.map_map, List.zipIdx_map_fst] at firsts
    exact firsts
  constructor
  · intro only nSocket member
    obtain ⟨client, inside, rfl⟩ :=
      List.mem_map.mp (sockets.mem_iff.mpr member)
    exact only.wraps client inside
  · intro succeeded
    constructor
    · intro client inside
      exact succeeded _ (sockets.mem_iff.mp (List.mem_map_of_mem inside))
    · have lengths := sockets.length_eq
      rw [List.length_map] at lengths
      rw [lengths, List.filter_eq_self.mpr (by simpa using succeeded)]
    · intro descriptor arrival found
      exact valid.closes found

end Counts

section Steps

variable {clients next : Clients}

/-- Between two sweeps `close` was called for the clients erased. -/
theorem Valid.closed_of_idle (valid : clients.Valid)
    (idle : clients.sweeping = none) :
    clients.closed = clients.departed.map Client.connection := by
  have closed := valid.closed
  simp only [shutDown, idle, List.append_nil] at closed
  exact closed

theorem Valid.pushBack (valid : clients.Valid)
    (idle : clients.sweeping = none) (nSocket : Int) :
    (clients.pushBack nSocket).Valid := by
  have closed := valid.closed_of_idle idle
  refine ⟨?_, ?_, by simp [Clients.pushBack, idle]⟩
  · let client : Client :=
      ⟨nSocket, .none, 1, clients.accepted.length, 0, [], 0⟩
    have moved : ((clients.vClient ++ [client]) ++ clients.departed).Perm
        (clients.everyone ++ [client]) := by
      rw [List.append_assoc, everyone, List.append_assoc]
      exact List.perm_append_comm.append_left _
    have connections := valid.connections.append_right
      [(nSocket, clients.accepted.length)]
    have numbered : (clients.accepted ++ [nSocket]).zipIdx =
        clients.accepted.zipIdx ++ [(nSocket, clients.accepted.length)] := by
      simp [List.zipIdx_append]
    have mapped := moved.map Client.connection
    rw [clients.everyone.map_append] at mapped
    change (((clients.vClient ++ [client]) ++ clients.departed).map
      Client.connection).Perm (clients.accepted ++ [nSocket]).zipIdx
    rw [numbered]
    exact mapped.trans connections
  · simpa [Clients.pushBack, shutDown, idle] using closed

/-- Serving the clients leaves their connections. -/
theorem Valid.serve (valid : clients.Valid) (idle : clients.sweeping = none)
    (text : Bytes) (results : Nat → Nat → Int) :
    Valid { clients with
      vClient := clients.vClient.map (served text results) } := by
  have closed := valid.closed_of_idle idle
  have unchanged : (clients.vClient.map (served text results)).map
      Client.connection = clients.vClient.map Client.connection := by
    rw [List.map_map]
    exact List.map_congr_left fun client _ =>
      served_connection text results client
  refine ⟨?_, ?_, by simp [idle]⟩
  · have connections := valid.connections
    simp only [everyone, List.map_append] at connections ⊢
    rw [unchanged]
    exact connections
  · simpa [shutDown, idle] using closed

theorem Valid.sweepStep (valid : clients.Valid) {position : Nat}
    (sweeping : clients.sweeping = some (position, false)) :
    (clients.sweepStep position).Valid := by
  have nobody : clients.shutDown = [] := by
    simp [shutDown, sweeping]
  have closed := valid.closed
  rw [nobody, List.append_nil] at closed
  unfold Clients.sweepStep
  split
  · exact ⟨valid.connections, by simp [shutDown, closed], by simp⟩
  · rename_i client found
    split
    · refine ⟨valid.connections, ?_, ?_⟩
      · simp [shutDown, closed, found, Client.connection]
      · simpa using (List.getElem?_eq_some_iff.mp found).1
    · exact ⟨valid.connections, by simp [shutDown, closed], by simp⟩

theorem Valid.erase (valid : clients.Valid) {position : Nat}
    (erasing : clients.sweeping = some (position, true)) :
    Valid { clients with
      vClient := clients.vClient.eraseIdx position
      departed := clients.departed ++ clients.vClient[position]?.toList
      sweeping := some (position, false) } := by
  have inside := valid.erasing position erasing
  have found : clients.vClient[position]? =
      some clients.vClient[position] := List.getElem?_eq_getElem inside
  have closed := valid.closed
  simp only [shutDown, erasing] at closed
  refine ⟨?_, by simp [shutDown, closed], by simp⟩
  have moved : (clients.vClient.eraseIdx position ++
      (clients.departed ++ clients.vClient[position]?.toList)).Perm
        clients.everyone := by
    have taken : (clients.vClient.eraseIdx position ++
        [clients.vClient[position]]).Perm clients.vClient :=
      List.perm_append_comm.trans (List.getElem_cons_eraseIdx_perm inside)
    calc
      clients.vClient.eraseIdx position ++
          (clients.departed ++ clients.vClient[position]?.toList)
      _ = clients.vClient.eraseIdx position ++
          (clients.departed ++ [clients.vClient[position]]) := by
        rw [found, Option.toList_some]
      List.Perm _ (clients.vClient.eraseIdx position ++
          ([clients.vClient[position]] ++ clients.departed)) :=
        List.perm_append_comm.append_left _
      _ = (clients.vClient.eraseIdx position ++
          [clients.vClient[position]]) ++ clients.departed :=
        (List.append_assoc _ _ _).symm
      List.Perm _ clients.everyone := taken.append_right clients.departed
  exact (moved.map Client.connection).trans valid.connections

theorem Valid.step {action : ClientsAction} (valid : clients.Valid)
    (stepTo : clientsStep clients action = some next) : next.Valid := by
  cases action with
  | accept nSocket =>
      simp only [clientsStep, Option.ite_none_right_eq_some,
        Option.some.injEq] at stepTo
      obtain ⟨⟨idle, -⟩, rfl⟩ := stepTo
      exact valid.pushBack idle nSocket
  | broadcast text results =>
      obtain ⟨logged, sent⟩ := exists_broadcast text results clients.vClient
      simp only [clientsStep, sent, Option.map_some,
        Option.ite_none_right_eq_some, Option.some.injEq] at stepTo
      obtain ⟨idle, rfl⟩ := stepTo
      exact valid.serve idle text results
  | beginSweep =>
      simp only [clientsStep, Option.ite_none_right_eq_some,
        Option.some.injEq] at stepTo
      obtain ⟨idle, rfl⟩ := stepTo
      have closed := valid.closed_of_idle idle
      exact ⟨valid.connections, by simpa [shutDown] using closed, by simp⟩
  | sweep =>
      simp only [clientsStep] at stepTo
      split at stepTo
      · obtain rfl := Option.some.inj stepTo
        exact valid.sweepStep (by assumption)
      · cases stepTo
  | erase =>
      simp only [clientsStep] at stepTo
      split at stepTo
      · obtain rfl := Option.some.inj stepTo
        exact valid.erase (by assumption)
      · cases stepTo

end Steps

theorem accepted_of_clientsStep {clients next : Clients}
    {action : ClientsAction}
    (stepTo : clientsStep clients action = some next) :
    ((∀ nSocket ∈ next.accepted, 0 ≤ nSocket) ↔
      (∀ nSocket ∈ clients.accepted, 0 ≤ nSocket) ∧
        clients.AcceptSucceeds action) := by
  cases action with
  | accept nSocket =>
      simp only [clientsStep, Option.ite_none_right_eq_some,
        Option.some.injEq] at stepTo
      obtain ⟨-, rfl⟩ := stepTo
      simp only [Clients.pushBack, AcceptSucceeds, List.forall_mem_append,
        List.forall_mem_singleton]
  | broadcast text results =>
      simp only [clientsStep, Option.ite_none_right_eq_some] at stepTo
      obtain ⟨served, -, rfl⟩ := Option.map_eq_some_iff.mp stepTo.2
      simp [AcceptSucceeds]
  | beginSweep =>
      simp only [clientsStep, Option.ite_none_right_eq_some,
        Option.some.injEq] at stepTo
      obtain ⟨-, rfl⟩ := stepTo
      simp [AcceptSucceeds]
  | sweep =>
      simp only [clientsStep] at stepTo
      split at stepTo
      · obtain rfl := Option.some.inj stepTo
        have same : ∀ position,
            (clients.sweepStep position).accepted = clients.accepted := by
          intro position
          unfold sweepStep
          grind
        simp [AcceptSucceeds, same]
      · cases stepTo
  | erase =>
      simp only [clientsStep] at stepTo
      split at stepTo
      · obtain rfl := Option.some.inj stepTo
        simp [AcceptSucceeds]
      · cases stepTo

end Clients

/-- In every sequence of accepts, broadcasts and sweeps, the clients are the
accepted connections, each closed once, exactly as long as no `accept`
fails. -/
theorem clients_onlyConnections_iff (actions : List ClientsAction) :
    HoldsAlong clientsStep Clients.OnlyConnections .start actions ↔
      MeetsAlong clientsStep Clients.AcceptSucceeds .start actions := by
  have initially : Clients.start.OnlyConnections :=
    Clients.start_valid.onlyConnections_iff.mpr (by simp [Clients.start])
  apply holdsAlong_iff_meetsAlong _ _ Clients.start_valid initially
  · intro clients action next valid stepTo
    exact valid.step stepTo
  · intro clients action next valid only stepTo
    have succeeded := valid.onlyConnections_iff.mp only
    rw [(valid.step stepTo).onlyConnections_iff,
      Clients.accepted_of_clientsStep stepTo]
    exact and_iff_right succeeded

/-- `accept` fails once, and a client wraps its `-1`. -/
theorem clients_wrap_failure :
    ∃ clients, execute clientsStep Clients.start [.accept (-1)] =
        some clients ∧
      (∃ client ∈ clients.vClient, client.nSocket = -1) ∧
      ¬ clients.OnlyConnections := by
  refine ⟨Clients.start.pushBack (-1), rfl, ?_, ?_⟩
  · decide
  · intro only
    have wraps := only.wraps
    revert wraps
    decide

end ArstQuote
