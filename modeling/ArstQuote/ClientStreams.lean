import ArstQuote.Clients
import ArstQuote.RelayRuns
import Mathlib.Data.List.Perm.Basic

/-!
# What the clients receive from one relay loop

One relay loop broadcasts, clients arrive, and the main thread sweeps between
the broadcasts.  Each client gets the accepted texts from its arrival on, in
order and without gap, until a `send` on its socket fails; from then on it gets
nothing, and what happens on one socket is not seen on another.
-/

namespace ArstQuote

open GuardedRuns

/-- The relay loop with the clients in `m_vClient`, those erased from it, the
number of arrivals, and the lines logged by `SendAll`. -/
structure Service where
  run : RelayRun
  vClient : List Client
  departed : List Client
  arrived : Nat
  logged : List LogCall

def Service.start : Service :=
  ⟨RelayRun.start, [], [], 0, []⟩

inductive ServiceAction
  | arrive (nSocket : Int)
  | message (queued : Bytes) (results : Nat → Nat → Int)
  | sweep

/-- A client as `ARSTClients::Run` hands it to `PushBackClientToVector`. -/
def Service.joining (service : Service) (nSocket : Int) : Client where
  nSocket := nSocket
  csClientStatus := .none
  useCount := 1
  arrival := service.arrived
  joinedAt := service.run.accepted.length
  wire := []
  replyEvents := 0

def serviceStep (service : Service) : ServiceAction → Option Service
  | .arrive nSocket =>
      some { service with
        vClient := service.vClient ++ [service.joining nSocket]
        arrived := service.arrived + 1 }
  | .message queued results =>
      match runIteration service.run.relay queued with
      | .error _ => none
      | .ok result =>
          let run := service.run.after queued result
          match result.broadcast with
          | none => some { service with run := run }
          | some text =>
              (broadcast text results service.vClient).map
                fun (vClient, logged) =>
                  { service with
                    run := run
                    vClient := vClient
                    logged := service.logged ++ logged }
  | .sweep =>
      (checkClientVector (service.vClient.length + 1) 0 service.vClient).map
        fun (vClient, erased) =>
          { service with
            vClient := vClient
            departed := service.departed ++ erased }

/-- Every client that ever arrived. -/
def Service.everyone (service : Service) : List Client :=
  service.vClient ++ service.departed

/-- The texts accepted since the client joined, one after the other. -/
def owed (accepted : List Bytes) (client : Client) : Bytes :=
  (accepted.drop client.joinedAt).flatten

/-- The socket has taken a prefix of what the client is owed, and all of it
unless the client is offline. -/
structure Streams (accepted : List Bytes) (client : Client) : Prop where
  joined : client.joinedAt ≤ accepted.length
  isPrefix : client.wire <+: owed accepted client
  whole : client.csClientStatus ≠ .offline →
    client.wire = owed accepted client

structure Service.Valid (service : Service) : Prop where
  run : service.run.Valid
  held : ∀ client ∈ service.everyone, client.useCount = 1
  erased : ∀ client ∈ service.departed, client.gone = true
  arrivals : ∀ client ∈ service.everyone, client.arrival < service.arrived
  distinct : (service.everyone.map Client.arrival).Nodup
  streams : ∀ client ∈ service.everyone,
    Streams service.run.accepted client

theorem owed_append {accepted : List Bytes} {client : Client}
    (joined : client.joinedAt ≤ accepted.length) (text : Bytes) :
    owed (accepted ++ [text]) client = owed accepted client ++ text := by
  rw [owed, List.drop_append_of_le_length joined]
  simp [owed]

/-- A client that is gone is owed more but gets nothing more. -/
theorem Streams.of_gone {accepted : List Bytes} {client : Client}
    (streams : Streams accepted client) (gone : client.gone = true)
    (text : Bytes) : Streams (accepted ++ [text]) client where
  joined := by
    have joined := streams.joined
    simp
    omega
  isPrefix := by
    rw [owed_append streams.joined]
    exact streams.isPrefix.trans (List.prefix_append _ _)
  whole := fun online => absurd (Client.gone_iff.mp gone).1 online

/-- A broadcast keeps every stream intact. -/
theorem Streams.served {accepted : List Bytes} {client : Client}
    (streams : Streams accepted client) (held : client.useCount = 1)
    (text : Bytes) (results : Nat → Nat → Int) :
    Streams (accepted ++ [text]) (served text results client) := by
  cases gone : client.gone with
  | true =>
      rw [served_of_gone text results gone]
      exact streams.of_gone gone text
  | false =>
      have online : client.csClientStatus ≠ .offline := by
        intro offline
        rw [Client.gone_iff.mpr ⟨offline, held⟩] at gone
        cases gone
      obtain ⟨sent, after, isPrefix, whole⟩ :=
        served_of_present text results gone
      have more : owed (accepted ++ [text]) (client.afterSend sent) =
          client.wire ++ text := by
        rw [streams.whole online, ← owed_append streams.joined]
        rfl
      rw [after]
      refine ⟨?_, ?_, ?_⟩
      · have joined := streams.joined
        simp
        omega
      · rw [more]
        exact (List.prefix_append_right_inj client.wire).mpr isPrefix
      · intro stillOnline
        rw [more, Client.afterSend]
        cases offline : sent.offline with
        | true => simp [Client.afterSend, offline] at stillOnline
        | false => rw [whole offline]

theorem served_useCount (text : Bytes) (results : Nat → Nat → Int)
    (client : Client) :
    (served text results client).useCount = client.useCount := by
  cases gone : client.gone with
  | true => rw [served_of_gone text results gone]
  | false =>
      obtain ⟨sent, after, -⟩ := served_of_present text results gone
      rw [after, Client.afterSend_useCount]

/-- What a message can do: take the relay one iteration further, and serve
every client with the text if one was accepted. -/
theorem serviceStep_message {service next : Service} {queued : Bytes}
    {results : Nat → Nat → Int}
    (stepTo : serviceStep service (.message queued results) = some next) :
    relayStep service.run queued = some next.run ∧
      next.arrived = service.arrived ∧ next.departed = service.departed ∧
      ((next.run.accepted = service.run.accepted ∧
          next.vClient = service.vClient) ∨
        ∃ text, next.run.accepted = service.run.accepted ++ [text] ∧
          next.vClient = service.vClient.map (served text results)) := by
  cases ended : runIteration service.run.relay queued with
  | error abort => simp [serviceStep, ended] at stepTo
  | ok result =>
      cases text : result.broadcast with
      | none =>
          simp [serviceStep, ended, text] at stepTo
          subst stepTo
          simp [relayStep, ended, RelayRun.after, text]
      | some text' =>
          obtain ⟨logged, sent⟩ :=
            exists_broadcast text' results service.vClient
          simp [serviceStep, ended, text, sent] at stepTo
          subst stepTo
          simp [relayStep, ended, RelayRun.after, text]

theorem serviceStep_sweep {service next : Service}
    (stepTo : serviceStep service .sweep = some next) :
    next = { service with
      vClient := service.vClient.filter (!·.gone)
      departed := service.departed ++ service.vClient.filter (·.gone) } := by
  simp [serviceStep, checkClientVector_eq] at stepTo
  exact stepTo.symm

/-- A sweep moves clients but loses none. -/
theorem everyone_perm_of_sweep {service next : Service}
    (stepTo : serviceStep service .sweep = some next) :
    next.everyone.Perm service.everyone := by
  rw [serviceStep_sweep stepTo]
  have parts : (service.vClient.filter (!·.gone) ++
      service.vClient.filter (·.gone)).Perm service.vClient :=
    List.perm_append_comm.trans
      (List.filter_append_perm Client.gone service.vClient)
  have swapped : (service.departed ++ service.vClient.filter (·.gone)).Perm
      (service.vClient.filter (·.gone) ++ service.departed) :=
    List.perm_append_comm
  apply (swapped.append_left _).trans
  rw [← List.append_assoc]
  exact parts.append_right _

theorem Service.start_valid : Service.start.Valid where
  run := RelayRun.start_valid
  held := by simp [Service.start, Service.everyone]
  erased := by simp [Service.start]
  arrivals := by simp [Service.start, Service.everyone]
  distinct := by simp [Service.start, Service.everyone]
  streams := by simp [Service.start, Service.everyone]

theorem serviceStep_arrive {service next : Service} {nSocket : Int}
    (stepTo : serviceStep service (.arrive nSocket) = some next) :
    next = { service with
      vClient := service.vClient ++ [service.joining nSocket]
      arrived := service.arrived + 1 } := by
  simp only [serviceStep, Option.some.injEq] at stepTo
  exact stepTo.symm

theorem everyone_perm_of_arrive {service next : Service} {nSocket : Int}
    (stepTo : serviceStep service (.arrive nSocket) = some next) :
    next.everyone.Perm (service.joining nSocket :: service.everyone) := by
  rw [serviceStep_arrive stepTo, Service.everyone, List.append_assoc]
  exact List.perm_middle

theorem Service.joining_streams (service : Service) (nSocket : Int) :
    Streams service.run.accepted (service.joining nSocket) := by
  have nothing : owed service.run.accepted (service.joining nSocket) = [] := by
    simp [owed, Service.joining]
  exact ⟨le_refl _, List.nil_prefix, fun _ => nothing.symm⟩

theorem Service.Valid.arrive {service next : Service} {nSocket : Int}
    (valid : service.Valid)
    (stepTo : serviceStep service (.arrive nSocket) = some next) :
    next.Valid := by
  have moved := everyone_perm_of_arrive stepTo
  have arrives := serviceStep_arrive stepTo
  have run : next.run = service.run := by rw [arrives]
  have arrived : next.arrived = service.arrived + 1 := by rw [arrives]
  have cases : ∀ client ∈ next.everyone,
      client = service.joining nSocket ∨ client ∈ service.everyone :=
    fun client member => List.mem_cons.mp (moved.mem_iff.mp member)
  constructor
  · rw [run]
    exact valid.run
  · intro client member
    rcases cases client member with rfl | earlier
    · rfl
    · exact valid.held client earlier
  · rw [arrives]
    exact valid.erased
  · rw [arrived]
    intro client member
    rcases cases client member with rfl | earlier
    · exact Nat.lt_succ_self _
    · exact Nat.lt_succ_of_lt (valid.arrivals client earlier)
  · apply (moved.map Client.arrival).nodup_iff.mpr
    rw [List.map_cons, List.nodup_cons]
    refine ⟨?_, valid.distinct⟩
    intro member
    obtain ⟨client, present, same⟩ := List.mem_map.mp member
    have earlier := valid.arrivals client present
    rw [same] at earlier
    exact Nat.lt_irrefl _ earlier
  · rw [run]
    intro client member
    rcases cases client member with rfl | earlier
    · exact service.joining_streams nSocket
    · exact valid.streams client earlier

/-- Serving the clients in `m_vClient` is serving everyone: those erased are
gone and stay as they are. -/
theorem everyone_of_served {service next : Service} {text : Bytes}
    {results : Nat → Nat → Int} (valid : service.Valid)
    (departed : next.departed = service.departed)
    (vClient : next.vClient = service.vClient.map (served text results)) :
    next.everyone = service.everyone.map (served text results) := by
  have still : service.departed.map (served text results) =
      service.departed := by
    apply (List.map_congr_left ?_).trans (List.map_id _)
    intro client member
    exact served_of_gone text results (valid.erased client member)
  rw [Service.everyone, vClient, departed, Service.everyone, List.map_append,
    still]

theorem Service.Valid.message {service next : Service} {queued : Bytes}
    {results : Nat → Nat → Int} (valid : service.Valid)
    (stepTo : serviceStep service (.message queued results) = some next) :
    next.Valid := by
  obtain ⟨stepRun, arrived, departed, outcome⟩ := serviceStep_message stepTo
  have run := valid.run.step stepRun
  have erased : ∀ client ∈ next.departed, client.gone = true := by
    rw [departed]
    exact valid.erased
  rcases outcome with ⟨accepted, vClient⟩ | ⟨text, accepted, vClient⟩
  · have everyone : next.everyone = service.everyone := by
      rw [Service.everyone, vClient, departed, Service.everyone]
    refine ⟨run, ?_, erased, ?_, ?_, ?_⟩
    · rw [everyone]
      exact valid.held
    · rw [everyone, arrived]
      exact valid.arrivals
    · rw [everyone]
      exact valid.distinct
    · rw [everyone, accepted]
      exact valid.streams
  · have everyone := everyone_of_served valid departed vClient
    refine ⟨run, ?_, erased, ?_, ?_, ?_⟩
    · rw [everyone, List.forall_mem_map]
      intro client member
      rw [served_useCount]
      exact valid.held client member
    · rw [everyone, arrived, List.forall_mem_map]
      intro client member
      rw [served_arrival]
      exact valid.arrivals client member
    · have same : Client.arrival ∘ served text results = Client.arrival :=
        funext (served_arrival text results)
      rw [everyone, List.map_map, same]
      exact valid.distinct
    · rw [everyone, accepted, List.forall_mem_map]
      intro client member
      exact (valid.streams client member).served (valid.held client member)
        text results

theorem Service.Valid.sweep {service next : Service} (valid : service.Valid)
    (stepTo : serviceStep service .sweep = some next) : next.Valid := by
  have moved := everyone_perm_of_sweep stepTo
  have swept := serviceStep_sweep stepTo
  have run : next.run = service.run := by rw [swept]
  have arrived : next.arrived = service.arrived := by rw [swept]
  constructor
  · rw [run]
    exact valid.run
  · intro client member
    exact valid.held client (moved.mem_iff.mp member)
  · rw [swept]
    intro client member
    rcases List.mem_append.mp member with before | now
    · exact valid.erased client before
    · exact (List.mem_filter.mp now).2
  · rw [arrived]
    intro client member
    exact valid.arrivals client (moved.mem_iff.mp member)
  · exact (moved.map Client.arrival).nodup_iff.mpr valid.distinct
  · rw [run]
    intro client member
    exact valid.streams client (moved.mem_iff.mp member)

theorem Service.Valid.step {service next : Service} {action : ServiceAction}
    (valid : service.Valid) (stepTo : serviceStep service action = some next) :
    next.Valid := by
  cases action with
  | arrive nSocket => exact valid.arrive stepTo
  | message queued results => exact valid.message stepTo
  | sweep => exact valid.sweep stepTo

theorem Service.valid_of_execute {actions : List ServiceAction}
    {service : Service}
    (executed : execute serviceStep Service.start actions = some service) :
    service.Valid :=
  invariant_of_execute Service.start_valid
    (fun _ _ _ valid stepTo => valid.step stepTo) executed

/-- A client that is offline keeps its record, whatever happens. -/
theorem mem_everyone_of_serviceStep {service next : Service}
    {action : ServiceAction} (valid : service.Valid)
    (stepTo : serviceStep service action = some next) {client : Client}
    (member : client ∈ service.everyone)
    (offline : client.csClientStatus = .offline) : client ∈ next.everyone := by
  have gone : client.gone = true :=
    Client.gone_iff.mpr ⟨offline, valid.held client member⟩
  cases action with
  | arrive nSocket =>
      apply (everyone_perm_of_arrive stepTo).mem_iff.mpr
      exact List.mem_cons_of_mem _ member
  | message queued results =>
      obtain ⟨-, -, departed, outcome⟩ := serviceStep_message stepTo
      rcases outcome with ⟨-, vClient⟩ | ⟨text, -, vClient⟩
      · rwa [Service.everyone, vClient, departed]
      · rw [everyone_of_served valid departed vClient]
        apply List.mem_map.mpr
        exact ⟨client, member, served_of_gone text results gone⟩
  | sweep => exact (everyone_perm_of_sweep stepTo).mem_iff.mpr member

theorem mem_everyone_of_execute {service later : Service}
    {more : List ServiceAction} (valid : service.Valid)
    (executed : execute serviceStep service more = some later)
    {client : Client} (member : client ∈ service.everyone)
    (offline : client.csClientStatus = .offline) : client ∈ later.everyone := by
  have kept : later.Valid ∧ client ∈ later.everyone := by
    apply invariant_of_execute ⟨valid, member⟩ ?_ executed
    rintro before action after ⟨beforeValid, present⟩ stepTo
    exact ⟨beforeValid.step stepTo,
      mem_everyone_of_serviceStep beforeValid stepTo present offline⟩
  exact kept.2

/-- The messages among the actions. -/
def queuedMessages : List ServiceAction → List Bytes
  | [] => []
  | .message queued _ :: actions => queued :: queuedMessages actions
  | .arrive _ :: actions => queuedMessages actions
  | .sweep :: actions => queuedMessages actions

theorem seen_of_execute {service later : Service}
    {actions : List ServiceAction} (valid : service.Valid)
    (executed : execute serviceStep service actions = some later) :
    later.run.seen = service.run.seen ++ queuedMessages actions := by
  induction actions generalizing service with
  | nil =>
      simp only [execute, Option.some.injEq] at executed
      simp [queuedMessages, executed]
  | cons action actions ih =>
      obtain ⟨next, stepTo, rest⟩ := Option.bind_eq_some_iff.mp executed
      have later := ih (valid.step stepTo) rest
      cases action with
      | arrive nSocket =>
          have arrives := serviceStep_arrive stepTo
          rw [later, arrives]
          rfl
      | message queued results =>
          have stepRun := (serviceStep_message stepTo).1
          rw [later, seen_of_relayStep valid.run.ready stepRun]
          simp [queuedMessages]
      | sweep =>
          have swept := serviceStep_sweep stepTo
          rw [later, swept]
          rfl

/-- Arrivals and sweeps always go through, and so does a message that fits the
buffers. -/
theorem exists_serviceStep {service : Service} (valid : service.Valid)
    {action : ServiceAction}
    (fits : ∀ queued results, action = .message queued results →
      Fits queued) :
    ∃ next, serviceStep service action = some next := by
  cases action with
  | arrive nSocket => exact ⟨_, rfl⟩
  | sweep => simp [serviceStep, checkClientVector_eq]
  | message queued results =>
      obtain ⟨run, stepRun⟩ :=
        exists_relayStep valid.run.ready (fits queued results rfl)
      cases ended : runIteration service.run.relay queued with
      | error abort => simp [relayStep, ended] at stepRun
      | ok result =>
          cases text : result.broadcast with
          | none => simp [serviceStep, ended, text]
          | some text' =>
              obtain ⟨logged, sent⟩ :=
                exists_broadcast text' results service.vClient
              simp [serviceStep, ended, text, sent]

theorem exists_execute_service {service : Service} (valid : service.Valid)
    (actions : List ServiceAction)
    (fits : ∀ queued results, .message queued results ∈ actions →
      Fits queued) :
    ∃ later, execute serviceStep service actions = some later := by
  induction actions generalizing service with
  | nil => exact ⟨service, rfl⟩
  | cons action actions ih =>
      have first : ∀ queued results, action = .message queued results →
          Fits queued := by
        rintro queued results rfl
        exact fits queued results (by simp)
      obtain ⟨next, stepTo⟩ := exists_serviceStep valid first
      obtain ⟨later, executed⟩ := ih (valid.step stepTo)
        fun queued results member =>
          fits queued results (List.mem_cons_of_mem _ member)
      exact ⟨later, by simp [execute, stepTo, executed]⟩

/-- The same action, but for the results of `send` on one client's socket. -/
inductive AgreeBut (failing : Nat) : ServiceAction → ServiceAction → Prop
  | arrive (nSocket : Int) : AgreeBut failing (.arrive nSocket) (.arrive nSocket)
  | message (queued : Bytes) (results others : Nat → Nat → Int)
      (agree : ∀ arrival, arrival ≠ failing →
        results arrival = others arrival) :
      AgreeBut failing (.message queued results) (.message queued others)
  | sweep : AgreeBut failing .sweep .sweep

/-- The clients in the list but one. -/
def except (failing : Nat) (clients : List Client) : List Client :=
  clients.filter fun client => client.arrival != failing

/-- Two services that differ in one client only. -/
structure SameBut (failing : Nat) (first second : Service) : Prop where
  run : first.run = second.run
  arrived : first.arrived = second.arrived
  vClient : except failing first.vClient = except failing second.vClient
  departed : except failing first.departed = except failing second.departed

theorem except_map_served (failing : Nat) (text : Bytes)
    {results others : Nat → Nat → Int}
    (agree : ∀ arrival, arrival ≠ failing → results arrival = others arrival)
    (clients : List Client) :
    except failing (clients.map (served text results)) =
      (except failing clients).map (served text others) := by
  unfold except
  rw [List.filter_map]
  have same : (fun client : Client => client.arrival != failing) ∘
      served text results = fun client => client.arrival != failing := by
    funext client
    simp [served_arrival]
  rw [same]
  apply List.map_congr_left
  intro client member
  apply served_congr
  apply agree
  simpa using (List.mem_filter.mp member).2

theorem except_filter (failing : Nat) (keep : Client → Bool)
    (clients : List Client) :
    except failing (clients.filter keep) =
      (except failing clients).filter keep := by
  unfold except
  rw [List.filter_filter, List.filter_filter]
  simp only [Bool.and_comm]

theorem except_append (failing : Nat) (clients more : List Client) :
    except failing (clients ++ more) =
      except failing clients ++ except failing more :=
  List.filter_append _ _

/-- What `send` returns on one socket changes nothing for the others. -/
theorem SameBut.step {failing : Nat} {first second : Service}
    {action other : ServiceAction} {firstNext secondNext : Service}
    (same : SameBut failing first second) (agree : AgreeBut failing action other)
    (stepTo : serviceStep first action = some firstNext)
    (otherStepTo : serviceStep second other = some secondNext) :
    SameBut failing firstNext secondNext := by
  obtain ⟨run, arrived, vClient, departed⟩ := same
  cases agree with
  | arrive nSocket =>
      have joins : first.joining nSocket = second.joining nSocket := by
        simp only [Service.joining, run, arrived]
      rw [serviceStep_arrive stepTo, serviceStep_arrive otherStepTo]
      refine ⟨run, ?_, ?_, departed⟩
      · simp only [arrived]
      · simp only [except_append, vClient, joins]
  | message queued results others results_agree =>
      obtain ⟨stepRun, arrivedNext, departedNext, outcome⟩ :=
        serviceStep_message stepTo
      obtain ⟨otherRun, otherArrived, otherDeparted, otherOutcome⟩ :=
        serviceStep_message otherStepTo
      have runNext : firstNext.run = secondNext.run := by
        rw [run, otherRun, Option.some.injEq] at stepRun
        exact stepRun.symm
      refine ⟨runNext, ?_, ?_, ?_⟩
      · rw [arrivedNext, otherArrived, arrived]
      · rcases outcome with ⟨accepted, clients⟩ | ⟨text, accepted, clients⟩ <;>
          rcases otherOutcome with
            ⟨otherAccepted, otherClients⟩ | ⟨otherText, otherAccepted,
              otherClients⟩
        · rw [clients, otherClients, vClient]
        · rw [runNext, otherAccepted, run] at accepted
          simp at accepted
        · rw [runNext, otherAccepted, run] at accepted
          simp at accepted
        · rw [runNext, otherAccepted, run] at accepted
          have texts : otherText = text := by simpa using accepted
          rw [clients, otherClients, except_map_served failing text
            results_agree, vClient, texts, except_map_served failing text
            (fun _ _ => rfl)]
      · rw [departedNext, otherDeparted, departed]
  | sweep =>
      rw [serviceStep_sweep stepTo, serviceStep_sweep otherStepTo]
      refine ⟨run, arrived, ?_, ?_⟩
      · simp only [except_filter, vClient]
      · simp only [except_append, except_filter, departed, vClient]

theorem SameBut.mem_everyone_iff {failing : Nat} {first second : Service}
    (same : SameBut failing first second) {client : Client}
    (other : client.arrival ≠ failing) :
    client ∈ first.everyone ↔ client ∈ second.everyone := by
  have inside : ∀ clients : List Client,
      client ∈ clients ↔ client ∈ except failing clients := by
    intro clients
    simp [except, other]
  rw [Service.everyone, Service.everyone, List.mem_append, List.mem_append,
    inside first.vClient, inside first.departed, same.vClient, same.departed,
    ← inside, ← inside]

/-- For every list of arrivals, messages that fit and sweeps, and whatever the
`send` calls return: the service takes all of them; the accepted texts are
texts of the messages, in order; the socket of each client has taken a prefix
of the texts accepted since it joined, and all of them unless the client is
offline; an offline client keeps its record in every continuation; and other
results of `send` on one client's socket leave the records of all other
clients as they are. -/
theorem clientStreams_intact {actions : List ServiceAction}
    (short : ∀ queued results, ServiceAction.message queued results ∈ actions →
      queued.length < bufSize) :
    ∃ service, execute serviceStep Service.start actions = some service ∧
      service.run.accepted.Sublist ((queuedMessages actions).map payload) ∧
      (service.everyone.map Client.arrival).Nodup ∧
      (∀ client ∈ service.everyone,
        client.wire <+:
          (service.run.accepted.drop client.joinedAt).flatten ∧
        (client.csClientStatus ≠ .offline → client.wire =
          (service.run.accepted.drop client.joinedAt).flatten)) ∧
      (∀ client ∈ service.everyone, client.csClientStatus = .offline →
        ∀ more later, execute serviceStep service more = some later →
          client ∈ later.everyone) ∧
      ∀ failing others later,
        List.Forall₂ (AgreeBut failing) actions others →
        execute serviceStep Service.start others = some later →
          ∀ client, client.arrival ≠ failing →
            (client ∈ service.everyone ↔ client ∈ later.everyone) := by
  obtain ⟨service, executed⟩ := exists_execute_service Service.start_valid
    actions fun queued results member => fits_of_lt (short queued results member)
  have valid := Service.valid_of_execute executed
  refine ⟨service, executed, ?_, valid.distinct, ?_, ?_, ?_⟩
  · have seen := seen_of_execute Service.start_valid executed
    have origin := valid.run.origin
    rwa [seen] at origin
  · intro client member
    have streams := valid.streams client member
    exact ⟨streams.isPrefix, streams.whole⟩
  · intro client member offline more later continued
    exact mem_everyone_of_execute valid continued member offline
  · intro failing others later agrees otherExecuted client other
    have same : SameBut failing service later := by
      apply related_of_execute _ agrees ⟨rfl, rfl, rfl, rfl⟩ executed
        otherExecuted
      intro first second action action' next next' related agree stepTo
        otherStepTo
      exact related.step agree stepTo otherStepTo
    exact same.mem_everyone_iff other

/-- One client, one tick, and a `send` that takes one byte at a time. -/
theorem clientStreams_intact_bytewise :
    ∃ service, execute serviceStep Service.start
        [.arrive 5, .message [55, 44, 56] fun _ _ => 1, .sweep] =
          some service ∧
      ∀ client ∈ service.everyone,
        client.wire <+:
          (service.run.accepted.drop client.joinedAt).flatten ∧
        (client.csClientStatus ≠ .offline → client.wire =
          (service.run.accepted.drop client.joinedAt).flatten) := by
  obtain ⟨service, executed, -, -, streams, -⟩ := clientStreams_intact
    (show ∀ queued results, ServiceAction.message queued results ∈
        [.arrive 5, .message [55, 44, 56] fun _ _ => 1, .sweep] →
          queued.length < bufSize by simp [bufSize])
  exact ⟨service, executed, streams⟩

end ArstQuote
