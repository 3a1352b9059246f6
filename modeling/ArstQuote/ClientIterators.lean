import ArstQuote.Clients
import ArstQuote.GuardedRuns
import Mathlib.Data.List.Nodup

/-!
# Two loops over a client vector that changes

The relay thread walks `m_vClient` to broadcast, the main thread walks it to
sweep, and the accept thread adds clients, while only `push_back` and `erase`
take the vector lock.  Every iteration step, push and erase is one step here.
An `erase` invalidates the iterators from the erased position on, the sweep's
own among them, and a `push_back` that reallocates invalidates all.
-/

namespace ArstQuote

open GuardedRuns

structure Iter where
  position : Nat
  valid : Bool
  deriving DecidableEq

/-- A broadcast under way: its text, its iterator, the arrivals that were in
the vector and not offline when it began, and those `SendAll` was called for,
in order. -/
structure Broadcasting where
  text : Bytes
  iter : Iter
  audience : List Nat
  sentTo : List Nat
  deriving DecidableEq

/-- A sweep under way; `erasing` once it has shut down the client at its
iterator and is about to call `EraseClientFromVector`. -/
structure Sweeping where
  iter : Iter
  erasing : Bool
  deriving DecidableEq

/-- The vector with its capacity, the number of arrivals, and the two loops.
`fault` records that an invalid iterator was used. -/
structure ClientVector where
  vClient : List Client
  capacity : Nat
  arrived : Nat
  broadcasting : Option Broadcasting
  sweeping : Option Sweeping
  fault : Bool
  deriving DecidableEq

def ClientVector.start : ClientVector :=
  ⟨[], 0, 0, none, none, false⟩

inductive ClientVectorAction
  | pushBack (nSocket : Int) (newCapacity : Nat)
  | beginBroadcast (text : Bytes)
  | broadcast (results : Nat → Int)
  | beginSweep
  | sweep
  | erase

def Iter.begin : Iter :=
  ⟨0, true⟩

def Iter.next (iter : Iter) : Iter :=
  { iter with position := iter.position + 1 }

def Iter.invalidate (iter : Iter) : Iter :=
  { iter with valid := false }

/-- The iterator once the element at a position is erased. -/
def Iter.afterErase (iter : Iter) (position : Nat) : Iter :=
  { iter with valid := iter.valid && iter.position < position }

def Broadcasting.onIter (change : Iter → Iter) (broadcasting : Broadcasting) :
    Broadcasting :=
  { broadcasting with iter := change broadcasting.iter }

def Sweeping.onIter (change : Iter → Iter) (sweeping : Sweeping) : Sweeping :=
  { sweeping with iter := change sweeping.iter }

/-- A change to the iterators of both loops. -/
def ClientVector.onIters (change : Iter → Iter) (vector : ClientVector) :
    ClientVector :=
  { vector with
    broadcasting := vector.broadcasting.map (Broadcasting.onIter change)
    sweeping := vector.sweeping.map (Sweeping.onIter change) }

/-- `PushBackClientToVector`; the vector picks its new capacity when it has to
grow. -/
def ClientVector.pushBack (vector : ClientVector) (nSocket : Int)
    (newCapacity : Nat) : Option ClientVector :=
  let pushed : ClientVector := { vector with
    vClient := vector.vClient ++ [⟨nSocket, .none, 1, vector.arrived, 0, [], 0⟩]
    arrived := vector.arrived + 1 }
  if vector.vClient.length < vector.capacity then some pushed
  else if vector.vClient.length < newCapacity then
    some (ClientVector.onIters Iter.invalidate
      { pushed with capacity := newCapacity })
  else none

/-- A broadcast at its first client. -/
def ClientVector.beginBroadcast (vector : ClientVector) (text : Bytes) :
    Broadcasting where
  text := text
  iter := Iter.begin
  audience :=
    (vector.vClient.filter (·.csClientStatus ≠ .offline)).map Client.arrival
  sentTo := []

/-- One iteration step of the broadcast loop. -/
def ClientVector.broadcastStep (vector : ClientVector)
    (broadcasting : Broadcasting) (results : Nat → Int) :
    Option ClientVector :=
  let iter := broadcasting.iter
  if iter.valid then
    match vector.vClient[iter.position]? with
    | none => some { vector with broadcasting := none }
    | some client =>
        (broadcastTo broadcasting.text results client).map fun (served, _) =>
          { vector with
            vClient := vector.vClient.set iter.position served
            broadcasting := some { broadcasting with
              iter := iter.next
              sentTo := broadcasting.sentTo ++
                if client.gone then [] else [client.arrival] } }
  else some { vector with fault := true }

/-- One iteration step of `CheckClientVector`, up to the call of
`EraseClientFromVector`. -/
def ClientVector.sweepStep (vector : ClientVector) (sweeping : Sweeping) :
    Option ClientVector :=
  let iter := sweeping.iter
  if iter.valid then
    match vector.vClient[iter.position]? with
    | none => some { vector with sweeping := none }
    | some client =>
        if client.gone then
          some { vector with sweeping := some ⟨iter, true⟩ }
        else some { vector with sweeping := some ⟨iter.next, false⟩ }
  else some { vector with fault := true }

/-- `EraseClientFromVector(iter)`.  The sweep goes on with the iterator it has
erased. -/
def ClientVector.erase (vector : ClientVector) (sweeping : Sweeping) :
    ClientVector :=
  let iter := sweeping.iter
  if iter.valid then
    ClientVector.onIters (·.afterErase iter.position) { vector with
      vClient := vector.vClient.eraseIdx iter.position
      sweeping := some ⟨iter, false⟩ }
  else { vector with fault := true }

/-- Nothing is said of what follows the use of an invalid iterator. -/
def clientVectorStep (vector : ClientVector) (action : ClientVectorAction) :
    Option ClientVector :=
  if vector.fault then none
  else
    match action, vector.broadcasting, vector.sweeping with
    | .pushBack nSocket newCapacity, _, _ =>
        vector.pushBack nSocket newCapacity
    | .beginBroadcast text, none, _ =>
        some { vector with broadcasting := some (vector.beginBroadcast text) }
    | .broadcast results, some broadcasting, _ =>
        vector.broadcastStep broadcasting results
    | .beginSweep, _, none =>
        some { vector with sweeping := some ⟨Iter.begin, false⟩ }
    | .sweep, _, some sweeping =>
        if sweeping.erasing then none else vector.sweepStep sweeping
    | .erase, _, some sweeping =>
        if sweeping.erasing then some (vector.erase sweeping) else none
    | _, _, _ => none

/-- When the broadcast loop is at `end()`, every client that was in the vector
and not offline from its begin to now has been served once. -/
def EachServedOnce (vector : ClientVector) : Prop :=
  ∀ broadcasting ∈ vector.broadcasting,
    broadcasting.iter = ⟨vector.vClient.length, true⟩ →
    ∀ client ∈ vector.vClient, client.csClientStatus ≠ .offline →
      client.arrival ∈ broadcasting.audience →
        broadcasting.sentTo.count client.arrival = 1

/-- The sweep meets no client to erase, and no client is added to a full vector
while a loop runs. -/
def Undisturbed (vector : ClientVector) : ClientVectorAction → Prop
  | .sweep => ∀ sweeping ∈ vector.sweeping,
      ∀ client ∈ vector.vClient[sweeping.iter.position]?, client.gone = false
  | .pushBack _ _ => vector.vClient.length < vector.capacity ∨
      vector.broadcasting = none ∧ vector.sweeping = none
  | .beginBroadcast _ => True
  | .broadcast _ => True
  | .beginSweep => True
  | .erase => True

/-- The broadcast has a valid iterator and has served the clients before it,
but for those that are offline. -/
structure Broadcasting.Valid (broadcasting : Broadcasting)
    (vClient : List Client) : Prop where
  valid : broadcasting.iter.valid = true
  inside : broadcasting.iter.position ≤ vClient.length
  passed : broadcasting.sentTo.Sublist
    ((vClient.take broadcasting.iter.position).map Client.arrival)
  all : ∀ client ∈ vClient.take broadcasting.iter.position,
    client.csClientStatus ≠ .offline → client.arrival ∈ broadcasting.sentTo

structure ClientVector.Valid (vector : ClientVector) : Prop where
  fault : vector.fault = false
  distinct : (vector.vClient.map Client.arrival).Nodup
  arrivals : ∀ client ∈ vector.vClient, client.arrival < vector.arrived
  broadcasting : ∀ broadcasting ∈ vector.broadcasting,
    broadcasting.Valid vector.vClient
  sweeping : ∀ sweeping ∈ vector.sweeping,
    sweeping.erasing = false ∧ sweeping.iter.valid = true

section Steps

variable {vector next : ClientVector}

theorem ClientVector.start_valid : ClientVector.start.Valid where
  fault := rfl
  distinct := List.nodup_nil
  arrivals := by simp [start]
  broadcasting := by simp [start]
  sweeping := by simp [start]

theorem ClientVector.Valid.eachServedOnce (valid : vector.Valid) :
    EachServedOnce vector := by
  intro broadcasting running atEnd client present online _
  have own := valid.broadcasting broadcasting running
  have whole : vector.vClient.take broadcasting.iter.position =
      vector.vClient := by
    rw [atEnd]
    exact List.take_length
  have served := own.all client (whole.symm ▸ present) online
  have once : broadcasting.sentTo.Nodup := by
    apply own.passed.nodup
    rw [whole]
    exact valid.distinct
  exact List.nodup_iff_count_eq_one.mp once client.arrival served

/-- A new client stands behind all iterators. -/
theorem Broadcasting.Valid.push {broadcasting : Broadcasting}
    {vClient : List Client} (valid : broadcasting.Valid vClient)
    (client : Client) : broadcasting.Valid (vClient ++ [client]) := by
  have same : (vClient ++ [client]).take broadcasting.iter.position =
      vClient.take broadcasting.iter.position :=
    List.take_append_of_le_length valid.inside
  refine ⟨valid.valid, ?_, ?_, ?_⟩
  · have inside := valid.inside
    simp
    omega
  · rw [same]
    exact valid.passed
  · rw [same]
    exact valid.all

theorem map_arrival_set {vClient : List Client} {position : Nat}
    {client changed : Client} (found : vClient[position]? = some client)
    (same : changed.arrival = client.arrival) :
    (vClient.set position changed).map Client.arrival =
      vClient.map Client.arrival := by
  obtain ⟨inside, rfl⟩ := List.getElem?_eq_some_iff.mp found
  rw [List.map_set, same]
  apply List.ext_getElem?
  intro index
  rw [List.getElem?_set]
  split
  case isTrue equal =>
    subst equal
    simp [inside]
  case isFalse => rfl

theorem take_succ_set {vClient : List Client} {position : Nat}
    {client : Client} (found : vClient[position]? = some client)
    (changed : Client) :
    (vClient.set position changed).take (position + 1) =
      vClient.take position ++ [changed] := by
  obtain ⟨inside, -⟩ := List.getElem?_eq_some_iff.mp found
  rw [List.take_add_one, List.take_set_of_le (le_refl position),
    List.getElem?_set_self inside, Option.toList_some]

/-- One more client is behind the iterator, and served unless it is gone. -/
theorem Broadcasting.Valid.serve {broadcasting : Broadcasting}
    {vClient : List Client} (valid : broadcasting.Valid vClient)
    {client : Client}
    (found : vClient[broadcasting.iter.position]? = some client)
    (results : Nat → Nat → Int) :
    Broadcasting.Valid
      { broadcasting with
        iter := broadcasting.iter.next
        sentTo := broadcasting.sentTo ++
          if client.gone then [] else [client.arrival] }
      (vClient.set broadcasting.iter.position
        (served broadcasting.text results client)) := by
  have passed := take_succ_set found (served broadcasting.text results client)
  obtain ⟨inside, -⟩ := List.getElem?_eq_some_iff.mp found
  refine ⟨valid.valid, ?_, ?_, ?_⟩
  · rw [List.length_set]
    exact inside
  · change List.Sublist _ (((vClient.set _ _).take (_ + 1)).map _)
    rw [passed, List.map_append, List.map_singleton, served_arrival]
    apply valid.passed.append
    split
    · exact List.nil_sublist _
    · exact List.Sublist.refl _
  · change ∀ other ∈ (vClient.set _ _).take (_ + 1), _
    rw [passed]
    intro other member online
    apply List.mem_append.mpr
    rcases List.mem_append.mp member with before | last
    · exact Or.inl (valid.all other before online)
    · right
      rw [List.mem_singleton.mp last] at online ⊢
      rw [served_arrival]
      cases gone : client.gone with
      | true =>
          rw [served_of_gone _ _ gone] at online
          exact absurd (Client.gone_iff.mp gone).1 online
      | false => simp

theorem ClientVector.Valid.broadcastStep (valid : vector.Valid)
    {broadcasting : Broadcasting}
    (running : vector.broadcasting = some broadcasting)
    {results : Nat → Int}
    (stepTo : vector.broadcastStep broadcasting results = some next) :
    next.Valid := by
  have own := valid.broadcasting broadcasting running
  simp only [ClientVector.broadcastStep, own.valid, if_true] at stepTo
  cases found : vector.vClient[broadcasting.iter.position]? with
  | none =>
      rw [found, Option.some.injEq] at stepTo
      subst stepTo
      exact ⟨valid.fault, valid.distinct, valid.arrivals, by simp,
        valid.sweeping⟩
  | some client =>
      obtain ⟨logged, sends⟩ :=
        exists_broadcastTo broadcasting.text (fun _ => results) client
      simp only [found, sends, Option.map_some, Option.some.injEq] at stepTo
      subst stepTo
      have same := map_arrival_set found
        (served_arrival broadcasting.text (fun _ => results) client)
      refine ⟨valid.fault, ?_, ?_, ?_, valid.sweeping⟩
      · rw [same]
        exact valid.distinct
      · intro other member
        have arrival : other.arrival ∈ vector.vClient.map Client.arrival := by
          rw [← same]
          exact List.mem_map_of_mem member
        obtain ⟨before, present, equal⟩ := List.mem_map.mp arrival
        rw [← equal]
        exact valid.arrivals before present
      · rintro _ ⟨⟩
        exact own.serve found _

theorem ClientVector.Valid.sweepStep (valid : vector.Valid)
    {sweeping : Sweeping} (running : vector.sweeping = some sweeping)
    (undisturbed : Undisturbed vector .sweep)
    (stepTo : vector.sweepStep sweeping = some next) : next.Valid := by
  have own := valid.sweeping sweeping running
  have replaced : ∀ sweeping', (∀ sweeping ∈ sweeping',
      sweeping.erasing = false ∧ sweeping.iter.valid = true) →
        ClientVector.Valid { vector with sweeping := sweeping' } :=
    fun sweeping' kept => ⟨valid.fault, valid.distinct, valid.arrivals,
      valid.broadcasting, kept⟩
  simp only [ClientVector.sweepStep, own.2, if_true] at stepTo
  cases found : vector.vClient[sweeping.iter.position]? with
  | none =>
      rw [found, Option.some.injEq] at stepTo
      subst stepTo
      exact replaced none (by simp)
  | some client =>
      have present := undisturbed sweeping running client found
      rw [found] at stepTo
      simp only [present, Bool.false_eq_true, if_false, Option.some.injEq]
        at stepTo
      subst stepTo
      apply replaced
      rintro _ ⟨⟩
      exact ⟨rfl, own.2⟩

theorem ClientVector.Valid.pushBack (valid : vector.Valid) {nSocket : Int}
    {newCapacity : Nat}
    (undisturbed : Undisturbed vector (.pushBack nSocket newCapacity))
    (stepTo : vector.pushBack nSocket newCapacity = some next) :
    next.Valid := by
  let client : Client := ⟨nSocket, .none, 1, vector.arrived, 0, [], 0⟩
  have distinct : ((vector.vClient ++ [client]).map Client.arrival).Nodup := by
    rw [List.map_append]
    apply valid.distinct.append (List.nodup_singleton _)
    rw [List.disjoint_singleton]
    intro member
    obtain ⟨earlier, present, same⟩ := List.mem_map.mp member
    have before := valid.arrivals earlier present
    rw [same] at before
    exact Nat.lt_irrefl _ before
  have arrivals : ∀ other ∈ vector.vClient ++ [client],
      other.arrival < vector.arrived + 1 := by
    intro other member
    rcases List.mem_append.mp member with before | last
    · exact Nat.lt_succ_of_lt (valid.arrivals other before)
    · rw [List.mem_singleton.mp last]
      exact Nat.lt_succ_self _
  unfold ClientVector.pushBack at stepTo
  split at stepTo
  case isTrue =>
    cases stepTo
    refine ⟨valid.fault, distinct, arrivals, ?_, valid.sweeping⟩
    intro broadcasting running
    exact (valid.broadcasting broadcasting running).push client
  case isFalse full =>
    split at stepTo
    case isFalse => cases stepTo
    case isTrue =>
      -- No loop runs, so there is no iterator to invalidate.
      obtain ⟨noBroadcast, noSweep⟩ := undisturbed.resolve_left full
      cases stepTo
      refine ⟨valid.fault, distinct, arrivals, ?_, ?_⟩
      · simp [ClientVector.onIters, noBroadcast]
      · simp [ClientVector.onIters, noSweep]

theorem ClientVector.Valid.step {action : ClientVectorAction}
    (valid : vector.Valid) (undisturbed : Undisturbed vector action)
    (stepTo : clientVectorStep vector action = some next) : next.Valid := by
  unfold clientVectorStep at stepTo
  rw [if_neg (by simp [valid.fault])] at stepTo
  split at stepTo
  · exact valid.pushBack undisturbed stepTo
  · cases stepTo
    refine ⟨valid.fault, valid.distinct, valid.arrivals, ?_, valid.sweeping⟩
    rintro _ ⟨⟩
    exact ⟨rfl, Nat.zero_le _, List.nil_sublist _, by
      simp [ClientVector.beginBroadcast, Iter.begin]⟩
  · next running => exact valid.broadcastStep running stepTo
  · cases stepTo
    refine ⟨valid.fault, valid.distinct, valid.arrivals, valid.broadcasting, ?_⟩
    rintro _ ⟨⟩
    exact ⟨rfl, rfl⟩
  · next running =>
      rw [(valid.sweeping _ running).1] at stepTo
      exact valid.sweepStep running undisturbed stepTo
  · next running =>
      rw [(valid.sweeping _ running).1] at stepTo
      cases stepTo
  · cases stepTo

end Steps

/-- In every run in which no sweep meets a client to erase and no client is
added to a full vector under a loop, no invalid iterator is used and every
broadcast serves each client that stays once. -/
theorem broadcast_serves_each_once {actions : List ClientVectorAction}
    (undisturbed : MeetsAlong clientVectorStep Undisturbed ClientVector.start
      actions) :
    HoldsAlong clientVectorStep
      (fun vector => vector.fault = false ∧ EachServedOnce vector)
      ClientVector.start actions := by
  apply holdsAlong_of_meetsAlong _ _ ClientVector.start_valid undisturbed
  · intro vector valid
    exact ⟨valid.fault, valid.eachServedOnce⟩
  · intro vector action next valid met stepTo
    exact valid.step met stepTo

instance (vector : ClientVector) :
    (action : ClientVectorAction) → Decidable (Undisturbed vector action)
  | .sweep => inferInstanceAs (Decidable (∀ _ ∈ _, ∀ _ ∈ _, _ = _))
  | .pushBack _ _ => inferInstanceAs (Decidable (_ < _ ∨ _ = _ ∧ _ = _))
  | .beginBroadcast _ => isTrue trivial
  | .broadcast _ => isTrue trivial
  | .beginSweep => isTrue trivial
  | .erase => isTrue trivial

instance : DecidablePred EachServedOnce := fun vector =>
  inferInstanceAs (Decidable (∀ _ ∈ vector.broadcasting, _ = _ →
    ∀ _ ∈ vector.vClient, _ ≠ _ → _ ∈ _ → _ = _))

/-- Two clients, and a third that arrives during a broadcast. -/
theorem broadcast_serves_each_once_growing :
    HoldsAlong clientVectorStep
      (fun vector => vector.fault = false ∧ EachServedOnce vector)
      ClientVector.start
      [.pushBack 5 1, .pushBack 6 4, .beginBroadcast [65],
        .broadcast fun _ => 1, .pushBack 7 0, .broadcast fun _ => 1,
        .broadcast fun _ => 1, .broadcast fun _ => 1] :=
  broadcast_serves_each_once (by decide)

/-- A client is lost during a broadcast; the next sweep erases it and goes on
with the erased iterator. -/
theorem sweep_uses_erased_iterator :
    ¬ HoldsAlong clientVectorStep
      (fun vector => vector.fault = false ∧ EachServedOnce vector)
      ClientVector.start
      [.pushBack 5 1, .beginBroadcast [65], .broadcast fun _ => -1,
        .broadcast fun _ => -1, .beginSweep, .sweep, .erase, .sweep] := by
  decide

end ArstQuote
