import ScopedStore.Proofs.Scope.Acquisition

/-!
# The lease of a transaction

A transaction that is under way gets its lease from a registry at the first use: a session with an open
transaction, and an enlistment as the participant (`Unleased.acquire`). Later uses give the same lease
and change nothing (`Leased.acquire`).
-/

namespace ScopedStore

namespace System

variable {sys : System} {client : ClientKey} {registry : RegistryKey} {tx : TxKey} {deadline : Nat}

/-- The registry starts sessions on the client, holds back no scope, and keeps slots only for
transactions that have been started. -/
structure Serves (sys : System) (registry : RegistryKey) (client : ClientKey) : Prop where
  client_lt : client < sys.clients.length
  registry_lt : registry < sys.registries.length
  client_eq : (sys.registry registry).client = client
  closing : (sys.registry registry).closing = none
  started : ∀ tx slot, (sys.registry registry).slots.find? tx = some slot →
    tx < sys.transactions.length

/-- The transaction takes participants and may still commit. -/
structure Underway (sys : System) (tx : TxKey) (deadline : Nat) (participants : List Participant) :
    Prop where
  tx_lt : tx < sys.transactions.length
  isOpen : (sys.transaction tx).isOpen = true
  doomed : (sys.transaction tx).doomed = none
  deadline : (sys.transaction tx).deadline = deadline
  participants : (sys.transaction tx).participants = participants

/-- The transaction has not used the registry. -/
structure Unleased (sys : System) (client : ClientKey) (registry : RegistryKey) (tx : TxKey)
    (deadline : Nat) : Prop where
  serves : sys.Serves registry client
  underway : sys.Underway tx deadline []
  slot : (sys.registry registry).slots.find? tx = none

/-- The transaction has a lease of the registry, with a session of the client, and no other
participant. -/
structure Leased (sys : System) (client : ClientKey) (registry : RegistryKey) (tx : TxKey)
    (deadline : Nat) (id : SessionId) (lease : LeaseKey) (enlistment : EnlistmentKey) : Prop where
  client_lt : client < sys.clients.length
  underway : sys.Underway tx deadline [.enlisted enlistment]
  slot : ∃ slot, (sys.registry registry).slots.find? tx = some slot ∧ slot.lease = some lease
  lease_lt : lease < sys.leases.length
  lease_eq : sys.lease lease = { tx := tx, session := ⟨client, id⟩ }
  enlistment_eq : (sys.enlistment enlistment).lease = lease

theorem Underway.of_eq {sys' : System} {participants : List Participant}
    (h : sys.Underway tx deadline participants) (heq : sys'.transactions = sys.transactions) :
    sys'.Underway tx deadline participants := by
  have hrow : sys'.transaction tx = sys.transaction tx := by
    unfold System.transaction
    rw [heq]
  exact ⟨heq ▸ h.tx_lt, hrow ▸ h.isOpen, hrow ▸ h.doomed, hrow ▸ h.deadline, hrow ▸ h.participants⟩

theorem Underway.checkAccepting {participants : List Participant}
    (h : sys.Underway tx deadline participants) (halive : sys.clock < deadline) :
    (sys.transaction tx).checkAccepting (sys.txId tx) sys.clock = .ok () := by
  unfold Transaction.checkAccepting Transaction.isExpired
  rw [h.isOpen, h.deadline, decide_eq_false (Nat.not_le.2 halive)]
  rfl

theorem Underway.enlisted {participants : List Participant}
    (h : sys.Underway tx deadline participants) (registry : RegistryKey) (session : SessionRef)
    (c : Client) :
    (sys.enlisted registry tx session c).Underway tx deadline
      (participants ++ [.enlisted sys.enlistments.length]) := by
  have hrow : (sys.enlisted registry tx session c).transaction tx = { sys.transaction tx with
      participants := (sys.transaction tx).participants ++ [.enlisted sys.enlistments.length] } :=
    transaction_setTransaction_self h.tx_lt _
  refine ⟨?_, ?_, ?_, ?_, ?_⟩
  · show tx < (sys.transactions.set tx _).length
    rw [List.length_set]
    exact h.tx_lt
  · rw [hrow]
    exact h.isOpen
  · rw [hrow]
    exact h.doomed
  · rw [hrow]
    exact h.deadline
  · rw [hrow, ← h.participants]

/-! ## The first use -/

theorem Unleased.acquire (h : sys.Unleased client registry tx deadline)
    (halive : sys.clock < deadline) {cx : Context} (hcx : cx.transaction = some tx) {id : SessionId}
    {c₁ c₂ : Client} (hstart : (sys.client client).startSession cx.config.session = (.ok id, c₁))
    (hopen : c₁.startTransaction id (sys.transaction tx).options = (.ok (), c₂)) :
    ∃ sys' lease e, sys.acquire registry cx = (.ok lease, sys') ∧
      sys'.Leased client registry tx deadline id lease e ∧ sys'.client client = c₂ ∧
      sys'.clock = sys.clock := by
  obtain ⟨hserves, hunderway, hnone⟩ := h
  let r := withSlot (sys.registry registry) tx
  let sys₁ := sys.setRegistry registry r
  have hrow : sys₁.registry registry = r := registry_setRegistry_self hserves.registry_lt r
  have hregistry₁ : (sys₁.registry registry).client = client := by
    rw [hrow]
    exact hserves.client_eq
  have hclosing₁ : (sys₁.registry registry).closing = none := by
    rw [hrow]
    exact hserves.closing
  have hunderway₁ : sys₁.Underway tx deadline [] := hunderway.of_eq rfl
  have hclient₁ : client < sys₁.clients.length := hserves.client_lt
  have hcreate := createLease_of_opened hregistry₁ hclosing₁ (hunderway₁.checkAccepting halive)
    (closeWithin sys.heldScopes) hclient₁ hcx hstart hopen
  have hacquired := acquire_of_enlisted hserves.registry_lt hcx hnone hcreate
  let sys₂ := sys.enlisted registry tx ⟨client, id⟩ c₂
  have hunderway₂ : sys₂.Underway tx deadline [.enlisted sys.enlistments.length] :=
    hunderway.enlisted registry ⟨client, id⟩ c₂
  have hslot (r' : Registry) : (sys₂.setRegistry registry r').registry registry = r' :=
    registry_setRegistry_self hserves.registry_lt r'
  refine ⟨_, _, sys.enlistments.length, hacquired, ⟨?_, hunderway₂.of_eq rfl, ?_, ?_,
    lease_enlisted sys registry tx ⟨client, id⟩ c₂,
    enlistment_enlisted sys registry tx ⟨client, id⟩ c₂⟩, client_setClient_self hserves.client_lt c₂, rfl⟩
  · show client < (sys.clients.set client c₂).length
    rw [List.length_set]
    exact hserves.client_lt
  · rw [hslot]
    exact ⟨_, SortedMap.find?_insert_self _ _ _, rfl⟩
  · show sys.leases.length < (sys.leases ++ [_]).length
    rw [List.length_append]
    exact Nat.lt_succ_self _

/-! ## Later uses -/

namespace Leased

variable {id : SessionId} {lease : LeaseKey} {e : EnlistmentKey}

theorem acquire (h : sys.Leased client registry tx deadline id lease e) {cx : Context}
    (hcx : cx.transaction = some tx) : sys.acquire registry cx = (.ok lease, sys) := by
  obtain ⟨slot, hslot, hfilled⟩ := h.slot
  rw [acquire_of_held hcx hslot hfilled, checkLease_of_active (congrArg Lease.completed h.lease_eq)]

theorem setClient (h : sys.Leased client registry tx deadline id lease e) (c : Client) :
    (sys.setClient client c).Leased client registry tx deadline id lease e := by
  refine ⟨?_, h.underway.of_eq rfl, h.slot, h.lease_lt, h.lease_eq, h.enlistment_eq⟩
  rw [System.setClient, List.length_set]
  exact h.client_lt

end Leased

end System

end ScopedStore
