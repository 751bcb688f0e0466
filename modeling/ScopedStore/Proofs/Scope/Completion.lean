import ScopedStore.Proofs.Scope.Lease

/-!
# Closing a scope that was completed

The owner of a transaction that is under way commits it. Without participants nothing happens to any
client (`Unleased.close`); with a single lease, its session's commit decides, and the session is ended
(`Leased.close`).
-/

namespace ScopedStore

structure Scope.Commits (scope : Scope) (tx : TxKey) : Prop where
  transaction : scope.context.transaction = some tx
  owns : scope.owns = true
  completed : scope.completed = true

namespace System

variable {sys : System} {client : ClientKey} {registry : RegistryKey} {tx : TxKey} {deadline : Nat}

/-- Where nobody votes against it and every participant commits, a transaction is committed. -/
theorem commitTransaction_eq_ok {participants : List Participant}
    (h : sys.Underway tx deadline participants) (halive : sys.clock < deadline) (close : CloseScope)
    {prepared : System}
    (hprepare : prepareAll (acquireWith close) tx participants (sys.completing tx) =
      (false, prepared)) {n : Nat} {sys' : System}
    (hcommit : commitAll (acquireWith close) tx participants prepared = ((n, none), sys')) :
    sys.commitTransaction close tx =
      (.ok (), dismissAll close participants (sys'.settle tx .committed)) := by
  have hbegin : sys.beginCompletion tx = (.ok participants, sys.completing tx) := by
    unfold beginCompletion completing
    dsimp only
    rw [if_pos h.isOpen, h.participants]
  have hexpired :
      ((sys.completing tx).transaction tx).isExpired (sys.completing tx).clock = false := by
    unfold completing
    rw [transaction_setTransaction_self h.tx_lt]
    unfold Transaction.isExpired
    rw [h.deadline]
    exact decide_eq_false (Nat.not_le.2 halive)
  have hreason : (sys.completing tx).rollbackReason? (acquireWith close) tx none participants =
      (none, prepared) := by
    unfold rollbackReason?
    rw [hexpired, if_neg Bool.false_ne_true]
    dsimp only
    rw [hprepare]
    rfl
  unfold System.commitTransaction completeWith driveCommit
  rw [hbegin]
  dsimp only
  rw [h.doomed, hreason]
  dsimp only
  rw [hcommit]

theorem exists_close_eq {scope : Scope} (h : scope.Commits tx) (sys : System) :
    ∃ close, sys.close scope = sys.commitTransaction close tx := by
  have hwith (close : CloseScope) : closeWith close sys scope = sys.commitTransaction close tx := by
    unfold closeWith
    rw [h.transaction, h.owns, h.completed]
  unfold close
  cases sys.heldScopes with
  | zero => exact ⟨_, hwith _⟩
  | succ n => exact ⟨_, hwith _⟩

theorem Unleased.close (h : sys.Unleased client registry tx deadline) (halive : sys.clock < deadline)
    {scope : Scope} (hscope : scope.Commits tx) :
    (sys.close scope).1 = .ok () ∧ (sys.close scope).2.client client = sys.client client := by
  obtain ⟨close, hclose⟩ := exists_close_eq hscope sys
  rw [hclose, commitTransaction_eq_ok h.underway halive close rfl rfl]
  exact ⟨rfl, rfl⟩

/-! ## The participant of a lease -/

theorem unregister_frame (sys : System) (e : EnlistmentKey) :
    (sys.unregister e).clients = sys.clients ∧ (sys.unregister e).leases = sys.leases := by
  unfold unregister
  dsimp only
  split
  · exact ⟨rfl, rfl⟩
  · split <;> exact ⟨rfl, rfl⟩

theorem exists_notifyEnlistment_commit (sys : System) {lease : LeaseKey} {e : EnlistmentKey}
    {id : SessionId}
    (hclient : client < sys.clients.length) (hlease_lt : lease < sys.leases.length)
    (hlease : sys.lease lease = { tx := tx, session := ⟨client, id⟩ })
    (henlistment : (sys.enlistment e).lease = lease) {c : Client}
    (hcommit : (sys.client client).commitTransaction id = (.ok (), c)) :
    ∃ sys', sys.notifyEnlistment e .commit = (.ok (), sys') ∧
      sys'.client client = c.endSession id := by
  obtain ⟨hclients, hleases⟩ := sys.unregister_frame e
  let l : Lease := { tx := tx, session := ⟨client, id⟩, completed := true }
  let sys₁ := sys.unregister e
  let sys₂ := sys₁.setLease lease l
  let sys₃ := sys₂.setClient client c
  have hlease₁ : sys₁.lease lease = { tx := tx, session := ⟨client, id⟩ } := by
    unfold System.lease
    rw [hleases]
    exact hlease
  have hclient₂ : sys₂.client client = sys.client client := by
    show (sys.unregister e).clients.getD client default = sys.clients.getD client default
    rw [hclients]
  have hlease₃ : sys₃.lease lease = l := lease_setLease_self (by rwa [hleases]) l
  have hsettled : sys₁.commitLease lease = (.ok (), sys₃) := by
    unfold commitLease settleLease
    rw [hlease₁]
    dsimp only
    rw [if_neg Bool.false_ne_true]
    refine onClient_eq_ok ?_
    rw [hclient₂]
    exact hcommit
  have hlt₂ : client < sys₂.clients.length := by
    show client < (sys.unregister e).clients.length
    rwa [hclients]
  have hlt₃ : client < (sys₃.setLease lease { l with disposed := true }).clients.length := by
    show client < (sys₂.clients.set client c).length
    rwa [List.length_set]
  have hdisposed : sys₃.disposeLease lease =
      (sys₃.setLease lease { l with disposed := true }).setClient client
        ((sys₃.client client).endSession id) := by
    unfold disposeLease
    rw [hlease₃]
    rfl
  refine ⟨sys₃.disposeLease lease, ?_, ?_⟩
  · unfold notifyEnlistment
    dsimp only
    rw [henlistment, hsettled]
  · rw [hdisposed, client_setClient_self hlt₃, client_setClient_self hlt₂]

theorem Leased.close {id : SessionId} {lease : LeaseKey} {e : EnlistmentKey}
    (h : sys.Leased client registry tx deadline id lease e) (halive : sys.clock < deadline)
    {scope : Scope} (hscope : scope.Commits tx) {c : Client}
    (hcommit : (sys.client client).commitTransaction id = (.ok (), c)) :
    (sys.close scope).1 = .ok () ∧ (sys.close scope).2.client client = c.endSession id := by
  obtain ⟨close, hclose⟩ := exists_close_eq hscope sys
  let prepared := (sys.completing tx).record tx (.asked (.enlisted e) .prepare (.ok ()))
  have hcommit' : (prepared.client client).commitTransaction id = (.ok (), c) := hcommit
  obtain ⟨sys', hnotify, hclient⟩ := prepared.exists_notifyEnlistment_commit h.client_lt
    h.lease_lt h.lease_eq h.enlistment_eq hcommit'
  have hall : commitAll (acquireWith close) tx [.enlisted e] prepared =
      ((1, none), sys'.record tx (.asked (.enlisted e) .commit (.ok ()))) := by
    unfold commitAll ask notify
    dsimp only
    rw [hnotify]
    rfl
  rw [hclose, commitTransaction_eq_ok h.underway halive close rfl hall]
  exact ⟨rfl, hclient⟩

end System

end ScopedStore
