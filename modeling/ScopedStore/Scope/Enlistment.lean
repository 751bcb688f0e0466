import ScopedStore.Scope.System

/-!
# Leases and enlistments

A lease forwards the outcome of its logical transaction to its session: the first of commit and abort
reaches the store, later ones do nothing, and disposing ends the session once, which drops a store
transaction that is still open. The enlistment of a lease unregisters before the first outcome and
disposes of the lease after every one; being in doubt counts as rolling back.
-/

namespace ScopedStore

namespace System

/-! ## Leases -/

def admits (sys : System) (key : LeaseKey) : Bool := !(sys.lease key).completed

/-- Settles the store transaction of a lease, unless it is settled. -/
def settleLease (sys : System) (key : LeaseKey)
    (act : Client → SessionId → Except StoreError Unit × Client) : Except TxError Unit × System :=
  let l := sys.lease key
  if l.completed then (.ok (), sys)
  else
    (sys.setLease key { l with completed := true }).onClient l.session.client fun c =>
      act c l.session.id

def commitLease (sys : System) (key : LeaseKey) : Except TxError Unit × System :=
  sys.settleLease key Client.commitTransaction

def abortLease (sys : System) (key : LeaseKey) : Except TxError Unit × System :=
  sys.settleLease key Client.abortTransaction

def disposeLease (sys : System) (key : LeaseKey) : System :=
  let l := sys.lease key
  if l.disposed then sys
  else
    let sys := sys.setLease key { l with disposed := true }
    sys.setClient l.session.client ((sys.client l.session.client).endSession l.session.id)

def leaseReport (sys : System) (key : LeaseKey) : LeaseReport :=
  let l := sys.lease key
  { session := l.session.id
    tx := sys.txId l.tx
    inTransaction := sys.inTransaction l.session
    completed := l.completed
    disposed := l.disposed }

/-! ## Enlistments -/

/-- Takes the slot of a transaction out of a registry. -/
def detach (sys : System) (key : RegistryKey) (tx : TxKey) : System :=
  let r := sys.registry key
  sys.setRegistry key { r with slots := r.slots.erase tx }

def unregister (sys : System) (key : EnlistmentKey) : System :=
  let e := sys.enlistment key
  if e.unregistered then sys
  else
    let sys :=
      sys.setEnlistment key
        { e with unregistered := true, unregisterCalls := e.unregisterCalls + 1 }
    match e.onCompletion with
    | .detach r tx => sys.detach r tx
    | .count => sys

def notifyEnlistment (sys : System) (key : EnlistmentKey) (phase : Phase) :
    Except TxError Unit × System :=
  let lease := (sys.enlistment key).lease
  match phase with
  | .prepare => (.ok (), sys)
  | .commit =>
    let (outcome, sys) := (sys.unregister key).commitLease lease
    (outcome, sys.disposeLease lease)
  | .rollback | .inDoubt =>
    let (outcome, sys) := (sys.unregister key).abortLease lease
    (outcome, sys.disposeLease lease)

end System

end ScopedStore
