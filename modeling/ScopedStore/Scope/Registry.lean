import ScopedStore.Scope.Enlistment

/-!
# Registries

A registry keeps one lease for each transaction that has used it. The first operation in a
transaction makes the lease: a session is started, its store transaction opened and the lease
enlisted; if one of these fails, the session is ended and no slot stays. Starting a session may close
a scope first, and so may the last holder that lets a registry go; what closing does is a parameter
here.
-/

namespace ScopedStore

abbrev CloseScope := System → Scope → Except TxError Unit × System

namespace System

/-- Closes the scope that a registry holds back, if there is one, and reports the outcome. -/
def closeHeldScope (close : CloseScope) (sys : System) (key : RegistryKey) : System :=
  let r := sys.registry key
  match r.closing with
  | none => sys
  | some scope =>
    let (outcome, sys) := close (sys.setRegistry key { r with closing := none }) scope
    sys.report (.closed outcome)

/-- Lets one holder of a registry go. With the last one goes the scope that the registry holds back:
it is closed, and nobody hears of the outcome. -/
def letGoWith (close : CloseScope) (sys : System) (key : RegistryKey) : System :=
  let r := sys.registry key
  let r := { r with holders := r.holders - 1 }
  match r.closing, r.holders with
  | some scope, 0 => (close (sys.setRegistry key { r with closing := none }) scope).2
  | _, _ => sys.setRegistry key r

def startRegistrySession (close : CloseScope) (sys : System) (key : RegistryKey)
    (options : SessionOptions) : Except TxError SessionRef × System :=
  let sys := sys.closeHeldScope close key
  let client := (sys.registry key).client
  match sys.onClient client fun c => c.startSession options with
  | (.ok id, sys) => (.ok ⟨client, id⟩, sys)
  | (.error e, sys) => (.error e, sys)

def endSession (sys : System) (s : SessionRef) : System :=
  sys.setClient s.client ((sys.client s.client).endSession s.id)

/-- Makes the lease of a transaction and enlists it. -/
def createLease (close : CloseScope) (sys : System) (key : RegistryKey) (cx : Context)
    (tx : TxKey) : Except TxError LeaseKey × System :=
  match (sys.transaction tx).checkAccepting (sys.txId tx) sys.clock with
  | .error e => (.error e, sys)
  | .ok () =>
    match sys.startRegistrySession close key cx.config.session with
    | (.error e, sys) => (.error e, sys)
    | (.ok session, sys) =>
      let options := (sys.transaction tx).options
      match sys.onClient session.client fun c => c.startTransaction session.id options with
      | (.error e, sys) => (.error e, sys.endSession session)
      | (.ok (), sys) =>
        let (lease, sys) := sys.addLease { tx := tx, session := session }
        let (enlistment, sys) := sys.addEnlistment lease (.detach key tx)
        match sys.enlist cx (.enlisted enlistment) with
        | (.ok (), sys) => (.ok lease, sys)
        | (.error e, sys) =>
          let (_, sys) := sys.abortLease lease
          (.error e, sys.disposeLease lease)

/-- The slot of a transaction in a registry, made if there is none. -/
def openSlot (sys : System) (key : RegistryKey) (tx : TxKey) : Slot × System :=
  let r := sys.registry key
  match r.slots.find? tx with
  | some slot => (slot, sys)
  | none =>
    let slot : Slot := { serial := r.nextSerial }
    (slot,
      sys.setRegistry key
        { r with slots := r.slots.insert tx slot, nextSerial := r.nextSerial + 1 })

/-- Puts a lease into its slot, if the slot is still there. -/
def fillSlot (sys : System) (key : RegistryKey) (tx : TxKey) (slot : Slot) (lease : LeaseKey) :
    System :=
  let r := sys.registry key
  if r.slots.find? tx = some slot then
    sys.setRegistry key { r with slots := r.slots.insert tx { slot with lease := some lease } }
  else sys

/-- Removes a slot for which no lease was made, if it is still there. -/
def releaseSlot (sys : System) (key : RegistryKey) (tx : TxKey) (slot : Slot) : System :=
  let r := sys.registry key
  if r.slots.find? tx = some slot then
    sys.setRegistry key { r with slots := r.slots.erase tx }
  else sys

/-- The lease, unless its transaction is settled. -/
def checkLease (sys : System) (tx : TxKey) (lease : LeaseKey) : Except TxError LeaseKey :=
  if (sys.lease lease).completed then .error (.notActive (sys.txId tx) (sys.transaction tx).status)
  else .ok lease

/-- The lease of a context's transaction, made at the first use. What closing a scope does on the way should
not ask for the lease that is being made: here the request makes another one for the same slot, where a
registry that makes each lease once would wait for itself. -/
def acquireWith (close : CloseScope) (sys : System) (key : RegistryKey) (cx : Context) :
    Except TxError LeaseKey × System :=
  match cx.transaction with
  | none => (.error .noTransaction, sys)
  | some tx =>
    let (slot, sys) := sys.openSlot key tx
    match slot.lease with
    | some lease => (sys.checkLease tx lease, sys)
    | none =>
      match sys.createLease close key cx tx with
      | (.ok lease, sys) =>
        let sys := sys.fillSlot key tx slot lease
        (sys.checkLease tx lease, sys)
      | (.error e, sys) => (.error e, sys.releaseSlot key tx slot)

/-! ## Looking up and removing -/

def lookup (sys : System) (key : RegistryKey) (tx : TxKey) : Option LeaseKey :=
  ((sys.registry key).slots.find? tx).bind Slot.lease

/-- Removes the slot of a transaction and disposes of its lease; says whether there was one. -/
def removeLease (sys : System) (key : RegistryKey) (tx : TxKey) : Bool × System :=
  match sys.lookup key tx with
  | some lease => (true, (sys.detach key tx).disposeLease lease)
  | none => (false, sys.detach key tx)

def leaseCount (sys : System) (key : RegistryKey) : Nat :=
  ((sys.registry key).slots.values.filter fun slot => slot.lease.isSome).length

end System

end ScopedStore
