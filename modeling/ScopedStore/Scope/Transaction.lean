import ScopedStore.Error
import ScopedStore.Scope.Config
import ScopedStore.Uuid

/-!
# Logical transactions

A logical transaction is shared by every scope that joins it. It takes participants while it is
active and not completing; completing it drives all of them through its phases once and settles its
status. It can be doomed before, and then it only rolls back.
-/

namespace ScopedStore

/-- The place of a client among the clients of a system. -/
abbrev ClientKey := Nat

abbrev RegistryKey := Nat

abbrev TxKey := Nat

abbrev LeaseKey := Nat

abbrev EnlistmentKey := Nat

/-- The public identifier of a logical transaction. -/
structure TxId where
  uuid : Uuid
deriving DecidableEq, Inhabited

def TxId.display (id : TxId) : String := "ambient:" ++ id.uuid.display

/-- The outcome of a transaction, as far as it is settled. -/
inductive Status where
  | active
  | committed
  | aborted
  /-- A commit failed after others had succeeded. -/
  | inDoubt
deriving DecidableEq, Inhabited

def Status.display : Status → String
  | .active => "Active"
  | .committed => "Committed"
  | .aborted => "Aborted"
  | .inDoubt => "InDoubt"

/-! ## Errors -/

inductive TxError where
  | noTransaction
  | notActive (id : TxId) (status : Status)
  | aborted (id : TxId) (reason : String)
  | timeout (id : TxId)
  | notPinned
  | alreadyCompleted
  | inDoubt (id : TxId)
  /-- The store's error, passed on. -/
  | store (error : StoreError)
deriving DecidableEq

def TxError.message : TxError → String
  | .noTransaction => "no ambient transaction is active"
  | .notActive id status =>
    "transaction " ++ id.display ++ " is not active (status: " ++ status.display ++ ")"
  | .aborted id reason => "transaction " ++ id.display ++ " aborted: " ++ reason
  | .timeout id => "transaction " ++ id.display ++ " timed out"
  | .notPinned => "facade is not pinned to an explicit session"
  | .alreadyCompleted => "transaction scope already completed"
  | .inDoubt id => "transaction " ++ id.display ++ " outcome is in doubt"
  | .store e => e.message

/-! ## Contexts and participants -/

/-- What code runs in: the configuration and the transaction, if there is one. -/
structure Context where
  config : Config := {}
  transaction : Option TxKey := none
deriving DecidableEq, Inhabited

def Context.suppressed (cx : Context) : Context := { cx with transaction := none }

def Context.within (cx : Context) (key : TxKey) : Context := { cx with transaction := some key }

inductive Phase where
  | prepare
  | commit
  | rollback
  | inDoubt
deriving DecidableEq

def Phase.display : Phase → String
  | .prepare => "prepare"
  | .commit => "commit"
  | .rollback => "rollback"
  | .inDoubt => "in_doubt"

/-- The answer to `prepare`. -/
inductive Vote where
  | prepared
  /-- The whole transaction must roll back. -/
  | forceRollback
deriving DecidableEq

/-- A participant that reports what happens to it, may veto, may fail in some phases and may call
back into its context and a registry in some. -/
structure Probe where
  name : String
  veto : Bool := false
  failing : List Phase := []
  calling : List Phase := []
  context : Context
  registry : Option RegistryKey := none

inductive Participant where
  /-- The enlistment of a leased session. -/
  | enlisted (key : EnlistmentKey)
  | probe (probe : Probe)
  /-- Agrees to everything and does nothing. -/
  | idle

/-- The registry that a participant may call. -/
def Participant.registryKey? : Participant → Option RegistryKey
  | .probe p => p.registry
  | _ => none

def Participant.vote : Participant → Vote
  | .probe p => if p.veto then .forceRollback else .prepared
  | _ => .prepared

structure Transaction where
  options : TransactionOptions := {}
  /-- The instant from which it has expired. -/
  deadline : Nat := 0
  status : Status := .active
  completing : Bool := false
  /-- Why it may only roll back. -/
  doomed : Option String := none
  participants : List Participant := []
deriving Inhabited

namespace Transaction

def isExpired (t : Transaction) (now : Nat) : Bool := t.deadline ≤ now

/-- Whether the transaction takes part in no completion yet. -/
def isOpen (t : Transaction) : Bool := t.status = .active && !t.completing

/-- Refuses new work once the transaction completes or has expired. -/
def checkAccepting (t : Transaction) (id : TxId) (now : Nat) : Except TxError Unit :=
  if !t.isOpen then .error (.notActive id t.status)
  else if t.isExpired now then .error (.timeout id)
  else .ok ()

/-- Allows only a rollback from now on; the first reason stays. -/
def doom (t : Transaction) (reason : String) : Transaction :=
  { t with doomed := t.doomed.or (some reason) }

def settle (t : Transaction) (status : Status) : Transaction :=
  { t with status := status, completing := false }

end Transaction

end ScopedStore
