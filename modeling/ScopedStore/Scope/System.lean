import ScopedStore.Client.Request
import ScopedStore.Scope.Transaction

/-!
# Systems

Everything that contexts, scopes, registries and facades refer to: clients, logical transactions,
registries, leases and enlistments, each in a table whose rows are named by their place, the seed of
all identifiers, a clock, the log that reporting participants write, and the journal of completions. A
row that was never added reads as a default row.
-/

namespace ScopedStore

/-- Whether, and how, a scope relates to the transaction of its parent context. -/
inductive ScopeOption where
  /-- Joins the parent's transaction, or starts one if there is none. -/
  | required
  /-- Starts a transaction of its own. -/
  | requiresNew
  /-- Runs without a transaction. -/
  | suppress
deriving DecidableEq

structure Scope where
  context : Context
  option : ScopeOption
  /-- Whether the scope started its transaction, and so completes it. -/
  owns : Bool
  completed : Bool := false
deriving DecidableEq

structure SessionRef where
  client : ClientKey
  id : SessionId
deriving DecidableEq, Inhabited

/-- A session bound to one logical transaction. Its store transaction is committed or aborted at
most once, and the session is ended at most once. -/
structure Lease where
  tx : TxKey := 0
  session : SessionRef := default
  completed : Bool := false
  disposed : Bool := false
deriving DecidableEq, Inhabited

/-- What an enlistment does when its transaction starts completing. -/
inductive OnCompletion where
  /-- Takes the transaction's slot out of a registry. -/
  | detach (registry : RegistryKey) (tx : TxKey)
  /-- Nothing but being counted. -/
  | count
deriving DecidableEq, Inhabited

structure Enlistment where
  lease : LeaseKey := 0
  onCompletion : OnCompletion := .count
  /-- How often it has unregistered. -/
  unregisterCalls : Nat := 0
  unregistered : Bool := false
deriving DecidableEq, Inhabited

/-- The place that a registry keeps for a transaction; it has no lease while one is created. -/
structure Slot where
  serial : Nat
  lease : Option LeaseKey := none
deriving DecidableEq

/-- The sessions of the transactions that use one client. -/
structure Registry where
  client : ClientKey := 0
  /-- A scope that is closed just before the first session is started, or else when nobody holds the
  registry any more. -/
  closing : Option Scope := none
  /-- How many facades, participants and others hold the registry. -/
  holders : Nat := 0
  slots : SortedMap TxKey Slot := ∅
  nextSerial : Nat := 0
deriving Inhabited

structure LeaseReport where
  session : SessionId
  tx : TxId
  inTransaction : Bool
  completed : Bool
  disposed : Bool
deriving DecidableEq

/-- What a participant sees when it calls back. -/
structure Observation where
  status : Option Status
  participants : Nat
  /-- The outcome of enlisting one more participant. -/
  enlist : Except TxError Unit
  /-- The outcome of asking its registry for a lease, if it has a registry. -/
  lease : Option (Except TxError LeaseReport)

inductive LogEntry where
  | notified (name : String) (phase : Phase)
  | observed (observation : Observation)
  /-- A registry closed its scope. -/
  | closed (outcome : Except TxError Unit)

/-- A step in the completion of a transaction. -/
inductive Milestone where
  /-- A participant was asked for a phase. -/
  | asked (p : Participant) (phase : Phase) (outcome : Except TxError Unit)
  | settled (status : Status)

/-- Clients and what coordinates transactions over them. -/
structure System where
  clients : List Client := []
  transactions : List Transaction := []
  registries : List Registry := []
  leases : List Lease := []
  enlistments : List Enlistment := []
  /-- The seed of the first transaction's identifier. -/
  seed : Nat := 0
  /-- The present second; no system is made on the first day of the clock. -/
  clock : Nat := 86400
  log : List LogEntry := []
  /-- The steps of all completions, in their order. -/
  journal : List (TxKey × Milestone) := []
deriving Inhabited

namespace System

/-! ## Tables -/

def client (sys : System) (key : ClientKey) : Client := sys.clients.getD key default

def txId (sys : System) (key : TxKey) : TxId := ⟨.ofSeed (sys.seed + key)⟩

def transaction (sys : System) (key : TxKey) : Transaction := sys.transactions.getD key default

def registry (sys : System) (key : RegistryKey) : Registry := sys.registries.getD key default

def lease (sys : System) (key : LeaseKey) : Lease := sys.leases.getD key default

def enlistment (sys : System) (key : EnlistmentKey) : Enlistment := sys.enlistments.getD key default

def setClient (sys : System) (key : ClientKey) (c : Client) : System :=
  { sys with clients := sys.clients.set key c }

def setTransaction (sys : System) (key : TxKey) (t : Transaction) : System :=
  { sys with transactions := sys.transactions.set key t }

def setRegistry (sys : System) (key : RegistryKey) (r : Registry) : System :=
  { sys with registries := sys.registries.set key r }

def setLease (sys : System) (key : LeaseKey) (l : Lease) : System :=
  { sys with leases := sys.leases.set key l }

def setEnlistment (sys : System) (key : EnlistmentKey) (e : Enlistment) : System :=
  { sys with enlistments := sys.enlistments.set key e }

/-- Adds a client; its document identifiers differ from those of every other client. -/
def addClient (sys : System) (autoCreate : Bool) : ClientKey × System :=
  let key := sys.clients.length
  let c : Client := { autoCreate := autoCreate, seed := sys.seed + (key + 1) <<< 62 }
  (key, { sys with clients := sys.clients ++ [c] })

def addRegistry (sys : System) (client : ClientKey) (closing : Option Scope) :
    RegistryKey × System :=
  (sys.registries.length,
    { sys with registries := sys.registries ++ [{ client := client, closing := closing }] })

def addTransaction (sys : System) (t : Transaction) : TxKey × System :=
  (sys.transactions.length, { sys with transactions := sys.transactions ++ [t] })

def addLease (sys : System) (l : Lease) : LeaseKey × System :=
  (sys.leases.length, { sys with leases := sys.leases ++ [l] })

def addEnlistment (sys : System) (lease : LeaseKey) (onCompletion : OnCompletion) :
    EnlistmentKey × System :=
  (sys.enlistments.length,
    { sys with
      enlistments := sys.enlistments ++ [{ lease := lease, onCompletion := onCompletion }] })

def report (sys : System) (entry : LogEntry) : System := { sys with log := sys.log ++ [entry] }

def record (sys : System) (key : TxKey) (m : Milestone) : System :=
  { sys with journal := sys.journal ++ [(key, m)] }

/-! ## Clients -/

/-- Lets a client act; its error is passed on. -/
def onClient {α : Type} (sys : System) (key : ClientKey)
    (act : Client → Except StoreError α × Client) : Except TxError α × System :=
  match act (sys.client key) with
  | (.ok a, c) => (.ok a, sys.setClient key c)
  | (.error e, c) => (.error (.store e), sys.setClient key c)

/-- The caller that a client sees: nobody, one of its sessions, or a session of another client. -/
def callerOn (client : ClientKey) : Option SessionRef → Caller
  | none => .plain
  | some s => if s.client = client then .session s.id else .stranger

def request (sys : System) (client : ClientKey) (session : Option SessionRef) (r : Request) :
    Except TxError Reply × System :=
  sys.onClient client fun c => c.perform (callerOn client session) r

def inTransaction (sys : System) (s : SessionRef) : Bool := (sys.client s.client).inTransaction s.id

/-! ## Holding registries -/

def hold (sys : System) (key : RegistryKey) : System :=
  let r := sys.registry key
  sys.setRegistry key { r with holders := r.holders + 1 }

/-- Counts a participant as a holder of its registry, if it has one. -/
def holdFor (sys : System) (p : Participant) : System := p.registryKey?.elim sys sys.hold

/-! ## Contexts -/

def statusOf (sys : System) (cx : Context) : Option Status :=
  cx.transaction.map fun key => (sys.transaction key).status

def participantCount (sys : System) (cx : Context) : Nat :=
  match cx.transaction with
  | none => 0
  | some key => (sys.transaction key).participants.length

def enlist (sys : System) (cx : Context) (p : Participant) : Except TxError Unit × System :=
  match cx.transaction with
  | none => (.error .noTransaction, sys)
  | some key =>
    let t := sys.transaction key
    match t.checkAccepting (sys.txId key) sys.clock with
    | .error e => (.error e, sys)
    | .ok () =>
      (.ok (), (sys.holdFor p).setTransaction key { t with participants := t.participants ++ [p] })

end System

end ScopedStore
