import ScopedStore.Client.FaultPlan
import ScopedStore.Client.Statistics
import ScopedStore.Operation
import ScopedStore.Options

/-!
# Clients

A client owns a catalog, the sessions started on it, its statistics and its fault plan. A session has
at most one open transaction, which buffers writes until it commits. An operation is called plainly
or with a session; `lock` decides whether the session serves.
-/

namespace ScopedStore

structure OpenTransaction where
  options : TransactionOptions := {}
  pending : Pending := ∅
deriving DecidableEq, Inhabited

structure Session where
  options : SessionOptions := {}
  ended : Bool := false
  transaction : Option OpenTransaction := none
deriving DecidableEq, Inhabited

inductive Caller where
  | plain
  | session (id : SessionId)
  /-- With a session that another client started. -/
  | stranger
deriving DecidableEq

/-- A store with its sessions. -/
structure Client where
  /-- Whether a write makes a missing collection. -/
  autoCreate : Bool := true
  catalog : Catalog := {}
  /-- The session of number `n` is at place `n - 1`. -/
  sessions : List Session := []
  stats : Statistics := {}
  faults : FaultPlan := {}
  /-- The seed of the next document identifier that is made. -/
  seed : Nat := 0
deriving DecidableEq, Inhabited

namespace Client

def session? (c : Client) (id : SessionId) : Option Session :=
  if id.number = 0 then none else c.sessions[id.number - 1]?

def setSession (c : Client) (id : SessionId) (s : Session) : Client :=
  { c with sessions := c.sessions.set (id.number - 1) s }

def countOperation (c : Client) (caller : Caller) : Client :=
  match caller with
  | .plain =>
    { c with stats := { c.stats with plainOperations := c.stats.plainOperations + 1 } }
  | _ =>
    { c with stats := { c.stats with sessionOperations := c.stats.sessionOperations + 1 } }

/-- The session that a caller names, unless it is another client's or has ended. -/
def lock (c : Client) : Caller → Except StoreError (Option (SessionId × Session))
  | .plain => .ok none
  | .stranger => .error (.invalidArgument .strangeSession)
  | .session id =>
    match c.session? id with
    | none => .error (.invalidArgument .strangeSession)
    | some s => if s.ended then .error (.sessionEnded id) else .ok (some (id, s))

/-- The session and the open transaction that a caller works in, if there is one. -/
def openTransaction (locked : Option (SessionId × Session)) :
    Option (SessionId × Session × OpenTransaction) :=
  locked.bind fun (id, s) => s.transaction.map fun t => (id, s, t)

/-- Whether a caller may give a command; some commands are refused in an open transaction. -/
def checkCommand (c : Client) (caller : Caller) (command : String) (inTransaction : Bool) :
    Except StoreError Unit := do
  let locked ← c.lock caller
  if (openTransaction locked).isSome && !inTransaction then .error (.notInTransaction command)

end Client

end ScopedStore
