import ScopedStore.Scope.Basic

/-!
# Facades

A facade carries out requests on a client with the session that its binding chooses for each call: a
pinned one always, or by a registry the lease of the context's transaction, and none where the
context has no transaction.
-/

namespace ScopedStore

/-- How a facade chooses the session of a call. -/
inductive Binding where
  | byRegistry (key : RegistryKey)
  | pinned (session : SessionRef)
deriving DecidableEq

namespace Binding

def pinnedSession : Binding → Except TxError SessionRef
  | .pinned s => .ok s
  | .byRegistry _ => .error .notPinned

/-- The registry, unless a session is pinned. -/
def registryKey? : Binding → Option RegistryKey
  | .byRegistry key => some key
  | .pinned _ => none

def isPinned : Binding → Bool
  | .pinned _ => true
  | .byRegistry _ => false

end Binding

/-- What a facade gives access to: a client, one of its databases, or a collection, of which filters may
hide a part. -/
inductive Reach where
  | client
  | database (name : String)
  | collection (handle : Handle)

/-- A way from what a facade gives access to towards a collection and parts of it. -/
inductive Reach.Step : Reach → Type where
  | database (name : String) : Step .client
  | collection {database : String} (name : String) : Step (.database database)
  | withFilter {handle : Handle} (f : Filter) : Step (.collection handle)

def Reach.Step.target : {reach : Reach} → reach.Step → Reach
  | _, .database name => .database name
  | .database parent, .collection name => .collection { ns := ⟨parent, name⟩ }
  | .collection handle, .withFilter f => .collection (handle.withFilter f)

/-- A call of a client, of a database or of a collection. -/
inductive Call : Reach → Type where
  | listDatabases : Call .client
  | dropDatabase (name : String) : Call .client
  | listCollections {database : String} : Call (.database database)
  | createCollection {database : String} (name : String) : Call (.database database)
  | dropCollection {database : String} (name : String) : Call (.database database)
  | renameCollection {database : String} (source name : String) : Call (.database database)
  /-- Drops the database itself. -/
  | dropSelf {database : String} : Call (.database database)
  | documents {handle : Handle} (op : DocumentOp) : Call (.collection handle)
  | createIndex {handle : Handle} (index : Index) : Call (.collection handle)
  | dropIndex {handle : Handle} (name : String) : Call (.collection handle)
  | listIndexes {handle : Handle} : Call (.collection handle)

def Call.request : {reach : Reach} → Call reach → Request
  | _, .listDatabases => .listDatabases
  | _, .dropDatabase name => .dropDatabase name
  | .database parent, .listCollections => .listCollections parent
  | .database parent, .createCollection name => .createCollection ⟨parent, name⟩
  | .database parent, .dropCollection name => .dropCollection ⟨parent, name⟩
  | .database parent, .renameCollection source name => .renameCollection ⟨parent, source⟩ name
  | .database name, .dropSelf => .dropDatabase name
  | .collection handle, .documents op => .documents handle op
  | .collection handle, .createIndex index => .createIndex handle.ns index
  | .collection handle, .dropIndex name => .dropIndex handle.ns name
  | .collection handle, .listIndexes => .listIndexes handle.ns

structure Facade where
  client : ClientKey
  binding : Binding
  reach : Reach := .client

def Facade.follow (f : Facade) (step : f.reach.Step) : Facade := { f with reach := step.target }

namespace System

/-- Makes a call with the session that a binding chooses in a context. -/
def dispatch {α : Type} (sys : System) (b : Binding) (cx : Context)
    (call : Option SessionRef → System → Except TxError α × System) : Except TxError α × System :=
  match b with
  | .pinned s => call (some s) sys
  | .byRegistry key =>
    match cx.transaction with
    | none => call none sys
    | some tx =>
      match sys.acquire key cx with
      | (.error e, sys) => (.error e, sys)
      | (.ok lease, sys) =>
        if sys.admits lease then call (some (sys.lease lease).session) sys
        else (.error (.notActive (sys.txId tx) (sys.transaction tx).status), sys)

def requestThrough (sys : System) (client : ClientKey) (b : Binding) (cx : Context) (r : Request) :
    Except TxError Reply × System :=
  sys.dispatch b cx fun session sys => sys.request client session r

def callThrough (sys : System) (f : Facade) (cx : Context) (c : Call f.reach) :
    Except TxError Reply × System :=
  sys.requestThrough f.client f.binding cx c.request

end System

end ScopedStore
