import ScopedStore.Scope.Facade
import ScopedStore.Snapshot

/-!
# Fixtures

A fixture is a client with a facade of its own and a root context, and what tests ask of it: how many
documents are committed, whether a lease or session is left, what a collection holds. Contents are
read plainly, so they show committed documents only, in the order of their identifiers.
-/

namespace ScopedStore

namespace System

/-! ## Committed contents -/

/-- A collection of one of the clients, seen through a handle. -/
structure CollectionRef where
  client : ClientKey
  handle : Handle

/-- The committed documents of a collection in the order of their identifiers. -/
def committedDocuments (sys : System) (c : CollectionRef) : Except TxError (List Document) × System :=
  let options : FindOptions := { sort := [(Document.idField, .ascending)] }
  match sys.request c.client none (.documents c.handle (.find .all options)) with
  | (.ok (.documents docs), sys) => (.ok docs, sys)
  | (.ok _, sys) => (.ok [], sys)
  | (.error e, sys) => (.error e, sys)

def snapshotOf (sys : System) (c : CollectionRef) : Except TxError String × System :=
  match sys.committedDocuments c with
  | (.ok docs, sys) => (.ok (Snapshot.render docs), sys)
  | (.error e, sys) => (.error e, sys)

/-- Whether two collections can be read and hold the same committed documents. If they differ, both
are read once more for the report of the difference. -/
def sameContentsOf (sys : System) (a b : CollectionRef) : Bool × System :=
  match sys.committedDocuments a with
  | (.error _, sys) => (false, sys)
  | (.ok left, sys) =>
    match sys.committedDocuments b with
    | (.error _, sys) => (false, sys)
    | (.ok right, sys) =>
      if left = right then (true, sys)
      else
        let (_, sys) := sys.snapshotOf a
        let (_, sys) := sys.snapshotOf b
        (false, sys)

def snapshot (sys : System) (client : ClientKey) (ns : Namespace) :
    Except TxError String × System :=
  sys.snapshotOf ⟨client, { ns := ns }⟩

def sameContents (sys : System) (client : ClientKey) (a b : Namespace) : Bool × System :=
  sys.sameContentsOf ⟨client, { ns := a }⟩ ⟨client, { ns := b }⟩

end System

/-! ## Everything -/

/-- A reading of a system, which may fail. -/
abbrev Reading := ExceptT TxError (StateM System)

namespace Reading

def plainly (client : ClientKey) (r : Request) : Reading Reply :=
  ExceptT.mk fun sys => sys.request client none r

def listNames (client : ClientKey) (r : Request) : Reading (List String) := do
  match ← plainly client r with
  | .names names => return names
  | _ => return []

/-- The committed documents of a collection and its indexes. -/
def collectionContents (client : ClientKey) (ns : Namespace) :
    Reading (List Document × List Index) := do
  let docs ← plainly client (.documents { ns := ns } (.find .all {}))
  let indexes ← plainly client (.listIndexes ns)
  match docs, indexes with
  | .documents docs, .indexes indexes => return (docs, indexes)
  | _, _ => return ([], [])

def contents (client : ClientKey) :
    Reading (List (String × List (String × List Document × List Index))) := do
  let databases ← listNames client .listDatabases
  databases.mapM fun database => do
    let collections ← listNames client (.listCollections database)
    let contents ← collections.mapM fun name => do
      return (name, ← collectionContents client ⟨database, name⟩)
    return (database, contents)

end Reading

/-! ## Fixtures -/

/-- A client with a registry of its own and a context without a transaction. -/
structure Fixture where
  client : ClientKey
  registry : RegistryKey
  root : Context

namespace Fixture

def add (sys : System) (autoCreate : Bool) (config : Config) : Fixture × System :=
  let (client, sys) := sys.addClient autoCreate
  let (registry, sys) := sys.addRegistry client none
  ({ client := client, registry := registry, root := { config := config } }, sys)

def binding (f : Fixture) : Binding := .byRegistry f.registry

def seedDocument (n : Nat) : Document :=
  SortedMap.ofList [(Document.idField, .ofInt n), ("balance", .ofInt 100)]

/-- Adds a fixture whose collection holds that many numbered documents. -/
def addSeeded (sys : System) (ns : Namespace) (count : Nat) : Fixture × System :=
  let (f, sys) := add sys true {}
  let docs := (List.range count).map seedDocument
  let (_, sys) := sys.request f.client none (.documents { ns := ns } (.insertMany docs))
  (f, sys)

def committedCount (f : Fixture) (sys : System) (ns : Namespace) : Except TxError Nat × System :=
  match sys.request f.client none (.documents { ns := ns } (.count .all)) with
  | (.ok (.count n), sys) => (.ok n, sys)
  | (.ok _, sys) => (.ok 0, sys)
  | (.error e, sys) => (.error e, sys)

/-- Whether no lease is registered and every session has ended. -/
def hasNoLeaks (f : Fixture) (sys : System) : Bool :=
  sys.leaseCount f.registry = 0 && (sys.client f.client).stats.openSessions = 0

end Fixture

end ScopedStore
