import ScopedStore.Store.Collection

/-!
# The catalog

The committed state of a client: its databases, each with its collections. A database exists as long
as it has a collection. `commit` checks the buffered writes of a transaction against the committed
state and then applies them, collection by collection.
-/

namespace ScopedStore

/-- The collections of a database by name. -/
abbrev Database := SortedMap String Collection

structure Catalog where
  databases : SortedMap String Database := ∅
deriving DecidableEq, Inhabited

namespace Catalog

def collection? (cat : Catalog) (ns : Namespace) : Option Collection :=
  (cat.databases.find? ns.database).bind fun db => db.find? ns.collection

/-- The collections of a database; none when there is no such database. -/
def database (cat : Catalog) (name : String) : Database := (cat.databases.find? name).getD ∅

/-- Puts a collection in its place, and makes its database if there is none. -/
def put (cat : Catalog) (ns : Namespace) (c : Collection) : Catalog :=
  ⟨cat.databases.insert ns.database ((cat.database ns.database).insert ns.collection c)⟩

def databaseNames (cat : Catalog) : List String := cat.databases.keys

def collectionNames (cat : Catalog) (name : String) : List String := (cat.database name).keys

/-! ## Administration -/

def createCollection (cat : Catalog) (ns : Namespace) : Except StoreError Catalog :=
  if (cat.collection? ns).isSome then .error (.namespaceExists ns) else .ok (cat.put ns {})

/-- Removes a collection, and its database when that was the last one. -/
def dropCollection (cat : Catalog) (ns : Namespace) : Catalog :=
  match cat.databases.find? ns.database with
  | none => cat
  | some db =>
    let db := db.erase ns.collection
    if db.isEmpty then ⟨cat.databases.erase ns.database⟩
    else ⟨cat.databases.insert ns.database db⟩

def renameCollection (cat : Catalog) (source : Namespace) (name : String) :
    Except StoreError Catalog :=
  match cat.databases.find? source.database with
  | none => .error (.namespaceNotFound source)
  | some db =>
    if db.contains name then .error (.namespaceExists ⟨source.database, name⟩)
    else
      match db.find? source.collection with
      | none => .error (.namespaceNotFound source)
      | some c =>
        .ok ⟨cat.databases.insert source.database ((db.erase source.collection).insert name c)⟩

def dropDatabase (cat : Catalog) (name : String) : Catalog := ⟨cat.databases.erase name⟩

/-! ## Writing -/

/-- Applies changes to a collection; a missing collection is made if that is allowed. Without
changes nothing happens. -/
def applyChanges (cat : Catalog) (ns : Namespace) (changes : Changes) (create : Bool) :
    Except StoreError Catalog :=
  if changes.isEmpty then .ok cat
  else
    match cat.collection? ns with
    | some c => .ok (cat.put ns (changes.foldl Collection.applyChange c))
    | none =>
      if create then .ok (cat.put ns (changes.foldl Collection.applyChange {}))
      else .error (.namespaceNotFound ns)

/-- The first identifier that a write expects to be free and that is taken. -/
def takenId? (c : Collection) : Changes → Option Value
  | [] => none
  | (id, write) :: rest =>
    if write.isInsert && c.stored.contains id then some id else takenId? c rest

/-- Checks the buffered writes of one namespace against the committed state. -/
def checkWrites (cat : Catalog) (create : Bool) (ns : Namespace) (writes : Writes) :
    Except StoreError Unit :=
  match cat.collection? ns with
  | none =>
    if !create && !writes.isEmpty then .error (.namespaceNotFound ns) else .ok ()
  | some c =>
    match takenId? c writes.entries with
    | some id => .error (.duplicateKey ns Index.idName [id])
    | none =>
      if writes.values.all Write.isDelete then .ok ()
      else do
        let docs ← c.documents
        let docs ← writes.overlay docs
        checkUniqueIndexes ns c.indexes docs.values

def checkPending (cat : Catalog) (create : Bool) :
    List (Namespace × Writes) → Except StoreError Unit
  | [] => .ok ()
  | (ns, writes) :: rest => do
    cat.checkWrites create ns writes
    checkPending cat create rest

/-- Applies the buffered writes of every namespace in order, up to the first that fails. -/
def applyPending (cat : Catalog) (create : Bool) :
    List (Namespace × Writes) → Except StoreError Unit × Catalog
  | [] => (.ok (), cat)
  | (ns, writes) :: rest =>
    match cat.applyChanges ns writes.entries create with
    | .ok cat => applyPending cat create rest
    | .error e => (.error e, cat)

/-- Checks all buffered writes of a transaction and, if no check fails, applies them. -/
def commit (cat : Catalog) (create : Bool) (p : Pending) : Except StoreError Unit × Catalog :=
  match cat.checkPending create p.entries with
  | .error e => (.error e, cat)
  | .ok () => cat.applyPending create p.entries

end Catalog

end ScopedStore
