import ScopedStore.Client.Session

/-!
# Requests

Everything that a client can be asked to do with its catalog. An operation on documents runs on a
view: plainly, or with a session outside a transaction, its changes are applied at once; in a
transaction they are added to the buffered writes. Indexes and collections are administered in the
catalog directly, also by a session.
-/

namespace ScopedStore

/-- A handle on a collection, narrowed by a filter. -/
structure Handle where
  ns : Namespace
  narrow : Filter := .all

def Handle.withFilter (h : Handle) (f : Filter) : Handle := { h with narrow := h.narrow.and f }

inductive Request where
  | documents (handle : Handle) (op : DocumentOp)
  | createIndex (ns : Namespace) (index : Index)
  | dropIndex (ns : Namespace) (name : String)
  | listIndexes (ns : Namespace)
  | listDatabases
  | dropDatabase (name : String)
  | listCollections (database : String)
  | createCollection (ns : Namespace)
  | dropCollection (ns : Namespace)
  | renameCollection (source : Namespace) (name : String)

namespace Client

/-! ## Documents -/

def runOn (c : Client) (h : Handle) (writes : Writes) (op : DocumentOp) :
    Except StoreError (Reply × View) := do
  let v ← View.load c.catalog h.ns writes c.seed
  op.run h.narrow v

/-- Runs an operation and adds its changes to an open transaction. -/
def runBuffered (c : Client) (id : SessionId) (s : Session) (t : OpenTransaction) (h : Handle)
    (op : DocumentOp) : Except StoreError Reply × Client :=
  match c.runOn h (t.pending.writesOf h.ns) op with
  | .error e => (.error e, c)
  | .ok (reply, v) =>
    let c := { c with seed := v.seed }
    if !c.autoCreate && !v.changes.isEmpty && (c.catalog.collection? h.ns).isNone then
      (.error (.namespaceNotFound h.ns), c)
    else
      let t := { t with pending := t.pending.record h.ns v.changes }
      (.ok reply, c.setSession id { s with transaction := some t })

/-- Runs an operation and applies its changes at once. -/
def runDirect (c : Client) (h : Handle) (op : DocumentOp) : Except StoreError Reply × Client :=
  match c.runOn h ∅ op with
  | .error e => (.error e, c)
  | .ok (reply, v) =>
    let c := { c with seed := v.seed }
    match c.catalog.applyChanges h.ns v.changes c.autoCreate with
    | .ok catalog => (.ok reply, { c with catalog := catalog })
    | .error e => (.error e, c)

def runDocuments (c : Client) (caller : Caller) (h : Handle) (op : DocumentOp) :
    Except StoreError Reply × Client :=
  match op.check with
  | .error e => (.error e, c)
  | .ok () =>
    let c := c.countOperation caller
    match c.lock caller with
    | .error e => (.error e, c)
    | .ok locked =>
      match openTransaction locked with
      | some (id, s, t) => c.runBuffered id s t h op
      | none => c.runDirect h op

/-! ## Indexes -/

/-- Adds an index to a collection, which is made if it is missing. The writes that the caller's open
transaction has buffered count as documents. -/
def createIndex (c : Client) (caller : Caller) (ns : Namespace) (i : Index) :
    Except StoreError Reply × Client :=
  match c.lock caller with
  | .error e => (.error e, c)
  | .ok locked =>
    let c := c.countOperation caller
    if i.keys.isEmpty then (.error (.invalidArgument .noIndexKey), c)
    else
      let collection := (c.catalog.collection? ns).getD {}
      let c := { c with catalog := c.catalog.put ns collection }
      let writes :=
        match openTransaction locked with
        | some (_, _, t) => t.pending.writesOf ns
        | none => ∅
      match collection.addIndex ns i writes with
      | .error e => (.error e, c)
      | .ok (name, collection) =>
        (.ok (.name name), { c with catalog := c.catalog.put ns collection })

def dropIndex (c : Client) (ns : Namespace) (name : String) : Except StoreError Reply × Client :=
  match c.catalog.collection? ns with
  | none => (.error (.namespaceNotFound ns), c)
  | some collection =>
    match collection.removeIndex name with
    | .error e => (.error e, c)
    | .ok collection => (.ok .done, { c with catalog := c.catalog.put ns collection })

def listIndexes (c : Client) (ns : Namespace) : Except StoreError Reply :=
  match c.catalog.collection? ns with
  | none => .error (.namespaceNotFound ns)
  | some collection => .ok (.indexes collection.indexes)

/-! ## All requests -/

/-- Takes a changed catalog, or stays as it is when the change failed. -/
def takeCatalog (c : Client) : Except StoreError Catalog → Except StoreError Reply × Client
  | .ok catalog => (.ok .done, { c with catalog := catalog })
  | .error e => (.error e, c)

/-- Carries out a command if the caller may give it; only then the operation is counted. -/
def command (c : Client) (caller : Caller) (name : String) (inTransaction : Bool)
    (act : Client → Except StoreError Reply × Client) : Except StoreError Reply × Client :=
  match c.checkCommand caller name inTransaction with
  | .error e => (.error e, c)
  | .ok () => act (c.countOperation caller)

def perform (c : Client) (caller : Caller) : Request → Except StoreError Reply × Client
  | .documents h op => c.runDocuments caller h op
  | .createIndex ns i => c.createIndex caller ns i
  | .dropIndex ns name => c.command caller "dropIndexes" false fun c => c.dropIndex ns name
  | .listIndexes ns => c.command caller "listIndexes" true fun c => (c.listIndexes ns, c)
  | .listDatabases =>
    c.command caller "listDatabases" true fun c => (.ok (.names c.catalog.databaseNames), c)
  | .dropDatabase name =>
    c.command caller "dropDatabase" false fun c => c.takeCatalog (.ok (c.catalog.dropDatabase name))
  | .listCollections database =>
    c.command caller "listCollections" true fun c =>
      (.ok (.names (c.catalog.collectionNames database)), c)
  | .createCollection ns =>
    c.command caller "create" true fun c => c.takeCatalog (c.catalog.createCollection ns)
  | .dropCollection ns =>
    c.command caller "drop" false fun c => c.takeCatalog (.ok (c.catalog.dropCollection ns))
  | .renameCollection source name =>
    c.command caller "renameCollection" false fun c =>
      c.takeCatalog (c.catalog.renameCollection source name)

end Client

end ScopedStore
