import ScopedStore.Store.View
import ScopedStore.Update

/-!
# Document operations

Every operation on documents works on a view of one collection: it gives a reply and the view after
it, or fails and leaves no view. A handle may narrow a collection by a filter; searches, updates,
replacements and deletions then reach only the documents that this filter accepts too, while
insertions are free.
-/

namespace ScopedStore

/-- Which form of a changed document is returned. -/
inductive Returned where
  | before
  | after
deriving DecidableEq

/-- How one document is found, changed and returned. -/
structure ModifyOptions where
  /-- Decides which of several documents is taken. -/
  sort : List SortKey := []
  /-- Inserts a document when none is found. -/
  upsert : Bool := false
  returned : Returned := .before
deriving DecidableEq

inductive WriteModel where
  | insertOne (document : Document)
  | updateOne (filter : Filter) (update : Update) (upsert : Bool)
  | updateMany (filter : Filter) (update : Update) (upsert : Bool)
  | replaceOne (filter : Filter) (replacement : Document) (upsert : Bool)
  | deleteOne (filter : Filter)
  | deleteMany (filter : Filter)

inductive DocumentOp where
  | insertOne (document : Document)
  | insertMany (documents : List Document)
  | findOne (filter : Filter) (options : FindOptions)
  | find (filter : Filter) (options : FindOptions)
  | count (filter : Filter)
  | distinct (field : String) (filter : Filter)
  | replaceOne (filter : Filter) (replacement : Document) (upsert : Bool)
  | updateOne (filter : Filter) (update : Update) (upsert : Bool)
  | updateMany (filter : Filter) (update : Update) (upsert : Bool)
  | deleteOne (filter : Filter)
  | deleteMany (filter : Filter)
  | findOneAndUpdate (filter : Filter) (update : Update) (options : ModifyOptions)
  | findOneAndReplace (filter : Filter) (replacement : Document) (options : ModifyOptions)
  | findOneAndDelete (filter : Filter) (options : ModifyOptions)
  | aggregate (stages : List Stage)
  | bulkWrite (models : List WriteModel)

structure UpdateReply where
  matched : Nat := 0
  modified : Nat := 0
  upsertedId : Option Value := none
deriving DecidableEq, Inhabited

structure BulkReply where
  inserted : Nat := 0
  matched : Nat := 0
  modified : Nat := 0
  deleted : Nat := 0
  upsertedIds : List Value := []
deriving DecidableEq, Inhabited

def BulkReply.addUpdate (b : BulkReply) (u : UpdateReply) : BulkReply :=
  { b with
    matched := b.matched + u.matched
    modified := b.modified + u.modified
    upsertedIds := b.upsertedIds ++ u.upsertedId.toList }

inductive Reply where
  | id (id : Value)
  | ids (ids : List Value)
  | document (document : Option Document)
  | documents (documents : List Document)
  | count (n : Nat)
  | values (values : List Value)
  | updated (reply : UpdateReply)
  | deleted (n : Nat)
  | bulk (reply : BulkReply)
  | name (name : String)
  | names (names : List String)
  | indexes (indexes : List Index)
  | done
deriving DecidableEq

/-! ## Searching -/

def Document.storedId (d : Document) : Except StoreError Value :=
  match d.id? with
  | some id => .ok id
  | none => .error (.invalidArgument .storedWithoutId)

namespace View

/-- The documents that a filter accepts, in the order of their identifiers. -/
def matching (v : View) (f : Filter) : List Document := v.documents.filter f.accepts

/-- The first of the documents that a filter accepts, in a sorted order. -/
def first? (v : View) (f : Filter) (sort : List SortKey) : Option Document :=
  (sortDocuments sort (v.matching f)).head?

def document? (v : View) (id : Value) : Option Document :=
  v.documents.find? fun d => d.id? = some id

/-- The values that one document contributes to the distinct values of a field. -/
def fieldValues (field : String) (d : Document) : List Value :=
  match d.getPath? field with
  | some (.array items) => items
  | some v => [v]
  | none => []

/-- The different values of a field among documents, in order. -/
def distinctValues (field : String) (docs : List Document) : List Value :=
  (SortedMap.ofList ((docs.flatMap (fieldValues field)).map fun v => (v, ()))).keys

/-! ## Writing -/

def insertEach : List Document → View → Except StoreError (List Value × View)
  | [], v => .ok ([], v)
  | d :: rest, v => do
    let (id, v) ← v.insert d
    let (ids, v) ← insertEach rest v
    return (id :: ids, v)

/-- Updates documents one after the other and counts those that changed. -/
def updateEach (u : Update) : List Document → View → Except StoreError (Nat × View)
  | [], v => .ok (0, v)
  | old :: rest, v => do
    let new ← u.apply old
    if new = old then updateEach u rest v
    else
      let id ← old.storedId
      let v ← v.replace id new
      let (n, v) ← updateEach u rest v
      return (n + 1, v)

/-- Updates the documents that a filter accepts, or the first of them only. Without such a document
an upsert inserts the updated seed of the filter. -/
def update (v : View) (f : Filter) (u : Update) (upsert multi : Bool) :
    Except StoreError (UpdateReply × View) := do
  u.check
  let targets := if multi then v.matching f else (v.matching f).take 1
  if targets.isEmpty && upsert then
    let d ← u.apply f.seed
    let (id, v) ← v.insert d
    return ({ upsertedId := some id }, v)
  else
    let (n, v) ← updateEach u targets v
    return ({ matched := targets.length, modified := n }, v)

/-- The document that an upsert inserts for a replacement: it takes its identifier from the filter
when it has none. -/
def upsertedReplacement (f : Filter) (replacement : Document) : Document :=
  if replacement.id?.isSome then replacement
  else
    match f.seed.id? with
    | some id => replacement.insert Document.idField id
    | none => replacement

def replaceFirst (v : View) (f : Filter) (replacement : Document) (upsert : Bool) :
    Except StoreError (UpdateReply × View) :=
  match (v.matching f).head? with
  | none =>
    if upsert then do
      let (id, v) ← v.insert (upsertedReplacement f replacement)
      return ({ upsertedId := some id }, v)
    else .ok ({}, v)
  | some old => do
    let id ← old.storedId
    let v ← v.replace id replacement
    let changed := v.document? id ≠ some old
    return ({ matched := 1, modified := if changed then 1 else 0 }, v)

/-- Deletes documents one after the other and counts those that were there. -/
def deleteEach : List Value → View → Nat × View
  | [], v => (0, v)
  | id :: rest, v =>
    let (n, after) := deleteEach rest (v.delete id)
    (if v.docs.contains id then n + 1 else n, after)

def deleteMatching (v : View) (f : Filter) (multi : Bool) : Nat × View :=
  let ids := (v.matching f).filterMap Document.id?
  deleteEach (if multi then ids else ids.take 1) v

/-! ## Finding and changing one document -/

/-- Inserts a document and returns it if the later form is asked for. -/
def insertReturning (v : View) (d : Document) (returned : Returned) :
    Except StoreError (Option Document × View) := do
  let (id, v) ← v.insert d
  match returned with
  | .before => return (none, v)
  | .after => return (v.document? id, v)

def modifyFirst (v : View) (f : Filter) (u : Update) (o : ModifyOptions) :
    Except StoreError (Option Document × View) :=
  match v.first? f o.sort with
  | none =>
    if o.upsert then do
      let d ← u.apply f.seed
      v.insertReturning d o.returned
    else .ok (none, v)
  | some old => do
    let new ← u.apply old
    let id ← old.storedId
    let v ← if new = old then pure v else v.replace id new
    return (some (match o.returned with | .before => old | .after => new), v)

def exchangeFirst (v : View) (f : Filter) (replacement : Document) (o : ModifyOptions) :
    Except StoreError (Option Document × View) :=
  match v.first? f o.sort with
  | none =>
    if o.upsert then v.insertReturning (upsertedReplacement f replacement) o.returned
    else .ok (none, v)
  | some old => do
    let id ← old.storedId
    let v ← v.replace id replacement
    match o.returned with
    | .before => return (some old, v)
    | .after => return (some ((v.document? id).getD old), v)

def removeFirst (v : View) (f : Filter) (o : ModifyOptions) :
    Except StoreError (Option Document × View) :=
  match v.first? f o.sort with
  | none => .ok (none, v)
  | some old => do
    let id ← old.storedId
    return (v.docs.find? id, v.delete id)

/-! ## Batches -/

/-- Carries out one write of a batch on a handle that is narrowed by a filter. -/
def writeModel (narrow : Filter) (b : BulkReply) (v : View) :
    WriteModel → Except StoreError (BulkReply × View)
  | .insertOne d => do
    let (_, v) ← v.insert d
    return ({ b with inserted := b.inserted + 1 }, v)
  | .updateOne f u upsert => do
    let (r, v) ← v.update (narrow.and f) u upsert false
    return (b.addUpdate r, v)
  | .updateMany f u upsert => do
    let (r, v) ← v.update (narrow.and f) u upsert true
    return (b.addUpdate r, v)
  | .replaceOne f d upsert => do
    let (r, v) ← v.replaceFirst (narrow.and f) d upsert
    return (b.addUpdate r, v)
  | .deleteOne f =>
    let (n, v) := v.deleteMatching (narrow.and f) false
    .ok ({ b with deleted := b.deleted + n }, v)
  | .deleteMany f =>
    let (n, v) := v.deleteMatching (narrow.and f) true
    .ok ({ b with deleted := b.deleted + n }, v)

def writeModels (narrow : Filter) : List WriteModel → BulkReply → View →
    Except StoreError (BulkReply × View)
  | [], b, v => .ok (b, v)
  | m :: rest, b, v => do
    let (b, v) ← writeModel narrow b v m
    writeModels narrow rest b v

end View

/-! ## Operations -/

namespace DocumentOp

/-- What is refused before the collection is looked at. -/
def check : DocumentOp → Except StoreError Unit
  | .findOneAndUpdate _ u _ => u.check
  | _ => .ok ()

/-- Carries out an operation on a view, narrowed by the filter of the handle. -/
def run (narrow : Filter) (v : View) : DocumentOp → Except StoreError (Reply × View)
  | .insertOne d => do
    let (id, v) ← v.insert d
    return (.id id, v)
  | .insertMany docs => do
    let (ids, v) ← View.insertEach docs v
    return (.ids ids, v)
  | .findOne f o =>
    .ok (.document ({ o with limit := some 1 }.shape (v.matching (narrow.and f))).head?, v)
  | .find f o => .ok (.documents (o.shape (v.matching (narrow.and f))), v)
  | .count f => .ok (.count (v.matching (narrow.and f)).length, v)
  | .distinct field f =>
    .ok (.values (View.distinctValues field (v.matching (narrow.and f))), v)
  | .replaceOne f d upsert => do
    let (r, v) ← v.replaceFirst (narrow.and f) d upsert
    return (.updated r, v)
  | .updateOne f u upsert => do
    let (r, v) ← v.update (narrow.and f) u upsert false
    return (.updated r, v)
  | .updateMany f u upsert => do
    let (r, v) ← v.update (narrow.and f) u upsert true
    return (.updated r, v)
  | .deleteOne f =>
    let (n, v) := v.deleteMatching (narrow.and f) false
    .ok (.deleted n, v)
  | .deleteMany f =>
    let (n, v) := v.deleteMatching (narrow.and f) true
    .ok (.deleted n, v)
  | .findOneAndUpdate f u o => do
    let (d, v) ← v.modifyFirst (narrow.and f) u o
    return (.document d, v)
  | .findOneAndReplace f d o => do
    let (d, v) ← v.exchangeFirst (narrow.and f) d o
    return (.document d, v)
  | .findOneAndDelete f o => do
    let (d, v) ← v.removeFirst (narrow.and f) o
    return (.document d, v)
  | .aggregate stages => .ok (.documents (runPipeline stages (v.matching narrow)), v)
  | .bulkWrite models => do
    let (b, v) ← View.writeModels narrow models {} v
    return (.bulk b, v)

end DocumentOp

end ScopedStore
