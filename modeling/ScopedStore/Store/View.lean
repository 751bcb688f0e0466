import ScopedStore.Store.Catalog
import ScopedStore.Uuid

/-!
# Views

The documents that one operation sees and changes: the committed documents of a collection under the
buffered writes of a transaction. Insertions and replacements keep the unique indexes; `changes` is
the net effect, one write for each identifier that was touched.
-/

namespace ScopedStore

/-- The working copy of a collection for one operation. -/
structure View where
  ns : Namespace
  /-- The documents as they were loaded. -/
  base : Documents
  docs : Documents
  /-- The identifiers that were inserted, replaced or deleted. -/
  touched : SortedMap Value Unit := ∅
  indexes : List Index
  /-- The seed of the next identifier that is made. -/
  seed : Nat

namespace View

def load (cat : Catalog) (ns : Namespace) (writes : Writes) (seed : Nat) :
    Except StoreError View := do
  let c := (cat.collection? ns).getD {}
  let docs ← c.documents
  let docs ← writes.overlay docs
  return { ns := ns, base := docs, docs := docs, indexes := c.indexes, seed := seed }

def documents (v : View) : List Document := v.docs.values

/-- Whether another document than that of an identifier has a key. -/
def clashes (v : View) (i : Index) (id : Value) (key : List Value) : Bool :=
  v.docs.entries.any fun e => e.1 ≠ id && i.keyOf e.2 = key

/-- Fails if a document under an identifier would share the key of a unique index. -/
def checkUnique (v : View) (id : Value) (d : Document) : List Index → Except StoreError Unit
  | [] => .ok ()
  | i :: rest =>
    if i.isUniqueSecondary && v.clashes i id (i.keyOf d) then
      .error (.duplicateKey v.ns i.resolvedName (i.keyOf d))
    else v.checkUnique id d rest

def put (v : View) (id : Value) (d : Document) : View :=
  { v with docs := v.docs.insert id d, touched := v.touched.insert id () }

/-- The identifier of a document, the document with it, and the view after making one if needed. -/
def identify (v : View) (d : Document) : Value × Document × View :=
  match d.id? with
  | some id => (id, d, v)
  | none =>
    let id := Value.text (Uuid.ofSeed v.seed).display
    (id, d.insert Document.idField id, { v with seed := v.seed + 1 })

/-- Inserts a document, with a new identifier if it has none, and gives the identifier. -/
def insert (v : View) (d : Document) : Except StoreError (Value × View) :=
  let (id, d, v) := v.identify d
  if v.docs.contains id then .error (.duplicateKey v.ns Index.idName [id])
  else do
    v.checkUnique id d v.indexes
    return (id, v.put id d)

/-- Replaces the document under an identifier, which the new document keeps. -/
def replace (v : View) (id : Value) (d : Document) : Except StoreError View :=
  if d.id?.any (· ≠ id) then .error (.invalidUpdate .immutableId)
  else do
    let d := if d.id?.isSome then d else d.insert Document.idField id
    v.checkUnique id d v.indexes
    return v.put id d

def delete (v : View) (id : Value) : View :=
  if v.docs.contains id then
    { v with docs := v.docs.erase id, touched := v.touched.insert id () }
  else v

def change? (v : View) (id : Value) : Option Write :=
  match v.docs.find? id, v.base.contains id with
  | some d, true => some (.replace d.encode)
  | some d, false => some (.insert d.encode)
  | none, true => some .delete
  | none, false => none

/-- The net changes since the view was loaded. -/
def changes (v : View) : Changes :=
  v.touched.keys.filterMap fun id => (v.change? id).map fun write => (id, write)

end View

end ScopedStore
