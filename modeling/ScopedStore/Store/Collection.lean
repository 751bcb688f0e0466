import ScopedStore.Index
import ScopedStore.Store.Pending

/-!
# Collections

A collection stores documents as bytes by identifier and lists its indexes, the one on the
identifying field first. A unique index is added only when the documents agree with it, those that
the caller's transaction has buffered included.
-/

namespace ScopedStore

structure Collection where
  stored : SortedMap Value Bytes := ∅
  indexes : List Index := [Index.onId]
deriving DecidableEq, Inhabited

def decodeEntries : List (Value × Bytes) → Except StoreError (List (Value × Document))
  | [] => .ok []
  | (id, bytes) :: rest => do
    let d ← decodeStored bytes
    let rest ← decodeEntries rest
    return (id, d) :: rest

namespace Collection

/-- The documents of a collection; fails if one does not decode. -/
def documents (c : Collection) : Except StoreError Documents :=
  (decodeEntries c.stored.entries).map SortedMap.mk

def applyChange (c : Collection) : Value × Write → Collection
  | (id, .insert bytes) | (id, .replace bytes) => { c with stored := c.stored.insert id bytes }
  | (id, .delete) => { c with stored := c.stored.erase id }

def index? (c : Collection) (name : String) : Option Index :=
  c.indexes.find? fun i => i.resolvedName == name

/-- Adds an index and gives its name; an equal index that is there already is enough. -/
def addIndex (c : Collection) (ns : Namespace) (i : Index) (writes : Writes) :
    Except StoreError (String × Collection) :=
  match c.index? i.resolvedName with
  | some found =>
    if found.keys = i.keys ∧ found.unique = i.unique then .ok (i.resolvedName, c)
    else .error (.invalidArgument (.indexDiffers i.resolvedName))
  | none => do
    let added : Index := { i with name := some i.resolvedName }
    if added.unique then
      let docs ← c.documents
      let docs ← writes.overlay docs
      checkUniqueIndexes ns [added] docs.values
    return (i.resolvedName, { c with indexes := c.indexes ++ [added] })

def removeIndex (c : Collection) (name : String) : Except StoreError Collection :=
  if name = Index.idName then .error (.invalidArgument .dropIdIndex)
  else if (c.index? name).isNone then .error (.indexNotFound name)
  else .ok { c with indexes := c.indexes.filter fun i => i.resolvedName != name }

end Collection

end ScopedStore
