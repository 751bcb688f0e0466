import ScopedStore.Cbor.Decode
import ScopedStore.Error

/-!
# Pending writes

A transaction buffers its writes per namespace and identifier. A write says whether the identifier
was free when it was made: an insertion took a free one, a replacement and a deletion a taken one.
`record` merges the changes of one more operation into the buffer, so that each identifier has at
most one write; `overlay` shows documents as they are after the writes.
-/

namespace ScopedStore

abbrev Documents := SortedMap Value Document

/-- The document that stored bytes stand for. -/
def decodeStored (bytes : Bytes) : Except StoreError Document :=
  match Document.decode? bytes with
  | some d => .ok d
  | none => .error .undecodable

/-- A change to what is stored under one identifier; documents are kept as bytes. -/
inductive Write where
  /-- Stores a document under a free identifier. -/
  | insert (bytes : Bytes)
  /-- Stores a document in place of another. -/
  | replace (bytes : Bytes)
  /-- Removes a document. -/
  | delete
deriving DecidableEq

abbrev Changes := List (Value × Write)

/-- The buffered writes of one collection by identifier. -/
abbrev Writes := SortedMap Value Write

/-- The buffered writes of a transaction. -/
abbrev Pending := SortedMap Namespace Writes

namespace Write

def isDelete : Write → Bool
  | .delete => true
  | _ => false

/-- Whether the write takes a free identifier. -/
def isInsert : Write → Bool
  | .insert _ => true
  | _ => false

/-- The one write that stands for an earlier write and a later one of the same identifier. -/
def merge : Option Write → Write → Option Write
  | some (.insert _), .delete => none
  | some (.insert _), .replace bytes => some (.insert bytes)
  | some .delete, .insert bytes => some (.replace bytes)
  | _, write => some write

end Write

namespace Writes

def record (writes : Writes) (change : Value × Write) : Writes :=
  match Write.merge (writes.find? change.1) change.2 with
  | some write => writes.insert change.1 write
  | none => writes.erase change.1

/-- Shows documents as they are after some writes. -/
def overlayEntries : Changes → Documents → Except StoreError Documents
  | [], docs => .ok docs
  | (id, .insert bytes) :: rest, docs | (id, .replace bytes) :: rest, docs => do
    let d ← decodeStored bytes
    overlayEntries rest (docs.insert id d)
  | (id, .delete) :: rest, docs => overlayEntries rest (docs.erase id)

def overlay (writes : Writes) (docs : Documents) : Except StoreError Documents :=
  overlayEntries writes.entries docs

end Writes

namespace Pending

def writesOf (p : Pending) (ns : Namespace) : Writes := (p.find? ns).getD ∅

def record (p : Pending) (ns : Namespace) (changes : Changes) : Pending :=
  if changes.isEmpty then p else p.insert ns (changes.foldl Writes.record (p.writesOf ns))

def count (p : Pending) : Nat := p.values.foldr (fun writes n => writes.size + n) 0

end Pending

end ScopedStore
