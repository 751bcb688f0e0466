import ScopedStore.Query

/-!
# Indexes

An index lists the fields of its key. A unique index forbids two documents of a collection to have
the same key; every collection has the unique index `_id_` on the identifying field. An index that
is given no name is named by its fields and directions.
-/

namespace ScopedStore

structure Index where
  name : Option String := none
  keys : List SortKey
  unique : Bool := false
deriving DecidableEq, Inhabited

namespace Index

def idName : String := "_id_"

def onId : Index := ⟨some idName, [(Document.idField, .ascending)], true⟩

def keyName : SortKey → String
  | (field, .ascending) => field ++ "_1"
  | (field, .descending) => field ++ "_-1"

/-- The given name, or the one made from the keys. -/
def resolvedName (i : Index) : String :=
  match i.name with
  | some name => name
  | none => "_".intercalate (i.keys.map keyName)

/-- The key of a document; a missing field counts as null. -/
def keyOf (i : Index) (d : Document) : List Value := i.keys.map fun key => d.pathOrNull key.1

/-- Whether the index forbids equal keys and is not the one on the identifying field. -/
def isUniqueSecondary (i : Index) : Bool := i.unique && i.resolvedName != idName

end Index

/-- The first item that occurs a second time, after items seen already. -/
def firstRepeated? {α : Type} [DecidableEq α] (seen : List α) : List α → Option α
  | [] => none
  | x :: rest => if x ∈ seen then some x else firstRepeated? (x :: seen) rest

/-- Fails on the first key that two documents share in a unique secondary index. -/
def checkUniqueIndexes (ns : Namespace) : List Index → List Document → Except StoreError Unit
  | [], _ => .ok ()
  | i :: rest, docs =>
    if i.isUniqueSecondary then
      match firstRepeated? [] (docs.map i.keyOf) with
      | some key => .error (.duplicateKey ns i.resolvedName key)
      | none => checkUniqueIndexes ns rest docs
    else checkUniqueIndexes ns rest docs

end ScopedStore
