import ScopedStore.Namespace
import ScopedStore.Value.Order
import ScopedStore.Value.Text

/-!
# What can go wrong in the store

Each error is a cause with its data; `message` is its wording.
-/

namespace ScopedStore

/-- The number of a session, counted from 1 in the order in which its client started them. -/
structure SessionId where
  number : Nat
deriving DecidableEq, Inhabited

def SessionId.display (s : SessionId) : String := "session:" ++ toString s.number

/-- Why an update does not apply to a document. -/
inductive UpdateFault where
  /-- The update has no operator. -/
  | noOperator
  /-- The identifying field would change. -/
  | immutableId
  /-- A path leads through a field that is not a document. -/
  | notDocument (segment : String)
  /-- A sum does not fit the word. -/
  | overflow (field : String)
  /-- A field to add to is not an integer. -/
  | notInteger (field : String)
  /-- A field to append to is not an array. -/
  | notArray (field : String)
deriving DecidableEq

def UpdateFault.message : UpdateFault → String
  | .noOperator => "update must contain at least one operator"
  | .immutableId => "_id is immutable"
  | .notDocument segment => "cannot create field in non-document at '" ++ segment ++ "'"
  | .overflow field => "integer overflow on '" ++ field ++ "'"
  | .notInteger field => "cannot increment non-integer field '" ++ field ++ "'"
  | .notArray field => "cannot push to non-array field '" ++ field ++ "'"

/-- Why an argument is refused. -/
inductive ArgumentFault where
  /-- A document that should be stored has no identifying field. -/
  | storedWithoutId
  /-- An index has no key. -/
  | noIndexKey
  /-- The index on the identifying field cannot be dropped. -/
  | dropIdIndex
  /-- An index of that name exists with other keys or another uniqueness. -/
  | indexDiffers (name : String)
  /-- The session belongs to another client. -/
  | strangeSession
deriving DecidableEq

def ArgumentFault.message : ArgumentFault → String
  | .storedWithoutId => "stored document has no _id"
  | .noIndexKey => "index must have at least one key"
  | .dropIdIndex => "cannot drop the _id index"
  | .indexDiffers name => "index " ++ name ++ " already exists with different options"
  | .strangeSession => "session was started by a different client"

inductive StoreError where
  /-- Two documents would share a key of a unique index. -/
  | duplicateKey (ns : Namespace) (index : String) (key : List Value)
  | namespaceNotFound (ns : Namespace)
  | namespaceExists (ns : Namespace)
  | indexNotFound (name : String)
  | noTransaction (session : SessionId)
  | transactionInProgress (session : SessionId)
  | sessionEnded (session : SessionId)
  | notInTransaction (command : String)
  | invalidUpdate (fault : UpdateFault)
  | invalidArgument (fault : ArgumentFault)
  /-- Stored bytes do not decode. -/
  | undecodable
  /-- The fault plan made the operation fail. -/
  | injected (operation : String)
deriving DecidableEq

def StoreError.message : StoreError → String
  | .duplicateKey ns index key =>
    "duplicate key in " ++ ns.display ++ " on index " ++ index ++ ": "
      ++ commaSeparated (key.map Value.display)
  | .namespaceNotFound ns => "namespace not found: " ++ ns.display
  | .namespaceExists ns => "namespace already exists: " ++ ns.display
  | .indexNotFound name => "index not found: " ++ name
  | .noTransaction s => "no transaction started on session " ++ s.display
  | .transactionInProgress s => "transaction already in progress on session " ++ s.display
  | .sessionEnded s => "session " ++ s.display ++ " has ended"
  | .notInTransaction command => "operation not supported in transaction: " ++ command
  | .invalidUpdate fault => "invalid update: " ++ fault.message
  | .invalidArgument fault => "invalid argument: " ++ fault.message
  | .undecodable => "codec error"
  | .injected operation => "injected failure: " ++ operation

end ScopedStore
