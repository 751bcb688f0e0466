/-!
# Options of sessions and transactions

What a caller may ask of a transaction and of a session. Nothing in the store acts on these options;
they are handed down and merged, and what a caller leaves open is filled from the defaults.
-/

namespace ScopedStore

/-- What a read in a transaction may observe. -/
inductive ReadConcern where
  | own
  | majority
  | snapshot
deriving DecidableEq

/-- Who must have taken a commit. -/
inductive WriteConcern where
  | acknowledged
  | majority
  | nodes (n : Nat)
deriving DecidableEq

structure TransactionOptions where
  readConcern : Option ReadConcern := none
  writeConcern : Option WriteConcern := none
  /-- The longest time a commit may take, in milliseconds. -/
  maxCommitMillis : Option Nat := none
deriving DecidableEq, Inhabited

/-- Fills what is left open from the defaults. -/
def TransactionOptions.or (o defaults : TransactionOptions) : TransactionOptions where
  readConcern := o.readConcern.or defaults.readConcern
  writeConcern := o.writeConcern.or defaults.writeConcern
  maxCommitMillis := o.maxCommitMillis.or defaults.maxCommitMillis

structure SessionOptions where
  causalConsistency : Bool := true
  /-- What its transactions leave open is filled from here. -/
  transaction : TransactionOptions := {}
deriving DecidableEq, Inhabited

end ScopedStore
