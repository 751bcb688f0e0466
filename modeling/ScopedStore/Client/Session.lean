import ScopedStore.Client.Basic

/-!
# Sessions and their transactions

A session is started by its client, may open and close transactions one after the other, and ends. A
commit that the catalog refuses aborts the transaction; a call that the fault plan makes fail
changes nothing.
-/

namespace ScopedStore

namespace Client

/-- Whether a call of a kind fails by the fault plan, and the client after it. -/
def takeFault (c : Client) (kind : FaultKind) : Bool × Client :=
  ((c.faults.take kind).1, { c with faults := (c.faults.take kind).2 })

def countAbort (c : Client) : Client :=
  { c with stats := { c.stats with transactionsAborted := c.stats.transactionsAborted + 1 } }

def countCommit (c : Client) : Client :=
  { c with stats := { c.stats with transactionsCommitted := c.stats.transactionsCommitted + 1 } }

def startSession (c : Client) (options : SessionOptions) :
    Except StoreError SessionId × Client :=
  match c.takeFault .sessionStart with
  | (true, c) => (.error (.injected "startSession"), c)
  | (false, c) =>
    (.ok ⟨c.sessions.length + 1⟩,
      { c with
        sessions := c.sessions ++ [{ options := options }]
        stats := { c.stats with sessionsStarted := c.stats.sessionsStarted + 1 } })

/-- Opens a transaction on a session; what its options leave open is filled from the session. -/
def startTransaction (c : Client) (id : SessionId) (options : TransactionOptions) :
    Except StoreError Unit × Client :=
  let s := (c.session? id).getD {}
  if s.ended then (.error (.sessionEnded id), c)
  else if s.transaction.isSome then (.error (.transactionInProgress id), c)
  else
    match c.takeFault .transactionStart with
    | (true, c) => (.error (.injected "startTransaction"), c)
    | (false, c) =>
      let t : OpenTransaction := { options := options.or s.options.transaction }
      let c := c.setSession id { s with transaction := some t }
      (.ok (),
        { c with
          stats := { c.stats with transactionsStarted := c.stats.transactionsStarted + 1 } })

/-- Commits the open transaction of a session: all of its writes are applied, or none. -/
def commitTransaction (c : Client) (id : SessionId) : Except StoreError Unit × Client :=
  let s := (c.session? id).getD {}
  match s.transaction with
  | none => (.error (.noTransaction id), c)
  | some t =>
    match c.takeFault .commit with
    | (true, c) => (.error (.injected "commitTransaction"), c)
    | (false, c) =>
      let c := c.setSession id { s with transaction := none }
      match c.catalog.commit c.autoCreate t.pending with
      | (.ok (), catalog) => (.ok (), { c with catalog := catalog }.countCommit)
      | (.error e, catalog) => (.error e, { c with catalog := catalog }.countAbort)

def abortTransaction (c : Client) (id : SessionId) : Except StoreError Unit × Client :=
  let s := (c.session? id).getD {}
  match s.transaction with
  | none => (.error (.noTransaction id), c)
  | some _ =>
    match c.takeFault .abort with
    | (true, c) => (.error (.injected "abortTransaction"), c)
    | (false, c) => (.ok (), (c.setSession id { s with transaction := none }).countAbort)

/-- Ends a session and aborts its open transaction; an ended session stays ended. -/
def endSession (c : Client) (id : SessionId) : Client :=
  let s := (c.session? id).getD {}
  let c := c.setSession id { s with ended := true, transaction := none }
  let c := if s.transaction.isSome then c.countAbort else c
  { c with
    stats :=
      { c.stats with
        endCalls := c.stats.endCalls + 1
        sessionsEnded := c.stats.sessionsEnded + if s.ended then 0 else 1 } }

def inTransaction (c : Client) (id : SessionId) : Bool :=
  (((c.session? id).getD {}).transaction).isSome

end Client

end ScopedStore
