/-!
# Statistics

A client counts its sessions, the transactions on them and the operations, plain ones and those that
name a session apart.
-/

namespace ScopedStore

/-- What a client has counted. -/
structure Statistics where
  sessionsStarted : Nat := 0
  sessionsEnded : Nat := 0
  /-- Calls that end a session, those on an ended session included. -/
  endCalls : Nat := 0
  transactionsStarted : Nat := 0
  transactionsCommitted : Nat := 0
  transactionsAborted : Nat := 0
  plainOperations : Nat := 0
  sessionOperations : Nat := 0
deriving DecidableEq, Inhabited

/-- The number of sessions that have not ended. -/
def Statistics.openSessions (s : Statistics) : Nat := s.sessionsStarted - s.sessionsEnded

end ScopedStore
