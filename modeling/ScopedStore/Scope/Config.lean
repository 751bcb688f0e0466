import ScopedStore.Options

/-!
# Configuration of scopes

How long a scope may last and which options its transaction and session take when nothing else is
said. Timeouts and instants are whole seconds, so neither has a part of a second here, and a transaction
expires at the full second of its deadline. The clock starts at zero and ends at `latestInstant`; a
deadline that it cannot reach falls on the present.
-/

namespace ScopedStore

/-- What every scope below a root context shares. -/
structure Config where
  /-- The timeout of a scope that does not ask for one, in seconds. -/
  defaultTimeout : Nat := 60
  /-- The longest timeout of a scope, in seconds. -/
  maxTimeout : Nat := 600
  session : SessionOptions := {}
  transaction : TransactionOptions := {}
deriving DecidableEq, Inhabited

/-- The timeout of a scope that asks for one or for none. -/
def Config.effectiveTimeout (c : Config) (requested : Option Nat) : Nat :=
  min (requested.getD c.defaultTimeout) c.maxTimeout

/-- The last second that the clock can show. -/
def latestInstant : Nat := 0x7fffffffffffffff

/-- The instant after a time, if the clock can show it. -/
def laterInstant? (now seconds : Nat) : Option Nat :=
  if now + seconds ≤ latestInstant then some (now + seconds) else none

/-- The instant from which a transaction that starts now has expired, in whole seconds. -/
def deadline (now timeout : Nat) : Nat := (laterInstant? now timeout).getD now

end ScopedStore
