import ScopedStore.Scope.Completion

/-!
# Scopes

A scope is begun under a parent context, joins or starts a transaction or suppresses it, and is
closed once. `runScoped` runs code inside a scope: the scope is completed if the code succeeds, and
the code's own error goes before an error of closing.
-/

namespace ScopedStore

/-- What a scope that starts a transaction may ask for. -/
structure ScopeRequest where
  /-- The timeout in seconds. -/
  timeout : Option Nat := none
  transaction : Option TransactionOptions := none
deriving DecidableEq

/-- Votes for the work of a scope to be committed; a second time is refused. -/
def Scope.complete (s : Scope) : Except TxError Scope :=
  if s.completed then .error .alreadyCompleted else .ok { s with completed := true }

namespace System

def startTransaction (sys : System) (parent : Context) (request : ScopeRequest) :
    TxKey × System :=
  sys.addTransaction
    { options := request.transaction.getD parent.config.transaction
      deadline := deadline sys.clock (parent.config.effectiveTimeout request.timeout) }

/-- Begins a scope that owns a new transaction. -/
def beginOwning (sys : System) (parent : Context) (option : ScopeOption) (request : ScopeRequest) :
    Scope × System :=
  let (key, sys) := sys.startTransaction parent request
  ({ context := parent.within key, option := option, owns := true }, sys)

def begin (sys : System) (parent : Context) (option : ScopeOption) (request : ScopeRequest) :
    Scope × System :=
  match option with
  | .suppress => ({ context := parent.suppressed, option := option, owns := false }, sys)
  | .requiresNew => sys.beginOwning parent option request
  | .required =>
    match parent.transaction with
    | some _ => ({ context := parent, option := option, owns := false }, sys)
    | none => sys.beginOwning parent option request

end System

/-- Runs code in a scope of its own and closes the scope. -/
def runScoped {m : Type → Type} [Monad m] [MonadStateOf System m] {α : Type} (parent : Context)
    (option : ScopeOption) (body : Context → m (Except TxError α)) : m (Except TxError α) := do
  let scope ← modifyGet fun sys : System => sys.begin parent option {}
  match ← body scope.context with
  | .ok a =>
    match ← modifyGet fun sys : System => sys.close { scope with completed := true } with
    | .ok () => return .ok a
    | .error e => return .error e
  | .error e =>
    let _ ← modifyGet fun sys : System => sys.close scope
    return .error e

end ScopedStore
