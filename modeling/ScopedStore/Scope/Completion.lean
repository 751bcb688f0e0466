import ScopedStore.Scope.Registry

/-!
# Completion

Completing a transaction takes its participants out of it, so none can be added any more, settles the
status and then lets the participants go. To commit, all are prepared and then committed in order;
after the first that fails the others are told that the outcome is in doubt. A transaction that has
expired, is doomed or is vetoed rolls everyone back. Participants may call back while they are
notified; how they get a lease is a parameter. A participant that is let go lets its registry go, which
may close a scope in turn; what that does is a parameter, too.
-/

namespace ScopedStore

/-- How a lease is acquired from a registry for a context. -/
abbrev AcquireLease := System → RegistryKey → Context → Except TxError LeaseKey × System

namespace System

/-! ## Notifying participants -/

/-- Lets a reporting participant look at its context and registry, and reports what it sees. -/
def observe (acquire : AcquireLease) (sys : System) (p : Probe) : System :=
  let status := sys.statusOf p.context
  let participants := sys.participantCount p.context
  let (enlist, sys) := sys.enlist p.context .idle
  match p.registry with
  | none => sys.report (.observed ⟨status, participants, enlist, none⟩)
  | some key =>
    match acquire sys key p.context with
    | (.ok lease, sys) =>
      sys.report (.observed ⟨status, participants, enlist, some (.ok (sys.leaseReport lease))⟩)
    | (.error e, sys) => sys.report (.observed ⟨status, participants, enlist, some (.error e)⟩)

def notify (acquire : AcquireLease) (sys : System) (p : Participant) (phase : Phase) :
    Except TxError Unit × System :=
  match p with
  | .enlisted key => sys.notifyEnlistment key phase
  | .probe p =>
    let sys := sys.report (.notified p.name phase)
    let sys := if phase ∈ p.calling then sys.observe acquire p else sys
    if phase ∈ p.failing then
      (.error (.store (.injected (p.name ++ ":" ++ phase.display))), sys)
    else (.ok (), sys)
  | .idle => (.ok (), sys)

def ask (acquire : AcquireLease) (sys : System) (key : TxKey) (p : Participant) (phase : Phase) :
    Except TxError Unit × System :=
  let (outcome, sys) := sys.notify acquire p phase
  (outcome, sys.record key (.asked p phase outcome))

/-- Prepares every participant and says whether one of them forces a rollback. -/
def prepareAll (acquire : AcquireLease) (key : TxKey) : List Participant → System → Bool × System
  | [], sys => (false, sys)
  | p :: rest, sys =>
    let (_, sys) := sys.ask acquire key p .prepare
    let (veto, sys) := prepareAll acquire key rest sys
    (p.vote = .forceRollback || veto, sys)

def doubtAll (acquire : AcquireLease) (key : TxKey) : List Participant → System → System
  | [], sys => sys
  | p :: rest, sys => doubtAll acquire key rest (sys.ask acquire key p .inDoubt).2

/-- Commits participants up to the first that fails and leaves the others in doubt. Gives the number
of commits that succeeded, and the failure. -/
def commitAll (acquire : AcquireLease) (key : TxKey) : List Participant → System →
    (Nat × Option TxError) × System
  | [], sys => ((0, none), sys)
  | p :: rest, sys =>
    match sys.ask acquire key p .commit with
    | (.error e, sys) => ((0, some e), doubtAll acquire key rest sys)
    | (.ok (), sys) =>
      let ((n, failure), sys) := commitAll acquire key rest sys
      ((n + 1, failure), sys)

/-- Rolls every participant back and gives the first failure. -/
def rollbackAll (acquire : AcquireLease) (key : TxKey) : List Participant → System →
    Except TxError Unit × System
  | [], sys => (.ok (), sys)
  | p :: rest, sys =>
    let (outcome, sys) := sys.ask acquire key p .rollback
    let (later, sys) := rollbackAll acquire key rest sys
    match outcome with
    | .error e => (.error e, sys)
    | .ok () => (later, sys)

/-! ## Completing a transaction -/

/-- Begins the completion of a transaction: it takes no participants any more. -/
def beginCompletion (sys : System) (key : TxKey) :
    Except TxError (List Participant) × System :=
  let t := sys.transaction key
  if t.isOpen then
    (.ok t.participants, sys.setTransaction key { t with completing := true, participants := [] })
  else (.error (.notActive (sys.txId key) t.status), sys)

def settle (sys : System) (key : TxKey) (status : Status) : System :=
  (sys.setTransaction key ((sys.transaction key).settle status)).record key (.settled status)

def doom (sys : System) (key : TxKey) (reason : String) : System :=
  sys.setTransaction key ((sys.transaction key).doom reason)

/-- Prepares all participants unless the transaction has to roll back anyway; gives the error if it
has to. -/
def rollbackReason? (acquire : AcquireLease) (sys : System) (key : TxKey) (doomed : Option String)
    (participants : List Participant) : Option TxError × System :=
  if (sys.transaction key).isExpired sys.clock then (some (.timeout (sys.txId key)), sys)
  else
    match doomed with
    | some reason => (some (.aborted (sys.txId key) reason), sys)
    | none =>
      let (veto, sys) := prepareAll acquire key participants sys
      (if veto then some (.aborted (sys.txId key) "a participant voted to roll back") else none, sys)

/-- Drives the participants of a completing transaction to a commit, or to a rollback where it has
to be, and settles its outcome. -/
def driveCommit (acquire : AcquireLease) (sys : System) (key : TxKey) (doomed : Option String)
    (participants : List Participant) : Except TxError Unit × System :=
  match sys.rollbackReason? acquire key doomed participants with
  | (some e, sys) =>
    let (_, sys) := rollbackAll acquire key participants sys
    (.error e, sys.settle key .aborted)
  | (none, sys) =>
    match commitAll acquire key participants sys with
    | ((_, none), sys) => (.ok (), sys.settle key .committed)
    | ((0, some e), sys) => (.error e, sys.settle key .aborted)
    | ((_ + 1, some _), sys) => (.error (.inDoubt (sys.txId key)), sys.settle key .inDoubt)

def driveRollback (acquire : AcquireLease) (sys : System) (key : TxKey)
    (participants : List Participant) : Except TxError Unit × System :=
  let (outcome, sys) := rollbackAll acquire key participants sys
  (outcome, sys.settle key .aborted)

/-- Lets participants go, one after the other, and with them the registries that they hold. -/
def dismissAll (close : CloseScope) : List Participant → System → System
  | [], sys => sys
  | p :: rest, sys =>
    dismissAll close rest (p.registryKey?.elim sys (letGoWith close sys))

def completeWith (close : CloseScope) (sys : System) (key : TxKey)
    (drive : System → List Participant → Except TxError Unit × System) :
    Except TxError Unit × System :=
  match sys.beginCompletion key with
  | (.error e, sys) => (.error e, sys)
  | (.ok participants, sys) =>
    let (outcome, sys) := drive sys participants
    (outcome, dismissAll close participants sys)

def commitTransaction (close : CloseScope) (sys : System) (key : TxKey) :
    Except TxError Unit × System :=
  let doomed := (sys.transaction key).doomed
  sys.completeWith close key fun sys ps => driveCommit (acquireWith close) sys key doomed ps

def rollbackTransaction (close : CloseScope) (sys : System) (key : TxKey) :
    Except TxError Unit × System :=
  sys.completeWith close key fun sys ps => driveRollback (acquireWith close) sys key ps

/-- Closes a scope. The scope that started a transaction completes it: it commits if the scope was
completed and rolls back otherwise. A joined scope that was not completed dooms the transaction. -/
def closeWith (close : CloseScope) : CloseScope := fun sys scope =>
  match scope.context.transaction with
  | none => (.ok (), sys)
  | some key =>
    match scope.owns, scope.completed with
    | true, true => sys.commitTransaction close key
    | true, false => sys.rollbackTransaction close key
    | false, true => (.ok (), sys)
    | false, false => (.ok (), sys.doom key "joined scope closed without completion")

/-! ## Tying the knot

A registry closes the scope that it holds back only once, so closing a scope can lead to the closing
of another at most as often as there are such scopes. -/

def heldScopes (sys : System) : Nat :=
  (sys.registries.filter fun r => r.closing.isSome).length

/-- Closes a scope where at most so many other scopes are closed inside one another on the way. -/
def closeWithin : Nat → CloseScope
  | 0 => closeWith fun sys _ => (.ok (), sys)
  | n + 1 => closeWith (closeWithin n)

def close (sys : System) (scope : Scope) : Except TxError Unit × System :=
  closeWithin sys.heldScopes sys scope

/-- The lease of a context's transaction in a registry, made at the first use. -/
def acquire (sys : System) (key : RegistryKey) (cx : Context) : Except TxError LeaseKey × System :=
  acquireWith (closeWithin sys.heldScopes) sys key cx

/-- Lets one holder hold another registry in place of the one that it held. -/
def exchangeHold (sys : System) (old new : Option RegistryKey) : System :=
  let sys := new.elim sys sys.hold
  old.elim sys (letGoWith (closeWithin sys.heldScopes) sys)

end System

end ScopedStore
