import ScopedStore.Proofs.Scope.Protocol

/-!
# Runs of a system

Whatever a program does with contexts, scopes, participants and facades is a list of actions in any
order. Every transaction takes its course in every run (`evolves_run`): it is completed at most once and
by the protocol (`completes_once`), and a joined scope that is abandoned before keeps it from being
committed (`not_committed_of_abandoned`).
-/

namespace ScopedStore

/-- Something that a program does. Closing a scope value stands for closing and for dropping a scope; by
its `completed` it tells whether the scope was completed before. -/
inductive Action where
  | begin (parent : Context) (option : ScopeOption) (request : ScopeRequest)
  | enlist (cx : Context) (p : Participant)
  | doom (key : TxKey) (reason : String)
  | close (scope : Scope)
  | acquire (registry : RegistryKey) (cx : Context)
  | request (client : ClientKey) (b : Binding) (cx : Context) (r : Request)
  | exchangeHold (old new : Option RegistryKey)
  | wait (seconds : Nat)
  /-- Anything that reaches no transaction. -/
  | elsewhere (clients : List Client) (registries : List Registry) (leases : List Lease)
      (enlistments : List Enlistment) (log : List LogEntry)

namespace System

def act (sys : System) : Action → System
  | .begin parent option request => (sys.begin parent option request).2
  | .enlist cx p => (sys.enlist cx p).2
  | .doom key reason => sys.doom key reason
  | .close scope => (sys.close scope).2
  | .acquire registry cx => (sys.acquire registry cx).2
  | .request client b cx r => (sys.requestThrough client b cx r).2
  | .exchangeHold old new => sys.exchangeHold old new
  | .wait seconds => { sys with clock := sys.clock + seconds }
  | .elsewhere clients registries leases enlistments log =>
    { sys with
      clients := clients, registries := registries, leases := leases, enlistments := enlistments
      log := log }

def run (sys : System) (actions : List Action) : System := actions.foldl act sys

variable {sys : System} {key : TxKey}

theorem evolves_act (key : TxKey) (sys : System) (a : Action) : sys.Evolves key (sys.act a) := by
  cases a with
  | begin parent option request => exact evolves_begin key sys parent option request
  | enlist cx p => exact evolves_enlist key sys cx p
  | doom key' reason => exact evolves_doom key sys key' reason
  | close scope => exact evolves_close key sys scope
  | acquire registry cx => exact evolves_acquire key sys registry cx
  | request client b cx r => exact evolves_requestThrough key sys client b cx r
  | exchangeHold old new => exact evolves_exchangeHold key sys old new
  | wait seconds => exact .of_row (Nat.le_refl _) (Nat.le_add_right _ _) rfl rfl fun _ => rfl
  | elsewhere clients registries leases enlistments log => exact .of_keeps ⟨rfl, rfl, rfl, rfl⟩

theorem evolves_run (key : TxKey) (sys : System) (actions : List Action) :
    sys.Evolves key (sys.run actions) := by
  induction actions generalizing sys with
  | nil => exact .refl key sys
  | cons a rest ih => exact (evolves_act key sys a).trans (ih _)

/-! ## The protocol -/

theorem enlist_of_closed (hclosed : (sys.transaction key).isOpen = false) {cx : Context}
    (hcx : cx.transaction = some key) (p : Participant) :
    sys.enlist cx p = (.error (.notActive (sys.txId key) (sys.transaction key).status), sys) := by
  unfold enlist Transaction.checkAccepting
  rw [hcx]
  dsimp only
  rw [hclosed]
  rfl

theorem exists_close_of_owner {scope : Scope} (hscope : scope.context.transaction = some key)
    (howns : scope.owns = true) (sys : System) :
    ∃ close, (∀ key, Orderly key close) ∧ sys.close scope =
      if scope.completed then sys.commitTransaction close key
      else sys.rollbackTransaction close key := by
  have hwith (close : CloseScope) : closeWith close sys scope =
      if scope.completed then sys.commitTransaction close key
      else sys.rollbackTransaction close key := by
    unfold closeWith
    rw [hscope, howns]
    cases scope.completed <;> rfl
  unfold System.close
  cases sys.heldScopes with
  | zero => exact ⟨_, fun key sys _ => .refl key sys, hwith _⟩
  | succ n => exact ⟨_, orderly_closeWithin n, hwith _⟩

theorem completes_of_close (hkey : key < sys.transactions.length)
    (hopen : (sys.transaction key).isOpen = true) {scope : Scope}
    (hscope : scope.context.transaction = some key) (howns : scope.owns = true) :
    sys.Completes key scope.completed (sys.close scope).1 (sys.close scope).2 := by
  obtain ⟨close, horderly, hclose⟩ := exists_close_of_owner hscope howns sys
  rw [hclose]
  cases scope.completed with
  | true => exact (horderly key).completes_commit hkey hopen
  | false => exact (horderly key).completes_rollback hkey hopen

theorem close_of_closed (hclosed : (sys.transaction key).isOpen = false) {scope : Scope}
    (hscope : scope.context.transaction = some key) (howns : scope.owns = true) :
    sys.close scope = (.error (.notActive (sys.txId key) (sys.transaction key).status), sys) := by
  obtain ⟨close, -, hclose⟩ := exists_close_of_owner hscope howns sys
  rw [hclose]
  split <;> exact completeWith_of_closed hclosed close _

/-- A transaction is completed at most once. Closing the scope that owns it, completed or not, completes
an open transaction by the protocol and is refused once it is completing or settled, as is enlisting. In
every run of actions a transaction that is not open stays as it is and its participants are asked for
nothing more. An open one either stays open, keeps its participants and asks them for nothing, or it
completes by the protocol with them and those enlisted later: then each of them is told once in all to
commit, to roll back or that it is in doubt. -/
theorem completes_once (sys : System) {key : TxKey} (hkey : key < sys.transactions.length) :
    (∀ scope : Scope, scope.context.transaction = some key → scope.owns = true →
      ((sys.transaction key).isOpen = true →
        sys.Completes key scope.completed (sys.close scope).1 (sys.close scope).2) ∧
      ((sys.transaction key).isOpen = false →
        sys.close scope = (.error (.notActive (sys.txId key) (sys.transaction key).status), sys))) ∧
    (∀ (cx : Context) (p : Participant), cx.transaction = some key →
      (sys.transaction key).isOpen = false →
        sys.enlist cx p = (.error (.notActive (sys.txId key) (sys.transaction key).status), sys)) ∧
    ∀ actions,
      let sys' := sys.run actions
      let t := sys.transaction key
      let t' := sys'.transaction key
      (t.isOpen = false → t'.isOpen = false ∧ t'.status = t.status ∧
        t'.participants = t.participants ∧ sys'.milestones key = sys.milestones key) ∧
      (t.isOpen = true →
        (t'.isOpen = true ∧ t.participants <+: t'.participants ∧
          sys'.milestones key = sys.milestones key) ∨
        ∃ later reason now commits ms outcome,
          sys.clock ≤ now ∧ now ≤ sys'.clock ∧
          Completion (sys.txId key) (t.grown later reason) now commits ms outcome t'.status ∧
          ms.filterMap Milestone.ended? = t.participants ++ later ∧
          sys'.milestones key = sys.milestones key ++ (ms ++ [.settled t'.status]) ∧
          t'.isOpen = false ∧ t'.participants = []) := by
  refine ⟨fun scope hscope howns => ⟨fun hopen => completes_of_close hkey hopen hscope howns,
    fun hclosed => close_of_closed hclosed hscope howns⟩,
    fun cx p hcx hclosed => enlist_of_closed hclosed hcx p, fun actions => ?_⟩
  intro sys' t t'
  obtain ⟨ms, hms, hcourse⟩ := (evolves_run key sys actions).course hkey
  change sys'.milestones key = sys.milestones key ++ ms at hms
  change Course _ _ sys'.clock t ms t' at hcourse
  refine ⟨fun hclosed => ?_, fun hopen => ?_⟩
  · obtain ⟨rfl, reason, hrow⟩ := hcourse.of_closed hclosed
    rw [hms, hrow, List.append_nil]
    exact ⟨hclosed, rfl, List.append_nil _, rfl⟩
  · generalize t' = row at hcourse ⊢
    cases hcourse with
    | working later reason _ =>
      rw [hms, List.append_nil]
      exact .inl ⟨hopen, List.prefix_append _ _, rfl⟩
    | completed reason' _ hstart hstop hcompletion =>
      exact .inr ⟨_, _, _, _, _, _, hstart, hstop, hcompletion, hcompletion.filterMap_ended?, hms,
        Transaction.isOpen_ended _ hcompletion.status_ne_active _, rfl⟩
    | finished _ hclosed =>
      rw [hopen] at hclosed
      cases hclosed

def justBegun : System := (({} : System).begin {} .required {}).2

/-- A participant of that transaction that looks around in every phase, and fails in some. -/
def lookingProbe (name : String) (failing : List Phase) : Participant :=
  .probe
    { name := name
      failing := failing
      calling := [.prepare, .commit, .rollback, .inDoubt]
      context := { transaction := some 0 } }

/-- Three participants are enlisted, of which the second fails to commit, and the owner's scope is closed
completed. -/
def secondFails : List Action :=
  [.enlist { transaction := some 0 } (lookingProbe "a" []),
    .enlist { transaction := some 0 } (lookingProbe "b" [.commit]),
    .enlist { transaction := some 0 } (lookingProbe "c" []),
    .close
      { context := { transaction := some 0 }, option := .required, owns := true, completed := true }]

theorem completes_once_secondFails :
    let sys' := justBegun.run secondFails
    (sys'.transaction 0).status = .inDoubt ∧ (sys'.milestones 0).length = 7 ∧
      ∃ later reason now commits ms outcome,
        Completion (justBegun.txId 0) ((justBegun.transaction 0).grown later reason) now commits ms
          outcome (sys'.transaction 0).status ∧
        ms.filterMap Milestone.ended? = (justBegun.transaction 0).participants ++ later ∧
        sys'.milestones 0 = justBegun.milestones 0 ++ (ms ++ [.settled (sys'.transaction 0).status]) := by
  have hstatus : ((justBegun.run secondFails).transaction 0).status = .inDoubt := by rfl
  have hlength : ((justBegun.run secondFails).milestones 0).length = 7 := by rfl
  have hkey : 0 < justBegun.transactions.length := by decide
  obtain ⟨-, -, hrun⟩ := completes_once justBegun hkey
  obtain ⟨-, hopen⟩ := hrun secondFails
  refine ⟨hstatus, hlength, ?_⟩
  rcases hopen rfl with ⟨hstill, -⟩ | ⟨later, reason, now, commits, ms, outcome, -, -, hcompletion,
    hended, hms, -⟩
  · unfold Transaction.isOpen at hstill
    rw [hstatus] at hstill
    cases hstill
  · exact ⟨later, reason, now, commits, ms, outcome, hcompletion, hended, hms⟩

/-! ## Abandoned scopes -/

theorem begin_joining {parent : Context} (hparent : parent.transaction = some key)
    (request : ScopeRequest) (sys : System) :
    sys.begin parent .required request =
      ({ context := parent, option := .required, owns := false }, sys) := by
  unfold begin
  dsimp only
  rw [hparent]

theorem close_of_abandoned {scope : Scope} (hscope : scope.context.transaction = some key)
    (howns : scope.owns = false) (hcompleted : scope.completed = false) (sys : System) :
    sys.close scope = (.ok (), sys.doom key "joined scope closed without completion") := by
  have hwith (close : CloseScope) : closeWith close sys scope =
      (.ok (), sys.doom key "joined scope closed without completion") := by
    unfold closeWith
    rw [hscope, howns, hcompleted]
  unfold System.close
  cases sys.heldScopes with
  | zero => exact hwith _
  | succ n => exact hwith _

/-- A doomed transaction that is open is never committed: it stays open, or all its participants are
rolled back. -/
theorem run_of_doomed (hkey : key < sys.transactions.length)
    (hopen : (sys.transaction key).isOpen = true) {reason : String}
    (hdoomed : (sys.transaction key).doomed = some reason) (actions : List Action) :
    (((sys.run actions).transaction key).isOpen = true ∧
        (sys.run actions).milestones key = sys.milestones key) ∨
      ((sys.run actions).transaction key).status = .aborted ∧
        ∃ participants rollbacks, Asked .rollback participants rollbacks ∧
          (sys.run actions).milestones key =
            sys.milestones key ++ (rollbacks ++ [.settled .aborted]) := by
  obtain ⟨ms, hms, hcourse⟩ := (evolves_run key sys actions).course hkey
  generalize (sys.run actions).transaction key = row at hcourse ⊢
  cases hcourse with
  | working later reason' _ =>
    rw [hms, List.append_nil]
    exact .inl ⟨hopen, rfl⟩
  | completed reason' _ _ _ hcompletion =>
    have hstill (later : List Participant) (reason' : Option String) :
        ((sys.transaction key).grown later reason').doomed = some reason := by
      rw [Transaction.grown, hdoomed, Option.some_or]
    obtain ⟨rfl, hrollbacks⟩ := hcompletion.of_doomed (hstill _ _)
    exact .inr ⟨rfl, _, _, hrollbacks, hms⟩
  | finished _ hclosed =>
    rw [hopen] at hclosed
    cases hclosed

/-- A scope that joined a transaction and is closed without having been completed, while the transaction
is open, keeps it from being committed, whatever else happens before and after. -/
theorem not_committed_of_abandoned {sys : System} {parent : Context} {key : TxKey}
    (hparent : parent.transaction = some key) (hkey : key < sys.transactions.length)
    (request : ScopeRequest) (before after : List Action)
    (hopen : (((sys.begin parent .required request).2.run before).transaction key).isOpen = true) :
    let joined := (sys.begin parent .required request).1
    let sys₁ := (sys.begin parent .required request).2.run before
    let sys₂ := (sys₁.close joined).2
    let final := sys₂.run after
    (final.transaction key).status ≠ .committed ∧
      (((final.transaction key).isOpen = true ∧ final.milestones key = sys₂.milestones key) ∨
        (final.transaction key).status = .aborted ∧
          ∃ participants rollbacks, Asked .rollback participants rollbacks ∧
            final.milestones key = sys₂.milestones key ++ (rollbacks ++ [.settled .aborted])) := by
  intro joined sys₁ sys₂ final
  have hjoined := begin_joining hparent request sys
  have hsys₁ : sys₁ = sys.run before := by
    show (sys.begin parent .required request).2.run before = _
    rw [hjoined]
  have hclose : sys₁.close joined =
      (.ok (), sys₁.doom key "joined scope closed without completion") := by
    refine close_of_abandoned ?_ ?_ ?_ sys₁ <;> simp only [joined, hjoined]
    exact hparent
  have hkey₁ : key < sys₁.transactions.length := by
    rw [hsys₁]
    exact Nat.lt_of_lt_of_le hkey (evolves_run key sys before).length
  have hsys₂ : sys₂ = sys₁.doom key "joined scope closed without completion" := by
    show (sys₁.close joined).2 = _
    rw [hclose]
  have hrow : sys₂.transaction key =
      (sys₁.transaction key).doom "joined scope closed without completion" := by
    rw [hsys₂]
    exact transaction_setTransaction_self hkey₁ _
  have hkey₂ : key < sys₂.transactions.length := by
    rw [hsys₂, doom, setTransaction, List.length_set]
    exact hkey₁
  have hopen₂ : (sys₂.transaction key).isOpen = true := by
    rw [hrow]
    exact hopen
  obtain ⟨reason, hdoomed⟩ : ∃ reason, (sys₂.transaction key).doomed = some reason := by
    rw [hrow, Transaction.doom]
    cases (sys₁.transaction key).doomed with
    | none => exact ⟨_, rfl⟩
    | some reason => exact ⟨reason, rfl⟩
  have hfate := run_of_doomed hkey₂ hopen₂ hdoomed after
  refine ⟨fun hcommitted => ?_, hfate⟩
  rcases hfate with ⟨hstill, -⟩ | ⟨haborted, -⟩
  · change (final.transaction key).isOpen = true at hstill
    rw [Transaction.isOpen, hcommitted] at hstill
    cases hstill
  · change (final.transaction key).status = .aborted at haborted
    rw [hcommitted] at haborted
    cases haborted

def firstOwner : Scope := (({} : System).begin {} .required {}).1

/-- With a participant enlisted, the joined scope is abandoned before its owner is closed. -/
theorem not_committed_of_abandoned_first :
    let joined := (justBegun.begin firstOwner.context .required {}).1
    let sys₁ := justBegun.run [.enlist firstOwner.context (lookingProbe "a" [])]
    let sys₂ := (sys₁.close joined).2
    let final := sys₂.run [.close { firstOwner with completed := true }]
    (sys₁.transaction 0).isOpen = true ∧ (final.transaction 0).status = .aborted ∧
      (final.transaction 0).status ≠ .committed := by
  have hparent : firstOwner.context.transaction = some 0 := rfl
  have hkey : 0 < justBegun.transactions.length := by decide
  obtain ⟨hstatus, -⟩ := not_committed_of_abandoned hparent hkey {}
    [.enlist firstOwner.context (lookingProbe "a" [])]
    [.close { firstOwner with completed := true }] rfl
  exact ⟨rfl, rfl, hstatus⟩

/-- A joined scope that is abandoned after its owner was closed leaves the transaction committed. -/
theorem committed_of_abandoned_last :
    let joined := (justBegun.begin firstOwner.context .required {}).1
    let sys₁ := (justBegun.begin firstOwner.context .required {}).2
    let ownerClosed := sys₁.close { firstOwner with completed := true }
    let joinedClosed := ownerClosed.2.close joined
    joined.context.transaction = some 0 ∧ joined.owns = false ∧ joined.completed = false ∧
      ownerClosed.1 = .ok () ∧ joinedClosed.1 = .ok () ∧
      (joinedClosed.2.transaction 0).status = .committed :=
  ⟨rfl, rfl, rfl, rfl, rfl, rfl⟩

end System

end ScopedStore
