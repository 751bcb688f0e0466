import ScopedStore.Proofs.Scope.Run

/-!
# Deadlines

A transaction keeps in every run the deadline that it was begun with (`deadline_run`). Before its
deadline it refuses neither an enlistment nor a commit with a timeout (`demand_ne_timeout`), and
afterwards it refuses both, as long as it is open (`demand_of_expired`). A longer timeout gives a later
deadline where the clock can show it, but a deadline beyond the end of the clock falls back on the start
(`deadline_lt_iff`). So a longer timeout never expires earlier, unless the clock ends before its deadline
and not before that of the shorter one (`longer_timeout_lasts_iff`).
-/

namespace ScopedStore

/-! ## Instants -/

theorem Config.effectiveTimeout_mono {c : Config} {r r' : Option Nat}
    (h : r.getD c.defaultTimeout ≤ r'.getD c.defaultTimeout) :
    c.effectiveTimeout r ≤ c.effectiveTimeout r' := by
  rw [effectiveTimeout, effectiveTimeout]
  omega

/-- The deadline of a longer timeout is earlier just when it falls back on the start and the deadline of
the shorter timeout lies ahead. -/
theorem deadline_lt_iff {now shorter longer : Nat} (h : shorter ≤ longer) :
    deadline now longer < deadline now shorter ↔
      0 < shorter ∧ (laterInstant? now shorter).isSome ∧ laterInstant? now longer = none := by
  unfold deadline laterInstant?
  by_cases hshorter : now + shorter ≤ latestInstant <;> by_cases hlonger : now + longer ≤ latestInstant
  · simp [hshorter, hlonger, h]
  · simp [hshorter, hlonger]
  · exact absurd (Nat.le_trans (Nat.add_le_add_left h now) hlonger) hshorter
  · simp [hshorter, hlonger]

/-- What a transaction can be asked for, and refuses with a timeout once it has expired: to take a
participant, through a context of any configuration, or to commit. -/
inductive Demand where
  | enlist (config : Config) (p : Participant)
  | commit

def Scope.voted (s : Scope) : Scope := { s with completed := true }

namespace System

def demand (sys : System) (scope : Scope) : Demand → Except TxError Unit
  | .enlist config p => (sys.enlist { scope.context with config := config } p).1
  | .commit => (sys.close scope.voted).1

variable {sys : System} {key : TxKey} {scope : Scope} {close : CloseScope} {acquire : AcquireLease}

/-! ## A transaction keeps its deadline -/

theorem deadline_of_course {id : TxId} {start stop : Nat} {t t' : Transaction} {ms : List Milestone}
    (h : Course id start stop t ms t') : t'.deadline = t.deadline := by
  cases h <;> rfl

theorem deadline_run (hkey : key < sys.transactions.length) (actions : List Action) :
    ((sys.run actions).transaction key).deadline = (sys.transaction key).deadline := by
  obtain ⟨ms, -, hcourse⟩ := (evolves_run key sys actions).course hkey
  exact deadline_of_course hcourse

/-! ## Commits -/

theorem exists_of_onClient_error {client : ClientKey} {act : Client → Except StoreError Unit × Client}
    {e : TxError} (h : (sys.onClient client act).1 = .error e) : ∃ fault, e = .store fault := by
  unfold onClient at h
  split at h
  · cases h
  · cases h
    exact ⟨_, rfl⟩

theorem exists_of_settleLease_error {lease : LeaseKey}
    {act : Client → SessionId → Except StoreError Unit × Client} {e : TxError}
    (h : (sys.settleLease lease act).1 = .error e) : ∃ fault, e = .store fault := by
  unfold settleLease at h
  dsimp only at h
  split at h
  · cases h
  · exact exists_of_onClient_error h

theorem exists_of_ask_error {p : Participant} {phase : Phase} {e : TxError}
    (h : (sys.ask acquire key p phase).1 = .error e) : ∃ fault, e = .store fault := by
  cases p with
  | enlisted key =>
    cases phase with
    | prepare => cases h
    | commit | rollback | inDoubt => exact exists_of_settleLease_error h
  | probe p =>
    rw [ask, notify] at h
    dsimp only at h
    split at h
    · cases h
      exact ⟨_, rfl⟩
    · cases h
  | idle => cases h

theorem exists_of_commitAll_error {ps : List Participant} {n : Nat} {e : TxError} {sys' : System}
    (h : commitAll acquire key ps sys = ((n, some e), sys')) : ∃ fault, e = .store fault := by
  induction ps generalizing sys n sys' with
  | nil => cases h
  | cons p rest ih =>
    rw [commitAll] at h
    split at h
    · rename_i e' sys₁ hask
      cases h
      exact exists_of_ask_error (congrArg Prod.fst hask)
    · rename_i sys₁ hask
      dsimp only at h
      exact ih (Prod.ext (Prod.ext rfl (congrArg (fun r => r.1.2) h)) rfl)

theorem driveCommit_of_expired (hexpired : (sys.transaction key).isExpired sys.clock = true)
    (doomed : Option String) (ps : List Participant) :
    (sys.driveCommit acquire key doomed ps).1 = .error (.timeout (sys.txId key)) := by
  rw [driveCommit, rollbackReason?.eq_def, if_pos hexpired]

theorem exists_of_rollbackReason (hlasting : (sys.transaction key).isExpired sys.clock = false)
    {doomed : Option String} {ps : List Participant} {e : TxError} {sys' : System}
    (h : sys.rollbackReason? acquire key doomed ps = (some e, sys')) :
    ∃ id reason, e = .aborted id reason := by
  rw [rollbackReason?.eq_def, if_neg (by rw [hlasting]; exact Bool.false_ne_true)] at h
  split at h
  · cases h
    exact ⟨_, _, rfl⟩
  · have hreason := congrArg Prod.fst h
    dsimp only at hreason
    split at hreason
    · cases hreason
      exact ⟨_, _, rfl⟩
    · cases hreason

theorem driveCommit_ne_timeout (hlasting : (sys.transaction key).isExpired sys.clock = false)
    (doomed : Option String) (ps : List Participant) (id : TxId) :
    (sys.driveCommit acquire key doomed ps).1 ≠ .error (.timeout id) := by
  unfold driveCommit
  split
  · rename_i e sys₁ hreason
    obtain ⟨id', reason, rfl⟩ := exists_of_rollbackReason hlasting hreason
    exact nofun
  · split
    · exact nofun
    · rename_i e sys₂ hcommits
      obtain ⟨fault, rfl⟩ := exists_of_commitAll_error hcommits
      exact nofun
    · exact nofun

theorem completeWith_fst (hopen : (sys.transaction key).isOpen = true)
    (drive : System → List Participant → Except TxError Unit × System) :
    (sys.completeWith close key drive).1 =
      (drive (sys.completing key) (sys.transaction key).participants).1 := by
  rw [completeWith, beginCompletion]
  dsimp only
  rw [if_pos hopen]
  rfl

theorem isExpired_completing (hkey : key < sys.transactions.length) :
    ((sys.completing key).transaction key).isExpired sys.clock =
      (sys.transaction key).isExpired sys.clock := by
  rw [completing, transaction_setTransaction_self hkey]
  rfl

/-! ## Demands -/

section Owned

variable (hkey : key < sys.transactions.length) (hscope : scope.context.transaction = some key)
  (howns : scope.owns = true)
include hscope

theorem enlist_eq (config : Config) (p : Participant) :
    sys.demand scope (.enlist config p) =
      (sys.transaction key).checkAccepting (sys.txId key) sys.clock := by
  rw [demand, enlist]
  dsimp only
  rw [hscope]
  dsimp only
  split
  · rename_i e hcheck
    exact hcheck.symm
  · rename_i hcheck
    exact hcheck.symm

theorem enlist_of_lasting (hopen : (sys.transaction key).isOpen = true)
    (hdeadline : sys.clock < (sys.transaction key).deadline) (config : Config)
    (p : Participant) : sys.demand scope (.enlist config p) = .ok () := by
  have hlasting : (sys.transaction key).isExpired sys.clock = false :=
    decide_eq_false (Nat.not_le_of_lt hdeadline)
  rw [enlist_eq hscope, Transaction.checkAccepting, hopen, hlasting]
  rfl

include howns

theorem demand_of_closed (hclosed : (sys.transaction key).isOpen = false) (w : Demand) :
    sys.demand scope w = .error (.notActive (sys.txId key) (sys.transaction key).status) := by
  cases w with
  | enlist config p =>
    rw [enlist_eq hscope, Transaction.checkAccepting, hclosed]
    rfl
  | commit =>
    have hvoted : scope.voted.context.transaction = some key := hscope
    exact congrArg Prod.fst (close_of_closed hclosed hvoted howns)

/-- The commit of an open transaction is driven by its row and the clock as they stand. -/
theorem exists_demand_commit (hopen : (sys.transaction key).isOpen = true) :
    ∃ (acquire : AcquireLease) (doomed : Option String) (ps : List Participant),
      sys.demand scope .commit = ((sys.completing key).driveCommit acquire key doomed ps).1 := by
  have hvoted : scope.voted.context.transaction = some key := hscope
  obtain ⟨close, -, hclose⟩ := exists_close_of_owner hvoted howns sys
  refine ⟨acquireWith close, (sys.transaction key).doomed, (sys.transaction key).participants, ?_⟩
  rw [demand, hclose]
  exact completeWith_fst hopen _

include hkey

theorem demand_of_expired (hopen : (sys.transaction key).isOpen = true)
    (hdeadline : (sys.transaction key).deadline ≤ sys.clock) (w : Demand) :
    sys.demand scope w = .error (.timeout (sys.txId key)) := by
  have hexpired : (sys.transaction key).isExpired sys.clock = true := decide_eq_true hdeadline
  cases w with
  | enlist config p =>
    rw [enlist_eq hscope, Transaction.checkAccepting, hopen, hexpired]
    rfl
  | commit =>
    obtain ⟨acquire, doomed, ps, hdemand⟩ := exists_demand_commit hscope howns hopen
    rw [hdemand]
    exact driveCommit_of_expired ((isExpired_completing hkey).trans hexpired) doomed ps

theorem demand_ne_timeout (hdeadline : sys.clock < (sys.transaction key).deadline) (w : Demand)
    (id : TxId) : sys.demand scope w ≠ .error (.timeout id) := by
  have hlasting : (sys.transaction key).isExpired sys.clock = false :=
    decide_eq_false (Nat.not_le_of_lt hdeadline)
  cases hopen : (sys.transaction key).isOpen with
  | false =>
    rw [demand_of_closed hscope howns hopen]
    exact nofun
  | true =>
    cases w with
    | enlist config p =>
      rw [enlist_eq hscope, Transaction.checkAccepting, hopen, hlasting]
      exact nofun
    | commit =>
      obtain ⟨acquire, doomed, ps, hdemand⟩ := exists_demand_commit hscope howns hopen
      rw [hdemand]
      exact driveCommit_ne_timeout ((isExpired_completing hkey).trans hlasting) doomed ps id

theorem lasting_of_demand {w : Demand} (h : sys.demand scope w = .ok ()) :
    sys.clock < (sys.transaction key).deadline := by
  by_contra hexpired
  cases hopen : (sys.transaction key).isOpen with
  | false =>
    rw [demand_of_closed hscope howns hopen] at h
    cases h
  | true =>
    rw [demand_of_expired hkey hscope howns hopen (Nat.le_of_not_lt hexpired)] at h
    cases h

end Owned

/-! ## Two timeouts -/

/-- Whether a scope begins a transaction of its own does not depend on what it asks for. -/
theorem begin_owning {parent : Context} {option : ScopeOption} {request : ScopeRequest}
    (howns : (sys.begin parent option request).1.owns = true) (request' : ScopeRequest) :
    sys.begin parent option request' = sys.beginOwning parent option request' := by
  unfold begin at howns ⊢
  cases option with
  | suppress => cases howns
  | requiresNew => rfl
  | required =>
    cases hparent : parent.transaction with
    | some _ =>
      rw [hparent] at howns
      cases howns
    | none => rfl

def begunRow (sys : System) (parent : Context) (request : ScopeRequest) : Transaction :=
  { options := request.transaction.getD parent.config.transaction
    deadline := ScopedStore.deadline sys.clock (parent.config.effectiveTimeout request.timeout) }

theorem transaction_beginOwning (sys : System) (parent : Context) (option : ScopeOption)
    (request : ScopeRequest) :
    (sys.beginOwning parent option request).2.transaction sys.transactions.length =
      sys.begunRow parent request :=
  sys.transaction_addTransaction _

/-- In a later system a scope owns the transaction that was begun next, with a deadline. -/
structure Lasts (sys sys' : System) (scope : Scope) (deadline : Nat) : Prop where
  lt : sys.transactions.length < sys'.transactions.length
  carried : scope.context.transaction = some sys.transactions.length
  owned : scope.owns = true
  deadline : (sys'.transaction sys.transactions.length).deadline = deadline

theorem lasts_run (sys : System) (parent : Context) (option : ScopeOption) (request : ScopeRequest)
    (actions : List Action) :
    sys.Lasts ((sys.beginOwning parent option request).2.run actions)
      (sys.beginOwning parent option request).1
      (ScopedStore.deadline sys.clock (parent.config.effectiveTimeout request.timeout)) := by
  have hlt : sys.transactions.length <
      (sys.beginOwning parent option request).2.transactions.length := by
    show _ < (sys.transactions ++ [_]).length
    rw [List.length_append]
    exact Nat.lt_succ_self _
  have hrun := evolves_run sys.transactions.length (sys.beginOwning parent option request).2 actions
  refine ⟨Nat.lt_of_lt_of_le hlt hrun.length, rfl, rfl, ?_⟩
  rw [deadline_run hlt, transaction_beginOwning]
  rfl

/-- Whether a longer timeout never expires earlier. Two transactions are begun at the same start, and
then anything happens up to the same instant. What one with the shorter timeout still accepts, one with
the longer timeout does not refuse with a timeout, be it an enlistment or a commit, if and only if it is
not the case that the shorter timeout lasts and has its deadline on the clock while the longer one has
not: then the longer one has expired at the start. -/
theorem longer_timeout_lasts_iff (sys : System) (parent : Context) (option : ScopeOption)
    (r₁ r₂ : ScopeRequest) (howns : (sys.begin parent option r₁).1.owns = true)
    (hle : r₁.timeout.getD parent.config.defaultTimeout ≤
      r₂.timeout.getD parent.config.defaultTimeout) :
    let shorter := parent.config.effectiveTimeout r₁.timeout
    let longer := parent.config.effectiveTimeout r₂.timeout
    (∀ before₁ before₂ : List Action,
        let sys₁ := (sys.begin parent option r₁).2.run before₁
        let sys₂ := (sys.begin parent option r₂).2.run before₂
        sys₁.clock = sys₂.clock → ∀ w₁ w₂ : Demand,
          sys₁.demand (sys.begin parent option r₁).1 w₁ = .ok () →
            ∀ id, sys₂.demand (sys.begin parent option r₂).1 w₂ ≠ .error (.timeout id)) ↔
      ¬(0 < shorter ∧ (laterInstant? sys.clock shorter).isSome ∧
        laterInstant? sys.clock longer = none) := by
  intro shorter longer
  rw [begin_owning howns r₁, begin_owning howns r₂,
    ← deadline_lt_iff (Config.effectiveTimeout_mono hle), Nat.not_lt]
  constructor
  · -- At the start, where nothing has happened yet, one enlistment tells the two apart.
    intro h
    by_contra hlt
    have hlt := Nat.lt_of_not_le hlt
    obtain ⟨-, -, hbeyond⟩ := (deadline_lt_iff (Config.effectiveTimeout_mono hle)).1 hlt
    have hstart : ScopedStore.deadline sys.clock longer = sys.clock := by
      rw [ScopedStore.deadline, hbeyond, Option.getD_none]
    let begun (r : ScopeRequest) := (sys.beginOwning parent option r).2.run []
    have hopen (r : ScopeRequest) : ((begun r).transaction sys.transactions.length).isOpen = true :=
      congrArg Transaction.isOpen (sys.transaction_beginOwning parent option r)
    have h₁ := sys.lasts_run parent option r₁ []
    have h₂ := sys.lasts_run parent option r₂ []
    have hlasting : (begun r₁).clock < ((begun r₁).transaction sys.transactions.length).deadline := by
      rw [h₁.deadline]
      exact lt_of_eq_of_lt hstart.symm hlt
    have hexpired : ((begun r₂).transaction sys.transactions.length).deadline ≤ (begun r₂).clock :=
      Nat.le_of_eq (h₂.deadline.trans hstart)
    have haccepted := enlist_of_lasting h₁.carried (hopen r₁) hlasting {} .idle
    have hrefused := demand_of_expired h₂.lt h₂.carried h₂.owned (hopen r₂) hexpired
      (.enlist {} .idle)
    exact h [] [] rfl _ _ haccepted _ hrefused
  · intro hdeadlines before₁ before₂ sys₁ sys₂ hclock w₁ w₂ haccepted id
    have h₁ := sys.lasts_run parent option r₁ before₁
    have h₂ := sys.lasts_run parent option r₂ before₂
    have hlasting := lasting_of_demand h₁.lt h₁.carried h₁.owned haccepted
    refine demand_ne_timeout h₂.lt h₂.carried h₂.owned ?_ w₂ id
    rw [h₁.deadline] at hlasting
    rw [h₂.deadline]
    exact Nat.lt_of_lt_of_le (hclock ▸ hlasting) hdeadlines

/-! ## A minute, and the greatest timeout -/

/-- A root context that leaves every timeout as it is. -/
def boundless : Context := { config := { maxTimeout := 0xffffffffffffffff } }

def lasting (seconds : Nat) : ScopeRequest := { timeout := some seconds }

/-- In a root context that leaves every timeout as it is, a scope with the greatest timeout refuses an
enlistment and its own commit at once, while one with a thousand seconds accepts both. -/
theorem expired_at_start_of_greatest :
    let begun (seconds : Nat) := (({} : System).begin boundless .requiresNew (lasting seconds)).2
    let scope (seconds : Nat) := (({} : System).begin boundless .requiresNew (lasting seconds)).1
    1000 ≤ 0xffffffffffffffff ∧ (begun 1000).clock = (begun 0xffffffffffffffff).clock ∧
      (begun 1000).demand (scope 1000) (.enlist {} .idle) = .ok () ∧
      (begun 1000).demand (scope 1000) .commit = .ok () ∧
      (begun 0xffffffffffffffff).demand (scope 0xffffffffffffffff) (.enlist {} .idle) =
        .error (.timeout ((begun 0xffffffffffffffff).txId 0)) ∧
      (begun 0xffffffffffffffff).demand (scope 0xffffffffffffffff) .commit =
        .error (.timeout ((begun 0xffffffffffffffff).txId 0)) :=
  ⟨by decide, rfl, rfl, rfl, rfl, rfl⟩

/-- With half a minute a scope still accepts after twenty seconds, so one with the default of a minute
does not time out then. -/
theorem longer_timeout_lasts_iff_minute :
    let begun (r : ScopeRequest) := (({} : System).begin {} .required r).2.run [.wait 20]
    (({} : System).begin {} .required (lasting 30)).1.owns = true ∧
      (begun (lasting 30)).clock = (begun {}).clock ∧
      (begun (lasting 30)).demand (({} : System).begin {} .required (lasting 30)).1 .commit = .ok () ∧
      ∀ id, (begun {}).demand (({} : System).begin {} .required {}).1 .commit ≠ .error (.timeout id) := by
  intro begun
  have howns : (({} : System).begin {} .required (lasting 30)).1.owns = true := rfl
  have hclock : (begun (lasting 30)).clock = (begun {}).clock := rfl
  have haccepted : (begun (lasting 30)).demand (({} : System).begin {} .required (lasting 30)).1 .commit =
      .ok () := rfl
  have hholds := (longer_timeout_lasts_iff {} {} .required (lasting 30) {} howns (by decide)).2 (by decide)
  exact ⟨howns, hclock, haccepted, hholds [.wait 20] [.wait 20] hclock .commit .commit haccepted⟩

end System

end ScopedStore
